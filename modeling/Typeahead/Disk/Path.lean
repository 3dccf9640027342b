import Typeahead.Disk.Node

/-!
Paths as they are typed, and the steps they stand for.
-/
namespace Typeahead.Path

/-- Whether the path starts at the root. -/
def isAbsolute (p : Text) : Bool := p.head? = some '/'

/-- A path below a directory; an absolute one stands for itself. -/
def join (directory p : Text) : Text :=
  if isAbsolute p then p
  else if directory.isEmpty || directory.getLast? = some '/' then directory ++ p
  else directory ++ '/' :: p

/-! ## Steps -/

/-- One step of a path. -/
inductive Step where
  /-- Stay; the place has to be a directory. -/
  | here
  /-- To the directory that holds this one. -/
  | up
  | child (name : FileName)
  deriving DecidableEq, Repr

/-- The step of one piece between slashes; an empty piece is none. -/
def stepOf? (piece : Text) : Option Step :=
  if piece.isEmpty then none
  else if piece = ['.'] then some .here
  else if piece = ['.', '.'] then some .up
  else some (.child (.text piece))

/-- The steps of a path. A slash at its end asks for a directory. -/
def steps (p : Text) : List Step :=
  (Text.splitOn '/' p).filterMap stepOf? ++ (if p.getLast? = some '/' then [.here] else [])

/-! ## Paths as texts -/

/-- The pieces of a path that count when it is cut up: no empty ones, and no dot but a leading
one. -/
def components (p : Text) : List Text :=
  let pieces := (Text.splitOn '/' p).filter (!·.isEmpty)
  match isAbsolute p, pieces with
  | false, ['.'] :: rest => ['.'] :: rest.filter (· ≠ ['.'])
  | _, pieces => pieces.filter (· ≠ ['.'])

/-- The path of components. -/
def ofComponents (absolute : Bool) (cs : List Text) : Text :=
  (if absolute then ['/'] else []) ++ Text.joinWith ['/'] cs

/-- The directory that the path lies in, judged by its text alone. -/
def parent? (p : Text) : Option Text :=
  match components p with
  | [] => none
  | cs => some (ofComponents (isAbsolute p) cs.dropLast)

/-- The path, the directory it lies in, and so on up, judged by the text alone. A relative path ends
with the empty one. -/
def ancestors (p : Text) : List Text :=
  let cs := components p
  p :: (List.range cs.length).map fun n =>
    ofComponents (isAbsolute p) (cs.take (cs.length - 1 - n))

end Typeahead.Path
