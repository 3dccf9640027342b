import Typeahead.Text.Utf8

/-!
A directory tree as a value: files, symbolic links, and directories as lists of named nodes in the
order in which they are listed.
-/
namespace Typeahead

/-! ## Names -/

/-- The name of a directory entry. Names are bytes; those that are no UTF-8 are kept as such, and no
typed path can reach them. -/
inductive FileName where
  | text (name : Text)
  | bytes (raw : List UInt8)
  deriving DecidableEq, Repr

namespace FileName

/-- The name of the given bytes. -/
def ofBytes (raw : List UInt8) : FileName :=
  match Text.ofUtf8? raw with
  | some name => text name
  | none => bytes raw

/-- The name as text, if it is UTF-8. -/
def text? : FileName → Option Text
  | text name => some name
  | bytes _ => none

/-- The name as shown, broken bytes replaced. -/
def shown : FileName → Text
  | text name => name
  | bytes raw => Text.ofUtf8Lossy raw

/-- Number of bytes. -/
def size : FileName → Nat
  | text name => Text.utf8Size name
  | bytes raw => raw.length

end FileName

/-! ## Nodes -/

/-- What a file holds. -/
inductive Content where
  | text (content : Text)
  /-- Bytes that are no UTF-8. -/
  | binary
  deriving DecidableEq, Repr

mutual

/-- A node of the tree. -/
inductive Node where
  | file (content : Content) (mode : Nat)
  /-- A symbolic link. -/
  | link (target : Text)
  | directory (entries : Entries)

/-- The entries of a directory in listing order. -/
inductive Entries where
  | nil
  | cons (name : FileName) (node : Node) (rest : Entries)

end

namespace Entries

/-! ## Entries -/

/-- The entries as a list. -/
def toList : Entries → List (FileName × Node)
  | nil => []
  | cons name node rest => (name, node) :: rest.toList

/-- The directory with the entries of a list. -/
def ofList : List (FileName × Node) → Entries
  | [] => nil
  | (name, node) :: rest => cons name node (ofList rest)

/-- The entry of the given name. -/
def get? (entries : Entries) (name : FileName) : Option Node :=
  match entries with
  | nil => none
  | cons n node rest => if n = name then some node else rest.get? name

/-- Replaces the entry of the given name, or adds it at the end. -/
def set (entries : Entries) (name : FileName) (node : Node) : Entries :=
  match entries with
  | nil => cons name node nil
  | cons n old rest => if n = name then cons n node rest else cons n old (rest.set name node)

@[simp] theorem toList_ofList (l : List (FileName × Node)) : (ofList l).toList = l := by
  induction l with
  | nil => rfl
  | cons e rest ih => simp [ofList, toList, ih]

/-- What was set is found. -/
theorem get?_set (entries : Entries) (name : FileName) (node : Node) :
    (entries.set name node).get? name = some node := by
  match entries with
  | nil => simp [set, get?]
  | cons n old rest =>
    by_cases h : n = name
    · simp [set, get?, h]
    · simp [set, get?, h, get?_set rest name node]

/-- Setting one name leaves the others as they are. -/
theorem get?_set_of_ne (entries : Entries) {name other : FileName} (node : Node)
    (h : other ≠ name) : (entries.set name node).get? other = entries.get? other := by
  match entries with
  | nil => simp [set, get?, Ne.symm h]
  | cons n old rest =>
    by_cases hn : n = name
    · subst hn; simp [set, get?, Ne.symm h]
    · by_cases ho : n = other
      · subst ho; simp [set, get?, hn]
      · simp [set, get?, hn, ho, get?_set_of_ne rest node h]

end Entries

namespace Node

/-! ## Places in a tree -/

/-- A directory without entries. -/
def emptyDirectory : Node := directory .nil

def isDirectory : Node → Bool
  | directory _ => true
  | _ => false

def isFile : Node → Bool
  | file _ _ => true
  | _ => false

/-- The node at a place below this one; links are not followed. -/
def get? (node : Node) : List FileName → Option Node
  | [] => some node
  | name :: rest =>
    match node with
    | directory entries =>
      match entries.get? name with
      | some child => child.get? rest
      | none => none
    | _ => none

/-- Puts a node at a place; nothing changes where a directory on the way is missing. -/
def put (node : Node) (new : Node) : List FileName → Node
  | [] => new
  | name :: rest =>
    match node with
    | directory entries =>
      match rest, entries.get? name with
      | [], _ => directory (entries.set name new)
      | _ :: _, some child => directory (entries.set name (child.put new rest))
      | _ :: _, none => node
    | _ => node

end Node

mutual

/-- The nodes below this one that are no directories, each with the names that lead to it. -/
def Node.leaves : Node → List (List FileName × Node)
  | .file content mode => [([], .file content mode)]
  | .link target => [([], .link target)]
  | .directory entries => entries.leaves

/-- The nodes in and below the entries that are no directories. -/
def Entries.leaves : Entries → List (List FileName × Node)
  | .nil => []
  | .cons name node rest =>
    (node.leaves.map fun (names, leaf) => (name :: names, leaf)) ++ rest.leaves

end

end Typeahead
