import Typeahead.Text.Basic

/-!
Texts in quotes as TOML writes them: in double quotes with escapes, in single quotes without, and
both of them over several lines.
-/
namespace Typeahead.Toml

/-- A control character other than tab; none may stand in a document as itself. -/
def isControl (c : Char) : Bool := (c.toNat < 0x20 && c ≠ '\t') || c.toNat = 0x7F

/-- A space or a tab. -/
def isSpace (c : Char) : Bool := c = ' ' || c = '\t'

def skipSpace (t : Text) : Text := t.dropWhile isSpace

/-- The character whose code the hexadecimal digits are. -/
def hexChar? (cs : List Char) : Option Char := do
  let n ← Text.digitsValue? 16 cs
  if h : n.isValidChar then some (Char.ofNatAux n h) else none

/-- The character that a backslash and a letter stand for. -/
def simpleEscape? : Char → Option Char
  | 'b' => some '\x08'
  | 't' => some '\t'
  | 'n' => some '\n'
  | 'f' => some '\x0c'
  | 'r' => some '\r'
  | 'e' => some '\x1b'
  | '"' => some '"'
  | '\\' => some '\\'
  | _ => none

/-- The character of an escape, after its backslash, and what follows. -/
def escaped? : Text → Option (Char × Text)
  | 'x' :: a :: b :: rest => (hexChar? [a, b]).map (·, rest)
  | 'u' :: a :: b :: c :: d :: rest => (hexChar? [a, b, c, d]).map (·, rest)
  | 'U' :: a :: b :: c :: d :: e :: f :: g :: h :: rest =>
    (hexChar? [a, b, c, d, e, f, g, h]).map (·, rest)
  | c :: rest => (simpleEscape? c).map (·, rest)
  | [] => none

theorem length_escaped? {t rest : Text} {c : Char} (h : escaped? t = some (c, rest)) :
    rest.length < t.length := by
  unfold escaped? at h
  split at h
  all_goals
    first
    | cases h
    | (obtain ⟨x, _, hx⟩ := Option.map_eq_some_iff.1 h
       cases hx
       simp only [List.length_cons]
       omega)

/-- A text after its opening double quote, and what follows its closing one. -/
def basic? : Text → Option (Text × Text)
  | [] => none
  | '"' :: rest => some ([], rest)
  | '\\' :: rest =>
    match h : escaped? rest with
    | none => none
    | some (c, after) =>
      have := length_escaped? h
      (basic? after).map fun (t, rest) => (c :: t, rest)
  | c :: rest =>
    if isControl c then none else (basic? rest).map fun (t, rest) => (c :: t, rest)
termination_by t => t.length
decreasing_by
  · simp only [List.length_cons]; omega
  · simp only [List.length_cons]; omega

/-- A text after its opening single quote, and what follows its closing one. -/
def literal? : Text → Option (Text × Text)
  | [] => none
  | '\'' :: rest => some ([], rest)
  | c :: rest =>
    if isControl c then none else (literal? rest).map fun (t, rest) => (c :: t, rest)

/-- What follows a line break and all blanks and line breaks after it, if there is nothing but
blanks before it. -/
def skipBreak? (t : Text) : Option Text :=
  let isBreak (c : Char) : Bool := c = '\n' || c = '\r'
  match skipSpace t with
  | '\n' :: rest => some (rest.dropWhile fun c => isSpace c || isBreak c)
  | '\r' :: '\n' :: rest => some (rest.dropWhile fun c => isSpace c || isBreak c)
  | _ => none

/-- The quotes that close a long text, when they stand at the start: up to two more than three
belong to the text. -/
def closing? (mark : Char) (t : Text) : Option (Text × Text) :=
  match t with
  | a :: b :: c :: rest =>
    if a = mark && b = mark && c = mark then
      let extra := min 2 (rest.takeWhile (· = mark)).length
      some (rest.take extra, rest.drop extra)
    else none
  | _ => none

/-- A text after three opening quotes, and what follows the closing ones; `fuel` bounds the number
of characters. Line breaks stand for line feeds. -/
def long? (mark : Char) (escapes : Bool) : (fuel : Nat) → Text → Option (Text × Text)
  | 0, _ => none
  | fuel + 1, t =>
    match closing? mark t with
    | some closed => some closed
    | none =>
      let go (c : Char) (rest : Text) : Option (Text × Text) :=
        (long? mark escapes fuel rest).map fun (t, rest) => (c :: t, rest)
      match t with
      | [] => none
      | '\n' :: rest => go '\n' rest
      | '\r' :: '\n' :: rest => go '\n' rest
      | c :: rest =>
        if escapes && c = '\\' then
          match skipBreak? rest with
          | some rest => long? mark escapes fuel rest
          | none => do
            let (c, rest) ← escaped? rest
            go c rest
        else if isControl c then none
        else go c rest

/-- Drops the line break that may follow three opening quotes. -/
def dropBreak : Text → Text
  | '\n' :: rest => rest
  | '\r' :: '\n' :: rest => rest
  | t => t

/-- A text in quotes of any kind, and what follows it. -/
def quoted? (t : Text) : Option (Text × Text) :=
  match t with
  | '"' :: '"' :: '"' :: rest => long? '"' true (t.length + 1) (dropBreak rest)
  | '\'' :: '\'' :: '\'' :: rest => long? '\'' false (t.length + 1) (dropBreak rest)
  | '"' :: rest => basic? rest
  | '\'' :: rest => literal? rest
  | _ => none

end Typeahead.Toml
