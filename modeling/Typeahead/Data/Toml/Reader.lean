import Typeahead.Data.Toml.Scalar
import Typeahead.Data.Toml.Tree

/-!
Data read from a TOML document: first its statements, line by line, then the tables that they
describe.
-/
namespace Typeahead.Toml

/-- How TOML writes records and choices. -/
def dialect : Dialect where
  boundsLists := false
  isUnit := fun
    | .record [] | .list [] => true
    | _ => false

/-! ## Line ends -/

/-- What follows a comment: a line break or the end. -/
def comment? : Text → Option Text
  | [] => some []
  | '\n' :: rest => some ('\n' :: rest)
  | '\r' :: '\n' :: rest => some ('\n' :: rest)
  | c :: rest => if isControl c then none else comment? rest

/-- What follows the end of a line, at which only blanks and a comment may stand. -/
def lineEnd? (t : Text) : Option Text :=
  let after (t : Text) : Option Text :=
    match t with
    | [] => some []
    | '\n' :: rest => some rest
    | '\r' :: '\n' :: rest => some rest
    | _ => none
  match skipSpace t with
  | '#' :: rest => (comment? rest).bind after
  | t => after t

/-- Skips blanks, line breaks and comments. -/
def skipLines? : (fuel : Nat) → Text → Option Text
  | 0, t => some t
  | fuel + 1, t =>
    match skipSpace t with
    | '\n' :: rest => skipLines? fuel rest
    | '\r' :: '\n' :: rest => skipLines? fuel rest
    | '#' :: rest => (comment? rest).bind (skipLines? fuel)
    | t => some t

def isKeyChar (c : Char) : Bool := c.isAlphanum || c = '_' || c = '-'

/-! ## Keys and values -/

/-- One part of a key. -/
def keyPart? (t : Text) : Option (Text × Text) :=
  match t with
  | '"' :: rest => basic? rest
  | '\'' :: rest => literal? rest
  | t =>
    let part := t.takeWhile isKeyChar
    if part.isEmpty then none else some (part, t.dropWhile isKeyChar)

/-- A key: parts with dots between them. -/
def key? : (fuel : Nat) → Text → Option ((List Text × Text) × Text)
  | 0, _ => none
  | fuel + 1, t => do
    let (part, rest) ← keyPart? (skipSpace t)
    match skipSpace rest with
    | '.' :: rest =>
      let ((path, name), rest) ← key? fuel rest
      some ((part :: path, name), rest)
    | rest => some (([], part), rest)

/-- The record that the keys and values between braces describe. -/
def inlineTable? (pairs : List ((List Text × Text) × Data)) : Option Data := do
  let entries ← pairs.foldlM (fun entries (key, d) => entries.assign key d) Entries.nil
  some (.record entries.toFields)

mutual

/-- A value at the start of a text, and what follows it. -/
def value? : (fuel : Nat) → Text → Option (Data × Text)
  | 0, _ => none
  | fuel + 1, t =>
    match t with
    | '"' :: _ | '\'' :: _ => (quoted? t).map fun (text, rest) => (.text text, rest)
    | '[' :: rest => do
      let (items, rest) ← items? fuel rest
      some (.list items, rest)
    | '\x7b' :: rest => do
      let (pairs, rest) ← pairs? fuel rest
      some (← inlineTable? pairs, rest)
    | t =>
      let (word, rest) := bare t
      (bareValue? word).map (·, rest)

/-- The items of a list up to its closing bracket. A comma may follow the last one. -/
def items? : (fuel : Nat) → Text → Option (List Data × Text)
  | 0, _ => none
  | fuel + 1, t => do
    let t ← skipLines? t.length t
    match t with
    | ']' :: rest => some ([], rest)
    | t =>
      let (item, rest) ← value? fuel t
      let rest ← skipLines? rest.length rest
      match rest with
      | ',' :: rest =>
        let (items, rest) ← items? fuel rest
        some (item :: items, rest)
      | ']' :: rest => some ([item], rest)
      | _ => none

/-- The keys and values up to a closing brace. A comma may follow the last one. -/
def pairs? : (fuel : Nat) → Text → Option (List ((List Text × Text) × Data) × Text)
  | 0, _ => none
  | fuel + 1, t => do
    let t ← skipLines? t.length t
    match t with
    | '\x7d' :: rest => some ([], rest)
    | t =>
      let (key, rest) ← key? t.length t
      let rest ← Text.strip? ['='] rest
      let (d, rest) ← value? fuel (skipSpace rest)
      let rest ← skipLines? rest.length rest
      match rest with
      | ',' :: rest =>
        let (pairs, rest) ← pairs? fuel rest
        some ((key, d) :: pairs, rest)
      | '\x7d' :: rest => some ([(key, d)], rest)
      | _ => none

end

/-! ## Statements -/

/-- The statement at the start of a line that is not blank, and what follows it on the line. -/
def statement? (t : Text) : Option (Statement × Text) :=
  match t with
  | '[' :: '[' :: rest => do
    let ((path, name), rest) ← key? t.length rest
    let rest ← Text.strip? [']', ']'] rest
    some (.item path name, rest)
  | '[' :: rest => do
    let ((path, name), rest) ← key? t.length rest
    let rest ← Text.strip? [']'] rest
    some (.header path name, rest)
  | t => do
    let (key, rest) ← key? t.length t
    let rest ← Text.strip? ['='] rest
    let (d, rest) ← value? (t.length + 1) (skipSpace rest)
    some (.assign key d, rest)

/-- The statements of a document. -/
def statements? : (fuel : Nat) → Text → Option (List Statement)
  | 0, _ => none
  | fuel + 1, t =>
    match skipSpace t with
    | [] => some []
    | '\n' :: rest => statements? fuel rest
    | '\r' :: '\n' :: rest => statements? fuel rest
    | '#' :: rest => (comment? rest).bind (statements? fuel)
    | t => do
      let (statement, rest) ← statement? t
      let rest ← lineEnd? rest
      let statements ← statements? fuel rest
      some (statement :: statements)

/-- Drops the mark that may stand before a document to tell its encoding. -/
def dropMark : Text → Text
  | '\ufeff' :: t => t
  | t => t

/-- The record that a document describes. Each step of the reading takes a character, so the length
bounds their number. -/
def read? (t : Text) : Option Data := do
  let t := dropMark t
  Document.ofStatements? (← statements? (t.length + 1) t)

end Typeahead.Toml
