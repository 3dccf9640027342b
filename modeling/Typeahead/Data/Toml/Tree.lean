import Typeahead.Data.Basic

/-!
The tables of a TOML document while it is read. A table may be opened by a header, by the header of
a table inside it or by a dotted key, and which of these it was decides what may be added to it
later.
-/
namespace Typeahead.Toml

/-! ## Tables -/

/-- How a table came to be. -/
inductive Origin where
  /-- By a header of its own. -/
  | header
  /-- By the header of a table inside it. -/
  | implied
  /-- By a dotted key. -/
  | dotted
  deriving DecidableEq, Repr

mutual

/-- What a key stands for so far. -/
inductive Tree where
  /-- A value, to which nothing can be added. -/
  | value (d : Data)
  | table (origin : Origin) (entries : Entries)
  /-- A list of tables, each opened by a header; only the last one can be added to. -/
  | tables (earlier : List Data) (last : Entries)

/-- The entries of a table in order. -/
inductive Entries where
  | nil
  | cons (key : Text) (tree : Tree) (rest : Entries)

end

mutual

/-- The value that a key ends up with. -/
def Tree.toData : Tree → Data
  | .value d => d
  | .table _ entries => .record entries.toFields
  | .tables earlier last => .list (earlier ++ [.record last.toFields])

/-- The fields that a table ends up with. -/
def Entries.toFields : Entries → List (Text × Data)
  | .nil => []
  | .cons key tree rest => (key, tree.toData) :: rest.toFields

end

namespace Entries

/-- Changes the entry of a key, or adds one at the end; the change may fail. -/
def alter (entries : Entries) (key : Text) (f : Option Tree → Option Tree) : Option Entries :=
  match entries with
  | nil => (f none).map fun tree => cons key tree nil
  | cons k tree rest =>
    if k = key then (f (some tree)).map fun tree => cons k tree rest
    else (rest.alter key f).map fun rest => cons k tree rest

end Entries

/-! ## Additions -/

/-- Opens a table on the way that a header names: its entries, and how to put them back. -/
def openByHeader? : Option Tree → Option (Entries × (Entries → Tree))
  | none => some (.nil, .table .implied)
  | some (.table origin entries) => some (entries, .table origin)
  | some (.tables earlier last) => some (last, .tables earlier)
  | some (.value _) => none

/-- Opens a table on the way that a dotted key names. One with a header is closed to dotted keys. -/
def openByKey? : Option Tree → Option (Entries × (Entries → Tree))
  | none => some (.nil, .table .dotted)
  | some (.table .header _) => none
  | some (.table origin entries) => some (entries, .table origin)
  | some (.tables _ _) | some (.value _) => none

namespace Entries

/-- Changes the table at the end of a path of keys. -/
def alterAt (open? : Option Tree → Option (Entries × (Entries → Tree)))
    (f : Entries → Option Entries) : List Text → Entries → Option Entries
  | [], entries => f entries
  | key :: path, entries =>
    entries.alter key fun tree => do
      let (inside, close) ← open? tree
      let inside ← alterAt open? f path inside
      some (close inside)

/-- Adds the table of a header. -/
def addHeader (entries : Entries) (path : List Text) (key : Text) : Option Entries :=
  alterAt openByHeader? (fun table =>
    table.alter key fun
      | none => some (.table .header .nil)
      | some (.table .implied entries) => some (.table .header entries)
      | _ => none) path entries

/-- Adds a table to the list of a header. -/
def addItem (entries : Entries) (path : List Text) (key : Text) : Option Entries :=
  alterAt openByHeader? (fun table =>
    table.alter key fun
      | none => some (.tables [] .nil)
      | some (.tables earlier last) => some (.tables (earlier ++ [.record last.toFields]) .nil)
      | _ => none) path entries

/-- Adds a value that no key stands for yet. -/
def addValue (entries : Entries) (key : Text) (d : Data) : Option Entries :=
  entries.alter key fun
    | none => some (.value d)
    | some _ => none

/-- Adds the value of a key, dotted or not. The table that a dotted key leads to must itself come
from a dotted key. -/
def assign (entries : Entries) (key : List Text × Text) (d : Data) : Option Entries :=
  match key.1.reverse with
  | [] => entries.addValue key.2 d
  | parent :: above =>
    alterAt openByKey? (fun table =>
      table.alter parent fun
        | none => (addValue .nil key.2 d).map (.table .dotted)
        | some (.table .dotted inside) => (inside.addValue key.2 d).map (.table .dotted)
        | _ => none) above.reverse entries

end Entries

/-! ## Documents -/

/-- A line of a document; a key is the path to a table and the name in it. -/
inductive Statement where
  | header (path : List Text) (key : Text)
  | item (path : List Text) (key : Text)
  | assign (key : List Text × Text) (value : Data)

/-- A document as far as it was read, and the table that is open. -/
structure Document where
  entries : Entries := .nil
  current : List Text := []

namespace Document

/-- Takes one more statement. -/
def take (d : Document) : Statement → Option Document
  | .header path key => do some ⟨← d.entries.addHeader path key, path ++ [key]⟩
  | .item path key => do some ⟨← d.entries.addItem path key, path ++ [key]⟩
  | .assign key value => do
    let entries ← Entries.alterAt openByHeader? (·.assign key value) d.current d.entries
    some { d with entries }

/-- The record that the statements describe. -/
def ofStatements? (statements : List Statement) : Option Data := do
  let d ← statements.foldlM take {}
  some (.record d.entries.toFields)

end Document

end Typeahead.Toml
