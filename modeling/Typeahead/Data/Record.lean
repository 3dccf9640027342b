import Typeahead.Candidate
import Typeahead.Data.Basic
import Typeahead.History.Timestamp
import Typeahead.Line.Snapshot
import Typeahead.Source.Mention

/-!
Tokens, candidates and other parts of a session as structured data.
-/
namespace Typeahead

namespace Data

/-! ## Sorted records -/

/-- Sorts the fields of a record and of all records in it by name. -/
def insertField (field : Text × Data) : List (Text × Data) → List (Text × Data)
  | [] => [field]
  | f :: fs => if Text.le field.1 f.1 then field :: f :: fs else f :: insertField field fs

mutual

/-- The value with the fields of every record sorted by name. -/
def sorted : Data → Data
  | record fields => record (sortedFields fields)
  | list items => list (sortedItems items)
  | d => d

def sortedFields : List (Text × Data) → List (Text × Data)
  | [] => []
  | (name, d) :: fields => insertField (name, d.sorted) (sortedFields fields)

def sortedItems : List Data → List Data
  | [] => []
  | d :: ds => d.sorted :: sortedItems ds

end

end Data

namespace Token

def toData (t : Token) : Data :=
  .ofFields
    [ ("kind", .ofString t.kind.name),
      ("value", .text t.value),
      ("span", .ofFields [("start", .ofNat t.start), ("end", .ofNat t.stop)]) ]

/-- The positions that a token covers. The record has no other fields. -/
def spanOf? (dialect : Dialect) (d : Data) : Option (Nat × Nat) := do
  let fs ← dialect.fields? ["start", "end"] 2 d
  if d.fieldCount = fs.given.length then
    some (← fs.read "start" Data.toWord? none, ← fs.read "end" Data.toWord? none)
  else none

def ofData? (dialect : Dialect) (d : Data) : Option Token := do
  let fs ← dialect.fields? ["kind", "value", "span"] 3 d
  let kind ← fs.read "kind" (dialect.choice? TokenKind.ofName?) none
  let value ← fs.read "value" Data.toText? none
  let (start, stop) ← fs.read "span" (spanOf? dialect) none
  some ⟨kind, value, start, stop⟩

end Token

namespace Trigger

def toData (t : Trigger) : Data :=
  .ofFields
    [ ("triggered", .boolean t.isActive),
      ("kind", .ofString t.kind.name),
      ("position", .ofOption .ofNat t.position),
      ("prefix", .text t.typed) ]

end Trigger

namespace Candidate

def toData (c : Candidate) : Data :=
  .ofFields
    [ ("value", .text c.value),
      ("display", .ofOption .text c.display),
      ("description", .ofOption .text c.description),
      ("group", .ofString c.group.name),
      ("score", .real c.score),
      ("source", .text c.source),
      ("icon", .ofOption .text c.icon) ]

def ofData? (dialect : Dialect) (d : Data) : Option Candidate := do
  let fs ← dialect.fields?
    ["value", "display", "description", "group", "score", "source", "icon"] 7 d
  let value ← fs.read "value" Data.toText? none
  let display ← fs.read "display" Data.toOptionalText? (some none)
  let description ← fs.read "description" Data.toOptionalText? (some none)
  let group ← fs.read "group" (dialect.choice? Group.ofName?) none
  let score ← fs.read "score" Data.toReal? none
  let source ← fs.read "source" Data.toText? none
  let icon ← fs.read "icon" Data.toOptionalText? (some none)
  some { value, display, description, group, score, source, icon }

end Candidate

namespace Mention

def toData (m : Mention) : Data :=
  .ofFields
    [ ("name", .text m.name),
      ("description", .ofOption .text m.description),
      ("icon", .ofOption .text m.icon) ]

def ofData? (dialect : Dialect) (d : Data) : Option Mention := do
  let fs ← dialect.fields? ["name", "description", "icon"] 1 d
  let name ← fs.read "name" Data.toText? none
  let description ← fs.read "description" Data.toOptionalText? (some none)
  let icon ← fs.read "icon" Data.toOptionalText? (some none)
  some { name, description, icon }

end Mention

/-- A command with the date at which it was run. -/
structure DatedCommand where
  command : Text
  timestamp : Timestamp
  deriving DecidableEq, Repr

namespace DatedCommand

def toData (c : DatedCommand) : Data :=
  .ofFields [("command", .text c.command), ("timestamp", .text c.timestamp.write)]

def ofData? (dialect : Dialect) (d : Data) : Option DatedCommand := do
  let fs ← dialect.fields? ["command", "timestamp"] 2 d
  let command ← fs.read "command" Data.toText? none
  let timestamp ← fs.read "timestamp" (fun d => d.toText?.bind Timestamp.read?) none
  some ⟨command, timestamp⟩

end DatedCommand

end Typeahead
