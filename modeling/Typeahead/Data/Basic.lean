import Typeahead.Decimal.Power
import Typeahead.Text.Basic

/-!
Structured data as text formats carry it, and how the parts of a record are read out of it.
-/
namespace Typeahead

/-! ## Values -/

/-- A value of a text format. -/
inductive Data where
  | null
  | boolean (b : Bool)
  | whole (n : Int)
  | real (x : Float)
  | text (t : Text)
  /-- A text that is not well formed, or a record with such a name; it may be passed over but not
  be used. -/
  | broken
  | list (items : List Data)
  /-- Named values in the order in which they stand; a name may stand there twice. -/
  | record (fields : List (Text × Data))

namespace Data

/-- A record with names from the program. -/
def ofFields (fields : List (String × Data)) : Data :=
  record (fields.map fun (name, value) => (name.toList, value))

/-- A text from the program. -/
def ofString (s : String) : Data := text s.toList

/-- A natural number. -/
def ofNat (n : Nat) : Data := whole n

/-- A value that may be missing. -/
def ofOption {α : Type} (f : α → Data) : Option α → Data
  | some a => f a
  | none => null

/-- A number that fits an unsigned 64-bit word. -/
def toWord? : Data → Option Nat
  | whole n => if 0 ≤ n && n < wordLimit then some n.toNat else none
  | _ => none

def toBool? : Data → Option Bool
  | boolean b => some b
  | _ => none

def toText? : Data → Option Text
  | text t => some t
  | _ => none

/-- A finite number, whole or not. -/
def toReal? : Data → Option Float
  | whole n => some (Float.ofInt n)
  | real x => if x.isFinite then some x else none
  | _ => none

/-- A text or nothing. -/
def toOptionalText? : Data → Option (Option Text)
  | null => some none
  | d => d.toText?.map some

/-- Number of fields of a record, or of items of a list. -/
def fieldCount : Data → Nat
  | record fields => fields.length
  | list items => items.length
  | _ => 0

end Data

/-! ## Records and choices -/

/-- What the text formats decide differently about records and choices. -/
structure Dialect where
  /-- Whether a list that stands for a record may have no more items than the record has fields. -/
  boundsLists : Bool
  /-- Whether a value stands for no content at all. -/
  isUnit : Data → Bool

/-- The fields of a record that were given. -/
structure Fields where
  given : List (Text × Data)

namespace Fields

/-- The value of a field, or what is taken in its place where it was not given. -/
def read {α : Type} (fs : Fields) (name : String) (decode : Data → Option α)
    (otherwise : Option α) : Option α :=
  match fs.given.lookup name.toList with
  | some d => decode d
  | none => otherwise

end Fields

namespace Dialect

/-- The given fields among those named. Other fields are passed over, and none may be given twice.
A list stands for the fields in their order, of which it has to give at least the first `least`. -/
def fields? (dialect : Dialect) (names : List String) (least : Nat) : Data → Option Fields
  | .record fields =>
    let known := fields.filter fun (name, _) => name ∈ names.map String.toList
    if (known.map Prod.fst).Nodup then some ⟨known⟩ else none
  | .list items =>
    if items.length < least || (dialect.boundsLists && names.length < items.length) then none
    else some ⟨(names.map String.toList).zip items⟩
  | _ => none

/-- One of several named choices: its name, or a record of that one field without content. -/
def choice? {α : Type} (dialect : Dialect) (ofName? : String → Option α) : Data → Option α
  | .text t => ofName? (String.ofList t)
  | .record [(name, content)] =>
    if dialect.isUnit content then ofName? (String.ofList name) else none
  | _ => none

end Dialect

end Typeahead
