import Typeahead.Decimal.Power
import Typeahead.Settings.Basic

/-!
Settings from environment variables, which take precedence over the file.
-/
namespace Typeahead

/-- The variables that are set. One that does not hold Unicode text counts as not set. -/
structure Environment where
  maxResults : Option Text := none
  mode : Option Text := none
  menuMaxVisible : Option Text := none
  historyFile : Option Text := none
  /-- Set to anything at all, Unicode or not, it turns colors off. -/
  noColor : Bool := false
  deriving DecidableEq, Repr

/-- A number as a user may write it: digits, with a plus sign or without, that fit a 64-bit word. -/
def readWord? (t : Text) : Option Nat :=
  let ds := (Text.strip? ['+'] t).getD t
  if ds.isEmpty || !ds.all Char.isDigit then none
  else
    let n := Nat.ofDigitChars 10 ds 0
    if n < wordLimit then some n else none

namespace Environment

/-- The number that a variable holds for a field; blanks around it do not matter. -/
def word (field : String) (value : Text) : Except SettingsError Nat :=
  match readWord? (Text.trim value) with
  | some n => .ok n
  | none => .error (.invalidValue field.toList value)

/-- The mode that a variable holds for a field. -/
def modeOf (field : String) (value : Text) : Except SettingsError Mode :=
  match Mode.read value with
  | .ok mode => .ok mode
  | .error _ => .error (.invalidValue field.toList value)

/-- One change of the settings, which may fail. -/
abbrev Change := Settings → Except SettingsError Settings

/-- The change for a variable; one that is not set changes nothing. -/
def change {α : Type} (value : Option Text) (read : Text → Except SettingsError α)
    (set : Settings → α → Settings) : Change := fun s =>
  match value with
  | none => .ok s
  | some t => (read t).map (set s)

/-- The changes for all variables, in the order in which they are made. -/
def changes (env : Environment) : List Change :=
  [ change env.maxResults (word "completion.max_results") fun s n =>
      { s with completion.maxResults := n },
    change env.mode (modeOf "completion.default_mode") fun s mode =>
      { s with completion.defaultMode := mode },
    change env.menuMaxVisible (word "menu.max_visible") fun s n =>
      { s with menu.maxVisible := n },
    change env.historyFile .ok fun s file => { s with history.file := file },
    fun s => .ok (if env.noColor then { s with display.color := false } else s) ]

/-- Makes changes up to the first one that fails. -/
def applyChanges (s : Settings) : List Change → Settings × Option SettingsError
  | [] => (s, none)
  | c :: cs =>
    match c s with
    | .ok s => applyChanges s cs
    | .error e => (s, some e)

/-- Applies the variables, up to the first one that cannot be read. -/
def apply (env : Environment) (s : Settings) : Settings × Option SettingsError :=
  applyChanges s env.changes

/-- With colors turned off and nothing else set, only the colors change. -/
example (s : Settings) :
    apply { noColor := true } s = ({ s with display.color := false }, none) := rfl

end Environment

end Typeahead
