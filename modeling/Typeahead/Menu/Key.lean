import Typeahead.Menu.Basic
import Typeahead.Text.Lowercase

/-!
Keys, and what a key does to the menu.
-/
namespace Typeahead

/-! ## Keys -/

/-- The keys that the menu tells apart. -/
inductive Key where
  | tab
  | backTab
  | up
  | down
  | enter
  | escape
  | char (c : Char)
  | other
  deriving DecidableEq, Repr

/-- Modifier keys held down. -/
structure Modifiers where
  shift : Bool := false
  ctrl : Bool := false
  alt : Bool := false
  deriving DecidableEq, Repr

namespace Key

/-- Reads the name of a key, capitals or not. A name of one character is that character. -/
def read? (name : Text) : Option (Key × Modifiers) :=
  match String.ofList (Text.lower name) with
  | "tab" => some (tab, {})
  | "shift-tab" | "s-tab" | "backtab" => some (backTab, { shift := true })
  | "up" => some (up, {})
  | "down" => some (down, {})
  | "enter" | "return" => some (enter, {})
  | "esc" | "escape" => some (escape, {})
  | _ =>
    match name with
    | [c] => some (char c, {})
    | _ => none

/-- The names under which a terminal reports keys that the menu does not tell apart. -/
def otherNames : List String :=
  [ "Backspace", "Left", "Right", "Home", "End", "PageUp", "PageDown", "Delete", "Insert", "Null",
    "CapsLock", "ScrollLock", "NumLock", "PrintScreen", "Pause", "Menu", "KeypadBegin" ]

/-- Whether the name is that of a function key. -/
def isFunctionName : Text → Bool
  | 'F' :: n => !n.isEmpty && n.all Char.isDigit
  | _ => false

/-- The key that a terminal reports under a name; a name it does not know is the key of its first
character. -/
def ofReport? (name : Text) : Option Key :=
  match String.ofList name with
  | "Tab" => some tab
  | "BackTab" => some backTab
  | "Up" => some up
  | "Down" => some down
  | "Enter" => some enter
  | "Esc" => some escape
  | n => if n ∈ otherNames || isFunctionName name then some other else name.head?.map char

end Key

/-! ## Keys over a menu -/

/-- What a key did to the menu. -/
inductive KeyOutcome where
  /-- The key is left to the editor. -/
  | notHandled
  /-- The selection moved. -/
  | navigated
  /-- The text is to be inserted, for the given positions if they are known. -/
  | accepted (text : Text) (replaced : Option (Nat × Nat))
  /-- The menu was closed. -/
  | dismissed
  deriving DecidableEq, Repr

def KeyOutcome.isHandled (o : KeyOutcome) : Bool := o ≠ .notHandled

/-- Applies a key to a menu. A menu that is not active handles nothing. -/
def Menu.press (m : Menu) (key : Key) (held : Modifiers) : Menu × KeyOutcome :=
  match m.selected? with
  | none => (m, .notHandled)
  | some candidate =>
    match key with
    | .tab => (if held.shift then m.previous else m.next, .navigated)
    | .down => (m.next, .navigated)
    | .backTab | .up => (m.previous, .navigated)
    | .enter => (.empty, .accepted candidate.value none)
    | .escape => (.empty, .dismissed)
    | .char _ | .other => (m, .notHandled)

end Typeahead
