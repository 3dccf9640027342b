import Typeahead.Line.Mode
import Typeahead.Line.Quote

/-!
Which completion, if any, the cursor asks for. The rules look at the raw characters, and the first
one that applies wins: an at sign, a slash command, the command word, an argument.
-/
namespace Typeahead

/-! ## Triggers -/

/-- The kind of completion that a trigger asks for. -/
inductive TriggerKind where
  | none
  /-- A mention, a file or another argument. -/
  | entity
  | slashCommand
  | command
  deriving DecidableEq, Repr

/-- The name used in every output. -/
def TriggerKind.name : TriggerKind → String
  | none => "none"
  | entity => "entity"
  | slashCommand => "slashcommand"
  | command => "command"

/-- What the cursor asks for: the kind, the position of the trigger character or of the word, and
the text typed after it. Without a trigger the kind is `none` and there is no position. -/
structure Trigger where
  kind : TriggerKind := .none
  position : Option Nat := none
  typed : Text := []
  deriving DecidableEq, Repr

namespace Trigger

/-- No completion is asked for. -/
def inactive : Trigger := {}

def isActive (t : Trigger) : Bool := t.kind ≠ .none

/-- The positions that an accepted candidate replaces: the typed text, up to the cursor. -/
def replaced? (t : Trigger) (cursor : Nat) : Option (Nat × Nat) :=
  if t.isActive then some (cursor - t.typed.length, cursor) else none

/-! ## The rules -/

/-- The characters without a blank that end a text. -/
def lastRun (t : Text) : Text := (t.reverse.takeWhile fun c => !Text.isBlank c).reverse

/-- The first word of a line: where it starts, and its characters. -/
def firstWord? (line : Text) : Option (Nat × Text) :=
  match line.dropWhile Text.isBlank with
  | [] => none
  | word => some ((line.takeWhile Text.isBlank).length, word.takeWhile fun c => !Text.isBlank c)

/-- An at sign that starts the run of characters before the cursor, holds no further at sign
before the cursor, and is not quoted. -/
def mention? (line : Text) (cursor : Nat) : Option Trigger :=
  let run := lastRun (line.take cursor)
  let start := cursor - run.length
  match run with
  | '@' :: typed =>
    if '@' ∈ typed || (quoteAt line start).isOpen then none
    else some ⟨.entity, some start, typed⟩
  | _ => none

/-- A slash at the start of the line, with no blank before the cursor. -/
def slash? (line : Text) (cursor : Nat) : Option Trigger :=
  if line.head? = some '/' && (line.take cursor).all fun c => !Text.isBlank c then
    some ⟨.slashCommand, some 0, (line.take cursor).drop 1⟩
  else none

/-- A blank line, or a cursor on the first word where that does not start with a slash. -/
def command? (line : Text) (cursor : Nat) : Option Trigger :=
  match firstWord? line with
  | none => some ⟨.command, some cursor, []⟩
  | some (start, word) =>
    if start ≤ cursor && cursor ≤ start + word.length && word.head? ≠ some '/' then
      some ⟨.command, some start, word.take (cursor - start)⟩
    else none

/-- A cursor after the first word that does not stand right before a character of a word. -/
def argument? (line : Text) (cursor : Nat) : Option Trigger :=
  match firstWord? line with
  | none => none
  | some (start, word) =>
    if cursor ≤ start + word.length then none
    else if (line.drop cursor).head?.any fun c => !Text.isBlank c then none
    else
      let typed := lastRun (line.take cursor)
      some ⟨.entity, some (cursor - typed.length), typed⟩

/-- The trigger at a cursor position; a position past the end is the end. -/
def detect (line : Text) (cursor : Nat) (mode : Mode) : Trigger :=
  let cursor := min cursor line.length
  -- The first rule that applies wins.
  let anywhere := mention? line cursor <|> slash? line cursor
  let shellOnly :=
    if mode = .shell then command? line cursor <|> argument? line cursor else none
  (anywhere <|> shellOnly).getD inactive

end Trigger

end Typeahead
