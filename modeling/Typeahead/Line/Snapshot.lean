import Typeahead.Line.Lexer
import Typeahead.Line.Trigger

/-!
The input line at one keystroke, with everything that is derived from it. A snapshot is made anew
for each keystroke and not changed after.
-/
namespace Typeahead

/-- A line, a cursor and where they were typed, with the tokens and the trigger. -/
structure Snapshot where
  line : Text
  /-- At most the length of the line. -/
  cursor : Nat
  mode : Mode
  /-- Working directory of path completion, as it was given. -/
  directory : Text
  /-- Recent commands, the latest first. -/
  recent : List Text
  tokens : List Token
  /-- Index of the last token that starts at or before the cursor. -/
  tokenIndex : Option Nat
  trigger : Trigger
  deriving DecidableEq, Repr

namespace Snapshot

/-- The index of the last token that starts at or before a position. -/
def lastStarting (tokens : List Token) (pos : Nat) : Option Nat :=
  match (tokens.filter (·.start ≤ pos)).length with
  | 0 => none
  | n + 1 => some n

/-- The snapshot of a line; a cursor past the end is moved to the end. -/
def ofLine (line : Text) (cursor : Nat) (mode : Mode) (directory : Text := [])
    (recent : List Text := []) : Snapshot :=
  let cursor := min cursor line.length
  let tokens := Token.scan line
  { line, cursor, mode, directory, recent, tokens
    tokenIndex := lastStarting tokens cursor
    trigger := Trigger.detect line cursor mode }

/-- A cursor from a caller that may give it negative or past the end. -/
def clampCursor (line : Text) (cursor : Int) : Nat := min cursor.toNat line.length

variable (s : Snapshot)

def before : Text := s.line.take s.cursor

def after : Text := s.line.drop s.cursor

/-- The token at the cursor. -/
def current? : Option Token := s.tokenIndex.bind (s.tokens[·]?)

/-- The part of the current token before the cursor, its first character included. -/
def typed : Text :=
  match s.current? with
  | some token => token.value.take (s.cursor - token.start)
  | none => []

/-- Whether the line starts with a slash. -/
def isSlashCommand : Bool := s.line.head? = some '/'

/-- Whether the trigger stands at an at sign. -/
def isMention : Bool :=
  s.trigger.kind = .entity && s.trigger.position.bind (s.line[·]?) = some '@'

/-- The first token that is not blank. -/
def command? : Option Token := s.tokens.find? (!·.isBlank)

/-- The values of the tokens that are not blank. -/
def words : List Text := (s.tokens.filter (!·.isBlank)).map Token.value

/-- The positions that an accepted candidate replaces. -/
def replaced? : Option (Nat × Nat) := s.trigger.replaced? s.cursor

/-- The cursor cuts the line in two. -/
theorem before_append_after : s.before ++ s.after = s.line := List.take_append_drop _ _

theorem ofLine_cursor_le (line : Text) (cursor : Nat) (mode : Mode) (directory : Text)
    (recent : List Text) :
    (ofLine line cursor mode directory recent).cursor ≤ line.length :=
  Nat.min_le_right _ _

end Snapshot

end Typeahead
