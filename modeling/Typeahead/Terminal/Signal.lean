import Typeahead.Terminal.Style

/-!
What is written to a terminal: cursor movements, erasure and styled text.
-/
namespace Typeahead

/-- One piece of terminal output. -/
inductive Signal where
  | saveCursor
  | restoreCursor
  | hideCursor
  | showCursor
  | clearLine
  /-- Moves down; the count is a 16-bit word. -/
  | down (rows : UInt16)
  | up (rows : UInt16)
  /-- Moves to a column, counted from zero. -/
  | column (index : UInt16)
  /-- Carriage return and line feed. -/
  | lineBreak
  | text (style : Style) (content : Text)
  deriving DecidableEq, Repr

namespace Signal

/-- The escape character and the bracket that open a control sequence. -/
def sequence (body : Text) : Text := '\x1b' :: '[' :: body

/-- The characters sent for a piece of output. -/
def encode : Signal → Text
  | saveCursor => ['\x1b', '7']
  | restoreCursor => ['\x1b', '8']
  | hideCursor => sequence ['?', '2', '5', 'l']
  | showCursor => sequence ['?', '2', '5', 'h']
  | clearLine => sequence ['2', 'K']
  | down rows => sequence (Nat.toDigits 10 rows.toNat ++ ['B'])
  | up rows => sequence (Nat.toDigits 10 rows.toNat ++ ['A'])
  | column index => sequence (Nat.toDigits 10 (index.toNat + 1) ++ ['G'])
  | lineBreak => ['\r', '\n']
  | text style content => style.paint content

/-- The characters sent for a run of output. -/
def encodeAll (signals : List Signal) : Text := signals.flatMap encode

theorem encodeAll_append (a b : List Signal) : encodeAll (a ++ b) = encodeAll a ++ encodeAll b :=
  List.flatMap_append

end Signal

end Typeahead
