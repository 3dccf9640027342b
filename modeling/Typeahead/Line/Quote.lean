import Typeahead.Text.Basic

/-!
Quoting along a line. One small machine is stepped over the characters; a backslash escapes the
character after it in every context, and a quote that is never closed stays open to the end.
-/
namespace Typeahead

/-- The quote that is open at a position, if any. -/
inductive Quote where
  | none
  | single
  | double
  deriving DecidableEq, Repr

namespace Quote

/-- Whether a quote is open. -/
def isOpen (q : Quote) : Bool := q ≠ .none

/-- The character that closes the open quote. -/
def closing? : Quote → Option Char
  | none => Option.none
  | single => some '\''
  | double => some '"'

/-- The quote that a character opens. -/
def opening : Char → Quote
  | '\'' => single
  | '"' => double
  | _ => none

end Quote

/-- The characters that open a quoted run. -/
def isQuoteMark (c : Char) : Bool := c == '\'' || c == '"'

/-- The machine between two characters: the open quote, and whether the next character is taken
literally. -/
structure QuoteScan where
  quote : Quote := .none
  escaped : Bool := false
  deriving DecidableEq, Repr

namespace QuoteScan

/-- Steps over one character. -/
def step (s : QuoteScan) (c : Char) : QuoteScan :=
  if s.escaped then { s with escaped := false }
  else if c = '\\' then { s with escaped := true }
  else
    match s.quote with
    | .none => { s with quote := Quote.opening c }
    | q => if q.closing? = some c then { s with quote := .none } else s

/-- Steps over a text. -/
def run (s : QuoteScan) (t : Text) : QuoteScan := t.foldl step s

/-- The machine after each character of a text, in order. -/
def trace (s : QuoteScan) : Text → List QuoteScan
  | [] => []
  | c :: cs => s.step c :: trace (s.step c) cs

theorem run_append (s : QuoteScan) (a b : Text) : s.run (a ++ b) = (s.run a).run b := by
  simp [run, List.foldl_append]

end QuoteScan

/-- The quote open just before a position; past the end, the one open at the end. -/
def quoteAt (t : Text) (pos : Nat) : Quote := (QuoteScan.run {} (t.take pos)).quote

/-- How many characters it takes until no quote is open, if that ever happens. -/
def charsToClose? (s : QuoteScan) : Text → Option Nat
  | [] => none
  | c :: cs =>
    if (s.step c).quote.isOpen then (charsToClose? (s.step c) cs).map (· + 1) else some 1

/-- The position after the quoted run that opens at `pos`: after its closing mark, or the end of
the text if there is none. A character that is no quote mark is a run of its own. -/
def stringEnd (t : Text) (pos : Nat) : Nat :=
  match t.drop pos with
  | [] => t.length
  | c :: cs =>
    if isQuoteMark c then
      match charsToClose? (QuoteScan.step {} c) cs with
      | some n => pos + 1 + n
      | none => t.length
    else pos + 1

end Typeahead
