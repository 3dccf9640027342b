import Typeahead.Line.Quote
import Typeahead.Line.Token

/-!
Cutting a line into tokens. Every text is accepted: the lexer walks over the characters and asks
of each whether the token that is open goes on with it; if not, the character opens the next one.
-/
namespace Typeahead

/-! ## Cutting -/

/-- Shell metacharacters, which form operator tokens. -/
def isOperatorMark (c : Char) : Bool := c ∈ ['|', '&', ';', '<', '>', '(', ')']

/-- The token that is open while a line is read. -/
inductive Lexeme where
  | blank
  | operator
  /-- A word; `escaped` after a backslash. -/
  | word (escaped : Bool)
  /-- A quoted run; `escaped` after a backslash. -/
  | quoted (mark : Char) (escaped : Bool)
  /-- A quoted run whose closing mark has been read. -/
  | closed
  deriving DecidableEq, Repr

namespace Lexeme

/-- The token that a character opens. -/
def opening (c : Char) : Lexeme :=
  if Text.isBlank c then blank
  else if isQuoteMark c then quoted c false
  else if isOperatorMark c then operator
  else word (c = '\\')

/-- The open token after one more character, or none when the character is not part of it. -/
def next? : Lexeme → Char → Option Lexeme
  | blank, c => if Text.isBlank c then some blank else none
  | operator, c => if isOperatorMark c then some operator else none
  | word true, _ => some (word false)
  | word false, c =>
    if c = '\\' then some (word true)
    else if Text.isBlank c || isQuoteMark c || isOperatorMark c then none
    else some (word false)
  | quoted mark true, _ => some (quoted mark false)
  | quoted mark false, c =>
    if c = '\\' then some (quoted mark true)
    else if c = mark then some closed
    else some (quoted mark false)
  | closed, _ => none

/-- The values of the open token, of which `value` has been read, and of those after it. -/
def values (lexeme : Lexeme) (value : Text) : Text → List Text
  | [] => [value]
  | c :: cs =>
    match lexeme.next? c with
    | some lexeme => lexeme.values (value ++ [c]) cs
    | none => value :: (opening c).values [c] cs

end Lexeme

/-- The values of a line's tokens in order. -/
def tokenValues : Text → List Text
  | [] => []
  | c :: cs => (Lexeme.opening c).values [c] cs

/-! ## Classes -/

/-- The class of a word by how it starts. -/
def wordKind : Text → TokenKind
  | '-' :: _ => .option
  | '@' :: _ => .entity
  | '/' :: _ => .path
  | '.' :: '/' :: _ => .path
  | '.' :: '.' :: '/' :: _ => .path
  | '~' :: '/' :: _ => .path
  | _ => .argument

/-- The class of a token that is not the command, by its value. -/
def lexicalKind (value : Text) : TokenKind :=
  match value with
  | [] => .whitespace
  | c :: _ =>
    if Text.isBlank c then .whitespace
    else if isQuoteMark c then .string
    else if isOperatorMark c then .operator
    else wordKind value

namespace Token

/-- Lays token values side by side from a position on. The first one that is not blank names the
command, unless the command has been seen. -/
def lay (start : Nat) (seen : Bool) : List Text → List Token
  | [] => []
  | value :: rest =>
    let kind := lexicalKind value
    let stop := start + value.length
    if kind = .whitespace then ⟨.whitespace, value, start, stop⟩ :: lay stop seen rest
    else ⟨if seen then kind else .command, value, start, stop⟩ :: lay stop true rest

/-- The tokens of a line. -/
def scan (line : Text) : List Token := lay 0 false (tokenValues line)

end Token

namespace Lexeme

theorem values_flatten (lexeme : Lexeme) (value rest : Text) :
    (lexeme.values value rest).flatten = value ++ rest := by
  induction rest generalizing lexeme value with
  | nil => simp [values]
  | cons c cs ih =>
    simp only [values]
    split <;> simp [ih]

end Lexeme

/-- Nothing of the line is lost. -/
theorem tokenValues_flatten (line : Text) : (tokenValues line).flatten = line := by
  cases line with
  | nil => rfl
  | cons c cs => simp [tokenValues, Lexeme.values_flatten]

theorem Token.lay_values (start : Nat) (seen : Bool) (values : List Text) :
    (Token.lay start seen values).map Token.value = values := by
  induction values generalizing start seen with
  | nil => rfl
  | cons v vs ih =>
    simp only [Token.lay]
    split <;> simp [ih]

/-- The token values, read in order, are the line. -/
theorem Token.scan_values_flatten (line : Text) :
    ((Token.scan line).map Token.value).flatten = line := by
  rw [Token.scan, Token.lay_values, tokenValues_flatten]

end Typeahead
