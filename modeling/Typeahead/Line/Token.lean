import Typeahead.Text.Blank

/-!
The tokens of an input line. They lie side by side and cover the line, blanks included.
-/
namespace Typeahead

/-- Lexical class of a token. -/
inductive TokenKind where
  /-- The first token that is not blank. -/
  | command
  /-- A word that starts with a dash. -/
  | option
  | argument
  /-- A word that starts with a slash, or with one after dots or a tilde. -/
  | path
  /-- A word that starts with an at sign. -/
  | entity
  | operator
  /-- A quoted run with its marks. -/
  | string
  | whitespace
  deriving DecidableEq, Repr

namespace TokenKind

def all : List TokenKind :=
  [command, option, argument, path, entity, operator, string, whitespace]

/-- The name used in every output. -/
def name : TokenKind → String
  | command => "command"
  | option => "option"
  | argument => "argument"
  | path => "path"
  | entity => "entity"
  | operator => "operator"
  | string => "string"
  | whitespace => "whitespace"

/-- The kind with the given name. -/
def ofName? (n : String) : Option TokenKind := all.find? (·.name == n)

end TokenKind

/-- A piece of a line with its class and the positions it covers, the last one excluded. -/
structure Token where
  kind : TokenKind
  value : Text
  start : Nat
  stop : Nat
  deriving DecidableEq, Repr

namespace Token

/-- Number of positions covered. -/
def size (t : Token) : Nat := t.stop - t.start

def isBlank (t : Token) : Bool := t.kind == .whitespace

end Token

end Typeahead
