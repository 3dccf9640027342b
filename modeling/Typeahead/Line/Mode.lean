import Typeahead.Text.Blank
import Typeahead.Text.Lowercase

/-!
What the user is typing into.
-/
namespace Typeahead

/-- The three kinds of input. -/
inductive Mode where
  /-- A shell command line. -/
  | shell
  /-- A slash command of the client itself. -/
  | slash
  /-- Free text in natural language. -/
  | nl
  deriving DecidableEq, Repr

namespace Mode

def all : List Mode := [shell, slash, nl]

/-- The name used in files and in every output. -/
def name : Mode → String
  | shell => "shell"
  | slash => "slash"
  | nl => "nl"

/-- The mode with exactly the given name. -/
def ofName? (n : String) : Option Mode := all.find? (·.name == n)

/-- Reads a mode as a user may write it: blanks around it and capitals do not matter, and `chat`
is another name of the free text mode. A name that is none is given back as it was compared. -/
def read (t : Text) : Except Text Mode :=
  let word := Text.lower (Text.trim t)
  match ofName? (String.ofList word) with
  | some mode => .ok mode
  | none => if word = "chat".toList then .ok nl else .error word

end Mode

end Typeahead
