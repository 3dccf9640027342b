import Typeahead.Line.Lexer
import Typeahead.Terminal.Style

/-!
Coloring of the input line, token by token.
-/
namespace Typeahead

/-- The pieces of a line with their styles; a single plain piece when highlighting is off. -/
def highlightSegments (enabled : Bool) (line : Text) : List (Style × Text) :=
  if enabled then (Token.scan line).map fun token => (token.kind.style, token.value)
  else [(.plain, line)]

/-- The line as a palette shows it. -/
def highlight (enabled : Bool) (palette : Palette) (line : Text) : Text :=
  if enabled then
    (Token.scan line).flatMap fun token => palette.apply (.token token.kind) token.value
  else line

end Typeahead
