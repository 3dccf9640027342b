import Typeahead.Line.Token

/-!
How pieces of text look on a terminal.
-/
namespace Typeahead

/-! ## Styles -/

/-- A look that one escape sequence switches on. -/
inductive Style where
  | plain
  | bold
  | dimmed
  | underlined
  | reversed
  | green
  | yellow
  | magenta
  | cyan
  | darkGray
  deriving DecidableEq, Repr

namespace Style

/-- The parameter of the sequence that switches the style on; none for plain text. -/
def code? : Style → Option Text
  | plain => none
  | bold => some ['1']
  | dimmed => some ['2']
  | underlined => some ['4']
  | reversed => some ['7']
  | green => some ['3', '2']
  | yellow => some ['3', '3']
  | magenta => some ['3', '5']
  | cyan => some ['3', '6']
  | darkGray => some ['9', '0']

/-- The sequence that switches the style on; empty for plain text. -/
def opening (s : Style) : Text :=
  match s.code? with
  | some code => ['\x1b', '['] ++ code ++ ['m']
  | none => []

/-- The sequence that switches every style off. -/
def closing : Text := ['\x1b', '[', '0', 'm']

/-- The text in the style. Plain text is left as it is. -/
def paint (s : Style) (t : Text) : Text :=
  if s = plain then t else s.opening ++ t ++ closing

end Style

/-! ## Roles -/

/-- What a piece of text stands for, which decides its style. -/
inductive Role where
  | token (kind : TokenKind)
  /-- The selected row of the menu. -/
  | selected
  /-- The description of a candidate. -/
  | description
  /-- The row that tells the position in the list. -/
  | indicator
  deriving DecidableEq, Repr

/-- The style of a token in the input line. -/
def TokenKind.style : TokenKind → Style
  | command => .bold
  | option => .cyan
  | path => .underlined
  | entity => .magenta
  | operator => .yellow
  | string => .green
  | argument => .plain
  | whitespace => .plain

/-- The style of a piece of text. -/
def Role.style : Role → Style
  | token kind => kind.style
  | selected => .reversed
  | description => .dimmed
  | indicator => .darkGray

/-- Whether text is styled with escape sequences or not at all. -/
inductive Palette where
  | colored
  | plain
  deriving DecidableEq, Repr

namespace Palette

/-- The palette for the color setting. -/
def ofColor (color : Bool) : Palette := if color then colored else plain

/-- The style that the palette gives a role. -/
def styleOf : Palette → Role → Style
  | colored, role => role.style
  | plain, _ => .plain

/-- A piece of text as the palette shows it. -/
def apply (p : Palette) (role : Role) (t : Text) : Text := (p.styleOf role).paint t

end Palette

end Typeahead
