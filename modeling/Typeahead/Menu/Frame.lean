import Typeahead.Menu.Basic
import Typeahead.Terminal.Signal
import Typeahead.Text.Columns

/-!
Drawing the menu below the input line. Every frame begins by erasing the one before it and leaves
the cursor where it was.
-/
namespace Typeahead

/-! ## Rows and columns -/

/-- The indices shown of a list, the selected one about in the middle: from the first to before
the last. -/
def visibleWindow (total selected limit : Nat) : Nat × Nat :=
  if total ≤ limit then (0, total)
  else
    let start := min (selected - limit / 2) (total - limit)
    (start, start + limit)

/-- The longest beginning of a text whose characters, measured one by one and added to the columns
used, stay below a width. -/
def takeColumns (width used : Nat) : Text → Text
  | [] => []
  | c :: cs =>
    let used := used + (Text.charColumns? c).getD 0
    if used < width then c :: takeColumns width used cs else []

/-- Adds blanks up to the width. -/
def padColumns (width : Nat) (t : Text) : Text := t ++ List.replicate (width - Text.columns t) ' '

/-- Fits a text into a column of the given width: filled up with blanks, or cut with an ellipsis. -/
def fitColumns (width : Nat) (t : Text) : Text :=
  if Text.columns t ≤ width then padColumns width t
  else if width = 0 then []
  else padColumns width (takeColumns width 0 t ++ ['…'])

/-! ## Frames -/

/-- The layout of the menu and how many rows the last frame drew. -/
structure Painter where
  /-- Most candidates shown at once. -/
  rowLimit : Nat := 10
  /-- Columns of a candidate's label. -/
  labelWidth : Nat := 30
  /-- Whether the cursor is hidden while a frame is drawn. -/
  hidesCursor : Bool := false
  /-- Whether a last row tells the position in a list that does not fit. -/
  showsPosition : Bool := true
  drawn : Nat := 0
  deriving DecidableEq, Repr

namespace Painter

/-- One row: a marker, the icon, the label and the description. -/
def row (p : Painter) (palette : Palette) (isSelected : Bool) (c : Candidate) : List Signal :=
  let marker : Text := if isSelected then ['❯', ' '] else [' ', ' ']
  let icon := match c.icon with
    | some icon => icon ++ [' ']
    | none => []
  let head := marker ++ icon ++ fitColumns p.labelWidth c.label
  .text (if isSelected then palette.styleOf .selected else .plain) head ::
    match c.description with
    | some description =>
      [.text .plain [' '], .text (palette.styleOf .description) description]
    | none => []

/-- The row that tells the position of the selection. -/
def positionRow (palette : Palette) (m : Menu) : List Signal :=
  [.text (palette.styleOf .indicator)
    ("  (".toList ++ Nat.toDigits 10 (m.selected + 1) ++ ['/'] ++ Nat.toDigits 10 m.size ++
      ", ↑↓ to scroll)".toList)]

/-- The rows of the frame for a menu. -/
def rows (p : Painter) (palette : Palette) (m : Menu) : List (List Signal) :=
  let (first, last) := visibleWindow m.size m.selected p.rowLimit
  -- The rows keep the index that they have in the whole list.
  let shown := (m.candidates.zipIdx.drop first).take (last - first)
  let rows := shown.map fun (c, i) => p.row palette (i = m.selected) c
  if p.showsPosition && shown.length < m.size then rows ++ [positionRow palette m] else rows

/-- Erases the last frame: down to its last row, then up row by row. The way down is counted in a
16-bit word. -/
def eraseSignals (p : Painter) : List Signal :=
  if p.drawn = 0 then []
  else
    [.saveCursor, .down p.drawn.toUInt16] ++
      (List.replicate p.drawn [Signal.column 0, .clearLine, .up 1]).flatten ++ [.restoreCursor]

/-- Draws the rows below the cursor. -/
def drawSignals (p : Painter) (rows : List (List Signal)) : List Signal :=
  [Signal.saveCursor] ++ (if p.hidesCursor then [.hideCursor] else []) ++
    rows.flatMap (fun row => .lineBreak :: .clearLine :: row) ++
    [.restoreCursor] ++ (if p.hidesCursor then [.showCursor] else [])

/-- Replaces the last frame by the one for a menu; a menu that is not active has no frame. -/
def render (p : Painter) (palette : Palette) (m : Menu) : Painter × List Signal :=
  if m.isActive then
    let rows := p.rows palette m
    ({ p with drawn := rows.length }, p.eraseSignals ++ p.drawSignals rows)
  else ({ p with drawn := 0 }, p.eraseSignals)

/-- Erases the last frame. -/
def erase (p : Painter) : Painter × List Signal := ({ p with drawn := 0 }, p.eraseSignals)

end Painter

end Typeahead
