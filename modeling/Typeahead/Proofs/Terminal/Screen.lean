import Mathlib.Logic.Function.Basic
import Typeahead.Terminal.Signal

/-!
A terminal that receives output character by character. It has as many rows as are needed and does not
wrap lines; a character takes one place of its line. Main statement: the characters sent for a signal
do what the signal says.
-/
namespace Typeahead

/-! ## The screen -/

/-- A character as it stands on a line, with the parameters of the styles that were on when it was
written. -/
structure Glyph where
  char : Char
  styles : List Text := []
  deriving DecidableEq, Repr

/-- The lines of a terminal and its cursor, rows and columns counted from zero. -/
structure Screen where
  row : Nat
  column : Nat
  lines : Nat → List Glyph
  /-- Whether the cursor is shown. -/
  isVisible : Bool
  /-- The row and the column saved last. -/
  saved : Nat × Nat

namespace Screen

/-- The line with the glyph at a column in place of what was there. -/
def put (line : List Glyph) (column : Nat) (g : Glyph) : List Glyph :=
  line.take column ++ List.replicate (column - line.length) ⟨' ', []⟩ ++ g :: line.drop (column + 1)

variable (s : Screen)

/-- Writes a glyph at the cursor, which moves on by one column. -/
def write (g : Glyph) : Screen :=
  { s with
    column := s.column + 1
    lines := Function.update s.lines s.row (put (s.lines s.row) s.column g) }

def writeAll (gs : List Glyph) : Screen := gs.foldl write s

/-- Blanks the line of the cursor. -/
def clearLine : Screen := { s with lines := Function.update s.lines s.row [] }

end Screen

/-! ## Receiving characters -/

/-- What the characters received so far belong to. -/
inductive Reception where
  /-- Text. -/
  | text
  /-- The escape character was received. -/
  | escape
  /-- A control sequence that has these parameters so far. -/
  | sequence (parameters : Text)
  deriving DecidableEq, Repr

structure Terminal where
  screen : Screen
  /-- The parameters of the styles that are on. -/
  styles : List Text
  reception : Reception

namespace Terminal

/-- A terminal with a screen, no style on, that receives text. -/
def idle (s : Screen) : Terminal := ⟨s, [], .text⟩

/-- The characters of the categories C0 and C1, which are not printed. -/
def isControl (c : Char) : Bool := c.toNat < 0x20 || (0x7F ≤ c.toNat && c.toNat ≤ 0x9F)

/-- Whether the character ends a control sequence. -/
def isFinal (c : Char) : Bool := 0x40 ≤ c.toNat && c.toNat ≤ 0x7E

/-- The count that parameters stand for, at least one. -/
def count (parameters : Text) : Nat := max 1 (Nat.ofDigitChars 10 parameters 0)

variable (t : Terminal)

/-- Does what a control sequence says. Those not known here do nothing. -/
def obey (parameters : Text) (final : Char) : Terminal :=
  if final = 'A' then
    { t with screen := { t.screen with row := t.screen.row - count parameters } }
  else if final = 'B' then
    { t with screen := { t.screen with row := t.screen.row + count parameters } }
  else if final = 'G' then
    { t with screen := { t.screen with column := count parameters - 1 } }
  else if final = 'K' then
    if parameters = ['2'] then { t with screen := t.screen.clearLine } else t
  else if final = 'h' || final = 'l' then
    if parameters = ['?', '2', '5'] then
      { t with screen := { t.screen with isVisible := final = 'h' } }
    else t
  else if final = 'm' then
    { t with styles := if parameters = ['0'] then [] else t.styles ++ [parameters] }
  else t

/-- Does what a character after the escape character says. -/
def obeyEscape (c : Char) : Terminal :=
  if c = '7' then
    { t with screen := { t.screen with saved := (t.screen.row, t.screen.column) } }
  else if c = '8' then
    { t with screen := { t.screen with row := t.screen.saved.1, column := t.screen.saved.2 } }
  else t

def receive (c : Char) : Terminal :=
  match t.reception with
  | .text =>
    if c = '\x1b' then { t with reception := .escape }
    else if c = '\r' then { t with screen := { t.screen with column := 0 } }
    else if c = '\n' then { t with screen := { t.screen with row := t.screen.row + 1 } }
    else if isControl c then t
    else { t with screen := t.screen.write ⟨c, t.styles⟩ }
  | .escape =>
    if c = '[' then { t with reception := .sequence [] }
    else { t with reception := .text }.obeyEscape c
  | .sequence parameters =>
    if isFinal c then { t with reception := .text }.obey parameters c
    else { t with reception := .sequence (parameters ++ [c]) }

def receiveAll (output : Text) : Terminal := output.foldl receive t

theorem receiveAll_append (a b : Text) :
    t.receiveAll (a ++ b) = (t.receiveAll a).receiveAll b := List.foldl_append ..

/-! ## Receiving signals -/

/-- Text that is printed as it is. -/
def Printable (content : Text) : Prop := ∀ c ∈ content, isControl c = false

instance (content : Text) : Decidable (Printable content) :=
  List.decidableBAll _ content

/-- Parameters that no character ends. -/
def Unfinished (parameters : Text) : Prop := ∀ c ∈ parameters, isFinal c = false

instance (parameters : Text) : Decidable (Unfinished parameters) :=
  List.decidableBAll _ parameters

variable {t}

/-- A control sequence is obeyed at its last character. -/
theorem receiveAll_sequence (h : t.reception = .text) {parameters : Text} {final : Char}
    (hparameters : Unfinished parameters) (hfinal : isFinal final = true) :
    t.receiveAll (Signal.sequence (parameters ++ [final])) = t.obey parameters final := by
  obtain ⟨screen, styles, _⟩ := t
  cases h
  -- By induction on the parameters to come, for any ones received.
  have hall : ∀ before, Unfinished parameters →
      (⟨screen, styles, .sequence before⟩ : Terminal).receiveAll (parameters ++ [final]) =
        (⟨screen, styles, .text⟩ : Terminal).obey (before ++ parameters) final := by
    induction parameters with
    | nil =>
      intro before _
      simp [receiveAll, receive, hfinal]
    | cons c cs ih =>
      intro before hcs
      obtain ⟨hc, hcs⟩ := List.forall_mem_cons.1 hcs
      have hrest := ih hcs (before ++ [c]) hcs
      rw [List.append_assoc, List.singleton_append] at hrest
      rw [← hrest]
      simp [receiveAll, receive, hc]
  exact hall [] hparameters

/-- Printable text is written in the styles that are on. -/
theorem receiveAll_printable (h : t.reception = .text) {content : Text}
    (hcontent : Printable content) :
    t.receiveAll content =
      { t with screen := t.screen.writeAll (content.map fun c => ⟨c, t.styles⟩) } := by
  induction content generalizing t with
  | nil => rfl
  | cons c cs ih =>
    obtain ⟨hc, hcs⟩ := List.forall_mem_cons.1 hcontent
    obtain ⟨screen, styles, _⟩ := t
    cases h
    have hprinted : (⟨screen, styles, .text⟩ : Terminal).receive c =
        ⟨screen.write ⟨c, styles⟩, styles, .text⟩ := by
      have hescape : c ≠ '\x1b' := by
        rintro rfl
        cases hc
      have hreturn : c ≠ '\r' := by
        rintro rfl
        cases hc
      have hfeed : c ≠ '\n' := by
        rintro rfl
        cases hc
      simp [receive, hescape, hreturn, hfeed, hc]
    unfold receiveAll at ih ⊢
    rw [List.foldl_cons, hprinted]
    exact ih rfl hcs

end Terminal

/-- The parameters of the sequences that are in force while text of the style is sent. -/
def Style.parameters (style : Style) : List Text := style.code?.toList

/-- The glyphs that a signal writes. -/
def Signal.glyphs : Signal → List Glyph
  | .text style content => content.map fun c => ⟨c, style.parameters⟩
  | _ => []

/-- What a signal does to the screen. -/
def Screen.act (s : Screen) : Signal → Screen
  | .saveCursor => { s with saved := (s.row, s.column) }
  | .restoreCursor => { s with row := s.saved.1, column := s.saved.2 }
  | .hideCursor => { s with isVisible := false }
  | .showCursor => { s with isVisible := true }
  | .clearLine => s.clearLine
  | .down rows => { s with row := s.row + max 1 rows.toNat }
  | .up rows => { s with row := s.row - max 1 rows.toNat }
  | .column index => { s with column := index.toNat }
  | .lineBreak => { s with row := s.row + 1, column := 0 }
  | .text style content => s.writeAll (Signal.text style content).glyphs

def Screen.actAll (s : Screen) (signals : List Signal) : Screen := signals.foldl act s

namespace Screen

theorem actAll_cons (s : Screen) (signal : Signal) (signals : List Signal) :
    s.actAll (signal :: signals) = (s.act signal).actAll signals := rfl

theorem actAll_append (s : Screen) (a b : List Signal) :
    s.actAll (a ++ b) = (s.actAll a).actAll b := List.foldl_append ..

end Screen

/-- The text of a signal, if it has one, is printable. -/
def Signal.IsPrintable : Signal → Prop
  | .text _ content => Terminal.Printable content
  | _ => True

namespace Terminal

/-- A style that is not plain is switched on by its own parameter. -/
theorem exists_code {style : Style} (h : style ≠ .plain) :
    ∃ code, style.code? = some code ∧ Unfinished code ∧ code ≠ ['0'] := by
  cases style with
  | plain => exact absurd rfl h
  | _ => exact ⟨_, rfl, by decide, by decide⟩

theorem receiveAll_opening (s : Screen) (style : Style) :
    (idle s).receiveAll style.opening = ⟨s, style.parameters, .text⟩ := by
  by_cases hplain : style = .plain
  · rw [hplain]
    rfl
  · obtain ⟨code, hcode, hdigits, hzero⟩ := exists_code hplain
    have hopening : style.opening = Signal.sequence (code ++ ['m']) := by
      unfold Style.opening
      rw [hcode]
      rfl
    rw [hopening, receiveAll_sequence rfl hdigits (by decide)]
    simp [obey, idle, hzero, Style.parameters, hcode]

theorem receiveAll_closing (s : Screen) (styles : List Text) :
    (⟨s, styles, .text⟩ : Terminal).receiveAll Style.closing = idle s := by
  have hclosing : Style.closing = Signal.sequence (['0'] ++ ['m']) := rfl
  rw [hclosing, receiveAll_sequence rfl (by decide) (by decide)]
  simp [obey, idle]

/-- Text in a style does what it does while the style is on. -/
theorem receiveAll_paint_of {s s' : Screen} {style : Style} {content : Text}
    (h : (⟨s, style.parameters, .text⟩ : Terminal).receiveAll content =
      ⟨s', style.parameters, .text⟩) :
    (idle s).receiveAll (style.paint content) = idle s' := by
  unfold Style.paint
  split
  · rename_i hplain
    rw [hplain] at h
    exact h
  · rw [receiveAll_append, receiveAll_append, receiveAll_opening, h, receiveAll_closing]

theorem receiveAll_paint (s : Screen) (style : Style) {content : Text}
    (hcontent : Printable content) :
    (idle s).receiveAll (style.paint content) = idle (s.act (.text style content)) :=
  receiveAll_paint_of (receiveAll_printable rfl hcontent)

theorem digit_range {c : Char} (h : c.isDigit = true) : 48 ≤ c.toNat ∧ c.toNat ≤ 57 := by
  unfold Char.isDigit at h
  rw [Bool.and_eq_true, decide_eq_true_iff, decide_eq_true_iff] at h
  exact h

/-- The digits of a number end no sequence. -/
theorem unfinished_toDigits (n : Nat) : Unfinished (Nat.toDigits 10 n) := by
  intro c h
  have hdigit := Nat.isDigit_of_mem_toDigits (by decide) (by decide) h
  obtain ⟨_, hle⟩ := digit_range hdigit
  unfold isFinal
  simp
  omega

theorem count_toDigits (n : Nat) : count (Nat.toDigits 10 n) = max 1 n := by
  unfold count
  rw [Nat.ofDigitChars_toDigits (by decide) (by decide)]

/-- The characters of a signal do what it says. -/
theorem receiveAll_encode (s : Screen) {signal : Signal} (h : signal.IsPrintable) :
    (idle s).receiveAll signal.encode = idle (s.act signal) := by
  cases signal with
  | saveCursor => rfl
  | restoreCursor => rfl
  | hideCursor =>
    have hbody : Signal.hideCursor.encode = Signal.sequence (['?', '2', '5'] ++ ['l']) := rfl
    rw [hbody, receiveAll_sequence rfl (by decide) (by decide)]
    rfl
  | showCursor =>
    have hbody : Signal.showCursor.encode = Signal.sequence (['?', '2', '5'] ++ ['h']) := rfl
    rw [hbody, receiveAll_sequence rfl (by decide) (by decide)]
    rfl
  | clearLine =>
    have hbody : Signal.clearLine.encode = Signal.sequence (['2'] ++ ['K']) := rfl
    rw [hbody, receiveAll_sequence rfl (by decide) (by decide)]
    rfl
  | down rows =>
    unfold Signal.encode
    rw [receiveAll_sequence rfl (unfinished_toDigits _) (by decide)]
    simp [obey, count_toDigits, idle, Screen.act]
  | up rows =>
    unfold Signal.encode
    rw [receiveAll_sequence rfl (unfinished_toDigits _) (by decide)]
    simp [obey, count_toDigits, idle, Screen.act]
  | column index =>
    unfold Signal.encode
    rw [receiveAll_sequence rfl (unfinished_toDigits _) (by decide)]
    simp [obey, count_toDigits, idle, Screen.act]
  | lineBreak => rfl
  | text style content => exact receiveAll_paint s style h

theorem receiveAll_encodeAll (s : Screen) {signals : List Signal}
    (h : ∀ signal ∈ signals, signal.IsPrintable) :
    (idle s).receiveAll (Signal.encodeAll signals) = idle (s.actAll signals) := by
  induction signals generalizing s with
  | nil => rfl
  | cons signal signals ih =>
    obtain ⟨hfirst, hrest⟩ := List.forall_mem_cons.1 h
    unfold Signal.encodeAll
    rw [List.flatMap_cons, receiveAll_append, receiveAll_encode s hfirst]
    exact ih (s.act signal) hrest

end Terminal

end Typeahead
