import Mathlib.Data.List.Induction
import Typeahead.Menu.Frame
import Typeahead.Proofs.Terminal.Screen

/-!
Frames on a screen. Each one takes the place of the one before it, in the rows below the cursor, and
all else stays as it was, the cursor too.
-/
namespace Typeahead

open Terminal (Printable isControl)

/-! ## What a frame shows -/

/-- The texts that the menu shows of a candidate. -/
def Candidate.texts (c : Candidate) : List Text :=
  c.label :: (c.icon.toList ++ c.description.toList)

/-- Nothing that the menu shows of its candidates is a control character. -/
def Menu.IsPrintable (m : Menu) : Prop := ∀ c ∈ m.candidates, ∀ t ∈ c.texts, Printable t

instance (m : Menu) : Decidable m.IsPrintable :=
  inferInstanceAs (Decidable (∀ c ∈ m.candidates, ∀ t ∈ c.texts, Printable t))

theorem Terminal.printable_append {a b : Text} (ha : Printable a) (hb : Printable b) :
    Printable (a ++ b) := List.forall_mem_append.2 ⟨ha, hb⟩

theorem mem_takeColumns {width used : Nat} {t : Text} {c : Char}
    (h : c ∈ takeColumns width used t) : c ∈ t := by
  induction t generalizing used with
  | nil => cases h
  | cons d ds ih =>
    unfold takeColumns at h
    dsimp only at h
    split at h
    · rcases List.mem_cons.1 h with rfl | h
      · exact List.mem_cons_self
      · exact List.mem_cons_of_mem _ (ih h)
    · cases h

theorem printable_padColumns {width : Nat} {t : Text} (h : Printable t) :
    Printable (padColumns width t) := by
  refine Terminal.printable_append h fun c hc => ?_
  rw [List.eq_of_mem_replicate hc]
  rfl

theorem printable_fitColumns {width : Nat} {t : Text} (h : Printable t) :
    Printable (fitColumns width t) := by
  unfold fitColumns
  split
  · exact printable_padColumns h
  · split
    · exact nofun
    · apply printable_padColumns
      apply Terminal.printable_append
      · exact fun c hc => h c (mem_takeColumns hc)
      · decide

/-- The row is nothing but printable text. -/
def IsTextRow (row : List Signal) : Prop :=
  ∀ signal ∈ row, ∃ style content, signal = .text style content ∧ Printable content

namespace Painter

variable {p : Painter} {palette : Palette} {m : Menu} {c : Candidate}

theorem isTextRow_row (h : ∀ t ∈ c.texts, Printable t) (isSelected : Bool) :
    IsTextRow (p.row palette isSelected c) := by
  obtain ⟨hlabel, hrest⟩ := List.forall_mem_cons.1 h
  obtain ⟨hicon, hdescription⟩ := List.forall_mem_append.1 hrest
  have hmarker : Printable (if isSelected then ['❯', ' '] else [' ', ' ']) := by
    cases isSelected <;> decide
  have hlabel : Printable (fitColumns p.labelWidth c.label) := printable_fitColumns hlabel
  intro signal hsignal
  unfold row at hsignal
  rcases List.mem_cons.1 hsignal with rfl | htail
  · refine ⟨_, _, rfl, Terminal.printable_append (Terminal.printable_append hmarker ?_) hlabel⟩
    split
    · rename_i icon hc
      rw [hc] at hicon
      exact Terminal.printable_append (hicon icon List.mem_cons_self) (by decide)
    · exact nofun
  · split at htail
    · rename_i description hc
      rw [hc] at hdescription
      rcases List.mem_cons.1 htail with rfl | htail
      · exact ⟨_, _, rfl, by decide⟩
      · exact ⟨_, _, List.mem_singleton.1 htail, hdescription description List.mem_cons_self⟩
    · cases htail

theorem printable_toDigits (n : Nat) : Printable (Nat.toDigits 10 n) := by
  intro c hc
  obtain ⟨hge, hle⟩ := Terminal.digit_range (Nat.isDigit_of_mem_toDigits (by decide) (by decide) hc)
  unfold isControl
  simp
  omega

theorem isTextRow_positionRow : IsTextRow (positionRow palette m) := by
  intro signal hsignal
  refine ⟨_, _, List.mem_singleton.1 hsignal, ?_⟩
  apply Terminal.printable_append
  · apply Terminal.printable_append
    · apply Terminal.printable_append
      · exact Terminal.printable_append (by decide) (printable_toDigits _)
      · decide
    · exact printable_toDigits _
  · decide

theorem isTextRow_of_mem_rows (h : m.IsPrintable) {row : List Signal}
    (hrow : row ∈ p.rows palette m) : IsTextRow row := by
  have hshown : ∀ first last, ∀ row ∈ (((m.candidates.zipIdx.drop first).take last).map
      fun e => p.row palette (e.2 = m.selected) e.1), IsTextRow row := by
    intro first last row hrow
    obtain ⟨e, hmem, rfl⟩ := List.mem_map.1 hrow
    have he := List.mem_of_mem_drop (List.mem_of_mem_take hmem)
    exact isTextRow_row (h e.1 (List.fst_mem_of_mem_zipIdx he)) _
  unfold rows at hrow
  dsimp only at hrow
  split at hrow
  · rcases List.mem_append.1 hrow with hrow | hrow
    · exact hshown _ _ row hrow
    · rw [List.mem_singleton.1 hrow]
      exact isTextRow_positionRow
  · exact hshown _ _ row hrow

end Painter

/-! ## Rows on the screen -/

/-- What stands on a line that holds the row. -/
def glyphsOf (row : List Signal) : List Glyph := row.flatMap Signal.glyphs

namespace Screen

variable {s start : Screen}

theorem put_at_end {line : List Glyph} (g : Glyph) : put line line.length g = line ++ [g] := by
  simp [put]

/-- At the end of its line, text is added to it. -/
theorem writeAll_at_end (h : s.column = (s.lines s.row).length) (gs : List Glyph) :
    s.writeAll gs =
      { s with
        column := s.column + gs.length
        lines := Function.update s.lines s.row (s.lines s.row ++ gs) } := by
  induction gs generalizing s with
  | nil => simp [writeAll]
  | cons g gs ih =>
    have hwrite : s.write g =
        { s with
          column := s.column + 1
          lines := Function.update s.lines s.row (s.lines s.row ++ [g]) } := by
      unfold write
      rw [h, put_at_end]
    unfold writeAll at ih ⊢
    rw [List.foldl_cons, hwrite, ih (by simp [h])]
    simp [Nat.add_comm, Nat.add_left_comm]

/-- A row of text is written at the end of its line. -/
theorem actAll_textRow {row : List Signal} (hrow : IsTextRow row)
    (h : s.column = (s.lines s.row).length) :
    s.actAll row =
      { s with
        column := s.column + (glyphsOf row).length
        lines := Function.update s.lines s.row (s.lines s.row ++ glyphsOf row) } := by
  induction row generalizing s with
  | nil => simp [actAll, glyphsOf]
  | cons signal row ih =>
    obtain ⟨⟨style, content, rfl, _⟩, hrest⟩ := List.forall_mem_cons.1 hrow
    have hact : s.act (.text style content) =
        s.writeAll (Signal.text style content).glyphs := rfl
    rw [actAll_cons, hact, writeAll_at_end h, ih hrest (by simp [h])]
    simp [glyphsOf, Nat.add_assoc]

/-! ## Filled lines -/

/-- The lines, those from the first one on replaced by the new ones, as many as there are. -/
def fill (lines : Nat → List Glyph) (first : Nat) (new : List (List Glyph)) (k : Nat) :
    List Glyph :=
  if first ≤ k then (new[k - first]?).getD (lines k) else lines k

variable {lines : Nat → List Glyph} {first : Nat} {new : List (List Glyph)}

theorem fill_of_lt {k : Nat} (h : k < first) : fill lines first new k = lines k :=
  if_neg (Nat.not_le_of_lt h)

theorem fill_add (d : Nat) :
    fill lines first new (first + d) = (new[d]?).getD (lines (first + d)) := by
  unfold fill
  rw [if_pos (Nat.le_add_right first d), Nat.add_sub_cancel_left]

/-- Lines are the same if they are so before the first one filled and from there on. -/
theorem lines_ext {lines' : Nat → List Glyph} (first : Nat)
    (hbefore : ∀ k < first, lines k = lines' k)
    (hbehind : ∀ d, lines (first + d) = lines' (first + d)) : lines = lines' := by
  funext k
  by_cases h : k < first
  · exact hbefore k h
  · obtain ⟨d, rfl⟩ := Nat.exists_eq_add_of_le (Nat.le_of_not_lt h)
    exact hbehind d

theorem fill_nil : fill lines first [] = lines := by
  apply lines_ext first
  · exact fun k h => fill_of_lt h
  · intro d
    rw [fill_add]
    rfl

theorem fill_cons (line : List Glyph) :
    fill lines first (line :: new) = fill (Function.update lines first line) (first + 1) new := by
  apply lines_ext first
  · intro k h
    rw [fill_of_lt h, fill_of_lt (Nat.lt_succ_of_lt h), Function.update_of_ne (Nat.ne_of_lt h)]
  · intro d
    cases d with
    | zero =>
      rw [fill_add, Nat.add_zero, fill_of_lt (Nat.lt_succ_self first)]
      simp
    | succ d =>
      have hnext : first + (d + 1) = first + 1 + d := by omega
      have hne : first + 1 + d ≠ first := by omega
      rw [fill_add, List.getElem?_cons_succ, hnext, fill_add, Function.update_of_ne hne]

theorem fill_snoc (line : List Glyph) :
    fill lines first (new ++ [line]) =
      fill (Function.update lines (first + new.length) line) first new := by
  apply lines_ext first
  · intro k h
    have hne : k ≠ first + new.length := by omega
    rw [fill_of_lt h, fill_of_lt h, Function.update_of_ne hne]
  · intro d
    rw [fill_add, fill_add]
    rcases Nat.lt_trichotomy d new.length with hlt | rfl | hgt
    · simp [List.getElem?_append_left hlt, List.getElem?_eq_getElem hlt]
    · simp
    · have hne : first + d ≠ first + new.length := by omega
      rw [Function.update_of_ne hne, List.getElem?_eq_none (by simp; omega),
        List.getElem?_eq_none (Nat.le_of_lt hgt)]

/-- What was filled in is replaced by as many lines. -/
theorem fill_fill {old : List (List Glyph)} (h : old.length = new.length) :
    fill (fill lines first old) first new = fill lines first new := by
  apply lines_ext first
  · intro k h
    rw [fill_of_lt h, fill_of_lt h, fill_of_lt h]
  · intro d
    rw [fill_add, fill_add, fill_add]
    by_cases hlt : d < new.length
    · rw [List.getElem?_eq_getElem hlt]
      rfl
    · rw [List.getElem?_eq_none (Nat.le_of_not_lt hlt), List.getElem?_eq_none (by omega)]
      rfl

/-- Blank lines change nothing where there is nothing. -/
theorem fill_blank (h : ∀ d, lines (first + d) = []) (n : Nat) :
    fill lines first (List.replicate n []) = lines := by
  apply lines_ext first
  · exact fun k hk => fill_of_lt hk
  · intro d
    rw [fill_add, h, List.getElem?_replicate]
    split <;> rfl

/-! ## Drawing and erasing -/

/-- Row by row, the lines below the cursor are replaced. -/
theorem actAll_rows {rows : List (List Signal)} (hrows : ∀ row ∈ rows, IsTextRow row) :
    ∃ column,
      s.actAll (rows.flatMap fun row => .lineBreak :: .clearLine :: row) =
        { s with
          row := s.row + rows.length
          column := column
          lines := fill s.lines (s.row + 1) (rows.map glyphsOf) } := by
  induction rows generalizing s with
  | nil =>
    refine ⟨s.column, ?_⟩
    simp [actAll, fill_nil]
  | cons row rows ih =>
    obtain ⟨hrow, hrest⟩ := List.forall_mem_cons.1 hrows
    rw [List.flatMap_cons, List.cons_append, List.cons_append, actAll_cons, actAll_cons,
      actAll_append, actAll_textRow hrow (by simp [act, clearLine])]
    obtain ⟨column, hcolumn⟩ := ih hrest
    refine ⟨column, hcolumn.trans ?_⟩
    simp [act, clearLine, fill_cons, Nat.add_comm, Nat.add_left_comm]

/-- From the last row up, the lines are blanked. -/
theorem actAll_erasure (n : Nat) :
    ∃ column,
      { s with row := s.row + n }.actAll
          (List.replicate n [Signal.column 0, .clearLine, .up 1]).flatten =
        { s with
          column := column
          lines := fill s.lines (s.row + 1) (List.replicate n []) } := by
  induction n generalizing s with
  | zero =>
    refine ⟨s.column, ?_⟩
    simp [actAll, fill_nil]
  | succ n ih =>
    -- The last line is blanked first, and the cursor stands below the others.
    obtain ⟨column, hcolumn⟩ := @ih
      { s with
        column := 0
        lines := Function.update s.lines (s.row + 1 + n) [] }
    refine ⟨column, ?_⟩
    rw [List.replicate_succ, List.flatten_cons, actAll_append]
    have hfirst : { s with row := s.row + (n + 1) }.actAll [Signal.column 0, .clearLine, .up 1] =
        { s with
          row := s.row + n
          column := 0
          lines := Function.update s.lines (s.row + 1 + n) [] } := by
      simp [actAll, act, clearLine, Nat.add_comm, Nat.add_left_comm]
    have hfill := @fill_snoc s.lines (s.row + 1) (List.replicate n []) []
    rw [List.length_replicate, ← List.replicate_succ'] at hfill
    rw [hfirst, hcolumn, hfill]

/-! ## Frames -/

/-- The screen shows the frame below the cursor, which stands where it did at the start, and nothing
else differs from the start. -/
structure Displays (start : Screen) (frame : List (List Glyph)) (s : Screen) : Prop where
  row : s.row = start.row
  column : s.column = start.column
  isVisible : s.isVisible = true
  lines : s.lines = fill start.lines (start.row + 1) frame

/-- The lines below the cursor are blank. -/
def IsBlankBelow (s : Screen) : Prop := ∀ k, s.row < k → s.lines k = []

variable {p : Painter} {frame : List (List Glyph)}

theorem displays_nil (hvisible : start.isVisible = true) : Displays start [] start :=
  ⟨rfl, rfl, hvisible, fill_nil.symm⟩

theorem Displays.erase (h : Displays start frame s) (hblank : start.IsBlankBelow)
    (hdrawn : p.drawn = frame.length) (hshort : frame.length < 65536) :
    Displays start [] (s.actAll p.eraseSignals) := by
  unfold Painter.eraseSignals
  split
  · rename_i hzero
    rw [hdrawn, List.length_eq_zero_iff] at hzero
    rw [hzero] at h
    exact h
  · rename_i hpos
    have hdown : max 1 (p.drawn % 65536) = p.drawn := by omega
    have hlast : s.actAll [.saveCursor, .down p.drawn.toUInt16] =
        { s with saved := (s.row, s.column), row := s.row + p.drawn } := by
      simp [actAll, act, hdown]
    obtain ⟨column, hcolumn⟩ := @actAll_erasure { s with saved := (s.row, s.column) } p.drawn
    rw [actAll_append, actAll_append, hlast, hcolumn]
    refine ⟨h.row, h.column, h.isVisible, ?_⟩
    change fill s.lines (s.row + 1) (List.replicate p.drawn []) = _
    have hblanks : frame.length = (List.replicate p.drawn ([] : List Glyph)).length := by
      rw [List.length_replicate, hdrawn]
    rw [h.lines, h.row, fill_fill hblanks, fill_nil]
    apply fill_blank
    intro d
    apply hblank
    omega

theorem Displays.draw (h : Displays start [] s) {rows : List (List Signal)}
    (hrows : ∀ row ∈ rows, IsTextRow row) :
    Displays start (rows.map glyphsOf) (s.actAll (p.drawSignals rows)) := by
  unfold Painter.drawSignals
  -- Whether the cursor is hidden meanwhile or not, it is shown in the end.
  have hbegin : s.actAll ([.saveCursor] ++ if p.hidesCursor then [.hideCursor] else []) =
      { s with saved := (s.row, s.column), isVisible := !p.hidesCursor } := by
    have hvisible := h.isVisible
    cases p.hidesCursor <;> simp [actAll, act, hvisible]
  have hend : ∀ t : Screen, t.isVisible = !p.hidesCursor →
      t.actAll ([.restoreCursor] ++ if p.hidesCursor then [.showCursor] else []) =
        { t with row := t.saved.1, column := t.saved.2, isVisible := true } := by
    intro t hvisible
    cases hhides : p.hidesCursor <;> simp [actAll, act, hvisible, hhides]
  obtain ⟨column, hcolumn⟩ := @actAll_rows
    { s with saved := (s.row, s.column), isVisible := !p.hidesCursor } rows hrows
  rw [actAll_append, actAll_append, actAll_append, hbegin, hcolumn,
    ← actAll_append _ [.restoreCursor], hend _ rfl]
  refine ⟨h.row, h.column, rfl, ?_⟩
  change fill s.lines (s.row + 1) (rows.map glyphsOf) = _
  rw [h.lines, h.row, fill_nil]

end Screen

/-! ## Calls in a row -/

namespace Painter

/-- A frame is drawn for a menu, or the last one is erased. -/
inductive Call where
  | render (palette : Palette) (m : Menu)
  | erase

/-- The rows that a call shows; a menu that is not active has none. -/
def Call.frame (p : Painter) : Call → List (List Signal)
  | .render palette m => if m.isActive then p.rows palette m else []
  | .erase => []

def Call.IsPrintable : Call → Prop
  | .render _ m => m.IsPrintable
  | .erase => True

instance : (call : Call) → Decidable call.IsPrintable
  | .render _ m => inferInstanceAs (Decidable m.IsPrintable)
  | .erase => inferInstanceAs (Decidable True)

def perform (p : Painter) : Call → Painter × List Signal
  | .render palette m => p.render palette m
  | .erase => p.erase

/-- The painter after a call, and the terminal that its output was sent to. -/
def send (state : Painter × Terminal) (call : Call) : Painter × Terminal :=
  let (p, signals) := state.1.perform call
  (p, state.2.receiveAll (Signal.encodeAll signals))

def sendAll (p : Painter) (t : Terminal) (calls : List Call) : Painter × Terminal :=
  calls.foldl send (p, t)

/-- The frame of the last call. -/
def lastFrame (p : Painter) (calls : List Call) : List (List Signal) :=
  (calls.getLast?.map fun call => call.frame p).getD []

variable {p : Painter} {s start : Screen} {frame : List (List Signal)} {call : Call}

theorem isTextRow_of_mem_frame (h : call.IsPrintable) {row : List Signal}
    (hrow : row ∈ call.frame p) : IsTextRow row := by
  cases call with
  | render palette m =>
    unfold Call.frame at hrow
    dsimp only at hrow
    split at hrow
    · exact isTextRow_of_mem_rows h hrow
    · cases hrow
  | erase => cases hrow

theorem isPrintable_eraseSignals : ∀ signal ∈ p.eraseSignals, signal.IsPrintable := by
  intro signal hsignal
  unfold eraseSignals at hsignal
  split at hsignal
  · cases hsignal
  · simp only [List.mem_append, List.mem_cons, List.mem_flatten, List.mem_replicate,
      List.not_mem_nil, or_false] at hsignal
    rcases hsignal with ((rfl | rfl) | ⟨_, ⟨_, rfl⟩, hsignal⟩) | rfl
    · trivial
    · trivial
    · simp only [List.mem_cons, List.not_mem_nil, or_false] at hsignal
      rcases hsignal with rfl | rfl | rfl <;> trivial
    · trivial

theorem isPrintable_drawSignals {rows : List (List Signal)} (hrows : ∀ row ∈ rows, IsTextRow row) :
    ∀ signal ∈ p.drawSignals rows, signal.IsPrintable := by
  intro signal hsignal
  unfold drawSignals at hsignal
  simp only [List.mem_append, List.mem_cons, List.mem_flatMap, List.not_mem_nil, or_false]
    at hsignal
  rcases hsignal with (((rfl | hhide) | ⟨row, hrow, rfl | rfl | hsignal⟩) | rfl) | hshow
  · trivial
  · split at hhide <;> simp_all [Signal.IsPrintable]
  · trivial
  · trivial
  · obtain ⟨style, content, rfl, hcontent⟩ := hrows row hrow signal hsignal
    exact hcontent
  · trivial
  · split at hshow <;> simp_all [Signal.IsPrintable]

theorem send_eq (p : Painter) (s : Screen) (call : Call)
    (h : ∀ signal ∈ (p.perform call).2, signal.IsPrintable) :
    send (p, Terminal.idle s) call =
      ((p.perform call).1, Terminal.idle (s.actAll (p.perform call).2)) := by
  unfold send
  dsimp only
  rw [Terminal.receiveAll_encodeAll s h]

/-- The frame of a call takes the place of the one that is shown. -/
theorem send_displays (hblank : start.IsBlankBelow) (hshort : frame.length < 65536)
    (hcall : call.IsPrintable) (h : Screen.Displays start (frame.map glyphsOf) s) :
    ∃ s', send ({ p with drawn := frame.length }, Terminal.idle s) call =
        ({ p with drawn := (call.frame p).length }, Terminal.idle s') ∧
      Screen.Displays start ((call.frame p).map glyphsOf) s' := by
  let q : Painter := { p with drawn := frame.length }
  have herased : Screen.Displays start [] (s.actAll q.eraseSignals) :=
    h.erase hblank (List.length_map ..).symm (by simpa using hshort)
  have hrows : ∀ row ∈ call.frame p, IsTextRow row := fun row => isTextRow_of_mem_frame hcall
  have herase : send (q, Terminal.idle s) .erase =
      ({ p with drawn := 0 }, Terminal.idle (s.actAll q.eraseSignals)) :=
    send_eq q s .erase isPrintable_eraseSignals
  cases call with
  | erase => exact ⟨_, herase, herased⟩
  | render palette m =>
    unfold Call.frame at hrows ⊢
    dsimp only at hrows ⊢
    by_cases hactive : m.isActive = true
    · rw [if_pos hactive] at hrows ⊢
      have hperform : q.perform (.render palette m) =
          ({ p with drawn := (p.rows palette m).length },
            q.eraseSignals ++ q.drawSignals (p.rows palette m)) := if_pos hactive
      have hdrawn : Screen.Displays start ((p.rows palette m).map glyphsOf)
          ((s.actAll q.eraseSignals).actAll (q.drawSignals (p.rows palette m))) :=
        herased.draw hrows
      refine ⟨_, ?_, hdrawn⟩
      rw [send_eq, hperform, Screen.actAll_append]
      rw [hperform]
      exact List.forall_mem_append.2 ⟨isPrintable_eraseSignals, isPrintable_drawSignals hrows⟩
    · -- A menu that is not active is like a call to erase.
      rw [if_neg hactive]
      have hperform : q.perform (.render palette m) = q.perform .erase := if_neg hactive
      have hsame : send (q, Terminal.idle s) (.render palette m) =
          send (q, Terminal.idle s) .erase := by
        unfold send
        rw [hperform]
      exact ⟨_, hsame.trans herase, herased⟩

theorem lastFrame_snoc (calls : List Call) (call : Call) :
    lastFrame p (calls ++ [call]) = call.frame p := by
  simp [lastFrame]

theorem sendAll_displays {calls : List Call} (hblank : s.IsBlankBelow)
    (hvisible : s.isVisible = true)
    (hcalls : ∀ call ∈ calls, call.IsPrintable ∧ (call.frame p).length < 65536)
    (hfresh : p.drawn = 0) :
    ∃ s', p.sendAll (Terminal.idle s) calls =
        ({ p with drawn := (lastFrame p calls).length }, Terminal.idle s') ∧
      Screen.Displays s ((lastFrame p calls).map glyphsOf) s' := by
  induction calls using List.reverseRecOn with
  | nil =>
    refine ⟨s, ?_, Screen.displays_nil hvisible⟩
    unfold sendAll lastFrame
    simp [← hfresh]
  | append_singleton calls call ih =>
    have hbefore : ∀ call ∈ calls, call.IsPrintable ∧ (call.frame p).length < 65536 :=
      fun c hc => hcalls c (List.mem_append_left _ hc)
    obtain ⟨hprintable, _⟩ := hcalls call List.mem_concat_self
    obtain ⟨s', hsent, hdisplays⟩ := ih hbefore
    have hshort : (lastFrame p calls).length < 65536 := by
      rcases calls.eq_nil_or_concat with rfl | ⟨init, last, rfl⟩
      · simp [lastFrame]
      · rw [List.concat_eq_append, lastFrame_snoc]
        exact (hbefore last (by simp)).2
    obtain ⟨s'', hsent', hdisplays'⟩ := send_displays hblank hshort hprintable hdisplays
    refine ⟨s'', ?_, ?_⟩
    · rw [lastFrame_snoc, ← hsent', ← hsent]
      exact List.foldl_append ..
    · rw [lastFrame_snoc]
      exact hdisplays'

/-- A painter that has drawn nothing yet and a terminal with nothing below its cursor: after any calls
the cursor is shown where it was, the rows directly below it hold the rows of the last frame in their
order, every other line is as it was, and the painter knows how many rows it shows. What is drawn has
no control characters and no frame has more rows than a 16-bit word can count. -/
theorem each_frame_takes_the_place_of_the_last {calls : List Call} (hfresh : p.drawn = 0)
    (hvisible : s.isVisible = true) (hblank : ∀ k, s.row < k → s.lines k = [])
    (hcalls : ∀ call ∈ calls, call.IsPrintable ∧ (call.frame p).length < 65536) :
    let frame := lastFrame p calls
    (p.sendAll (Terminal.idle s) calls).1.drawn = frame.length ∧
      ∃ s', (p.sendAll (Terminal.idle s) calls).2 = Terminal.idle s' ∧
        s'.row = s.row ∧ s'.column = s.column ∧ s'.isVisible = true ∧
        (∀ i row, frame[i]? = some row → s'.lines (s.row + 1 + i) = glyphsOf row) ∧
        ∀ k, k ≤ s.row ∨ s.row + frame.length < k → s'.lines k = s.lines k := by
  intro frame
  obtain ⟨s', hsent, hdisplays⟩ := sendAll_displays hblank hvisible hcalls hfresh
  rw [hsent]
  refine ⟨rfl, s', rfl, hdisplays.row, hdisplays.column, hdisplays.isVisible, ?_, ?_⟩
  · intro i row hrow
    rw [hdisplays.lines, Screen.fill_add, List.getElem?_map, hrow]
    rfl
  · intro k hk
    rw [hdisplays.lines]
    rcases hk with habove | hbelow
    · exact Screen.fill_of_lt (Nat.lt_succ_of_le habove)
    · obtain ⟨d, rfl⟩ := Nat.exists_eq_add_of_le (show s.row + 1 ≤ k by omega)
      have hend : ((lastFrame p calls).map glyphsOf)[d]? = none := by
        apply List.getElem?_eq_none
        rw [List.length_map]
        change frame.length ≤ d
        omega
      rw [Screen.fill_add, hend]
      rfl

/-- Two fruits are shown one at a time below a prompt, then the second one is selected. -/
theorem the_second_fruit_takes_the_place_of_the_first :
    let fruit (name : Text) : Candidate := ⟨name, .other, 0, [], none, none, none⟩
    let m := Menu.ofList [fruit "fig".toList, fruit "kiwi".toList]
    let p : Painter := { rowLimit := 1, labelWidth := 4, hidesCursor := true }
    let prompt := "$ k".toList.map fun c => (⟨c, []⟩ : Glyph)
    let s : Screen := ⟨2, 3, Function.update (fun _ => []) 2 prompt, true, (0, 0)⟩
    let calls : List Call := [.render .plain m, .erase, .render .plain m, .render .colored m.next]
    let frame := lastFrame p calls
    frame = [[.text .reversed "❯ kiwi".toList], [.text .darkGray "  (2/2, ↑↓ to scroll)".toList]] ∧
      (p.sendAll (Terminal.idle s) calls).1.drawn = frame.length ∧
      ∃ s', (p.sendAll (Terminal.idle s) calls).2 = Terminal.idle s' ∧
        s'.row = s.row ∧ s'.column = s.column ∧ s'.isVisible = true ∧
        (∀ i row, frame[i]? = some row → s'.lines (s.row + 1 + i) = glyphsOf row) ∧
        ∀ k, k ≤ s.row ∨ s.row + frame.length < k → s'.lines k = s.lines k := by
  intro fruit m p prompt s calls frame
  have hblank : ∀ k, s.row < k → s.lines k = [] := by
    intro k hk
    have hne : k ≠ 2 := Nat.ne_of_gt hk
    simp [s, hne]
  have hcalls : ∀ call ∈ calls, call.IsPrintable ∧ (call.frame p).length < 65536 := by
    decide +kernel
  exact ⟨by decide +kernel, each_frame_takes_the_place_of_the_last rfl rfl hblank hcalls⟩

end Painter

end Typeahead
