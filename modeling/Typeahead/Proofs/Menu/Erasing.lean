import Typeahead.Proofs.Menu.Redrawing
import Typeahead.Proofs.Menu.Window
import Typeahead.Settings.Basic

/-!
The way back over a frame. An erasure goes down to the last row of the frame and comes up row by row. The
way down is counted in a 16-bit word and the way up is not, so from 65536 rows on the two ways differ. The
rows are counted where they are drawn, so a line feed in a text makes a row that nobody counts.
-/
namespace Typeahead

open Terminal (idle isControl)

/-! ## Moves between rows -/

/-- How many rows further down a signal moves the cursor, for the signals that move it by rows. -/
def Signal.move? : Signal → Option Int
  | .down rows => some (max 1 rows.toNat)
  | .up rows => some (-max 1 rows.toNat)
  | .lineBreak => some 1
  | _ => none

/-- Down by all of the rows, and up by one as many times. -/
def thereAndBack (n : Nat) : List Int := if n = 0 then [] else (n : Int) :: List.replicate n (-1)

/-- How far down the moves lead in all. -/
def descent (moves : List Int) : Int := moves.foldr (· + ·) 0

theorem descent_cons (move : Int) (moves : List Int) :
    descent (move :: moves) = move + descent moves := rfl

theorem descent_replicate (n : Nat) : descent (List.replicate n (-1)) = -n := by
  induction n with
  | zero => rfl
  | succ n ih =>
    rw [List.replicate_succ, descent_cons, ih]
    omega

variable {p : Painter} {palette : Palette} {m : Menu} {s : Screen} {n i : Nat}

namespace Painter

theorem moves_eraseSignals (p : Painter) :
    p.eraseSignals.filterMap Signal.move? =
      if p.drawn = 0 then []
      else max 1 ((p.drawn % 65536 : Nat) : Int) :: List.replicate p.drawn (-1) := by
  unfold eraseSignals
  split
  · rfl
  · have hdown : [Signal.saveCursor, .down p.drawn.toUInt16].filterMap Signal.move? =
        [max 1 ((p.drawn % 65536 : Nat) : Int)] := rfl
    have hup : [Signal.column 0, .clearLine, .up 1].filterMap Signal.move? = [-1] := rfl
    have hback : [Signal.restoreCursor].filterMap Signal.move? = [] := rfl
    rw [List.filterMap_append, List.filterMap_append, List.filterMap_flatten, List.map_replicate,
      hdown, hup, hback, List.flatten_replicate_singleton, List.append_nil]
    rfl

theorem moves_eraseSignals_iff (p : Painter) :
    p.eraseSignals.filterMap Signal.move? = thereAndBack p.drawn ↔ p.drawn < 65536 := by
  rw [moves_eraseSignals, thereAndBack]
  split
  · simp_all
  · rw [List.cons.injEq]
    simp only [and_true]
    omega

theorem descent_eraseSignals_iff (p : Painter) :
    descent (p.eraseSignals.filterMap Signal.move?) = 0 ↔ p.drawn < 65536 := by
  rw [moves_eraseSignals]
  split
  · simp_all [descent]
  · rw [descent_cons, descent_replicate]
    omega

end Painter

/-! ## Lines that are blanked -/

namespace Screen

/-- On the way up each line is blanked, that of the cursor first. At the top the cursor stays. -/
theorem lines_actAll_up (s : Screen) (n i : Nat) :
    (s.actAll (List.replicate n [Signal.column 0, .clearLine, .up 1]).flatten).lines i =
      if s.row < i + n ∧ i ≤ s.row then [] else s.lines i := by
  induction n generalizing s with
  | zero =>
    rw [if_neg (by omega)]
    rfl
  | succ n ih =>
    rw [List.replicate_succ, List.flatten_cons, actAll_append, ih]
    have hrow : (s.actAll [Signal.column 0, .clearLine, .up 1]).row = s.row - 1 := rfl
    have hline : (s.actAll [Signal.column 0, .clearLine, .up 1]).lines i =
        if i = s.row then [] else s.lines i := by
      simp [actAll, act, clearLine, Function.update_apply]
    rw [hrow, hline]
    by_cases hhere : i = s.row
    · simp [hhere]
    · rw [if_neg hhere]
      have hsame : (s.row - 1 < i + n ∧ i ≤ s.row - 1) ↔ (s.row < i + (n + 1) ∧ i ≤ s.row) := by
        omega
      simp only [hsame]

/-- An erasure blanks as many lines as were drawn, up from the one that the word leads to. -/
theorem lines_actAll_eraseSignals (s : Screen) (p : Painter) (i : Nat) :
    (s.actAll p.eraseSignals).lines i =
      if s.row + max 1 (p.drawn % 65536) < i + p.drawn ∧ i ≤ s.row + max 1 (p.drawn % 65536) then []
      else s.lines i := by
  unfold Painter.eraseSignals
  split
  · rename_i hzero
    rw [if_neg (by omega)]
    rfl
  · have hdown : s.actAll [.saveCursor, .down p.drawn.toUInt16] =
        { s with saved := (s.row, s.column), row := s.row + max 1 (p.drawn % 65536) } := rfl
    rw [actAll_append, actAll_append, hdown]
    exact lines_actAll_up _ p.drawn i

/-- Exactly the rows below the cursor, as many as given, are blanked if and only if those were drawn and a
word can count them. -/
theorem lines_eraseSignals_iff (p : Painter) (rows : Nat) (hrows : p.drawn ≤ rows)
    (hnone : p.drawn = 0 → rows = 0) :
    (∀ (s : Screen) i, (s.actAll p.eraseSignals).lines i =
        if s.row < i ∧ i ≤ s.row + rows then [] else s.lines i) ↔
      p.drawn < 65536 ∧ rows = p.drawn := by
  constructor
  · intro h
    -- On a screen full of text a line is blank only where it was blanked.
    let full : Screen := ⟨0, 0, fun _ => [⟨'x', []⟩], true, (0, 0)⟩
    have hsame : ∀ i, (max 1 (p.drawn % 65536) < i + p.drawn ∧ i ≤ max 1 (p.drawn % 65536)) ↔
        (0 < i ∧ i ≤ rows) := by
      intro i
      have hi := (lines_actAll_eraseSignals full p i).symm.trans (h full i)
      dsimp only [full] at hi
      rw [Nat.zero_add, Nat.zero_add] at hi
      constructor
      · intro hblank
        refine Decidable.byContradiction fun hfull => ?_
        rw [if_pos hblank, if_neg hfull] at hi
        cases hi
      · intro hblank
        refine Decidable.byContradiction fun hfull => ?_
        rw [if_neg hfull, if_pos hblank] at hi
        cases hi
    have hfirst := hsame rows
    have hlast := hsame (max 1 (p.drawn % 65536))
    omega
  · rintro ⟨hshort, rfl⟩ s i
    rw [lines_actAll_eraseSignals]
    have hsame : (s.row + max 1 (p.drawn % 65536) < i + p.drawn ∧
        i ≤ s.row + max 1 (p.drawn % 65536)) ↔ (s.row < i ∧ i ≤ s.row + p.drawn) := by omega
    simp only [hsame]

end Screen

/-! ## Rows that a frame takes -/

namespace Terminal

/-- Text without control characters, line feeds apart. -/
def PrintableLines (content : Text) : Prop := ∀ c ∈ content, isControl c = true → c = '\n'

instance (content : Text) : Decidable (PrintableLines content) :=
  List.decidableBAll _ content

/-- Each line feed in a text leads one row further down. -/
theorem receiveAll_printableLines {t : Terminal} (h : t.reception = .text) {content : Text}
    (hcontent : PrintableLines content) :
    ∃ s : Screen, t.receiveAll content = { t with screen := s } ∧
      s.row = t.screen.row + content.count '\n' := by
  induction content generalizing t with
  | nil => exact ⟨t.screen, rfl, rfl⟩
  | cons c cs ih =>
    obtain ⟨hc, hcs⟩ := List.forall_mem_cons.1 hcontent
    obtain ⟨screen, styles, _⟩ := t
    cases h
    have hstep : ∃ s : Screen, (⟨screen, styles, .text⟩ : Terminal).receive c =
        ⟨s, styles, .text⟩ ∧ s.row = screen.row + if c = '\n' then 1 else 0 := by
      by_cases hfeed : c = '\n'
      · rw [hfeed]
        exact ⟨_, rfl, rfl⟩
      · have hprinted : isControl c = false := Bool.eq_false_iff.2 fun h => hfeed (hc h)
        have hwritten : (⟨screen, styles, .text⟩ : Terminal).receiveAll [c] =
            ⟨screen.write ⟨c, styles⟩, styles, .text⟩ :=
          receiveAll_printable rfl (List.forall_mem_singleton.2 hprinted)
        refine ⟨_, hwritten, ?_⟩
        rw [if_neg hfeed]
        rfl
    obtain ⟨s, hs, hrow⟩ := hstep
    obtain ⟨s', hs', hrow'⟩ := @ih ⟨s, styles, .text⟩ rfl hcs
    refine ⟨s', ?_, ?_⟩
    · rw [← hs']
      change ((⟨screen, styles, .text⟩ : Terminal).receive c).receiveAll cs = _
      rw [hs]
    · rw [hrow', List.count_cons]
      dsimp only
      rw [hrow]
      simp
      omega

end Terminal

/-- The text of a signal, if it has one. -/
def Signal.content : Signal → Text
  | .text _ content => content
  | _ => []

/-- The number of line feeds in the texts of a frame. -/
def lineFeeds (frame : List (List Signal)) : Nat :=
  (frame.flatten.flatMap Signal.content).count '\n'

theorem lineFeeds_eq_zero_iff {frame : List (List Signal)} :
    lineFeeds frame = 0 ↔ ∀ row ∈ frame, ∀ signal ∈ row, '\n' ∉ signal.content := by
  unfold lineFeeds
  rw [List.count_eq_zero]
  simp only [List.mem_flatMap, List.mem_flatten]
  constructor
  · intro h row hrow signal hsignal hfeed
    exact h ⟨signal, ⟨row, hrow, hsignal⟩, hfeed⟩
  · rintro h ⟨signal, ⟨row, hrow, hsignal⟩, hfeed⟩
    exact h row hrow signal hsignal hfeed

/-- The screen when the last row of a frame has been written, before the cursor goes back. -/
def Screen.afterRows (s : Screen) (frame : List (List Signal)) : Screen :=
  ((idle s).receiveAll (Signal.encodeAll
    (frame.flatMap fun row => .lineBreak :: .clearLine :: row))).screen

/-- Whatever is on the screen, the erasure blanks the lines below the cursor that the frame takes and no
others. -/
def TakesBack (erasure : List Signal) (frame : List (List Signal)) : Prop :=
  ∀ (s : Screen) i, ((idle s).receiveAll (Signal.encodeAll erasure)).screen.lines i =
    if s.row < i ∧ i ≤ (s.afterRows frame).row then [] else s.lines i

/-- The signals are nothing but texts. -/
def IsText (row : List Signal) : Prop := ∀ signal ∈ row, ∃ style content, signal = .text style content

namespace Painter

variable {c : Candidate}

theorem isText_row (isSelected : Bool) : IsText (p.row palette isSelected c) := by
  unfold row
  refine List.forall_mem_cons.2 ⟨⟨_, _, rfl⟩, ?_⟩
  cases c.description with
  | none => exact nofun
  | some description =>
    exact List.forall_mem_cons.2 ⟨⟨_, _, rfl⟩, List.forall_mem_singleton.2 ⟨_, _, rfl⟩⟩

theorem isText_of_mem_frame {call : Call} {row : List Signal} (hrow : row ∈ call.frame p) :
    IsText row := by
  cases call with
  | erase => cases hrow
  | render palette m =>
    unfold Call.frame at hrow
    dsimp only at hrow
    split at hrow
    · rw [rows_eq] at hrow
      rcases List.mem_append.1 hrow with hrow | hrow
      · obtain ⟨e, _, rfl⟩ := List.mem_map.1 hrow
        exact isText_row _
      · split at hrow
        · rw [List.mem_singleton.1 hrow]
          exact List.forall_mem_singleton.2 ⟨_, _, rfl⟩
        · cases hrow
    · cases hrow

end Painter

namespace Screen

open Terminal (PrintableLines)

/-- A row of text goes on to a further row at each of its line feeds. -/
theorem receiveAll_textRow (s : Screen) {row : List Signal} (htext : IsText row)
    (hcontent : ∀ signal ∈ row, PrintableLines signal.content) :
    ∃ s' : Screen, (idle s).receiveAll (Signal.encodeAll row) = idle s' ∧
      s'.row = s.row + (row.flatMap Signal.content).count '\n' := by
  induction row generalizing s with
  | nil => exact ⟨s, rfl, rfl⟩
  | cons signal row ih =>
    obtain ⟨⟨style, content, rfl⟩, htextRest⟩ := List.forall_mem_cons.1 htext
    obtain ⟨hfirst, hcontentRest⟩ := List.forall_mem_cons.1 hcontent
    obtain ⟨s₁, hs₁, hrow₁⟩ :=
      @Terminal.receiveAll_printableLines ⟨s, style.parameters, .text⟩ rfl content hfirst
    obtain ⟨s₂, hs₂, hrow₂⟩ := ih s₁ htextRest hcontentRest
    refine ⟨s₂, ?_, ?_⟩
    · have hpaint : (idle s).receiveAll (Signal.text style content).encode = idle s₁ :=
        Terminal.receiveAll_paint_of hs₁
      rw [← hs₂, ← hpaint, Signal.encodeAll, List.flatMap_cons, Terminal.receiveAll_append]
      rfl
    · rw [hrow₂, hrow₁, List.flatMap_cons, List.count_append, Nat.add_assoc]
      rfl

/-- A frame takes as many rows as it has and one more for each line feed in their texts. -/
theorem row_afterRows (s : Screen) {frame : List (List Signal)} (htext : ∀ row ∈ frame, IsText row)
    (hcontent : ∀ row ∈ frame, ∀ signal ∈ row, PrintableLines signal.content) :
    (s.afterRows frame).row = s.row + frame.length + lineFeeds frame := by
  have hall : ∃ s' : Screen, (idle s).receiveAll (Signal.encodeAll
      (frame.flatMap fun row => .lineBreak :: .clearLine :: row)) = idle s' ∧
        s'.row = s.row + frame.length + lineFeeds frame := by
    induction frame generalizing s with
    | nil => exact ⟨s, rfl, rfl⟩
    | cons row frame ih =>
      obtain ⟨hrow, htextRest⟩ := List.forall_mem_cons.1 htext
      obtain ⟨hfirst, hcontentRest⟩ := List.forall_mem_cons.1 hcontent
      have hbegin : (idle s).receiveAll (Signal.encodeAll [.lineBreak, .clearLine]) =
          idle (s.actAll [.lineBreak, .clearLine]) :=
        Terminal.receiveAll_encodeAll s (by simp [Signal.IsPrintable])
      obtain ⟨s₁, hs₁, hrow₁⟩ := receiveAll_textRow (s.actAll [.lineBreak, .clearLine]) hrow hfirst
      obtain ⟨s₂, hs₂, hrow₂⟩ := ih s₁ htextRest hcontentRest
      refine ⟨s₂, ?_, ?_⟩
      · have hsplit : (row :: frame).flatMap (fun row => Signal.lineBreak :: .clearLine :: row) =
            [.lineBreak, .clearLine] ++ (row ++
              frame.flatMap fun row => .lineBreak :: .clearLine :: row) := by simp
        rw [hsplit, Signal.encodeAll_append, Signal.encodeAll_append, Terminal.receiveAll_append,
          Terminal.receiveAll_append, hbegin, hs₁, hs₂]
      · have hstart : (s.actAll [.lineBreak, .clearLine]).row = s.row + 1 := rfl
        have hfeeds : lineFeeds (row :: frame) =
            (row.flatMap Signal.content).count '\n' + lineFeeds frame := by
          simp [lineFeeds]
        rw [hrow₂, hrow₁, hstart, hfeeds, List.length_cons]
        omega
  obtain ⟨s', hs', hrow⟩ := hall
  rw [afterRows, hs']
  exact hrow

end Screen

/-! ## Taking a frame back -/

namespace Painter

theorem drawn_render (p : Painter) (palette : Palette) (m : Menu) :
    (p.render palette m).1.drawn = ((Call.render palette m).frame p).length := by
  unfold render Call.frame
  dsimp only
  split <;> rfl

theorem eraseSignals_prefix_perform (p : Painter) (call : Call) :
    p.eraseSignals <+: (p.perform call).2 := by
  cases call with
  | erase => exact List.prefix_rfl
  | render palette m =>
    unfold perform render
    dsimp only
    split
    · exact List.prefix_append ..
    · exact List.prefix_rfl

theorem length_frame_render :
    ((Call.render palette m).frame p).length =
      if m.isActive then
        min m.size p.rowLimit + if p.showsPosition && p.rowLimit < m.size then 1 else 0
      else 0 := by
  unfold Call.frame
  dsimp only
  split
  · exact length_rows
  · rfl

/-- Whatever comes after a frame begins with its erasure. This goes down as far as it comes up, row by
row, and ends up where it began, if and only if the frame has no more rows than a 16-bit word can count;
it has those that fit of its menu, and one for the position. Where its texts have no control characters
but line feeds, the erasure blanks exactly the rows that were drawn, whatever the screen, if and only if
there are no line feeds either. -/
theorem a_frame_is_taken_back_unless_it_is_too_long_or_breaks_a_row (p : Painter)
    (palette : Palette) (m : Menu) :
    let q := (p.render palette m).1
    let frame := (Call.render palette m).frame p
    let moves := q.eraseSignals.filterMap Signal.move?
    q.drawn = frame.length ∧
      (frame.length =
        if m.isActive then
          min m.size p.rowLimit + if p.showsPosition && p.rowLimit < m.size then 1 else 0
        else 0) ∧
      (∀ call, q.eraseSignals <+: (q.perform call).2) ∧
      (moves = thereAndBack q.drawn ↔ frame.length < 65536) ∧
      (descent moves = 0 ↔ frame.length < 65536) ∧
      ((∀ row ∈ frame, ∀ signal ∈ row, Terminal.PrintableLines signal.content) →
        (TakesBack q.eraseSignals frame ↔
          frame.length < 65536 ∧ ∀ row ∈ frame, ∀ signal ∈ row, '\n' ∉ signal.content)) := by
  intro q frame moves
  have hdrawn : q.drawn = frame.length := drawn_render p palette m
  refine ⟨hdrawn, length_frame_render, eraseSignals_prefix_perform q, ?_, ?_, ?_⟩
  · rw [← hdrawn]
    exact moves_eraseSignals_iff q
  · rw [← hdrawn]
    exact descent_eraseSignals_iff q
  · intro hcontent
    have htext : ∀ row ∈ frame, IsText row := fun row => isText_of_mem_frame
    have hnone : q.drawn = 0 → q.drawn + lineFeeds frame = 0 := by
      intro hzero
      rw [hdrawn, List.length_eq_zero_iff] at hzero
      rw [hdrawn, hzero]
      rfl
    have hlines := Screen.lines_eraseSignals_iff q (q.drawn + lineFeeds frame) (by omega) hnone
    have hfeeds : q.drawn + lineFeeds frame = q.drawn ↔ lineFeeds frame = 0 := by omega
    rw [hfeeds, lineFeeds_eq_zero_iff, hdrawn] at hlines
    rw [← hlines]
    refine forall₂_congr fun s i => ?_
    rw [Terminal.receiveAll_encodeAll s isPrintable_eraseSignals,
      Screen.row_afterRows s htext hcontent, Nat.add_assoc]
    rfl

/-- The row of a fruit and the one that tells its position are blanked on the way up. -/
theorem the_fruit_and_its_position_are_taken_back :
    let fruit (name : Text) : Candidate := ⟨name, .other, 0, [], none, none, none⟩
    let m := Menu.ofList [fruit "fig".toList, fruit "kiwi".toList]
    let p : Painter := { rowLimit := 1, labelWidth := 4 }
    let frame := (Call.render .plain m).frame p
    let erasure := (p.render .plain m).1.eraseSignals
    frame.length = 2 ∧ erasure.filterMap Signal.move? = [2, -1, -1] ∧
      TakesBack erasure frame := by
  intro fruit m p frame erasure
  obtain ⟨hdrawn, _, _, hmoves, _, hlines⟩ :=
    a_frame_is_taken_back_unless_it_is_too_long_or_breaks_a_row p .plain m
  have hlength : frame.length = 2 := by decide +kernel
  have hcontent : ∀ row ∈ frame, ∀ signal ∈ row, Terminal.PrintableLines signal.content := by
    decide +kernel
  have hfeeds : ∀ row ∈ frame, ∀ signal ∈ row, '\n' ∉ signal.content := by decide +kernel
  have hshort : frame.length < 65536 := by omega
  refine ⟨hlength, ?_, (hlines hcontent).2 ⟨hshort, hfeeds⟩⟩
  refine (hmoves.2 hshort).trans ?_
  rw [hdrawn.trans hlength]
  rfl

/-- With valid settings: to erase 65536 rows the cursor goes down by one row and up by all of them, and of
a fruit with a line feed in its description the second row stays. -/
theorem neither_65536_rows_nor_a_broken_row_are_taken_back :
    let fig : Candidate := ⟨"fig".toList, .other, 0, [], none, none, none⟩
    let broken : Candidate := ⟨"fig".toList, .other, 0, [], none, some "a\nb".toList, none⟩
    let usual := Settings.default "/home".toList
    let long : Settings := { usual with menu := { maxVisible := 65536 } }
    let q := (long.menu.painter.render .plain (.ofList (List.replicate 65536 fig))).1
    let r := (usual.menu.painter.render .plain (.ofList [broken])).1
    let output := (usual.menu.painter.render .plain (.ofList [broken])).2
    let start : Screen := ⟨0, 0, fun _ => [], true, (0, 0)⟩
    long.isValid = true ∧ usual.isValid = true ∧
      q.drawn = 65536 ∧
      q.eraseSignals.filterMap Signal.move? = 1 :: List.replicate 65536 (-1) ∧
      descent (q.eraseSignals.filterMap Signal.move?) = -65535 ∧
      r.drawn = 1 ∧
      ((((idle start).receiveAll (Signal.encodeAll output)).receiveAll
        (Signal.encodeAll r.eraseSignals)).screen.lines 2).getLast? = some ⟨'b', []⟩ := by
  intro fig broken usual long q r output start
  have hdrawn : q.drawn = 65536 := by
    rw [drawn_render, length_frame_render, Menu.size, Menu.ofList, List.length_replicate]
    rfl
  have hmoves : q.eraseSignals.filterMap Signal.move? = 1 :: List.replicate 65536 (-1) := by
    rw [moves_eraseSignals, hdrawn]
    rfl
  have hlong : long.isValid = true := by decide
  have husual : usual.isValid = true := by decide
  have hbroken : r.drawn = 1 := by decide +kernel
  refine ⟨hlong, husual, hdrawn, hmoves, ?_, hbroken, by decide +kernel⟩
  rw [hmoves, descent_cons, descent_replicate]
  rfl

end Painter

end Typeahead
