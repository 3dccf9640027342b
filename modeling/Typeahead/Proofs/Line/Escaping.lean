import Typeahead.Proofs.Line.Quoting

/-!
Escapes told by counting. The quoting machine keeps one bit for them, and this bit is the parity of the
backslashes read last. So a quoted run that is read by a machine of its own ends behind the first mark
like its own that has an even number of backslashes before it, wherever the run stands.
-/
namespace Typeahead

variable {text rest : Text} {i start : Nat} {c mark : Char} {s : QuoteScan}

/-! ## Inside of a quoted run -/

theorem Text.escapedAt_succ (h : text[i]? = some c) :
    text.escapedAt (i + 1) = (!text.escapedAt i && c = '\\') := by
  rw [escapedAt_eq, escapedAt_eq, QuoteScan.run_take_succ h, QuoteScan.escaped_step]

namespace QuoteScan

/-- The machine reads a run that the mark opened. Whether it takes the next character literally is told
by the backslashes before the position, also by those that the machine has not read. -/
structure IsInside (text : Text) (mark : Char) (i : Nat) (s : QuoteScan) : Prop where
  quote : s.quote = Quote.opening mark
  escaped : s.escaped = text.escapedAt i

/-- A fresh machine is inside after the mark. -/
theorem isInside_step_mark (hmark : text[start]? = some mark) (hquote : isQuoteMark mark = true) :
    IsInside text mark (start + 1) (step {} mark) := by
  have hslash : mark ≠ '\\' := by
    rintro rfl
    cases hquote
  constructor
  · exact Lexeme.quote_step_idle mark
  · rw [Text.escapedAt_succ hmark, escaped_step]
    simp [hslash]

/-- A character that is no bare mark leaves the machine inside. -/
theorem IsInside.step (h : IsInside text mark i s) (hquote : isQuoteMark mark = true)
    (hc : text[i]? = some c) (hother : text.bareAt (· == mark) i = false) :
    IsInside text mark (i + 1) (s.step c) := by
  have hescaped : (s.step c).escaped = text.escapedAt (i + 1) := by
    rw [escaped_step, h.escaped, Text.escapedAt_succ hc]
  refine ⟨?_, hescaped⟩
  rw [Text.bareAt_of_getElem? hc, ← h.escaped] at hother
  obtain ⟨quote, escaped⟩ := s
  obtain ⟨rfl, _⟩ := h
  cases escaped with
  | true => rfl
  | false =>
    have hne : mark ≠ c := by
      rintro rfl
      simp at hother
    by_cases hslash : c = '\\'
    · simp [QuoteScan.step, hslash]
    · rcases isQuoteMark_iff.1 hquote with rfl | rfl <;>
        simp [QuoteScan.step, Quote.opening, Quote.closing?, hslash, hne]

/-- A bare mark closes the run. -/
theorem IsInside.close (h : IsInside text mark i s) (hquote : isQuoteMark mark = true)
    (hc : text[i]? = some c) (hbare : text.bareAt (· == mark) i = true) :
    (s.step c).quote = .none := by
  rw [Text.bareAt_of_getElem? hc, ← h.escaped, Bool.and_eq_true, beq_iff_eq,
    Bool.not_eq_true'] at hbare
  obtain ⟨quote, escaped⟩ := s
  obtain ⟨rfl, _⟩ := h
  obtain ⟨rfl, rfl⟩ := hbare
  rcases isQuoteMark_iff.1 hquote with rfl | rfl <;> rfl

/-- The machine counts the characters up to the first bare mark and this mark, or else those up to the
end. -/
theorem IsInside.charsToClose? (h : IsInside text mark i s) (hquote : isQuoteMark mark = true)
    (hrest : text.drop i = rest) (hle : i ≤ text.length) :
    ∃ last, text.IsFirst (text.bareAt (· == mark)) i last ∧
      ((charsToClose? s rest).map (i + ·)).getD text.length = min (last + 1) text.length := by
  induction rest generalizing i s with
  | nil =>
    have hend : i = text.length := Nat.le_antisymm hle (List.drop_eq_nil_iff.1 hrest)
    subst hend
    refine ⟨_, ⟨Nat.le_refl _, Nat.le_refl _, .self, fun hlt => absurd hlt (Nat.lt_irrefl _)⟩, ?_⟩
    rw [Nat.min_eq_right (Nat.le_succ _)]
    rfl
  | cons c cs ih =>
    obtain ⟨hc, hcs⟩ := Text.of_drop_eq_cons hrest
    have hlt : i < text.length := (List.getElem?_eq_some_iff.1 hc).1
    unfold Typeahead.charsToClose?
    cases hbare : text.bareAt (· == mark) i with
    | true =>
      refine ⟨i, ⟨Nat.le_refl _, hle, .self, fun _ => hbare⟩, ?_⟩
      have hnone : ((s.step c).quote.isOpen = true) = False := by
        rw [h.close hquote hc hbare]
        simp [Quote.isOpen]
      rw [if_neg (by simp [hnone]), Nat.min_eq_left hlt]
      rfl
    | false =>
      have hinside := h.step hquote hc hbare
      obtain ⟨last, hfirst, hlength⟩ := ih hinside hcs hlt
      refine ⟨last, hfirst.of_succ hbare, ?_⟩
      have hopen : (s.step c).quote.isOpen = true := by
        rw [hinside.quote]
        exact isOpen_opening hquote
      have hshift : (fun n => i + n) ∘ (· + 1) = (i + 1 + ·) := by
        funext n
        exact Nat.add_right_comm i n 1
      rw [if_pos hopen, Option.map_map, hshift, hlength]

end QuoteScan

/-! ## The end of a quoted run -/

/-- The mark stands at the position, and an even number of backslashes right before it. -/
def Closes (text : Text) (mark : Char) (i : Nat) : Prop :=
  text[i]? = some mark ∧ Text.backslashesAtEnd (text.take i) % 2 = 0

instance : Decidable (Closes text mark i) :=
  inferInstanceAs (Decidable (_ ∧ _))

theorem bareAt_eq_true_iff : text.bareAt (· == mark) i = true ↔ Closes text mark i := by
  unfold Closes Text.bareAt Text.escapedAt Text.holdsAt
  rcases text[i]? with _ | c
  · simp
  · simp

/-- A quoted run goes up to the first bare mark and this mark, or else to the end. -/
theorem exists_isFirst_stringEnd (hmark : text[start]? = some mark)
    (hquote : isQuoteMark mark = true) :
    ∃ last, text.IsFirst (text.bareAt (· == mark)) (start + 1) last ∧
      stringEnd text start = min (last + 1) text.length := by
  obtain ⟨hlt, hget⟩ := List.getElem?_eq_some_iff.1 hmark
  have hinside := QuoteScan.isInside_step_mark hmark hquote
  obtain ⟨last, hfirst, hlength⟩ := hinside.charsToClose? hquote rfl hlt
  refine ⟨last, hfirst, ?_⟩
  rw [← hlength]
  unfold stringEnd
  rw [List.drop_eq_getElem_cons hlt, hget]
  dsimp only
  rw [if_pos hquote]
  cases charsToClose? (QuoteScan.step {} mark) (text.drop (start + 1)) <;> rfl

/-- A character is escaped behind an odd number of backslashes. From a quote mark on, wherever it
stands, a quoted run ends behind the first mark like it with an even number of backslashes before it, or
at the end of the text if there is none, and so it is not empty. -/
theorem the_parity_of_the_backslashes_tells_what_is_escaped (text : Text) (start : Nat) :
    ((QuoteScan.run {} text).escaped = true ↔ text.backslashesAtEnd % 2 = 1) ∧
    ∀ mark, text[start]? = some mark → isQuoteMark mark = true →
      (∀ j, start < j → Closes text mark j → (∀ i < j, start < i → ¬Closes text mark i) →
        stringEnd text start = j + 1) ∧
      ((∀ j, start < j → ¬Closes text mark j) → stringEnd text start = text.length) ∧
      start < stringEnd text start := by
  constructor
  · rw [QuoteScan.escaped_run, decide_eq_true_iff]
  · intro mark hmark hquote
    obtain ⟨last, hfirst, hend⟩ := exists_isFirst_stringEnd hmark hquote
    obtain ⟨hstart, _⟩ := List.getElem?_eq_some_iff.1 hmark
    have hafter := hfirst.start_le
    refine ⟨?_, ?_, by omega⟩
    · intro j hj hcloses hnone
      have hlength := (List.getElem?_eq_some_iff.1 hcloses.1).1
      have hle : last ≤ j := hfirst.le_of_holds hj (bareAt_eq_true_iff.2 hcloses)
      have hlast := bareAt_eq_true_iff.1 (hfirst.here (by omega))
      have hge : ¬last < j := fun hlt => hnone last hlt hafter hlast
      omega
    · intro hnone
      have hle := hfirst.stop_le
      have hge : ¬last < text.length := fun hlt =>
        hnone last hafter (bareAt_eq_true_iff.1 (hfirst.here hlt))
      omega

/-- An escaped apostrophe stays in its run, and the one that closes the run opens none that ends. -/
theorem the_escaped_apostrophe_stays_in_its_run :
    let text : Text := "x 'it\\'s' \\".toList
    Closes text '\'' 8 ∧ (∀ i < 8, 2 < i → ¬Closes text '\'' i) ∧ stringEnd text 2 = 9 ∧
      (∀ j, 8 < j → ¬Closes text '\'' j) ∧ stringEnd text 8 = text.length ∧
      2 < stringEnd text 2 ∧
      ((QuoteScan.run {} text).escaped = true ↔ text.backslashesAtEnd % 2 = 1) := by
  intro text
  have hcloses : Closes text '\'' 8 := by decide
  have hbefore : ∀ i < 8, 2 < i → ¬Closes text '\'' i := by decide
  have hbehind : ∀ j, 8 < j → ¬Closes text '\'' j := by
    intro j hj hcloses
    have hall : ∀ j < 11, 8 < j → ¬Closes text '\'' j := by decide
    exact hall j (List.getElem?_eq_some_iff.1 hcloses.1).1 hj hcloses
  obtain ⟨hescaped, hruns⟩ := the_parity_of_the_backslashes_tells_what_is_escaped text 2
  obtain ⟨hend, _, hlt⟩ := hruns '\'' rfl rfl
  obtain ⟨_, hopen, _⟩ :=
    (the_parity_of_the_backslashes_tells_what_is_escaped text 8).2 '\'' rfl rfl
  exact ⟨hcloses, hbefore, hend 8 (by decide) hcloses hbefore, hbehind, hopen hbehind, hlt, hescaped⟩

end Typeahead
