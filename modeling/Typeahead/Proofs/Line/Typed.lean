import Typeahead.Line.Snapshot

/-!
What a trigger says was typed. It stands in the line right before the cursor, so an accepted
candidate takes the place of just these characters.
-/
namespace Typeahead

/-- The line with the characters between two positions replaced. -/
def Text.splice (line : Text) (range : Nat × Nat) (text : Text) : Text :=
  line.take range.1 ++ text ++ line.drop range.2

theorem Text.splice_middle (pre middle post text : Text) :
    (pre ++ middle ++ post).splice (pre.length, pre.length + middle.length) text =
      pre ++ text ++ post := by
  have hdrop : (pre ++ middle ++ post).drop (pre.length + middle.length) = post :=
    List.drop_left' List.length_append
  have htake : (pre ++ middle ++ post).take pre.length = pre := by
    rw [List.append_assoc]
    exact List.take_left
  unfold splice
  rw [htake, hdrop]

theorem Text.drop_length_takeWhile (t : Text) (p : Char → Bool) :
    t.drop (t.takeWhile p).length = t.dropWhile p := by
  have hcut := List.takeWhile_append_dropWhile (p := p) (l := t)
  exact List.append_cancel_left
    ((List.prefix_iff_eq_append.1 (List.takeWhile_prefix _)).trans hcut.symm)

namespace Trigger

variable {line word : Text} {cursor start : Nat} {mode : Mode} {t : Trigger}

/-! ## What each rule takes as typed -/

theorem lastRun_suffix (t : Text) : lastRun t <:+ t := by
  have hprefix := List.takeWhile_prefix (fun c => !Text.isBlank c) (l := t.reverse)
  rw [← List.reverse_suffix, List.reverse_reverse] at hprefix
  exact hprefix

/-- The first word stands at its position. -/
theorem firstWord?_prefix (h : firstWord? line = some (start, word)) :
    word <+: line.drop start := by
  unfold firstWord? at h
  split at h
  · cases h
  · cases h
    rw [Text.drop_length_takeWhile]
    exact List.takeWhile_prefix _

theorem typed_mention? (h : mention? line cursor = some t) : t.typed <:+ line.take cursor := by
  unfold mention? at h
  dsimp only at h
  split at h
  · rename_i typed hrun
    split at h
    · cases h
    · cases h
      have hsuffix := lastRun_suffix (line.take cursor)
      rw [hrun] at hsuffix
      exact (List.suffix_cons _ _).trans hsuffix
  · cases h

theorem typed_slash? (h : slash? line cursor = some t) : t.typed <:+ line.take cursor := by
  unfold slash? at h
  split at h
  · cases h
    exact List.drop_suffix _ _
  · cases h

theorem typed_command? (h : command? line cursor = some t) : t.typed <:+ line.take cursor := by
  unfold command? at h
  split at h
  · cases h
    exact List.nil_suffix
  · rename_i start word hword
    split at h
    · rename_i hcursor
      cases h
      simp only [Bool.and_eq_true, decide_eq_true_eq] at hcursor
      have hprefix := firstWord?_prefix hword
      -- The cursor stands in the word, so its part of the word is cut from the line before it.
      have htake : word.take (cursor - start) = (line.take cursor).drop start := by
        obtain ⟨rest, hrest⟩ := hprefix
        rw [List.drop_take, ← hrest, List.take_append_of_le_length (by omega)]
      rw [htake]
      exact List.drop_suffix _ _
    · cases h

theorem typed_argument? (h : argument? line cursor = some t) : t.typed <:+ line.take cursor := by
  unfold argument? at h
  split at h
  · cases h
  · split at h
    · cases h
    · split at h
      · cases h
      · cases h
        exact lastRun_suffix _

/-! ## The trigger -/

/-- A trigger is that of one of the rules; two of them ask for a shell. -/
theorem detect_cases (line : Text) (cursor : Nat) (mode : Mode) :
    detect line cursor mode = inactive ∨
      mention? line (min cursor line.length) = some (detect line cursor mode) ∨
      slash? line (min cursor line.length) = some (detect line cursor mode) ∨
      mode = .shell ∧ command? line (min cursor line.length) = some (detect line cursor mode) ∨
      mode = .shell ∧ argument? line (min cursor line.length) = some (detect line cursor mode) := by
  unfold detect
  dsimp only
  rcases hm : mention? line (min cursor line.length) with _ | t
  · rcases hs : slash? line (min cursor line.length) with _ | t
    · by_cases hmode : mode = .shell
      · rw [if_pos hmode]
        rcases hc : command? line (min cursor line.length) with _ | t
        · rcases ha : argument? line (min cursor line.length) with _ | t
          · exact Or.inl rfl
          · exact Or.inr (Or.inr (Or.inr (Or.inr ⟨hmode, rfl⟩)))
        · exact Or.inr (Or.inr (Or.inr (Or.inl ⟨hmode, rfl⟩)))
      · rw [if_neg hmode]
        exact Or.inl rfl
    · exact Or.inr (Or.inr (Or.inl rfl))
  · exact Or.inr (Or.inl rfl)

/-- The typed text ends at the cursor. -/
theorem typed_detect (line : Text) (cursor : Nat) (mode : Mode) :
    (detect line cursor mode).typed <:+ line.take (min cursor line.length) := by
  rcases detect_cases line cursor mode with h | h | h | ⟨_, h⟩ | ⟨_, h⟩
  · rw [h]
    exact List.nil_suffix
  · exact typed_mention? h
  · exact typed_slash? h
  · exact typed_command? h
  · exact typed_argument? h

end Trigger

namespace Snapshot

/-- An active trigger has positions to replace. -/
theorem replaced?_isSome {s : Snapshot} (h : s.trigger.isActive = true) :
    s.replaced?.isSome = true := by
  unfold replaced? Trigger.replaced?
  rw [if_pos h]
  rfl

/-- The typed text ends at the cursor. -/
theorem typed_ofLine (line : Text) (cursor : Nat) (mode : Mode) (directory : Text)
    (recent : List Text) :
    (ofLine line cursor mode directory recent).trigger.typed <:+
      (ofLine line cursor mode directory recent).before := by
  have htyped := Trigger.typed_detect line (min cursor line.length) mode
  rw [Nat.min_assoc, Nat.min_self] at htyped
  exact htyped

/-- An accepted candidate replaces what was typed, and that ends at the cursor. -/
theorem exists_of_replaced? {s : Snapshot} {range : Nat × Nat} (hcursor : s.cursor ≤ s.line.length)
    (htyped : s.trigger.typed <:+ s.before) (h : s.replaced? = some range) :
    ∃ pre, s.line = pre ++ s.trigger.typed ++ s.after ∧
      range = (pre.length, pre.length + s.trigger.typed.length) := by
  obtain ⟨pre, hpre⟩ := htyped
  have hlength : pre.length + s.trigger.typed.length = s.cursor := by
    rw [← List.length_append, hpre]
    exact List.length_take_of_le hcursor
  refine ⟨pre, ?_, ?_⟩
  · rw [hpre, s.before_append_after]
  · unfold replaced? Trigger.replaced? at h
    split at h
    · cases h
      rw [Prod.mk.injEq]
      omega
    · cases h

end Snapshot

end Typeahead
