import Mathlib.Tactic.Tauto
import Typeahead.Proofs.Candidate.Ranking

/-!
How far the comparison of candidates is an order. Turned around it gives the opposite answer,
always. But a score that is no number ranks like every score of its group, so it can stand between
two that are not in order, and rank like one of two that differ.
-/
namespace Typeahead

namespace Score

variable {x y z : Float}

/-! ## Scores that are no numbers -/

theorem isNaN_eq_false_of_place {p : Place} (h : place? x = some p) : x.isNaN = false := by
  change x.toModel.unpack.isNaN = false
  unfold place? at h
  cases hx : x.toModel.unpack with
  | notANumber =>
    rw [hx] at h
    cases h
  | infinity _ => rfl
  | zero _ => rfl
  | finite _ _ _ _ => rfl

/-- Only numbers are below and above others. -/
theorem isNaN_of_lt (h : x < y) : x.isNaN = false ∧ y.isNaN = false := by
  obtain ⟨p, q, hp, hq, _⟩ := exists_places_of_lt h
  exact ⟨isNaN_eq_false_of_place hp, isNaN_eq_false_of_place hq⟩

theorem not_lt_of_lt (h : x < y) : ¬y < x :=
  fun hback => not_lt_self x (lt_of_lt_of_le h (le_of_lt hback))

/-- A number is above the lower of two others or below the upper one. -/
theorem lt_or_lt_of_lt (hy : y.isNaN = false) (h : x < z) : x < y ∨ y < z := by
  obtain ⟨p, r, hp, hr, hlt⟩ := exists_places_of_lt h
  obtain ⟨q, hq⟩ := exists_place hy
  rw [lt_iff hp hq, lt_iff hq hr]
  exact (hlt.lt_or_gt q).symm

end Score

namespace Candidate

variable {a b c : Candidate}

/-! ## The three answers -/

theorem compareRank_eq_lt_iff :
    a.compareRank b = .lt ↔
      a.group.rank < b.group.rank ∨ a.group = b.group ∧ b.score < a.score := by
  unfold compareRank
  rcases Nat.lt_trichotomy a.group.rank b.group.rank with hlt | heq | hgt
  · simp [hlt]
  · have hgroup := Group.rank_injective heq
    by_cases hscore : b.score < a.score
    · simp [hgroup, hscore]
    · by_cases hback : a.score < b.score <;> simp [hgroup, hscore, hback]
  · have hgroup : a.group ≠ b.group := fun h => hgt.ne (congrArg Group.rank h.symm)
    simp [hgt, hgt.not_gt, hgroup]

/-- Turned around, the comparison gives the opposite answer. -/
theorem compareRank_swap (a b : Candidate) : b.compareRank a = (a.compareRank b).swap := by
  unfold compareRank
  rcases Nat.lt_trichotomy a.group.rank b.group.rank with hlt | heq | hgt
  · simp [hlt, hlt.not_gt]
  · by_cases hscore : b.score < a.score
    · simp [heq, hscore, Score.not_lt_of_lt hscore]
    · by_cases hback : a.score < b.score <;> simp [heq, hscore, hback]
  · simp [hgt, hgt.not_gt]

theorem compareRank_eq_gt_iff :
    a.compareRank b = .gt ↔
      b.group.rank < a.group.rank ∨ a.group = b.group ∧ a.score < b.score := by
  rw [compareRank_swap b a, Ordering.swap_eq_gt, compareRank_eq_lt_iff]
  exact or_congr_right (and_congr_left fun _ => eq_comm)

theorem compareRank_eq_eq_iff :
    a.compareRank b = .eq ↔
      a.group = b.group ∧ ¬b.score < a.score ∧ ¬a.score < b.score := by
  constructor
  · intro h
    have hlt : a.compareRank b ≠ .lt := by simp [h]
    have hgt : a.compareRank b ≠ .gt := by simp [h]
    rw [Ne, compareRank_eq_lt_iff, not_or] at hlt
    rw [Ne, compareRank_eq_gt_iff, not_or] at hgt
    have hgroup : a.group = b.group := Group.rank_injective (by omega)
    exact ⟨hgroup, fun hs => hlt.2 ⟨hgroup, hs⟩, fun hs => hgt.2 ⟨hgroup, hs⟩⟩
  · rintro ⟨hgroup, hback, hscore⟩
    unfold compareRank
    simp [hgroup, hback, hscore]

/-! ## Scores that are numbers -/

theorem isScored_iff : a.isScored = true ↔ a.score.isNaN = false := by
  unfold isScored
  rw [Bool.not_eq_true']

/-- A number that is neither below nor above another one is below and above the same scores. -/
theorem lt_iff_of_alike (ha : a.isScored = true) (hb : b.isScored = true)
    (hback : ¬b.score < a.score) (hscore : ¬a.score < b.score) (x : Float) :
    (a.score < x ↔ b.score < x) ∧ (x < a.score ↔ x < b.score) := by
  rw [isScored_iff] at ha hb
  refine ⟨⟨fun h => ?_, fun h => ?_⟩, fun h => ?_, fun h => ?_⟩
  · exact (Score.lt_or_lt_of_lt hb h).resolve_left hscore
  · exact (Score.lt_or_lt_of_lt ha h).resolve_left hback
  · exact (Score.lt_or_lt_of_lt hb h).resolve_right hback
  · exact (Score.lt_or_lt_of_lt ha h).resolve_right hscore

/-- A score that is no number is neither below nor above any other. -/
theorem not_lt_of_not_isScored (h : a.isScored = false) (x : Float) :
    ¬a.score < x ∧ ¬x < a.score := by
  have hnot : a.score.isNaN ≠ false := mt isScored_iff.2 (Bool.eq_false_iff.1 h)
  exact ⟨fun hlt => hnot (Score.isNaN_of_lt hlt).1, fun hlt => hnot (Score.isNaN_of_lt hlt).2⟩

/-! ## Three candidates -/

/-- Of three candidates in a row the first ranks behind the last only across a score that is no
number. -/
theorem compareRank_eq_gt_iff_of_ne_gt (hab : a.compareRank b ≠ .gt) (hbc : b.compareRank c ≠ .gt) :
    a.compareRank c = .gt ↔
      b.isScored = false ∧ a.group = b.group ∧ b.group = c.group ∧ a.score < c.score := by
  rw [Ne, compareRank_eq_gt_iff, not_or] at hab hbc
  obtain ⟨hrank, hscore⟩ := hab
  obtain ⟨hrank', hscore'⟩ := hbc
  rw [compareRank_eq_gt_iff]
  constructor
  · rintro (hlt | ⟨hgroup, hlt⟩)
    · omega
    · have hfirst : a.group = b.group := by
        rw [hgroup] at hrank ⊢
        exact Group.rank_injective (by omega)
      have hlast : b.group = c.group := hfirst.symm.trans hgroup
      refine ⟨?_, hfirst, hlast, hlt⟩
      rw [Bool.eq_false_iff]
      intro hb
      rcases Score.lt_or_lt_of_lt (isScored_iff.1 hb) hlt with h | h
      · exact hscore ⟨hfirst, h⟩
      · exact hscore' ⟨hlast, h⟩
  · rintro ⟨_, hfirst, hlast, hlt⟩
    exact Or.inr ⟨hfirst.trans hlast, hlt⟩

/-- A score that is no number ranks like every score of its group. -/
theorem compareRank_of_not_isScored (ha : a.isScored = false) (hgroup : a.group = c.group) :
    a.compareRank c = .eq :=
  compareRank_eq_eq_iff.2 ⟨hgroup, (not_lt_of_not_isScored ha _).2, (not_lt_of_not_isScored ha _).1⟩

theorem compareRank_ne_eq_iff (hgroup : a.group = c.group) :
    a.compareRank c ≠ .eq ↔ a.score < c.score ∨ c.score < a.score := by
  rw [Ne, compareRank_eq_eq_iff]
  simp only [hgroup, true_and]
  tauto

/-- Two candidates that rank alike compare alike to a third one, unless one of the two scores is no
number and the other is below or above the third. -/
theorem compareRank_ne_iff_of_eq (h : a.compareRank b = .eq) :
    a.compareRank c ≠ b.compareRank c ↔
      a.group = c.group ∧
        (a.isScored = false ∧ (b.score < c.score ∨ c.score < b.score) ∨
          b.isScored = false ∧ (a.score < c.score ∨ c.score < a.score)) := by
  obtain ⟨hgroup, hback, hscore⟩ := compareRank_eq_eq_iff.1 h
  by_cases hc : a.group = c.group
  · simp only [hc, true_and]
    have hc' : b.group = c.group := hgroup.symm.trans hc
    cases ha : a.isScored with
    | false =>
      rw [compareRank_of_not_isScored ha hc, ne_comm, compareRank_ne_eq_iff hc']
      have hnot := not_lt_of_not_isScored ha c.score
      simp [hnot.1, hnot.2]
    | true =>
      cases hb : b.isScored with
      | false =>
        rw [compareRank_of_not_isScored hb hc', compareRank_ne_eq_iff hc]
        simp
      | true =>
        have halike := lt_iff_of_alike ha hb hback hscore c.score
        simp [compareRank, hgroup, halike.1, halike.2]
  · -- The groups decide, and they are the same for both.
    have hsame : a.compareRank c = b.compareRank c := by
      have hne : b.group.rank ≠ c.group.rank := fun h =>
        hc (hgroup.trans (Group.rank_injective h))
      unfold compareRank
      rw [hgroup]
      rcases Nat.lt_or_gt_of_ne hne with hlt | hgt
      · simp [hlt]
      · simp [hgt, hgt.not_gt]
    simp [hsame, hc]

/-! ## The laws of the comparison -/

/-- The comparison turned around gives the opposite answer. What ranks no later than something that
ranks no later than a third ranks no later than the third, unless all are in one group, the score in
the middle is no number, and the first score is below the last. What ranks alike compares alike to
everything in other groups, and in its own group unless one of the two scores is no number and the
other one differs from the third. -/
theorem the_comparison_is_an_order_but_for_scores_that_are_no_numbers (a b c : Candidate) :
    b.compareRank a = (a.compareRank b).swap ∧
      (a.compareRank b ≠ .gt → b.compareRank c ≠ .gt →
        (a.compareRank c = .gt ↔
          b.isScored = false ∧ a.group = b.group ∧ b.group = c.group ∧ a.score < c.score)) ∧
      (a.compareRank b = .eq →
        (a.compareRank c ≠ b.compareRank c ↔
          a.group = c.group ∧
            (a.isScored = false ∧ (b.score < c.score ∨ c.score < b.score) ∨
              b.isScored = false ∧ (a.score < c.score ∨ c.score < a.score)))) :=
  ⟨compareRank_swap a b, compareRank_eq_gt_iff_of_ne_gt, compareRank_ne_iff_of_eq⟩

/-- A pear between two others of its group keeps them in order. -/
theorem the_pear_in_the_middle_keeps_the_order :
    let pear (score : Float) : Candidate := ⟨"pear".toList, .entity, score, [], none, none, none⟩
    (pear 3).compareRank (pear 2) ≠ .gt ∧ (pear 2).compareRank (pear 1) ≠ .gt ∧
      (pear 3).compareRank (pear 1) ≠ .gt := by
  intro pear
  have hfirst : (pear 3).compareRank (pear 2) ≠ .gt := by decide +kernel
  have hlast : (pear 2).compareRank (pear 1) ≠ .gt := by decide +kernel
  refine ⟨hfirst, hlast, fun hgt => ?_⟩
  have hlaws := the_comparison_is_an_order_but_for_scores_that_are_no_numbers
    (pear 3) (pear 2) (pear 1)
  have hnone := ((hlaws.2.1 hfirst hlast).1 hgt).1
  exact absurd hnone (by decide +kernel)

/-- A fig whose score is no number ranks like a worse one and like a better one. Between the two in
the list it keeps the worse one in front. -/
theorem the_fig_without_a_number_ranks_like_both :
    let fig (name : String) (score : Float) : Candidate :=
      ⟨name.toList, .entity, score, [], none, none, none⟩
    let worse := fig "worse" 1
    let odd := fig "odd" (0 / 0)
    let better := fig "better" 2
    worse.compareRank odd = .eq ∧ odd.compareRank better = .eq ∧ worse.compareRank better = .gt ∧
      (ranked [worse, odd, better]).map value =
        ["worse".toList, "odd".toList, "better".toList] := by
  decide +kernel

end Candidate

end Typeahead
