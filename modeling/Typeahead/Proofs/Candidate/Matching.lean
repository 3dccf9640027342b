import Typeahead.Candidate
import Typeahead.Text.Blank

/-!
What does not match. A character that has no other small letter stays where it is when a text is
lower-cased, so a candidate without it matches nothing that was typed with it; and a longer name matches
no better.
-/
namespace Typeahead

namespace Text

variable {t before : Text} {c : Char}

/-! ## Characters that stay -/

/-- A character that is its own small letter. -/
def IsSmall (c : Char) : Prop := Lowercase.simple c = c ∧ c ≠ 'Σ' ∧ c ≠ 'İ'

theorem Lowercase.mem_rest (hc : IsSmall c) (h : c ∈ t) : c ∈ rest before t := by
  obtain ⟨hsimple, hsigma, hdotted⟩ := hc
  induction t generalizing before with
  | nil => cases h
  | cons d ds ih =>
    unfold rest
    dsimp only
    rw [List.mem_append]
    rcases List.mem_cons.1 h with rfl | hmem
    · rw [if_neg hsigma, if_neg hdotted, hsimple]
      exact Or.inl List.mem_cons_self
    · exact Or.inr (ih hmem)

theorem mem_lower (hc : IsSmall c) (h : c ∈ t) : c ∈ lower t := Lowercase.mem_rest hc h

theorem Lowercase.rest_eq_self (h : ∀ c ∈ t, IsSmall c) : rest before t = t := by
  induction t generalizing before with
  | nil => rfl
  | cons c cs ih =>
    obtain ⟨⟨hsimple, hsigma, hdotted⟩, hrest⟩ := List.forall_mem_cons.1 h
    unfold rest
    dsimp only
    rw [if_neg hsigma, if_neg hdotted, hsimple, ih hrest]
    rfl

theorem lower_eq_self (h : ∀ c ∈ t, IsSmall c) : lower t = t := Lowercase.rest_eq_self h

/-! ## Where they are -/

/-- No run of capital letters, and neither of the two special capitals, meets the ranges. -/
def Lowercase.avoids (table : List (Nat × Nat)) : Bool :=
  table.all fun (first, last) =>
    (runs.all fun (start, stop, _, _) => last < start || stop < first) &&
      (last < 'Σ'.toNat || 'Σ'.toNat < first) && (last < 'İ'.toNat || 'İ'.toNat < first)

theorem isSmall_of_inRanges {table : List (Nat × Nat)}
    (htable : Lowercase.avoids table = true) (h : inRanges table c = true) : IsSmall c := by
  obtain ⟨⟨first, last⟩, hrange, hc⟩ := List.any_eq_true.1 h
  have havoids := List.all_eq_true.1 htable _ hrange
  simp only [Bool.and_eq_true, Bool.or_eq_true, decide_eq_true_eq, List.all_eq_true] at hc havoids
  obtain ⟨⟨hruns, hsigma⟩, hdotted⟩ := havoids
  refine ⟨?_, ?_, ?_⟩
  · -- The character is outside of every run of capitals, so nothing is written in its place.
    have hnone : Lowercase.runs.find? (fun (first, last, step, _) =>
        first ≤ c.toNat && c.toNat ≤ last && (c.toNat - first) % step == 0) = none := by
      rw [List.find?_eq_none]
      rintro ⟨start, stop, step, small⟩ hrun
      have houtside := hruns _ hrun
      dsimp only at houtside ⊢
      simp only [Bool.and_eq_true, decide_eq_true_eq]
      omega
    unfold Lowercase.simple
    rw [hnone]
  · rintro rfl
    omega
  · rintro rfl
    omega

theorem isSmall_of_isBlank (h : isBlank c = true) : IsSmall c :=
  isSmall_of_inRanges (by decide +kernel) h

/-- The at sign and the small letters of the alphabet are their own small letters. -/
theorem isSmall_of_le (h : inRanges [(0x40, 0x40), (0x61, 0x7A)] c = true) : IsSmall c :=
  isSmall_of_inRanges (by decide +kernel) h

end Text

/-! ## No match -/

/-- A small character that is missing in a candidate keeps it from matching. -/
theorem matchScore_eq_zero {candidate typed : Text} {c : Char} (hc : Text.IsSmall c)
    (htyped : c ∈ typed) (hcandidate : c ∉ candidate) (hlower : c ∉ Text.lower candidate) :
    matchScore candidate typed = 0 := by
  have hempty : typed.isEmpty = false := by
    cases typed with
    | nil => cases htyped
    | cons _ _ => rfl
  have hne : candidate ≠ typed := by
    rintro rfl
    exact hcandidate htyped
  have hprefix : typed.isPrefixOf candidate = false := by
    rw [Bool.eq_false_iff]
    intro hp
    exact hcandidate ((List.isPrefixOf_iff_prefix.1 hp).subset htyped)
  have hlowered : (Text.lower typed).isPrefixOf (Text.lower candidate) = false := by
    rw [Bool.eq_false_iff]
    intro hp
    exact hlower ((List.isPrefixOf_iff_prefix.1 hp).subset (Text.mem_lower hc htyped))
  unfold matchScore
  rw [hempty, hprefix, hlowered]
  simp [hne]

/-! ## Matches -/

theorem matchScore_bounds {candidate typed : Text} (h : 0 < matchScore candidate typed) :
    50 ≤ matchScore candidate typed ∧ matchScore candidate typed ≤ 100 := by
  unfold matchScore at *
  split
  · omega
  · split
    · omega
    · split
      · omega
      · split
        · omega
        · simp_all

/-- A name that goes on with a character that was not typed matches no better. -/
theorem matchScore_concat_le {name typed : Text} {c : Char} (hc : c ∉ typed)
    (h : 0 < matchScore name typed) : matchScore (name ++ [c]) typed ≤ matchScore name typed := by
  have hne : name ++ [c] ≠ typed := by
    rintro rfl
    simp at hc
  have hprefix : typed.isPrefixOf (name ++ [c]) = typed.isPrefixOf name := by
    rw [Bool.eq_iff_iff, List.isPrefixOf_iff_prefix, List.isPrefixOf_iff_prefix,
      List.prefix_concat_iff]
    exact or_iff_right (Ne.symm hne)
  unfold matchScore at h ⊢
  rw [if_neg hne, hprefix]
  by_cases hempty : typed.isEmpty
  · simp [hempty]
  · rw [if_neg hempty] at h
    rw [if_neg hempty, if_neg hempty, List.length_append, List.length_singleton]
    -- The same rule applies to both names, or an earlier one to the shorter name.
    by_cases hname : name = typed
    · rw [if_pos hname]
      split
      · omega
      · split <;> omega
    · rw [if_neg hname] at h ⊢
      by_cases hstart : typed.isPrefixOf name
      · rw [if_pos hstart, if_pos hstart]
        omega
      · rw [if_neg hstart] at h
        rw [if_neg hstart, if_neg hstart]
        split at h
        · split <;> omega
        · omega

end Typeahead
