import Mathlib.Tactic.ByContra
import Mathlib.Tactic.Tauto
import Typeahead.Candidate

/-!
What typing more does to the candidates. Whether one matches does not come back once it is lost, but
for one letter: a capital sigma that ends a word has another small letter than one inside a word, so
a text that ends in it can miss a candidate that matches again when the word goes on.
-/
namespace Typeahead

namespace Text

variable {before after after' t u : Text} {c : Char}

/-! ## A text between two others -/

namespace Lowercase

/-- The small form of a character between the texts before it, last character first, and after
it. -/
def letter (before after : Text) (c : Char) : Text :=
  if c = 'Σ' then [if meetsCased before && !meetsCased after then 'ς' else 'σ']
  else if c = 'İ' then ['i', Char.ofNat 0x307]
  else [simple c]

/-- Lower-cases a text that stands between two others. -/
def between (before after : Text) : Text → Text
  | [] => []
  | c :: cs => letter before (cs ++ after) c ++ between (c :: before) after cs

theorem rest_cons (before : Text) (c : Char) (cs : Text) :
    rest before (c :: cs) = letter before cs c ++ rest (c :: before) cs := rfl

theorem between_cons (before after : Text) (c : Char) (cs : Text) :
    between before after (c :: cs) =
      letter before (cs ++ after) c ++ between (c :: before) after cs := rfl

theorem rest_append (before t u : Text) :
    rest before (t ++ u) = between before u t ++ rest (t.reverse ++ before) u := by
  induction t generalizing before with
  | nil => rfl
  | cons c cs ih =>
    rw [List.cons_append, rest_cons, ih, between_cons, List.append_assoc, List.reverse_cons,
      List.append_assoc]
    rfl

theorem between_nil (before t : Text) : between before [] t = rest before t := by
  have hall := rest_append before t []
  rw [List.append_nil] at hall
  rw [hall]
  exact (List.append_nil _).symm

/-! ## What the text after it changes -/

theorem length_letter : (letter before after c).length = (letter before after' c).length := by
  unfold letter
  split
  · rfl
  · rfl

theorem length_between :
    (between before after t).length = (between before after' t).length := by
  induction t generalizing before with
  | nil => rfl
  | cons c cs ih =>
    rw [between_cons, between_cons, List.length_append, List.length_append, ih, length_letter]

/-- The first character that decides is in the text itself, if not all of it is passed over. -/
theorem meetsCased_append (t u : Text) :
    meetsCased (t ++ u) = if t.all (inRanges caseIgnorable) then meetsCased u else meetsCased t := by
  induction t with
  | nil => rfl
  | cons c cs ih =>
    by_cases hc : inRanges caseIgnorable c = true
    · unfold meetsCased at ih ⊢
      rw [List.cons_append, List.dropWhile_cons_of_pos hc, List.dropWhile_cons_of_pos hc, ih,
        List.all_cons, hc, Bool.true_and]
    · unfold meetsCased
      rw [List.cons_append, List.dropWhile_cons_of_neg hc, List.dropWhile_cons_of_neg hc,
        List.all_cons, Bool.eq_false_iff.2 hc, Bool.false_and, if_neg Bool.false_ne_true]

theorem meetsCased_eq_false (h : t.all (inRanges caseIgnorable) = true) : meetsCased t = false := by
  have hnil := meetsCased_append t []
  rw [if_pos h, List.append_nil] at hnil
  exact hnil

end Lowercase

open Lowercase

/-- The text has a capital sigma inside a word with nothing behind it but characters that case passes
over: as the end of the text it ends its word. -/
def EndsInSigma (before t : Text) : Prop :=
  ∃ stem marks, t = stem ++ 'Σ' :: marks ∧ marks.all (inRanges caseIgnorable) = true ∧
    meetsCased (stem.reverse ++ before) = true

theorem endsInSigma_cons :
    EndsInSigma before (c :: t) ↔
      (c = 'Σ' ∧ t.all (inRanges caseIgnorable) = true ∧ meetsCased before = true) ∨
        EndsInSigma (c :: before) t := by
  constructor
  · rintro ⟨stem, marks, hcut, hmarks, hstem⟩
    cases stem with
    | nil =>
      obtain ⟨rfl, rfl⟩ := List.cons.inj hcut
      exact Or.inl ⟨rfl, hmarks, hstem⟩
    | cons d stem =>
      obtain ⟨rfl, rfl⟩ := List.cons.inj hcut
      rw [List.reverse_cons, List.append_assoc] at hstem
      exact Or.inr ⟨stem, marks, rfl, hmarks, hstem⟩
  · rintro (⟨rfl, ht, hbefore⟩ | ⟨stem, marks, rfl, hmarks, hstem⟩)
    · exact ⟨[], t, rfl, ht, hbefore⟩
    · refine ⟨c :: stem, marks, rfl, hmarks, ?_⟩
      rw [List.reverse_cons, List.append_assoc]
      exact hstem

theorem Lowercase.letter_append_eq_iff :
    letter before (t ++ after) c = letter before t c ↔
      ¬(meetsCased after = true ∧ c = 'Σ' ∧ t.all (inRanges caseIgnorable) = true ∧
        meetsCased before = true) := by
  unfold letter
  by_cases hc : c = 'Σ'
  · rw [if_pos hc, if_pos hc, meetsCased_append]
    by_cases ht : t.all (inRanges caseIgnorable) = true
    · rw [if_pos ht, meetsCased_eq_false ht]
      cases meetsCased before <;> cases meetsCased after <;> simp [hc, ht]
    · simp [ht]
  · simp [hc]

/-- The text after it changes the small letters of a text exactly where it goes on with a word that
the text ended with a sigma. -/
theorem Lowercase.between_eq_iff :
    between before after t = between before [] t ↔
      ¬(meetsCased after = true ∧ EndsInSigma before t) := by
  induction t generalizing before with
  | nil =>
    refine iff_of_true rfl ?_
    rintro ⟨_, stem, marks, hcut, _⟩
    simp at hcut
  | cons c cs ih =>
    have hparts : between before after (c :: cs) = between before [] (c :: cs) ↔
        letter before (cs ++ after) c = letter before cs c ∧
          between (c :: before) after cs = between (c :: before) [] cs := by
      rw [between_cons, between_cons, List.append_nil]
      constructor
      · intro h
        exact List.append_inj h length_letter
      · rintro ⟨hfirst, hrest⟩
        rw [hfirst, hrest]
    rw [hparts, ih, letter_append_eq_iff, endsInSigma_cons]
    tauto

end Text

open Text Text.Lowercase

/-! ## Matches -/

/-- A candidate matches where it goes on with the typed text, as it is or in small letters. -/
theorem matchScore_eq_zero_iff {candidate typed : Text} :
    matchScore candidate typed = 0 ↔ ¬typed <+: candidate ∧ ¬lower typed <+: lower candidate := by
  unfold matchScore
  by_cases hempty : typed.isEmpty
  · rw [if_pos hempty, List.isEmpty_iff.1 hempty]
    simp
  rw [if_neg hempty]
  by_cases hsame : candidate = typed
  · rw [if_pos hsame, hsame]
    simp
  rw [if_neg hsame]
  by_cases hbegins : typed <+: candidate
  · rw [if_pos (List.isPrefixOf_iff_prefix.2 hbegins)]
    simp only [hbegins, not_true_eq_false, false_and, iff_false]
    omega
  rw [if_neg (mt List.isPrefixOf_iff_prefix.1 hbegins)]
  by_cases hlower : lower typed <+: lower candidate
  · simp [hbegins, hlower]
  · simp [hbegins, hlower]

/-- Who matches a longer text matches its beginning too, as long as the beginning does not end in a
sigma behind which the word goes on. With such an ending only the candidates match that go on with
the text as it was typed. -/
theorem typing_more_only_narrows_unless_a_sigma_turns_final {candidate typed more : Text}
    (h : 0 < matchScore candidate (typed ++ more)) :
    matchScore candidate typed = 0 ↔
      ¬typed <+: candidate ∧ meetsCased more = true ∧ EndsInSigma [] typed := by
  rw [matchScore_eq_zero_iff]
  refine and_congr_right fun hnot => ?_
  have hmatches := mt matchScore_eq_zero_iff.2 (Nat.ne_of_gt h)
  -- The longer text is no beginning of the candidate, so it matched in small letters.
  have hlonger : lower (typed ++ more) <+: lower candidate := by
    by_contra hno
    exact hmatches ⟨fun hlong => hnot ((List.prefix_append _ _).trans hlong), hno⟩
  have hbetween : between [] more typed <+: lower candidate := by
    unfold lower at hlonger
    rw [rest_append] at hlonger
    exact (List.prefix_append _ _).trans hlonger
  have hsmall : lower typed = between [] [] typed := (between_nil [] typed).symm
  constructor
  · intro hno
    by_contra hends
    rw [hsmall, ← between_eq_iff.2 hends] at hno
    exact hno hbetween
  · intro hends hlower
    -- Two beginnings of one length are the same.
    rw [hsmall] at hlower
    exact between_eq_iff.1
      ((List.prefix_of_prefix_length_le hbetween hlower (Nat.le_of_eq length_between)).eq_of_length
        length_between) hends

/-- A name that is found by its letters in capitals is found by the first of them. -/
theorem the_first_capitals_find_the_name :
    0 < matchScore "readme".toList ("RE".toList ++ "AD".toList) ∧
      matchScore "readme".toList "RE".toList ≠ 0 := by
  have h : 0 < matchScore "readme".toList ("RE".toList ++ "AD".toList) := by decide +kernel
  refine ⟨h, fun hlost => ?_⟩
  obtain ⟨_, _, stem, marks, hcut, _⟩ :=
    (typing_more_only_narrows_unless_a_sigma_turns_final h).1 hlost
  have hmem : 'Σ' ∈ "RE".toList := hcut ▸ List.mem_append_right stem List.mem_cons_self
  exact absurd hmem (by decide)

/-- The word in capitals matches up to its fourth letter but not up to its third one, the sigma. -/
theorem a_word_is_lost_at_its_sigma :
    matchScore "κόσμος".toList "ΚΌΣΜ".toList = 60 ∧ matchScore "κόσμος".toList "ΚΌΣ".toList = 0 := by
  decide +kernel

end Typeahead
