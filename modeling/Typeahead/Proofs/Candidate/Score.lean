import Mathlib.Data.Int.Order.Basic
import Mathlib.Data.Prod.Lex
import Typeahead.Candidate

/-!
The order of scores. Each score that is a number has a place in a linear order, the two zeros the
same one, and scores compare as their places do. One that is no number has no place.
-/
namespace Typeahead.Score

open Float.Model (UnpackedFloat)

/-- The places of numbers: below and above all others the infinities, and between them by sign, then
by exponent, then by mantissa, the last two backwards below zero. -/
abbrev Place := ℤ ×ₗ ℤ ×ₗ ℤ

def placeOf : UnpackedFloat → Option Place
  | .notANumber => none
  | .infinity .negative => some (toLex (-2, toLex (0, 0)))
  | .finite .negative mantissa exponent _ => some (toLex (-1, toLex (-exponent, -mantissa)))
  | .zero _ => some (toLex (0, toLex (0, 0)))
  | .finite .positive mantissa exponent _ => some (toLex (1, toLex (exponent, mantissa)))
  | .infinity .positive => some (toLex (2, toLex (0, 0)))

/-- The place of a score. -/
def place? (x : Float) : Option Place := placeOf x.toModel.unpack

/-! ## Comparing places -/

theorem compare_toLex (sign exponent mantissa exponent' mantissa' : ℤ) :
    compare (toLex (sign, toLex (exponent, mantissa))) (toLex (sign, toLex (exponent', mantissa'))) =
      (compare exponent exponent').then (compare mantissa mantissa') := by
  have hcut : compare (toLex (sign, toLex (exponent, mantissa)))
      (toLex (sign, toLex (exponent', mantissa'))) =
      (compare sign sign).then ((compare exponent exponent').then (compare mantissa mantissa')) :=
    rfl
  rw [hcut, compare_eq_iff_eq.2 rfl]
  rfl

theorem compare_neg (a b : ℤ) : compare (-a) (-b) = (compare a b).swap := by
  rw [Int.compare_swap]
  rcases lt_trichotomy a b with h | rfl | h
  · rw [compare_gt_iff_gt.2 h, compare_gt_iff_gt.2 (Int.neg_lt_neg h)]
  · rw [compare_eq_iff_eq.2 rfl, compare_eq_iff_eq.2 rfl]
  · rw [compare_lt_iff_lt.2 h, compare_lt_iff_lt.2 (Int.neg_lt_neg h)]

theorem compare_natCast (m n : ℕ) : compare (m : ℤ) (n : ℤ) = compare m n := by
  rcases lt_trichotomy m n with h | rfl | h
  · rw [compare_lt_iff_lt.2 h, compare_lt_iff_lt.2 (Int.ofNat_lt.2 h)]
  · rw [compare_eq_iff_eq.2 rfl, compare_eq_iff_eq.2 rfl]
  · rw [compare_gt_iff_gt.2 h, compare_gt_iff_gt.2 (Int.ofNat_lt.2 h)]

/-- Numbers compare as their places. -/
theorem compare_eq (u v : UnpackedFloat) :
    u.compare v = (placeOf u).bind fun p => (placeOf v).map fun q => compare p q := by
  -- Numbers of one sign compare by their parts; in every other case the kinds decide.
  rcases u with ⟨_ | _⟩ | _ | _ | ⟨_ | _, m, e, _⟩ <;>
    rcases v with ⟨_ | _⟩ | _ | _ | ⟨_ | _, n, f, _⟩ <;> try rfl
  · unfold UnpackedFloat.compare placeOf
    dsimp only [Option.bind_some, Option.map_some]
    rw [compare_toLex, compare_neg, compare_neg, compare_natCast, Ordering.swap_then]
  · unfold UnpackedFloat.compare placeOf
    dsimp only [Option.bind_some, Option.map_some]
    rw [compare_toLex, compare_natCast]

/-! ## Comparing scores -/

variable {x y : Float} {p q : Place}

/-- A score that is a number has a place. -/
theorem exists_place (h : x.isNaN = false) : ∃ p, place? x = some p := by
  change x.toModel.unpack.isNaN = false at h
  unfold place?
  cases hx : x.toModel.unpack with
  | notANumber =>
    rw [hx] at h
    cases h
  | infinity sign => cases sign <;> exact ⟨_, rfl⟩
  | zero _ => exact ⟨_, rfl⟩
  | finite sign _ _ _ => cases sign <;> exact ⟨_, rfl⟩

theorem compare_places (hx : place? x = some p) (hy : place? y = some q) :
    x.toModel.unpack.compare y.toModel.unpack = some (compare p q) := by
  unfold place? at hx hy
  rw [compare_eq, hx, hy]
  rfl

theorem lt_iff (hx : place? x = some p) (hy : place? y = some q) : x < y ↔ p < q := by
  have hlt : x < y ↔ (x.toModel.unpack.compare y.toModel.unpack == some .lt) = true := by
    change decide (x.toModel < y.toModel) = true ↔ _
    rw [decide_eq_true_iff]
    rfl
  rw [hlt, compare_places hx hy, beq_iff_eq, Option.some.injEq, compare_lt_iff_lt]

theorem le_iff (hx : place? x = some p) (hy : place? y = some q) : x ≤ y ↔ p ≤ q := by
  have hle : x ≤ y ↔ (x.toModel.unpack.compare y.toModel.unpack).any Ordering.isLE = true := by
    change decide (x.toModel ≤ y.toModel) = true ↔ _
    rw [decide_eq_true_iff]
    rfl
  rw [hle, compare_places hx hy, Option.any_some, Ordering.isLE_iff_ne_gt]
  exact compare_le_iff_le

/-- Scores that compare at all are numbers. -/
theorem exists_places (h : (x.toModel.unpack.compare y.toModel.unpack).isSome = true) :
    ∃ p q, place? x = some p ∧ place? y = some q := by
  rw [compare_eq] at h
  unfold place?
  cases hx : placeOf x.toModel.unpack with
  | none => simp [hx] at h
  | some p =>
    cases hy : placeOf y.toModel.unpack with
    | none => simp [hx, hy] at h
    | some q => exact ⟨p, q, rfl, rfl⟩

theorem exists_places_of_lt (h : x < y) : ∃ p q, place? x = some p ∧ place? y = some q ∧ p < q := by
  have hcompare : (x.toModel.unpack.compare y.toModel.unpack == some .lt) = true :=
    of_decide_eq_true h
  obtain ⟨p, q, hx, hy⟩ := exists_places (Option.isSome_of_eq_some (beq_iff_eq.1 hcompare))
  exact ⟨p, q, hx, hy, (lt_iff hx hy).1 h⟩

theorem exists_places_of_le (h : x ≤ y) : ∃ p q, place? x = some p ∧ place? y = some q ∧ p ≤ q := by
  have hcompare : (x.toModel.unpack.compare y.toModel.unpack).any Ordering.isLE = true :=
    of_decide_eq_true h
  have hsome : (x.toModel.unpack.compare y.toModel.unpack).isSome = true := by
    cases hnone : x.toModel.unpack.compare y.toModel.unpack with
    | none => simp [hnone] at hcompare
    | some o => rfl
  obtain ⟨p, q, hx, hy⟩ := exists_places hsome
  exact ⟨p, q, hx, hy, (le_iff hx hy).1 h⟩

theorem not_lt_self (x : Float) : ¬ x < x := by
  intro h
  obtain ⟨p, q, hp, hq, hlt⟩ := exists_places_of_lt h
  rw [hp] at hq
  cases hq
  exact lt_irrefl p hlt

theorem lt_of_lt_of_le {z : Float} (hxy : x < y) (hyz : y ≤ z) : x < z := by
  obtain ⟨p, q, hp, hq, hlt⟩ := exists_places_of_lt hxy
  obtain ⟨q', r, hq', hr, hle⟩ := exists_places_of_le hyz
  rw [hq] at hq'
  cases hq'
  exact (lt_iff hp hr).2 (hlt.trans_le hle)

theorem le_of_lt (h : x < y) : x ≤ y := by
  obtain ⟨p, q, hp, hq, hlt⟩ := exists_places_of_lt h
  exact (le_iff hp hq).2 hlt.le

theorem beq_iff (hx : place? x = some p) (hy : place? y = some q) : (x == y) = true ↔ p = q := by
  have hbeq : (x == y) = (x.toModel.unpack.compare y.toModel.unpack == some .eq) := rfl
  rw [hbeq, compare_places hx hy, beq_iff_eq, Option.some.injEq, compare_eq_iff_eq]

/-- The numbers that a match can be given are in order as scores. -/
theorem ofNat_lt {m n : ℕ} (hm : 50 ≤ m) (h : m < n) (hn : n ≤ 105) :
    Float.ofNat m < Float.ofNat n := by
  have hnext : ∀ k ∈ List.range' 50 55, Float.ofNat k < Float.ofNat (k + 1) := by decide +kernel
  induction n with
  | zero => omega
  | succ n ih =>
    have hlast := hnext n (List.mem_range'_1.2 (by omega))
    rcases Nat.lt_succ_iff_lt_or_eq.1 h with hlt | rfl
    · exact lt_of_lt_of_le (ih hlt (by omega)) (le_of_lt hlast)
    · exact hlast

end Typeahead.Score
