import Mathlib.Data.List.Induction
import Typeahead.Proofs.Candidate.Score

/-!
What a ranking is: the candidates that were offered, by group and score, and those alike in both in
the order in which they were offered. Candidates whose scores are numbers are ranked in this way.
-/
namespace Typeahead

/-! ## Sorting by a key -/

section Key

variable {α κ : Type} [LinearOrder κ] {before : α → α → Bool} {key : α → κ}

/-- Among the given elements, one comes before another when its key is smaller. -/
def OrdersBy (before : α → α → Bool) (key : α → κ) (xs : List α) : Prop :=
  ∀ x ∈ xs, ∀ y ∈ xs, before x y = true ↔ key x < key y

theorem stableSort_snoc (before : α → α → Bool) (xs : List α) (x : α) :
    stableSort before (xs ++ [x]) =
      (insertFromEnd before x (stableSort before xs).reverse).reverse := by
  unfold stableSort
  rw [List.foldl_append, List.reverse_reverse]
  rfl

/-- The key of the element is no greater than those of the elements that it comes before, and no
smaller than those of the others. -/
def Agrees (before : α → α → Bool) (key : α → κ) (x : α) (ys : List α) : Prop :=
  ∀ y ∈ ys, if before x y then key x ≤ key y else key y ≤ key x

theorem agrees_of_iff {x : α} {ys : List α} (h : ∀ y ∈ ys, before x y = true ↔ key x < key y) :
    Agrees before key x ys := by
  intro y hy
  split
  · rename_i hbefore
    exact ((h y hy).1 hbefore).le
  · rename_i hbefore
    exact not_lt.1 fun hlt => hbefore ((h y hy).2 hlt)

theorem pairwise_insertFromEnd {x : α} {ys : List α} (hx : Agrees before key x ys)
    (h : ys.Pairwise fun a b => key b ≤ key a) :
    (insertFromEnd before x ys).Pairwise fun a b => key b ≤ key a := by
  induction ys with
  | nil => exact List.pairwise_singleton _ x
  | cons y ys ih =>
    obtain ⟨hy, hys⟩ := List.pairwise_cons.1 h
    have hxy := hx y List.mem_cons_self
    unfold insertFromEnd
    split
    · rename_i hbefore
      rw [if_pos hbefore] at hxy
      refine List.pairwise_cons.2 ⟨?_, ih (fun z hz => hx z (List.mem_cons_of_mem _ hz)) hys⟩
      intro z hz
      rcases List.mem_cons.1 ((insertFromEnd_perm before x ys).mem_iff.1 hz) with rfl | hmem
      · exact hxy
      · exact hy z hmem
    · rename_i hbefore
      rw [if_neg hbefore] at hxy
      refine List.pairwise_cons.2 ⟨?_, h⟩
      intro z hz
      rcases List.mem_cons.1 hz with rfl | hmem
      · exact hxy
      · exact (hy z hmem).trans hxy

/-- Among the elements of one key, the one put in last comes first. -/
theorem filter_insertFromEnd {x : α} {ys : List α}
    (hx : ∀ y ∈ ys, before x y = true ↔ key x < key y) (k : κ) :
    (insertFromEnd before x ys).filter (fun y => decide (key y = k)) =
      (x :: ys).filter fun y => decide (key y = k) := by
  induction ys with
  | nil => rfl
  | cons y ys ih =>
    unfold insertFromEnd
    split
    · rename_i hbefore
      have hlt := (hx y List.mem_cons_self).1 hbefore
      rw [List.filter_cons, ih fun z hz => hx z (List.mem_cons_of_mem _ hz)]
      -- The two keys differ, so one of the two elements has another key.
      by_cases hk : key x = k
      · have hy : key y ≠ k := fun hy => hlt.ne (hk.trans hy.symm)
        simp [hk, hy]
      · simp [List.filter_cons, hk]
    · rfl

theorem OrdersBy.snoc {xs : List α} {x : α} (h : OrdersBy before key (xs ++ [x])) :
    OrdersBy before key xs ∧
      ∀ y ∈ (stableSort before xs).reverse, before x y = true ↔ key x < key y := by
  refine ⟨fun y hy z hz => h y (List.mem_append_left _ hy) z (List.mem_append_left _ hz), ?_⟩
  intro y hy
  have hmem := (stableSort_perm before xs).mem_iff.1 (List.mem_reverse.1 hy)
  exact h x (List.mem_append_right _ List.mem_cons_self) y (List.mem_append_left _ hmem)

theorem pairwise_stableSort {xs : List α} (h : ∀ x ∈ xs, Agrees before key x xs) :
    (stableSort before xs).Pairwise fun a b => key a ≤ key b := by
  -- Elements are put in from the first to the last, so the list grows at its end.
  induction xs using List.reverseRecOn with
  | nil => exact List.Pairwise.nil
  | append_singleton xs x ih =>
    have hxs : ∀ y ∈ xs, Agrees before key y xs := fun y hy z hz =>
      h y (List.mem_append_left _ hy) z (List.mem_append_left _ hz)
    have hx : Agrees before key x (stableSort before xs).reverse := fun y hy =>
      h x List.mem_concat_self y (List.mem_append_left _
        ((stableSort_perm before xs).mem_iff.1 (List.mem_reverse.1 hy)))
    rw [stableSort_snoc, List.pairwise_reverse]
    exact pairwise_insertFromEnd hx (List.pairwise_reverse.2 (ih hxs))

/-- Elements of one key keep their order. -/
theorem filter_stableSort {xs : List α} (h : OrdersBy before key xs) (k : κ) :
    (stableSort before xs).filter (fun x => decide (key x = k)) =
      xs.filter fun x => decide (key x = k) := by
  induction xs using List.reverseRecOn with
  | nil => rfl
  | append_singleton xs x ih =>
    obtain ⟨hxs, hx⟩ := h.snoc
    rw [stableSort_snoc, List.filter_reverse, filter_insertFromEnd hx, List.filter_append,
      ← ih hxs, List.filter_cons, List.filter_reverse]
    by_cases hk : key x = k
    · simp [hk]
    · simp [hk]

end Key

/-! ## The standing of a candidate -/

namespace Candidate

open Score (Place place?)

/-- Whether two candidates rank alike. -/
def ranksLike (a b : Candidate) : Bool := a.group = b.group && a.score == b.score

/-- Whether the score of a candidate is a number. -/
def isScored (c : Candidate) : Bool := !c.score.isNaN

/-- Where a candidate stands: by group, then by the place of its score with the higher one first. -/
def standing (c : Candidate) : ℕ ×ₗ Placeᵒᵈ :=
  toLex (c.group.rank, OrderDual.toDual ((place? c.score).getD default))

variable {a b : Candidate}

theorem exists_place (h : a.isScored = true) : ∃ p, place? a.score = some p := by
  apply Score.exists_place
  unfold isScored at h
  rwa [Bool.not_eq_true'] at h

theorem ranksBefore_iff (ha : a.isScored = true) (hb : b.isScored = true) :
    a.ranksBefore b = true ↔ a.standing < b.standing := by
  obtain ⟨p, hp⟩ := exists_place ha
  obtain ⟨q, hq⟩ := exists_place hb
  unfold ranksBefore compareRank standing
  rw [Prod.Lex.toLex_lt_toLex, OrderDual.toDual_lt_toDual, hp, hq, Option.getD_some,
    Option.getD_some, ← Score.lt_iff hq hp, decide_eq_true_iff]
  dsimp only
  split
  · rename_i hlt
    exact ⟨fun _ => Or.inl hlt, fun _ => rfl⟩
  · split
    · rename_i hgt
      constructor
      · intro h
        cases h
      · rintro (hlt | ⟨heq, _⟩) <;> omega
    · split
      · rename_i hnlt hngt hscore
        exact ⟨fun _ => Or.inr ⟨by omega, hscore⟩, fun _ => rfl⟩
      · rename_i hnlt _ hscore
        constructor
        · intro h
          split at h <;> cases h
        · rintro (hlt | ⟨_, hlt⟩)
          · exact absurd hlt hnlt
          · exact absurd hlt hscore

theorem standing_le_iff (ha : a.isScored = true) (hb : b.isScored = true) :
    a.standing ≤ b.standing ↔
      a.group.rank < b.group.rank ∨ a.group = b.group ∧ b.score ≤ a.score := by
  obtain ⟨p, hp⟩ := exists_place ha
  obtain ⟨q, hq⟩ := exists_place hb
  unfold standing
  rw [Prod.Lex.toLex_le_toLex, OrderDual.toDual_le_toDual, hp, hq, Option.getD_some,
    Option.getD_some, ← Score.le_iff hq hp]
  constructor
  · rintro (hlt | ⟨heq, hle⟩)
    · exact Or.inl hlt
    · exact Or.inr ⟨Group.rank_injective heq, hle⟩
  · rintro (hlt | ⟨heq, hle⟩)
    · exact Or.inl hlt
    · exact Or.inr ⟨congrArg Group.rank heq, hle⟩

theorem ranksLike_iff (ha : a.isScored = true) (hb : b.isScored = true) :
    a.ranksLike b = true ↔ b.standing = a.standing := by
  obtain ⟨p, hp⟩ := exists_place ha
  obtain ⟨q, hq⟩ := exists_place hb
  unfold ranksLike standing
  rw [Bool.and_eq_true, decide_eq_true_iff, Score.beq_iff hp hq, hp, hq, toLex_inj, Prod.mk.injEq,
    OrderDual.toDual_inj, Option.getD_some, Option.getD_some]
  constructor
  · rintro ⟨hgroup, rfl⟩
    exact ⟨congrArg Group.rank hgroup.symm, rfl⟩
  · rintro ⟨hrank, rfl⟩
    exact ⟨(Group.rank_injective hrank).symm, rfl⟩

theorem ordersBy_standing {cs : List Candidate} (h : ∀ c ∈ cs, c.isScored = true) :
    OrdersBy ranksBefore standing cs :=
  fun a ha b hb => ranksBefore_iff (h a ha) (h b hb)

end Candidate

/-- Whatever the scores, the groups rank first. -/
theorem pairwise_ranked (cs : List Candidate) :
    (ranked cs).Pairwise fun a b => a.group.rank ≤ b.group.rank := by
  have hagrees : ∀ a ∈ cs, Agrees Candidate.ranksBefore (fun c => c.group.rank) a cs := by
    intro a _ b _
    unfold Candidate.ranksBefore Candidate.compareRank
    -- Scores count only in one group, where either order is right.
    rcases Nat.lt_trichotomy a.group.rank b.group.rank with hlt | heq | hgt
    · simp [hlt, hlt.le]
    · simp [heq]
    · simp [hgt, hgt.le, hgt.not_gt]
  exact pairwise_stableSort hagrees

/-! ## Rankings -/

/-- The candidates found are those offered, in the order of their ranks. -/
structure IsRanking (offered found : List Candidate) : Prop where
  /-- Nothing is lost or added, and repetitions stay. -/
  perm : found.Perm offered
  sorted : found.Pairwise fun a b =>
    a.group.rank < b.group.rank ∨ a.group = b.group ∧ b.score ≤ a.score
  /-- Candidates that rank alike stay in the order in which they were offered. -/
  stable : ∀ c ∈ offered, found.filter c.ranksLike = offered.filter c.ranksLike

/-- Scored candidates are ranked. -/
theorem isRanking_ranked {cs : List Candidate} (h : ∀ c ∈ cs, c.isScored = true) :
    IsRanking cs (ranked cs) := by
  have hperm : (ranked cs).Perm cs := stableSort_perm _ _
  have hfound : ∀ c ∈ ranked cs, c.isScored = true := fun c hc => h c (hperm.mem_iff.1 hc)
  have horders := Candidate.ordersBy_standing h
  refine ⟨hperm, ?_, ?_⟩
  · refine (pairwise_stableSort fun c hc => agrees_of_iff (horders c hc)).imp_of_mem ?_
    intro a b ha hb hle
    exact (Candidate.standing_le_iff (hfound a ha) (hfound b hb)).1 hle
  · intro c hc
    -- Both filters ask for one standing.
    have hsame : ∀ ds : List Candidate, (∀ d ∈ ds, d.isScored = true) →
        ds.filter c.ranksLike = ds.filter fun d => decide (d.standing = c.standing) := by
      intro ds hds
      refine List.filter_congr fun d hd => ?_
      rw [Bool.eq_iff_iff, Candidate.ranksLike_iff (h c hc) (hds d hd), decide_eq_true_iff]
    rw [hsame _ hfound, hsame _ h]
    exact filter_stableSort horders _

end Typeahead
