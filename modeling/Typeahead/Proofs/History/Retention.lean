import Mathlib.Data.List.DropRight
import Mathlib.Order.Basic
import Typeahead.History.Basic

/-!
What the limits keep of entries in the order of their times: an end of the list. What they drop stays
dropped, so it may as well be dropped early.
-/
namespace Typeahead.History

variable {limits : Limits} {now now' : Instant} {es front middle : List Entry} {a b : Entry}

/-! ## Young entries -/

/-- Whether an entry is within the limit on age. -/
def isYoung (limits : Limits) (now : Instant) (e : Entry) : Bool :=
  (cutoff? limits now).all (· ≤ e.time)

/-- The entries are in the order of their times. -/
def InOrder (es : List Entry) : Prop := es.Pairwise fun a b => a.time ≤ b.time

theorem retained_eq (limits : Limits) (now : Instant) (es : List Entry) :
    retained limits now es = (es.filter (isYoung limits now)).rtake limits.maxSize := by
  unfold retained isYoung List.rtake
  rcases cutoff? limits now with _ | limit
  · simp
  · rfl

theorem isYoung_iff {e : Entry} :
    isYoung limits now e = true ↔ ∀ limit, cutoff? limits now = some limit → limit ≤ e.time := by
  unfold isYoung
  rw [Option.all_eq_true]
  simp only [decide_eq_true_iff]

theorem exists_cutoff (hlater : now ≤ now') {limit : Instant}
    (h : cutoff? limits now = some limit) : ∃ limit', cutoff? limits now' = some limit' ∧
      limit ≤ limit' := by
  unfold cutoff? at *
  dsimp only at *
  split at h
  · cases h
  · rename_i hreach
    obtain rfl := Option.some.inj h
    have hle : now - limits.maxAge.nanoseconds ≤ now' - limits.maxAge.nanoseconds :=
      Int.sub_le_sub_right hlater _
    exact ⟨_, if_neg fun hlt => hreach (Int.lt_of_le_of_lt hle hlt), hle⟩

theorem isYoung_of_later (hlater : now ≤ now') (h : isYoung limits now' a = true) :
    isYoung limits now a = true := by
  rw [isYoung_iff] at *
  intro limit hlimit
  obtain ⟨limit', hlimit', hle⟩ := exists_cutoff hlater hlimit
  exact Int.le_trans hle (h limit' hlimit')

theorem isYoung_of_le (hle : a.time ≤ b.time) (h : isYoung limits now a = true) :
    isYoung limits now b = true := by
  rw [isYoung_iff] at *
  intro limit hlimit
  exact Int.le_trans (h limit hlimit) hle

/-- Entries in order end with those that are young. -/
theorem exists_old (h : InOrder es) :
    ∃ old, es = old ++ es.filter (isYoung limits now) ∧
      ∀ e ∈ old, isYoung limits now e = false := by
  induction es with
  | nil => exact ⟨[], rfl, nofun⟩
  | cons e es ih =>
    obtain ⟨hhead, htail⟩ := List.pairwise_cons.1 h
    -- Once an entry is young, so are all behind it.
    by_cases hyoung : isYoung limits now e = true
    · have hall : ∀ d ∈ e :: es, isYoung limits now d = true :=
        List.forall_mem_cons.2 ⟨hyoung, fun d hd => isYoung_of_le (hhead d hd) hyoung⟩
      refine ⟨[], ?_, nofun⟩
      rw [List.filter_eq_self.2 hall, List.nil_append]
    · obtain ⟨old, hsplit, hold⟩ := ih htail
      refine ⟨e :: old, ?_, List.forall_mem_cons.2 ⟨Bool.eq_false_iff.2 hyoung, hold⟩⟩
      rw [List.filter_cons, if_neg hyoung, List.cons_append, ← hsplit]

/-! ## Entries that no longer count -/

/-- The entries in front no longer count: they are too old, or the others are as many as may be
kept. -/
def Hides (limits : Limits) (now : Instant) (front es : List Entry) : Prop :=
  (∀ e ∈ front, isYoung limits now e = false) ∨ limits.maxSize ≤ es.length

theorem Hides.nil : Hides limits now [] es := Or.inl nofun

theorem Hides.later (h : Hides limits now front es) (hlater : now ≤ now') :
    Hides limits now' front es := by
  refine h.imp_left fun hold e he => ?_
  have hyoung := hold e he
  rw [Bool.eq_false_iff] at *
  exact fun h => hyoung (isYoung_of_later hlater h)

/-- If one of the entries in front is young, all entries behind are. -/
theorem forall_isYoung_of_mem (horder : InOrder (front ++ es)) (ha : a ∈ front)
    (h : isYoung limits now a = true) : ∀ e ∈ es, isYoung limits now e = true := by
  intro e he
  exact isYoung_of_le ((List.pairwise_append.1 horder).2.2 a ha e he) h

theorem exists_isYoung_of_not (h : ¬ ∀ e ∈ front, isYoung limits now e = false) :
    ∃ e ∈ front, isYoung limits now e = true := by
  simpa using h

/-- Entries that no longer count change nothing about what is kept. -/
theorem Hides.retained_append (h : Hides limits now front es) (horder : InOrder (front ++ es)) :
    retained limits now (front ++ es) = retained limits now es := by
  rw [retained_eq, retained_eq, List.filter_append]
  by_cases hold : ∀ e ∈ front, isYoung limits now e = false
  · have hnone : front.filter (isYoung limits now) = [] :=
      List.filter_eq_nil_iff.2 fun e he => Bool.eq_false_iff.1 (hold e he)
    rw [hnone, List.nil_append]
  · -- With a young entry in front all behind are young, and there is no room for more.
    have hsize := h.resolve_left hold
    obtain ⟨d, hd, hyoung⟩ := exists_isYoung_of_not hold
    rw [List.filter_eq_self.2 (forall_isYoung_of_mem horder hd hyoung), List.rtake, List.rtake,
      List.length_append, Nat.add_sub_assoc hsize, List.drop_append,
      List.drop_eq_nil_of_le (by omega), List.nil_append, Nat.add_sub_cancel_left]

/-- What the limits drop no longer counts. -/
theorem exists_hidden (h : InOrder es) :
    ∃ front, es = front ++ retained limits now es ∧
      Hides limits now front (retained limits now es) := by
  obtain ⟨old, hsplit, hold⟩ := @exists_old limits now es h
  rw [retained_eq]
  generalize es.filter (isYoung limits now) = young at hsplit ⊢
  -- Either all young entries fit, or those that do not are dropped with the old ones.
  by_cases hsize : young.length ≤ limits.maxSize
  · refine ⟨old, ?_, Or.inl hold⟩
    rwa [List.rtake, Nat.sub_eq_zero_of_le hsize, List.drop_zero]
  · refine ⟨old ++ young.take (young.length - limits.maxSize), ?_, Or.inr ?_⟩
    · rwa [List.append_assoc, List.rtake, List.take_append_drop]
    · rw [List.rtake, List.length_drop]
      omega

/-- Entries may be dropped in several steps. -/
theorem Hides.append (hfront : Hides limits now front (middle ++ es))
    (hmiddle : Hides limits now middle es) (horder : InOrder (front ++ (middle ++ es))) :
    Hides limits now (front ++ middle) es := by
  rcases hmiddle with hmiddle | hsize
  · by_cases hold : ∀ e ∈ front, isYoung limits now e = false
    · exact Or.inl (List.forall_mem_append.2 ⟨hold, hmiddle⟩)
    · -- A young entry in front makes the middle young, so there is none in the middle.
      have hsize := hfront.resolve_left hold
      obtain ⟨d, hd, hyoung⟩ := exists_isYoung_of_not hold
      have hall := forall_isYoung_of_mem horder hd hyoung
      rcases middle with _ | ⟨m, middle⟩
      · exact Or.inr hsize
      · have hm := hall m (List.mem_append_left _ List.mem_cons_self)
        rw [hmiddle m List.mem_cons_self] at hm
        cases hm
  · exact Or.inr hsize

end Typeahead.History
