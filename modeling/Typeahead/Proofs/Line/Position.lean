import Mathlib.Data.List.Induction
import Typeahead.Line.Quote

/-!
Positions in a line: what stands at one, which is the first of a kind, and whether the character
there is escaped. It is when an odd number of backslashes stands right before it, and the quoting
machine keeps just this in one bit.
-/
namespace Typeahead

namespace Text

variable {t : Text} {p : Char → Bool} {c : Char} {i start stop : Nat}

/-! ## Characters and parts -/

/-- A character of the class stands at the position. -/
def holdsAt (t : Text) (p : Char → Bool) (i : Nat) : Bool := t[i]?.any p

/-- The characters from one position up to another, the last one excluded. -/
def slice (t : Text) (start stop : Nat) : Text := (t.take stop).drop start

theorem holdsAt_of_getElem? (h : t[i]? = some c) : t.holdsAt p i = p c := by
  rw [holdsAt, h]
  rfl

theorem exists_of_holdsAt (h : t.holdsAt p i = true) : ∃ c, t[i]? = some c ∧ p c = true := by
  unfold holdsAt at h
  rcases hc : t[i]? with _ | c
  · rw [hc] at h
    cases h
  · rw [hc] at h
    exact ⟨c, rfl, h⟩

theorem lt_length_of_holdsAt (h : t.holdsAt p i = true) : i < t.length := by
  obtain ⟨c, hc, _⟩ := exists_of_holdsAt h
  exact (List.getElem?_eq_some_iff.1 hc).1

/-- Inside of the text a character is of a class or of its complement. -/
theorem holdsAt_not (h : i < t.length) : t.holdsAt (fun c => !p c) i = !t.holdsAt p i := by
  have hc : t[i]? = some t[i] := List.getElem?_eq_getElem h
  rw [holdsAt_of_getElem? hc, holdsAt_of_getElem? hc]

theorem of_drop_eq_cons {rest : Text} (h : t.drop i = c :: rest) :
    t[i]? = some c ∧ t.drop (i + 1) = rest := by
  constructor
  · rw [← List.head?_drop, h, List.head?_cons]
  · rw [← List.tail_drop, h, List.tail_cons]

theorem length_slice (h : stop ≤ t.length) : (t.slice start stop).length = stop - start := by
  rw [slice, List.length_drop, List.length_take_of_le h]

@[simp] theorem slice_self : t.slice start start = [] :=
  List.drop_of_length_le (List.length_take_le _ _)

theorem slice_snoc (hle : start ≤ stop) (h : t[stop]? = some c) :
    t.slice start (stop + 1) = t.slice start stop ++ [c] := by
  have hlt := (List.getElem?_eq_some_iff.1 h).1
  have hlength : start ≤ (t.take stop).length := by
    rw [List.length_take_of_le (Nat.le_of_lt hlt)]
    exact hle
  rw [slice, List.take_add_one, h, List.drop_append_of_le_length hlength]
  rfl

theorem slice_cons (hlt : start < stop) (h : t[start]? = some c) :
    t.slice start stop = c :: t.slice (start + 1) stop := by
  have hget : (t.take stop)[start]? = some c := by
    rw [List.getElem?_take_of_lt hlt, h]
  obtain ⟨hbound, hc⟩ := List.getElem?_eq_some_iff.1 hget
  rw [slice, List.drop_eq_getElem_cons hbound, hc]
  rfl

theorem take_slice {middle : Nat} (h : middle ≤ stop) :
    (t.slice start stop).take (middle - start) = t.slice start middle := by
  unfold slice
  rw [← List.drop_take, List.take_take, Nat.min_eq_left h]

theorem mem_slice_iff : c ∈ t.slice start stop ↔
    ∃ i, start ≤ i ∧ i < stop ∧ t[i]? = some c := by
  unfold slice
  rw [List.mem_iff_getElem?]
  constructor
  · rintro ⟨i, hi⟩
    rw [List.getElem?_drop, List.getElem?_take] at hi
    split at hi
    · exact ⟨start + i, by omega, by omega, hi⟩
    · cases hi
  · rintro ⟨i, hle, hlt, hi⟩
    refine ⟨i - start, ?_⟩
    rw [List.getElem?_drop, Nat.add_sub_cancel' hle, List.getElem?_take_of_lt hlt, hi]

/-! ## The first of a kind -/

/-- No position from `start` up to `stop`, the last one excluded, is of the kind. -/
def Absent (q : Nat → Bool) (start stop : Nat) : Prop :=
  ∀ i, start ≤ i → i < stop → q i = false

/-- The first position of a kind from `start` on, or the end of the text if there is none. -/
structure IsFirst (t : Text) (q : Nat → Bool) (start stop : Nat) : Prop where
  start_le : start ≤ stop
  stop_le : stop ≤ t.length
  absent : Absent q start stop
  here : stop < t.length → q stop = true

variable {q : Nat → Bool}

theorem absent_holdsAt_iff :
    Absent (t.holdsAt p) start stop ↔ ∀ c ∈ t.slice start stop, p c = false := by
  constructor
  · intro h c hc
    obtain ⟨i, hle, hlt, hi⟩ := mem_slice_iff.1 hc
    exact (holdsAt_of_getElem? hi).symm.trans (h i hle hlt)
  · intro h i hle hlt
    rcases hi : t[i]? with _ | c
    · rw [holdsAt, hi]
      rfl
    · rw [holdsAt_of_getElem? hi]
      exact h c (mem_slice_iff.2 ⟨i, hle, hlt, hi⟩)

theorem Absent.self : Absent q start start := fun _ hle hlt => absurd hlt (by omega)

theorem Absent.snoc (h : Absent q start stop) (hstop : q stop = false) :
    Absent q start (stop + 1) := by
  intro i hle hlt
  rcases Nat.lt_succ_iff_lt_or_eq.1 hlt with hbefore | rfl
  · exact h i hle hbefore
  · exact hstop

theorem IsFirst.lt (h : t.IsFirst q start stop) (hlt : start < t.length)
    (hq : q start = false) : start < stop := by
  rcases Nat.lt_or_eq_of_le h.start_le with hstop | rfl
  · exact hstop
  · rw [h.here hlt] at hq
    cases hq

theorem IsFirst.le_of_holds (h : t.IsFirst q start stop) (hle : start ≤ i) (hi : q i = true) :
    stop ≤ i := by
  rcases Nat.lt_or_ge i stop with hlt | hge
  · rw [h.absent i hle hlt] at hi
    cases hi
  · exact hge

theorem IsFirst.unique {stop' : Nat} (h : t.IsFirst q start stop)
    (h' : t.IsFirst q start stop') : stop = stop' := by
  -- None of two first positions stands after the other.
  have hle : ∀ {a b}, t.IsFirst q start a → t.IsFirst q start b → a ≤ b := by
    intro a b ha hb
    by_cases hlt : b < t.length
    · exact ha.le_of_holds hb.start_le (hb.here hlt)
    · have := ha.stop_le
      omega
  exact Nat.le_antisymm (hle h h') (hle h' h)

theorem IsFirst.of_succ (h : t.IsFirst q (start + 1) stop) (hq : q start = false) :
    t.IsFirst q start stop := by
  refine ⟨Nat.le_of_succ_le h.start_le, h.stop_le, ?_, h.here⟩
  intro i hi hlt
  rcases Nat.lt_or_eq_of_le hi with hafter | rfl
  · exact h.absent i hafter hlt
  · exact hq

/-- The characters that are not of a class, from a position on, reach to the first one that is. -/
theorem isFirst_takeWhile (t : Text) (p : Char → Bool) (hle : start ≤ t.length) :
    t.IsFirst (t.holdsAt p) start
      (start + ((t.drop start).takeWhile fun c => !p c).length) := by
  generalize hrest : t.drop start = rest
  induction rest generalizing start with
  | nil =>
    have hend := List.drop_eq_nil_iff.1 hrest
    exact ⟨Nat.le_refl _, hle, .self, fun hlt => absurd hlt (Nat.not_lt.2 hend)⟩
  | cons c cs ih =>
    obtain ⟨hc, hcs⟩ := of_drop_eq_cons hrest
    by_cases hpc : p c = true
    · rw [List.takeWhile_cons_of_neg (by simp [hpc])]
      exact ⟨Nat.le_refl _, hle, .self, fun _ => (holdsAt_of_getElem? hc).trans hpc⟩
    · have hnext := ih (List.getElem?_eq_some_iff.1 hc).1 hcs
      have hlength : start + (cs.takeWhile (fun d => !p d)).length.succ =
          start + 1 + (cs.takeWhile fun d => !p d).length := by omega
      rw [List.takeWhile_cons_of_pos (by simp [hpc]), List.length_cons, hlength]
      exact hnext.of_succ ((holdsAt_of_getElem? hc).trans (Bool.eq_false_iff.2 hpc))

/-! ## Escapes -/

/-- The number of backslashes that end a text. -/
def backslashesAtEnd (t : Text) : Nat := (t.reverse.takeWhile (· = '\\')).length

/-- The character at the position is escaped. -/
def escapedAt (t : Text) (i : Nat) : Bool := backslashesAtEnd (t.take i) % 2 = 1

/-- A character of the class stands at the position, and it is not escaped. -/
def bareAt (t : Text) (p : Char → Bool) (i : Nat) : Bool := t.holdsAt p i && !t.escapedAt i

theorem backslashesAtEnd_snoc (t : Text) (c : Char) :
    backslashesAtEnd (t ++ [c]) = if c = '\\' then t.backslashesAtEnd + 1 else 0 := by
  unfold backslashesAtEnd
  rw [List.reverse_append, List.reverse_singleton, List.singleton_append]
  by_cases hc : c = '\\'
  · rw [if_pos hc, List.takeWhile_cons_of_pos (by simp [hc]), List.length_cons]
  · rw [if_neg hc, List.takeWhile_cons_of_neg (by simp [hc]), List.length_nil]

theorem bareAt_of_getElem? (h : t[i]? = some c) : t.bareAt p i = (p c && !t.escapedAt i) := by
  rw [bareAt, holdsAt_of_getElem? h]

theorem holdsAt_of_bareAt (h : t.bareAt p i = true) : t.holdsAt p i = true :=
  (Bool.and_eq_true_iff.1 h).1

end Text

namespace QuoteScan

theorem escaped_step (s : QuoteScan) (c : Char) :
    (s.step c).escaped = (!s.escaped && c = '\\') := by
  unfold step
  rcases s with ⟨quote, _ | _⟩
  · by_cases hc : c = '\\'
    · simp [hc]
    · cases quote <;> simp [hc] <;> split <;> rfl
  · rfl

/-- The machine takes the next character literally after an odd number of backslashes. -/
theorem escaped_run (t : Text) : (run {} t).escaped = decide (t.backslashesAtEnd % 2 = 1) := by
  -- From the end: a further character adds to the backslashes there or leaves none of them.
  induction t using List.reverseRecOn with
  | nil => rfl
  | append_singleton t c ih =>
    have hrun : run {} (t ++ [c]) = (run {} t).step c := run_append {} t [c]
    rw [hrun, escaped_step, ih, Text.backslashesAtEnd_snoc]
    by_cases hc : c = '\\'
    · have hparity : (Text.backslashesAtEnd t + 1) % 2 = 1 ↔ ¬ Text.backslashesAtEnd t % 2 = 1 := by
        omega
      rw [if_pos hc, decide_eq_decide.2 hparity, decide_not, decide_eq_true hc, Bool.and_true]
    · simp [hc]

theorem run_take_succ {t : Text} {i : Nat} {c : Char} (h : t[i]? = some c) :
    run {} (t.take (i + 1)) = (run {} (t.take i)).step c := by
  rw [List.take_add_one, h]
  exact run_append {} _ [c]

end QuoteScan

/-- What the machine says before a position is what the backslashes there say. -/
theorem Text.escapedAt_eq (t : Text) (i : Nat) :
    t.escapedAt i = (QuoteScan.run {} (t.take i)).escaped :=
  (QuoteScan.escaped_run _).symm

end Typeahead
