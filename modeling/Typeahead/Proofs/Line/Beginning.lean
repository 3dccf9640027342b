import Typeahead.Proofs.Line.Firing

/-!
Texts that begin alike. What stands before a position is the same in both, and so are the quotes, the
runs and the words there.
-/
namespace Typeahead

variable {t u : Text} {p : Char → Bool} {c : Char} {n i first start stop cursor : Nat}

namespace Text

/-- The texts hold the same characters before a position, and both reach up to it. -/
structure Alike (n : Nat) (t u : Text) : Prop where
  take_eq : t.take n = u.take n
  le_left : n ≤ t.length
  le_right : n ≤ u.length

theorem alike_append (t u v : Text) : Alike t.length (t ++ u) (t ++ v) := by
  refine ⟨?_, ?_, ?_⟩
  · rw [List.take_left, List.take_left]
  · rw [List.length_append]
    exact Nat.le_add_right _ _
  · rw [List.length_append]
    exact Nat.le_add_right _ _

namespace Alike

theorem symm (h : Alike n t u) : Alike n u t := ⟨h.take_eq.symm, h.le_right, h.le_left⟩

theorem take_eq_of_le (h : Alike n t u) (hi : i ≤ n) : t.take i = u.take i := by
  have htake := congrArg (List.take i) h.take_eq
  rwa [List.take_take, List.take_take, Nat.min_eq_left hi] at htake

theorem getElem?_eq (h : Alike n t u) (hi : i < n) : t[i]? = u[i]? := by
  rw [← List.getElem?_take_of_lt hi, h.take_eq, List.getElem?_take_of_lt hi]

theorem holdsAt_eq (h : Alike n t u) (hi : i < n) : t.holdsAt p i = u.holdsAt p i := by
  unfold holdsAt
  rw [h.getElem?_eq hi]

theorem slice_eq (h : Alike n t u) (hstop : stop ≤ n) : t.slice start stop = u.slice start stop := by
  unfold slice
  rw [h.take_eq_of_le hstop]

theorem quoteAt_eq (h : Alike n t u) (hi : i ≤ n) : quoteAt t i = quoteAt u i := by
  unfold quoteAt
  rw [h.take_eq_of_le hi]

theorem absent (h : Alike n t u) (hstop : stop ≤ n) (habsent : Absent (t.holdsAt p) start stop) :
    Absent (u.holdsAt p) start stop := by
  intro i hle hlt
  rw [← h.holdsAt_eq (Nat.lt_of_lt_of_le hlt hstop)]
  exact habsent i hle hlt

theorem isFirst (h : Alike n t u) (hstop : stop < n) (hfirst : t.IsFirst (t.holdsAt p) start stop) :
    u.IsFirst (u.holdsAt p) start stop := by
  refine ⟨hfirst.start_le, ?_, h.absent (Nat.le_of_lt hstop) hfirst.absent, ?_⟩
  · exact Nat.le_trans (Nat.le_of_lt hstop) h.le_right
  · intro _
    rw [← h.holdsAt_eq hstop]
    exact hfirst.here (Nat.lt_of_lt_of_le hstop h.le_left)

end Alike

end Text

/-! ## Runs and words -/

theorem EndsRun.alike (h : t.Alike n u) (hrun : EndsRun t start stop) (hstop : stop ≤ n) :
    EndsRun u start stop := by
  refine ⟨hrun.start_le, h.absent hstop hrun.unbroken, ?_⟩
  intro i hi
  have hbefore : i < n := by
    have := hrun.start_le
    omega
  rw [← h.holdsAt_eq hbefore]
  exact hrun.begins i hi

/-- A first word that stops before the position is in both texts. -/
theorem FirstWord.alike (h : t.Alike n u) (hword : FirstWord t start stop) (hstop : stop < n) :
    FirstWord u start stop := by
  have hstart : start < n := Nat.lt_of_le_of_lt hword.ends.start_le hstop
  exact ⟨h.isFirst hstart hword.starts, Nat.lt_of_lt_of_le hstart h.le_right,
    h.isFirst hstop hword.ends⟩

/-- Blanks, and behind them no blank up to a position, begin with a first word that reaches it. -/
theorem exists_firstWord (hblank : Text.Absent (t.holdsAt fun c => !Text.isBlank c) 0 start)
    (hstart : t.holdsAt (fun c => !Text.isBlank c) start = true)
    (hrun : Text.Absent (t.holdsAt Text.isBlank) start cursor) (hcursor : cursor ≤ t.length) :
    ∃ stop, cursor ≤ stop ∧ FirstWord t start stop := by
  have hinside := Text.lt_length_of_holdsAt hstart
  have hends := t.isFirst_takeWhile Text.isBlank (Nat.le_of_lt hinside)
  generalize start + _ = stop at hends
  refine ⟨stop, ?_, ⟨?_, hinside, hends⟩⟩
  · -- A word that stopped before would stop at a blank.
    by_contra hbefore
    have hhere := hends.here (by omega)
    rw [hrun stop hends.start_le (by omega)] at hhere
    cases hhere
  · exact ⟨Nat.zero_le _, Nat.le_of_lt hinside, hblank, fun _ => hstart⟩

/-- So a first word that reaches the position has one like it in the other text. -/
theorem FirstWord.exists_alike (h : t.Alike n u) (hword : FirstWord t start stop) (hstart : start < n)
    (hstop : n ≤ stop) : ∃ stop', n ≤ stop' ∧ FirstWord u start stop' := by
  have hhere := hword.starts.here hword.inside
  rw [h.holdsAt_eq hstart] at hhere
  have hrun : Text.Absent (t.holdsAt Text.isBlank) start n :=
    fun i hle hlt => hword.ends.absent i hle (Nat.lt_of_lt_of_le hlt hstop)
  exact exists_firstWord (h.absent (Nat.le_of_lt hstart) hword.starts.absent) hhere
    (h.absent (Nat.le_refl n) hrun) h.le_right

/-- The first word starts at or before every character that is no blank. -/
theorem FirstWord.start_le (hword : FirstWord t start stop) (hi : t[i]? = some c)
    (hc : Text.isBlank c = false) : start ≤ i := by
  refine hword.starts.le_of_holds (Nat.zero_le i) ?_
  rw [Text.holdsAt_of_getElem? hi, hc]
  rfl

end Typeahead
