import Typeahead.Menu.Frame

/-!
The rows of a list that are shown. They hold the selected one, and when the selection moves by one they
move along with it by one at most. Machine words suffice to find them.
-/
namespace Typeahead

/-! ## The window -/

/-- As far before the selection as half of the window, but not past where the last window starts. -/
theorem visibleWindow_fst (total selected limit : Nat) :
    (visibleWindow total selected limit).1 = min (selected - limit / 2) (total - limit) := by
  unfold visibleWindow
  split
  · dsimp only
    omega
  · rfl

theorem visibleWindow_snd (total selected limit : Nat) :
    (visibleWindow total selected limit).2 =
      (visibleWindow total selected limit).1 + min total limit := by
  unfold visibleWindow
  split
  · dsimp only
    omega
  · dsimp only
    omega

/-! ## Rows -/

namespace Painter

variable {p : Painter} {palette : Palette} {m : Menu}

/-- The candidates that are shown, with their places in the list. -/
def shown (p : Painter) (m : Menu) : List (Candidate × Nat) :=
  (m.candidates.zipIdx.drop (visibleWindow m.size m.selected p.rowLimit).1).take
    (min m.size p.rowLimit)

theorem length_shown : (p.shown m).length = min m.size p.rowLimit := by
  unfold shown
  rw [List.length_take, List.length_drop, List.length_zipIdx, visibleWindow_fst]
  change min _ (m.size - _) = _
  omega

/-- A row for each candidate that is shown, and one for the position if they are not all of them. -/
theorem rows_eq :
    p.rows palette m =
      (p.shown m).map (fun e => p.row palette (e.2 = m.selected) e.1) ++
        if p.showsPosition && p.rowLimit < m.size then [positionRow palette m] else [] := by
  have hcount : (visibleWindow m.size m.selected p.rowLimit).2 -
      (visibleWindow m.size m.selected p.rowLimit).1 = min m.size p.rowLimit := by
    rw [visibleWindow_snd]
    omega
  have hlength : decide ((p.shown m).length < m.size) = decide (p.rowLimit < m.size) := by
    rw [length_shown, decide_eq_decide]
    omega
  unfold rows
  dsimp only
  rw [hcount]
  change (if p.showsPosition && decide ((p.shown m).length < m.size) then _ else _) = _
  rw [hlength]
  split
  · rfl
  · exact (List.append_nil _).symm

theorem length_rows :
    (p.rows palette m).length =
      min m.size p.rowLimit + if p.showsPosition && p.rowLimit < m.size then 1 else 0 := by
  rw [rows_eq, List.length_append, List.length_map, length_shown]
  split <;> rfl

end Painter

/-! ## Words -/

/-- The sum of two machine words, if it is one. -/
def addWords? (a b : USize) : Option USize :=
  if a.toNat + b.toNat < USize.size then some (a + b) else none

/-- The difference of two machine words, if it is one. -/
def subWords? (a b : USize) : Option USize := if b ≤ a then some (a - b) else none

/-- The window made of machine words, or none where a sum or a difference is no word. Only the distance
before the selection is taken to be zero instead. -/
def visibleWindowOfWords? (total selected limit : USize) : Option (USize × USize) :=
  if total ≤ limit then some (0, total)
  else do
    let lastStart ← subWords? total limit
    let start := min ((subWords? selected (limit / 2)).getD 0) lastStart
    let stop ← addWords? start limit
    pure (start, stop)

variable {a b : USize}

theorem addWords?_of_lt (h : a.toNat + b.toNat < USize.size) :
    ∃ c, addWords? a b = some c ∧ c.toNat = a.toNat + b.toNat := by
  refine ⟨a + b, if_pos h, ?_⟩
  rw [USize.toNat_add]
  exact Nat.mod_eq_of_lt h

theorem subWords?_of_le (h : b.toNat ≤ a.toNat) :
    ∃ c, subWords? a b = some c ∧ c.toNat = a.toNat - b.toNat := by
  have hle : b ≤ a := USize.le_iff_toNat_le.2 h
  exact ⟨a - b, if_pos hle, USize.toNat_sub_of_le a b hle⟩

theorem toNat_getD_subWords? (a b : USize) :
    ((subWords? a b).getD 0).toNat = a.toNat - b.toNat := by
  by_cases h : b.toNat ≤ a.toNat
  · obtain ⟨c, hc, hsub⟩ := subWords?_of_le h
    rw [hc, Option.getD_some, hsub]
  · have hnone : subWords? a b = none := if_neg (mt USize.le_iff_toNat_le.1 h)
    rw [hnone, Option.getD_none, Nat.sub_eq_zero_of_le (Nat.le_of_not_le h)]
    rfl

theorem toNat_min (a b : USize) : (min a b).toNat = min a.toNat b.toNat := by
  change (if a ≤ b then a else b).toNat = _
  by_cases h : a ≤ b
  · rw [if_pos h, Nat.min_eq_left (USize.le_iff_toNat_le.1 h)]
  · rw [if_neg h, Nat.min_eq_right (Nat.le_of_not_le (mt USize.le_iff_toNat_le.2 h))]

/-- No sum and no difference leaves the words. -/
theorem exists_visibleWindowOfWords? (total selected limit : USize) :
    ∃ start stop, visibleWindowOfWords? total selected limit = some (start, stop) ∧
      visibleWindow total.toNat selected.toNat limit.toNat = (start.toNat, stop.toNat) := by
  unfold visibleWindowOfWords? visibleWindow
  by_cases hfits : total ≤ limit
  · refine ⟨0, total, if_pos hfits, ?_⟩
    rw [if_pos (USize.le_iff_toNat_le.1 hfits)]
    rfl
  · have hlt : limit.toNat < total.toNat := Nat.lt_of_not_le (mt USize.le_iff_toNat_le.2 hfits)
    obtain ⟨lastStart, hlast, hlastNat⟩ := subWords?_of_le (Nat.le_of_lt hlt)
    let start := min ((subWords? selected (limit / 2)).getD 0) lastStart
    have hstart : start.toNat = min (selected.toNat - limit.toNat / 2) (total.toNat - limit.toNat) := by
      have htwo : (2 : USize).toNat = 2 := USize.toNat_ofNat_of_lt_32 (by decide)
      rw [toNat_min, toNat_getD_subWords?, hlastNat, USize.toNat_div, htwo]
    -- The window ends before the list does, and the list is as long as a word says.
    have hbound : start.toNat + limit.toNat < USize.size := by
      have htotal := total.toNat_lt_size
      omega
    obtain ⟨stop, hstop, hstopNat⟩ := addWords?_of_lt hbound
    refine ⟨start, stop, ?_, ?_⟩
    · rw [if_neg hfits, hlast]
      change (addWords? start limit).bind _ = _
      rw [hstop]
      rfl
    · rw [if_neg (Nat.not_le_of_lt hlt), hstopNat, hstart]

/-! ## Scrolling -/

/-- The window lies in the list, has as many rows as fit and holds the selected one. When the selection
moves by one without going around, the window starts where it did or one row further the same way. With
machine words, whatever they are, no sum and no difference on the way leaves them. -/
theorem the_window_follows_the_selection :
    (∀ total selected limit, selected < total → 1 ≤ limit →
      let window := visibleWindow total selected limit
      let next := visibleWindow total (selected + 1) limit
      let previous := visibleWindow total (selected - 1) limit
      window.1 ≤ window.2 ∧ window.2 ≤ total ∧ window.2 - window.1 = min total limit ∧
        window.1 ≤ selected ∧ selected < window.2 ∧
        (selected + 1 < total → window.1 ≤ next.1 ∧ next.1 ≤ window.1 + 1) ∧
        (0 < selected → previous.1 ≤ window.1 ∧ window.1 ≤ previous.1 + 1)) ∧
    ∀ total selected limit : USize, ∃ start stop,
      visibleWindowOfWords? total selected limit = some (start, stop) ∧
        visibleWindow total.toNat selected.toNat limit.toNat = (start.toNat, stop.toNat) := by
  refine ⟨?_, exists_visibleWindowOfWords?⟩
  intro total selected limit hselected hlimit window next previous
  have hstart : window.1 = min (selected - limit / 2) (total - limit) := visibleWindow_fst ..
  have hstop : window.2 = window.1 + min total limit := visibleWindow_snd ..
  have hnext : next.1 = min (selected + 1 - limit / 2) (total - limit) := visibleWindow_fst ..
  have hprevious : previous.1 = min (selected - 1 - limit / 2) (total - limit) :=
    visibleWindow_fst ..
  refine ⟨?_, ?_, ?_, ?_, ?_, ?_, ?_⟩ <;> omega

/-- In the middle of eleven rows, four are shown, and they go along with the selection. -/
theorem four_of_eleven_rows_follow_the_selection :
    let window := visibleWindow 11 6 4
    window = (4, 8) ∧ window.1 ≤ 6 ∧ 6 < window.2 ∧ window.2 - window.1 = min 11 4 ∧
      (visibleWindow 11 7 4).1 ≤ window.1 + 1 ∧ window.1 ≤ (visibleWindow 11 5 4).1 + 1 := by
  intro window
  obtain ⟨_, _, hlength, hfirst, hlast, hnext, hprevious⟩ :=
    the_window_follows_the_selection.1 11 6 4 (by decide) (by decide)
  exact ⟨rfl, hfirst, hlast, hlength, (hnext (by decide)).2, (hprevious (by decide)).2⟩

end Typeahead
