import Typeahead.Proofs.Line.Current

/-!
Where the cursor stands. Behind the start of each token that is not empty there is one token that holds
the cursor, and the last one holds it at the end of the line. The tokens before that one, and what was
typed of it, are the characters before the cursor.
-/
namespace Typeahead

variable {text : Text} {lo mid hi pos i : Nat} {t : Token} {ts : List Token}

/-! ## Parts side by side -/

theorem Text.slice_append (hlo : lo ≤ mid) (hhi : mid ≤ hi) :
    text.slice lo mid ++ text.slice mid hi = text.slice lo hi := by
  have hcut : text.slice lo mid = (text.slice lo hi).take (mid - lo) := (take_slice hhi).symm
  have hrest : text.slice mid hi = (text.slice lo hi).drop (mid - lo) := by
    rw [slice, slice, List.drop_drop, Nat.add_sub_cancel' hlo]
  rw [hcut, hrest, List.take_append_drop]

namespace Token

/-- Tokens side by side read as the part of the line that they cover. -/
theorem Tiles.values_flatten (h : Tiles text lo ts hi) :
    (ts.map Token.value).flatten = text.slice lo hi := by
  induction ts generalizing lo with
  | nil =>
    have hends : lo = hi := h
    simp [hends]
  | cons t ts ih =>
    obtain ⟨rfl, hlt, hvalue, hrest⟩ := h
    rw [List.map_cons, List.flatten_cons, ih hrest, hvalue,
      Text.slice_append (Nat.le_of_lt hlt) hrest.le]

/-! ## The token that holds a position -/

/-- The token of the index holds the position: it starts there or before, and the position is before
its end, unless it is the last token. -/
structure Holds (ts : List Token) (pos i : Nat) (t : Token) : Prop where
  here : ts[i]? = some t
  start_le : t.start ≤ pos
  ends : pos < t.stop ∨ i + 1 = ts.length

/-- The tokens that start at a position or before are those up to the one that holds it. -/
theorem Tiles.lastStarting_eq (h : Tiles text lo ts hi) (hholds : Holds ts pos i t) :
    Snapshot.lastStarting ts pos = some i := by
  obtain ⟨hhere, hstart, hends⟩ := hholds
  obtain ⟨hbound, rfl⟩ := List.getElem?_eq_some_iff.1 hhere
  have hsplit : ts = ts.take i ++ ts[i] :: ts.drop (i + 1) := by simp
  rw [hsplit] at h
  obtain ⟨_, hbefore, rfl, hlt, _, hafter⟩ := tiles_append.1 h
  have hfirst : (ts.take i).filter (·.start ≤ pos) = ts.take i := by
    rw [List.filter_eq_self]
    intro u hu
    have hmem := hbefore.mem hu
    simp
    omega
  have hlast : (ts.drop (i + 1)).filter (·.start ≤ pos) = [] := by
    rw [List.filter_eq_nil_iff]
    intro u hu
    have hmem := hafter.mem hu
    rcases hends with hpos | hlength
    · simp
      omega
    · simp [hlength] at hu
  have hlength : (ts.filter (·.start ≤ pos)).length = i + 1 := by
    rw [hsplit, List.filter_append, List.filter_cons, hfirst, hlast, if_pos (by simpa using hstart)]
    simp
    omega
  unfold Snapshot.lastStarting
  rw [hlength]

/-- Only one token holds a position. -/
theorem Tiles.holds_unique {j : Nat} {u : Token} (h : Tiles text lo ts hi)
    (hholds : Holds ts pos i t) (hholds' : Holds ts pos j u) : j = i := by
  have hsame := (h.lastStarting_eq hholds').symm.trans (h.lastStarting_eq hholds)
  exact Option.some.inj hsame

/-- Some token holds each position up to the end. -/
theorem Tiles.exists_holds (h : Tiles text lo ts hi) (hne : ts ≠ []) (hlo : lo ≤ pos)
    (hhi : pos ≤ hi) : ∃ i t, Holds ts pos i t := by
  obtain ⟨t, _, hfound, hstart, hends⟩ := h.exists_lastStarting hne hlo hhi
  obtain ⟨i, _, hhere⟩ := Option.bind_eq_some_iff.1 hfound
  refine ⟨i, t, hhere, hstart, hends.imp_right fun ⟨_, hstop⟩ => ?_⟩
  -- A token behind one that stops at the end would be empty.
  by_contra hbehind
  obtain ⟨hbound, rfl⟩ := List.getElem?_eq_some_iff.1 hhere
  have hsplit : ts = ts.take i ++ ts[i] :: ts[i + 1] :: ts.drop (i + 2) := by simp
  rw [hsplit] at h
  have hnext := h.stop_eq_start
  have hmem := h.mem (t := ts[i + 1]) (by simp)
  omega

end Token

/-! ## The cursor -/

namespace Snapshot

variable {s : Snapshot}

/-- The token that holds the cursor is the current one. The tokens before it and what was typed of it
are the line up to the cursor. -/
theorem IsMade.current_of_holds (h : s.IsMade) (hholds : Token.Holds s.tokens s.cursor i t) :
    s.tokenIndex = some i ∧ s.current? = some t ∧
      ((s.tokens.take i).map Token.value).flatten ++ s.typed = s.before := by
  have htiles := Token.tiles_scan s.line
  rw [← h.tokens_eq] at htiles
  have hindex : s.tokenIndex = some i := by
    have hlast := htiles.lastStarting_eq hholds
    obtain ⟨line, cursor, mode, directory, recent, rfl⟩ := h
    exact hlast
  have hcurrent : s.current? = some t := by
    rw [current?, hindex, Option.bind_some, hholds.here]
  refine ⟨hindex, hcurrent, ?_⟩
  have hmem := List.mem_of_getElem? hholds.here
  have hlength := (htiles.mem hmem).2.2.1
  obtain ⟨u, _, hfound, htyped, _, _⟩ :=
    h.exists_current? (Nat.lt_of_lt_of_le (htiles.mem hmem).2.1 hlength)
  obtain rfl := Option.some.inj (hcurrent.symm.trans hfound)
  obtain ⟨hbound, rfl⟩ := List.getElem?_eq_some_iff.1 hholds.here
  have hsplit : s.tokens = s.tokens.take i ++ s.tokens[i] :: s.tokens.drop (i + 1) := by simp
  rw [hsplit] at htiles
  obtain ⟨_, hbefore, hstart, _⟩ := Token.tiles_append.1 htiles
  rw [hbefore.values_flatten, htyped, ← hstart,
    Text.slice_append (Nat.zero_le _) hholds.start_le]
  rfl

end Snapshot

/-- The cursor is moved into the line, and cuts it in two. A line without characters has no current
token. In every other line the current token is the one token that holds the cursor, and the tokens
before it and what was typed of it are the line up to the cursor. -/
theorem the_current_token_holds_the_cursor (line : Text) (cursor : Nat) (mode : Mode)
    (directory : Text) (recent : List Text) :
    let s := Snapshot.ofLine line cursor mode directory recent
    s.cursor = min cursor line.length ∧ s.before.length = s.cursor ∧ s.before ++ s.after = line ∧
      s.tokens = Token.scan line ∧
      ((line = [] ∧ s.tokenIndex = none ∧ s.current? = none ∧ s.typed = []) ∨
        line ≠ [] ∧ ∃ i t, s.tokenIndex = some i ∧ s.current? = some t ∧
          Token.Holds s.tokens s.cursor i t ∧
          (∀ j u, Token.Holds s.tokens s.cursor j u → j = i) ∧
          ((s.tokens.take i).map Token.value).flatten ++ s.typed = s.before) := by
  intro s
  have hmade : s.IsMade := ⟨line, cursor, mode, directory, recent, rfl⟩
  have hbefore : s.before.length = s.cursor := List.length_take_of_le hmade.cursor_le
  refine ⟨rfl, hbefore, s.before_append_after, rfl, ?_⟩
  by_cases hline : line = []
  · subst hline
    exact Or.inl ⟨rfl, rfl, rfl, rfl⟩
  · have htiles : Token.Tiles line 0 s.tokens line.length := Token.tiles_scan line
    have hne : s.tokens ≠ [] := by
      intro hnil
      rw [hnil] at htiles
      exact hline (List.length_eq_zero_iff.1 htiles.symm)
    obtain ⟨i, t, hholds⟩ := htiles.exists_holds hne (Nat.zero_le _) hmade.cursor_le
    obtain ⟨hindex, hcurrent, hvalues⟩ := hmade.current_of_holds hholds
    exact Or.inr ⟨hline, i, t, hindex, hcurrent, hholds,
      fun _ _ hholds' => htiles.holds_unique hholds hholds', hvalues⟩

end Typeahead
