import Typeahead.Proofs.Line.Firing
import Typeahead.Proofs.Line.Grammar

/-!
What a snapshot holds: the token at the cursor, the command token and the trigger. The first one
holds what stands before the cursor, and the second one stands before every character that is no
blank.
-/
namespace Typeahead

variable {text : Text} {lo hi i : Nat} {t : Token} {ts : List Token} {c : Char}

/-! ## The token at a position -/

/-- Only one token covers a position. -/
theorem Token.Tiles.eq_of_covers {u : Token} (h : Tiles text lo ts hi) (ht : t ∈ ts) (hu : u ∈ ts)
    (hstart : t.start ≤ i) (hstop : i < t.stop) (hstart' : u.start ≤ i) (hstop' : i < u.stop) :
    t = u := by
  obtain ⟨hlo, _, hhi, _⟩ := h.mem ht
  obtain ⟨v, _, _, _, hunique⟩ :=
    h.covers (Nat.le_trans hlo hstart) (Nat.lt_of_lt_of_le hstop hhi)
  rw [hunique t ht hstart hstop, hunique u hu hstart' hstop']

/-- The last token that starts at or before a position covers it, or the position is the end. -/
theorem Token.Tiles.exists_lastStarting (h : Tiles text lo ts hi) (hne : ts ≠ []) (hlo : lo ≤ i)
    (hhi : i ≤ hi) :
    ∃ t ∈ ts, (Snapshot.lastStarting ts i).bind (ts[·]?) = some t ∧ t.start ≤ i ∧
      (i < t.stop ∨ i = hi ∧ t.stop = hi) := by
  induction ts generalizing lo with
  | nil => exact absurd rfl hne
  | cons t ts ih =>
    obtain ⟨rfl, _, _, hrest⟩ := h
    have hlast : Snapshot.lastStarting (t :: ts) i = some (ts.filter (·.start ≤ i)).length := by
      unfold Snapshot.lastStarting
      rw [List.filter_cons, if_pos (by simpa using hlo), List.length_cons]
    rcases hcount : ts.filter (·.start ≤ i) with _ | ⟨u, us⟩
    · rw [hlast, hcount]
      refine ⟨t, List.mem_cons_self, rfl, hlo, ?_⟩
      -- A position past the token would be at or behind the start of the next one.
      rcases ts with _ | ⟨u, us⟩
      · have hend : t.stop = hi := hrest
        omega
      · have hafter := List.filter_eq_nil_iff.1 hcount u List.mem_cons_self
        have hstart := hrest.1
        rw [decide_eq_true_iff] at hafter
        omega
    · have hu : u ∈ ts.filter (·.start ≤ i) := by
        rw [hcount]
        exact List.mem_cons_self
      obtain ⟨hmem, hstart⟩ := List.mem_filter.1 hu
      rw [decide_eq_true_iff] at hstart
      obtain ⟨v, hv, hfound, hbefore, hbehind⟩ :=
        ih hrest (List.ne_nil_of_mem hmem) (Nat.le_trans (hrest.mem hmem).1 hstart)
      unfold Snapshot.lastStarting at hfound
      rw [hcount] at hfound
      rw [hlast, hcount]
      exact ⟨v, List.mem_cons_of_mem _ hv, hfound, hbefore, hbehind⟩

/-! ## Blank tokens -/

/-- A blank token holds blanks only. -/
theorem Token.holdsAt_of_isBlank (ht : t ∈ scan text) (hblank : t.isBlank = true)
    (hstart : t.start ≤ i) (hstop : i < t.stop) : text.holdsAt Text.isBlank i = true := by
  obtain ⟨before, after, hsplit⟩ := List.append_of_mem ht
  obtain ⟨form, hform, hkind⟩ := (lexes_scan text).forms before t after hsplit
  unfold isBlank at hblank
  rw [beq_iff_eq] at hblank
  rw [hblank] at hkind
  rw [kindAfter_eq_whitespace_iff.1 hkind.symm] at hform
  cases hform with
  | blanks hrun =>
    have habsent := hrun.ends.absent i hstart hstop
    rwa [Bool.not_eq_false'] at habsent
  | word _ _ hword => cases hword

/-! ## The command token -/

/-- Up to a character that is no blank there is a command token. -/
theorem Token.exists_command (hi : text[i]? = some c) (hc : Text.isBlank c = false) :
    ∃ t ∈ scan text, (scan text).find? (!·.isBlank) = some t ∧ t.start ≤ i := by
  have hlt := (List.getElem?_eq_some_iff.1 hi).1
  obtain ⟨u, hu, hstart, hstop, _⟩ := (tiles_scan text).covers (Nat.zero_le i) hlt
  have hfull : u.isBlank = false := by
    rw [Bool.eq_false_iff]
    intro hblank
    have hhere := holdsAt_of_isBlank hu hblank hstart hstop
    rw [Text.holdsAt_of_getElem? hi, hc] at hhere
    cases hhere
  rcases hfind : (scan text).find? (!·.isBlank) with _ | t
  · have hnone := List.find?_eq_none.1 hfind u hu
    rw [hfull] at hnone
    exact absurd rfl hnone
  · obtain ⟨_, before, after, hsplit, hbefore⟩ := List.find?_eq_some_iff_append.1 hfind
    have htiles := tiles_scan text
    rw [hsplit] at htiles hu
    refine ⟨t, hsplit ▸ List.mem_append_right _ List.mem_cons_self, hfind, ?_⟩
    rcases List.mem_append.1 hu with hu | hu
    · -- The tokens before the command are blank.
      have hblank := hbefore u hu
      rw [hfull] at hblank
      cases hblank
    · rcases List.mem_cons.1 hu with rfl | hu
      · exact hstart
      · obtain ⟨_, _, _, hlt', _, hafter⟩ := Token.tiles_append.1 htiles
        have := (hafter.mem hu).1
        omega

/-! ## Snapshots -/

namespace Snapshot

variable {line directory : Text} {cursor : Nat} {mode : Mode} {recent : List Text} {s : Snapshot}

/-- A snapshot that was made for a line. -/
def IsMade (s : Snapshot) : Prop :=
  ∃ line cursor mode directory recent, s = ofLine line cursor mode directory recent

theorem IsMade.cursor_le (h : s.IsMade) : s.cursor ≤ s.line.length := by
  obtain ⟨line, cursor, mode, directory, recent, rfl⟩ := h
  exact ofLine_cursor_le line cursor mode directory recent

theorem IsMade.tokens_eq (h : s.IsMade) : s.tokens = Token.scan s.line := by
  obtain ⟨line, cursor, mode, directory, recent, rfl⟩ := h
  rfl

/-- In a line with a character there is a current token. It holds the characters before the cursor
from its start on. -/
theorem IsMade.exists_current? (h : s.IsMade) (hi : i < s.line.length) :
    ∃ t ∈ Token.scan s.line, s.current? = some t ∧ s.typed = s.line.slice t.start s.cursor ∧
      t.start ≤ s.cursor ∧
      (s.cursor < t.stop ∨ s.cursor = s.line.length ∧ t.stop = s.line.length) := by
  have hcursor := h.cursor_le
  have htiles := Token.tiles_scan s.line
  have hne : Token.scan s.line ≠ [] := by
    intro hnil
    rw [hnil] at htiles
    have : 0 = s.line.length := htiles
    omega
  obtain ⟨t, ht, hfound, hstart, hbehind⟩ :=
    htiles.exists_lastStarting hne (Nat.zero_le _) hcursor
  have hcurrent : s.current? = some t := by
    obtain ⟨line, cursor, mode, directory, recent, rfl⟩ := h
    exact hfound
  refine ⟨t, ht, hcurrent, ?_, hstart, hbehind⟩
  unfold typed
  rw [hcurrent]
  dsimp only
  rw [(htiles.mem ht).2.2.2]
  exact Text.take_slice (by omega)

theorem IsMade.exists_command? (h : s.IsMade) (hi : s.line[i]? = some c)
    (hc : Text.isBlank c = false) :
    ∃ t ∈ Token.scan s.line, s.command? = some t ∧ t.start ≤ i := by
  obtain ⟨t, ht, hfind, hstart⟩ := Token.exists_command hi hc
  refine ⟨t, ht, ?_, hstart⟩
  unfold command?
  rw [h.tokens_eq]
  exact hfind

/-- The trigger is that of the first rule that applies. -/
theorem IsMade.fires (h : s.IsMade) : Fires s.line s.cursor s.mode s.trigger := by
  obtain ⟨line, cursor, mode, directory, recent, rfl⟩ := h
  have hfires := Trigger.fires_detect line (min cursor line.length) mode
  rw [Nat.min_assoc, Nat.min_self] at hfires
  exact hfires

theorem IsMade.typed_suffix (h : s.IsMade) : s.trigger.typed <:+ s.before := by
  obtain ⟨line, cursor, mode, directory, recent, rfl⟩ := h
  exact typed_ofLine line cursor mode directory recent

end Snapshot

end Typeahead
