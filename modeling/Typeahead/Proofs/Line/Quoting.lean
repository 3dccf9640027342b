import Typeahead.Proofs.Line.Cutting

/-!
Quoting told by the tokens. The lexer looks for the end of each quoted run on its own, and the
quoting machine runs over the whole line. Both say the same at every position.
-/
namespace Typeahead

variable {text : Text} {start stop i : Nat} {c : Char} {lexeme next : Lexeme}

/-! ## The quote along a lexeme -/

theorem isOpen_opening (h : isQuoteMark c = true) : (Quote.opening c).isOpen = true := by
  rcases isQuoteMark_iff.1 h with rfl | rfl <;> rfl

namespace Lexeme

/-- A lexeme holds one quote, from its first character until it is closed. -/
theorem Step.quote (h : Step lexeme c next) :
    next = closed ∨ next.quoting.quote = lexeme.quoting.quote := by
  cases h <;> simp [Lexeme.quoting]

theorem quote_step_idle (c : Char) : (QuoteScan.step {} c).quote = Quote.opening c := by
  by_cases hslash : c = '\\'
  · rw [hslash]
    rfl
  · simp [QuoteScan.step, hslash]

theorem Spans.quote (h : Spans text start stop lexeme) (hc : text[start]? = some c) :
    lexeme = closed ∨ lexeme.quoting.quote = Quote.opening c := by
  induction h with
  | @first d hd =>
    rw [hc] at hd
    cases hd
    right
    rw [← (opens_opening c).quoting, quote_step_idle]
  | @snoc stop lexeme next d _ _ hnext ih =>
    have hstep := step_of_next? hnext
    rcases hstep.quote with hclosed | hsame
    · exact Or.inl hclosed
    · rcases ih with rfl | hquote
      · cases hstep
      · exact Or.inr (hsame.trans hquote)

/-- Before its end a lexeme is still open. -/
theorem Spans.before (h : Spans text start stop lexeme) (hlt : start < i) (hstop : i < stop) :
    ∃ earlier : Lexeme, Spans text start i earlier ∧ earlier ≠ closed := by
  induction h with
  | first _ => omega
  | @snoc stop lexeme next d hspans _ hnext ih =>
    rcases Nat.lt_or_eq_of_le (Nat.le_of_lt_succ hstop) with hbefore | rfl
    · exact ih hbefore
    · refine ⟨lexeme, hspans, ?_⟩
      rintro rfl
      cases hnext

/-- Inside a lexeme that is cut out, the quote is the one that its first character opens. -/
theorem Cut.quoteAt (h : lexeme.Cut text start stop) (hc : text[start]? = some c)
    (hle : start ≤ i) (hlt : i < stop) :
    quoteAt text i = if start < i then Quote.opening c else .none := by
  unfold Typeahead.quoteAt
  split
  · rename_i hinside
    obtain ⟨earlier, hspans, hopen⟩ := h.spans.before hinside hlt
    rw [hspans.run h.idle]
    exact (hspans.quote hc).resolve_left hopen
  · rename_i hstart
    obtain rfl : i = start := by omega
    rw [h.idle]

/-- After a lexeme a quote is open if a mark opens it and no bare one closes it. -/
theorem Cut.isOpen_iff (h : lexeme.Cut text start stop) (hc : text[start]? = some c) :
    (Typeahead.quoteAt text stop).isOpen = true ↔
      isQuoteMark c = true ∧ ∀ i, start < i → i < stop → text.bareAt (· == c) i = false := by
  have hread := h.spans.describes h.idle
  unfold Typeahead.quoteAt
  rw [h.spans.run h.idle]
  have hunquoted : lexeme ≠ closed → lexeme.quoting.quote = .none → isQuoteMark c = false := by
    intro hopen hnone
    have hopening := ((h.spans.quote hc).resolve_left hopen).symm.trans hnone
    refine Bool.eq_false_iff.2 fun hquote => ?_
    rcases isQuoteMark_iff.1 hquote with rfl | rfl <;> cases hopening
  cases lexeme with
  | blank => simp [Lexeme.quoting, Quote.isOpen, hunquoted (by simp) rfl]
  | operator => simp [Lexeme.quoting, Quote.isOpen, hunquoted (by simp) rfl]
  | word escaped => simp [Lexeme.quoting, Quote.isOpen, hunquoted (by simp) rfl]
  | quoted mark escaped =>
    obtain ⟨hmark, hquote⟩ := h.spans.mark rfl
    rw [hc] at hmark
    cases hmark
    exact ⟨fun _ => ⟨hquote, fun i hi hlt => hread i hi hlt⟩, fun _ => isOpen_opening hquote⟩
  | closed =>
    obtain ⟨mark, last, hquote, hmark, hlt, rfl, hlast, _⟩ := hread
    rw [hc] at hmark
    cases hmark
    constructor
    · intro hopen
      cases hopen
    · rintro ⟨_, hnever⟩
      rw [hnever last hlt (by omega)] at hlast
      cases hlast

end Lexeme

variable {t : Token} {mark : Char}

/-- The value of a token starts with the character at its start. -/
theorem Token.exists_head (h : t ∈ Token.scan text) :
    ∃ c, text[t.start]? = some c ∧ t.value.head? = some c := by
  obtain ⟨_, hlt, hle, hvalue⟩ := (Token.tiles_scan text).mem h
  have hc : text[t.start]? = some text[t.start] := List.getElem?_eq_getElem (by omega)
  refine ⟨_, hc, ?_⟩
  rw [hvalue, Text.slice_cons hlt hc]
  rfl

/-! ## The quote that a token tells -/

/-- At its positions a token tells the quote of the mark that it starts with, the first position
left out. -/
structure Token.Tells (t : Token) (pos : Nat) (quote : Quote) : Prop where
  single : quote = .single ↔ t.value.head? = some '\'' ∧ t.start < pos
  double : quote = .double ↔ t.value.head? = some '"' ∧ t.start < pos
  none : quote = .none ↔ ¬ (t.value.head? = some '\'' ∧ t.start < pos) ∧
    ¬ (t.value.head? = some '"' ∧ t.start < pos)

theorem Token.tells_of_head {pos : Nat} (h : t.value.head? = some c) :
    t.Tells pos (if t.start < pos then Quote.opening c else .none) := by
  by_cases hpos : t.start < pos
  · rw [if_pos hpos]
    unfold Quote.opening
    split
    · constructor <;> simp [h, hpos]
    · constructor <;> simp [h, hpos]
    · rename_i hsingle hdouble
      have hne : c ≠ '\'' ∧ c ≠ '"' := ⟨hsingle, hdouble⟩
      constructor <;> simp [h, hpos, hne.1, hne.2]
  · rw [if_neg hpos]
    constructor <;> simp [hpos]

theorem Token.getLast?_stop (h : (Token.scan text).getLast? = some t) : t.stop = text.length := by
  have htiles := Token.tiles_scan text
  obtain ⟨before, hsplit⟩ := List.getLast?_eq_some_iff.1 h
  rw [hsplit] at htiles
  obtain ⟨_, _, _, _, _, hend⟩ := Token.tiles_append.1 htiles
  exact hend

theorem quoteAt_of_length_le (h : text.length ≤ i) : quoteAt text i = quoteAt text text.length := by
  unfold quoteAt
  rw [List.take_of_length_le h, List.take_length]

theorem exists_tells {pos : Nat} (h : pos < text.length) :
    ∃ t ∈ Token.scan text, t.start ≤ pos ∧ pos < t.stop ∧
      (∀ u ∈ Token.scan text, u.start ≤ pos → pos < u.stop → u = t) ∧
      t.Tells pos (quoteAt text pos) := by
  obtain ⟨t, ht, hle, hlt, hunique⟩ := (Token.tiles_scan text).covers (Nat.zero_le pos) h
  obtain ⟨lexeme, hcut⟩ := Token.exists_cut_of_mem_scan ht
  obtain ⟨c, hc, hhead⟩ := Token.exists_head ht
  refine ⟨t, ht, hle, hlt, hunique, ?_⟩
  rw [hcut.quoteAt hc hle hlt]
  exact Token.tells_of_head hhead

/-- At the end of a line the last token says whether a quote is open. -/
theorem isOpen_quoteAt_length_iff (h : (Token.scan text).getLast? = some t) :
    (quoteAt text text.length).isOpen = true ↔ ∃ mark, t.value.head? = some mark ∧
      isQuoteMark mark = true ∧
      ∀ i, t.start < i → i < t.stop → text.bareAt (· == mark) i = false := by
  have ht := List.mem_of_getLast? h
  obtain ⟨lexeme, hcut⟩ := Token.exists_cut_of_mem_scan ht
  obtain ⟨c, hc, hhead⟩ := Token.exists_head ht
  rw [← Token.getLast?_stop h, hcut.isOpen_iff hc]
  constructor
  · exact fun hopen => ⟨c, hhead, hopen⟩
  · rintro ⟨mark, hmark, hopen⟩
    rw [hhead] at hmark
    cases hmark
    exact hopen

/-- At each position of the line the quote is the one that the token there tells. Past the end it is
open if a mark opens the last token and no bare one closes it. -/
theorem the_tokens_tell_the_quotes (text : Text) (pos : Nat) :
    (pos < text.length → ∃ t ∈ Token.scan text, t.start ≤ pos ∧ pos < t.stop ∧
      (∀ u ∈ Token.scan text, u.start ≤ pos → pos < u.stop → u = t) ∧
      t.Tells pos (quoteAt text pos)) ∧
    (text.length ≤ pos → ((quoteAt text pos).isOpen = true ↔
      ∃ t mark, (Token.scan text).getLast? = some t ∧ t.value.head? = some mark ∧
        isQuoteMark mark = true ∧
        ∀ i, t.start < i → i < t.stop → text.bareAt (· == mark) i = false)) := by
  constructor
  · exact exists_tells
  · intro hpast
    rw [quoteAt_of_length_le hpast]
    rcases hlast : (Token.scan text).getLast? with _ | t
    · have htiles := Token.tiles_scan text
      rw [List.getLast?_eq_none_iff.1 hlast] at htiles
      obtain rfl := List.length_eq_zero_iff.1 htiles.symm
      constructor
      · intro hopen
        cases hopen
      · rintro ⟨_, _, hnone, _⟩
        cases hnone
    · rw [isOpen_quoteAt_length_iff hlast]
      constructor
      · exact fun ⟨mark, hopen⟩ => ⟨t, mark, rfl, hopen⟩
      · rintro ⟨u, mark, hu, hopen⟩
        cases hu
        exact ⟨mark, hopen⟩

/-- An escaped mark stays in its word, and the mark after the blank opens a run that never ends. -/
theorem the_last_token_tells_an_open_quote :
    let text : Text := "say \\\"x 'it".toList
    (∃ t ∈ Token.scan text, t.start ≤ 9 ∧ 9 < t.stop ∧
      (∀ u ∈ Token.scan text, u.start ≤ 9 → 9 < u.stop → u = t) ∧ t.Tells 9 (quoteAt text 9)) ∧
    ((quoteAt text 12).isOpen = true ↔
      ∃ t mark, (Token.scan text).getLast? = some t ∧ t.value.head? = some mark ∧
        isQuoteMark mark = true ∧
        ∀ i, t.start < i → i < t.stop → text.bareAt (· == mark) i = false) ∧
    quoteAt text 9 = .single ∧ quoteAt text 6 = .none := by
  intro text
  exact ⟨(the_tokens_tell_the_quotes text 9).1 (by decide),
    (the_tokens_tell_the_quotes text 12).2 (by decide), rfl, rfl⟩

end Typeahead
