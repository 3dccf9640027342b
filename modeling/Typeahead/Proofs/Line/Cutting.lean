import Typeahead.Proofs.Line.Lexeme

/-!
How a line is cut into tokens. The tokens cover the line side by side. Each of them is one lexeme
that goes as far as it can, and no quote is open where it starts.
-/
namespace Typeahead

variable {text : Text} {start stop lo hi i : Nat} {rest : Text} {values : List Text}
  {lexeme : Lexeme} {t u : Token} {ts us before after : List Token} {seen : Bool}

/-! ## The cuts -/

/-- A lexeme that is cut out of a line: no quote is open before it, and it goes as far as it can. -/
structure Lexeme.Cut (text : Text) (start stop : Nat) (lexeme : Lexeme) : Prop where
  idle : QuoteScan.run {} (text.take start) = {}
  spans : Spans text start stop lexeme
  ends : ∀ c, text[stop]? = some c → Stop lexeme c

theorem Lexeme.Cut.start_add_length (h : lexeme.Cut text start stop) :
    start + (text.slice start stop).length = stop := by
  rw [Text.length_slice h.spans.stop_le]
  have := h.spans.start_lt
  omega

/-- The values from a position on are those of lexemes cut out one after another. -/
inductive Cuts (text : Text) : Nat → List Text → Prop
  | nil : Cuts text text.length []
  | cons {start stop : Nat} {lexeme : Lexeme} {values : List Text} :
      lexeme.Cut text start stop → Cuts text stop values →
      Cuts text start (text.slice start stop :: values)

/-- An open lexeme goes on to its end, and the values after it are cut out as well. -/
theorem Lexeme.cuts_values (hidle : QuoteScan.run {} (text.take start) = {})
    (hspans : Spans text start stop lexeme) (hrest : text.drop stop = rest) :
    Cuts text start (lexeme.values (text.slice start stop) rest) := by
  -- Along the rest of the line; the lexeme that is open and where it starts change on the way.
  induction rest generalizing start stop lexeme with
  | nil =>
    have hstop : stop = text.length :=
      Nat.le_antisymm hspans.stop_le (List.drop_eq_nil_iff.1 hrest)
    subst hstop
    refine .cons ⟨hidle, hspans, fun c hc => ?_⟩ .nil
    simp at hc
  | cons c cs ih =>
    obtain ⟨hc, hcs⟩ := Text.of_drop_eq_cons hrest
    unfold values
    rcases hnext : lexeme.next? c with _ | next
    · -- The character opens the next lexeme, and no quote is open there.
      have hcut : lexeme.Cut text start stop := by
        refine ⟨hidle, hspans, fun d hd => ?_⟩
        rw [hc] at hd
        cases hd
        exact stop_of_next? hnext
      have hidle' : QuoteScan.run {} (text.take stop) = {} := by
        rw [hspans.run hidle, (stop_of_next? hnext).quoting]
      have hopened := ih hidle' (.first hc) hcs
      rw [Text.slice_snoc (Nat.le_refl _) hc, Text.slice_self] at hopened
      exact .cons hcut hopened
    · have hlonger := ih hidle (hspans.snoc hc hnext) hcs
      rw [Text.slice_snoc (Nat.le_of_lt hspans.start_lt) hc] at hlonger
      exact hlonger

/-- A line is cut into the values of its tokens. -/
theorem cuts_tokenValues (text : Text) : Cuts text 0 (tokenValues text) := by
  cases text with
  | nil => exact .nil
  | cons c cs =>
    have hfirst : Lexeme.Spans (c :: cs) 0 1 (Lexeme.opening c) := .first rfl
    exact Lexeme.cuts_values rfl hfirst rfl

namespace Token

/-! ## The classes of the tokens -/

/-- The kind of a token by its own class: the first one that is not blank names the command. -/
def kindAfter (seen : Bool) (kind : TokenKind) : TokenKind :=
  if kind = .whitespace || seen then kind else .command

theorem kindAfter_eq_whitespace_iff {kind : TokenKind} :
    kindAfter seen kind = .whitespace ↔ kind = .whitespace := by
  unfold kindAfter
  split
  · rfl
  · rename_i h
    simp only [Bool.or_eq_true, decide_eq_true_eq, not_or] at h
    simp [h.1]

theorem lay_cons (start : Nat) (seen : Bool) (value : Text) (rest : List Text) :
    lay start seen (value :: rest) =
      ⟨kindAfter seen (lexicalKind value), value, start, start + value.length⟩ ::
        lay (start + value.length) (seen || lexicalKind value ≠ .whitespace) rest := by
  simp only [lay, kindAfter]
  by_cases hblank : lexicalKind value = .whitespace
  · simp [hblank]
  · cases seen <;> simp [hblank]

/-- Whether a token is the command depends on the tokens before it. -/
theorem kind_of_lay (h : lay start seen values = before ++ t :: after) :
    t.kind = kindAfter (seen || before.any fun u => !u.isBlank) (lexicalKind t.value) := by
  induction values generalizing start seen before with
  | nil => simp [lay] at h
  | cons value rest ih =>
    rw [lay_cons] at h
    cases before with
    | nil =>
      rw [List.nil_append, List.cons.injEq] at h
      rw [← h.1]
      simp
    | cons u before =>
      rw [List.cons_append, List.cons.injEq] at h
      -- What `lay` keeps in its flag is whether a token before was not blank.
      have hblank : (!u.isBlank) = decide (lexicalKind value ≠ .whitespace) := by
        rw [← h.1, isBlank, beq_eq_decide, ← decide_not, decide_eq_decide, not_iff_not]
        exact kindAfter_eq_whitespace_iff
      rw [ih h.2, List.any_cons, hblank, Bool.or_assoc]

/-! ## Tokens side by side -/

/-- The tokens cover the line from `lo` to `hi`: each starts where the one before it stops, is not
empty, and has the characters of its positions as its value. -/
def Tiles (text : Text) : Nat → List Token → Nat → Prop
  | lo, [], hi => lo = hi
  | lo, t :: ts, hi =>
    t.start = lo ∧ t.start < t.stop ∧ t.value = text.slice t.start t.stop ∧ Tiles text t.stop ts hi

theorem Tiles.le (h : Tiles text lo ts hi) : lo ≤ hi := by
  induction ts generalizing lo with
  | nil => exact Nat.le_of_eq h
  | cons t ts ih =>
    obtain ⟨rfl, hlt, _, hrest⟩ := h
    have := ih hrest
    omega

theorem tiles_append : Tiles text lo (ts ++ us) hi ↔
    ∃ mid, Tiles text lo ts mid ∧ Tiles text mid us hi := by
  induction ts generalizing lo with
  | nil =>
    constructor
    · exact fun h => ⟨lo, rfl, h⟩
    · rintro ⟨_, rfl, h⟩
      exact h
  | cons t ts ih =>
    simp only [List.cons_append, Tiles, ih]
    constructor
    · rintro ⟨hstart, hlt, hvalue, mid, hts, hus⟩
      exact ⟨mid, ⟨hstart, hlt, hvalue, hts⟩, hus⟩
    · rintro ⟨mid, ⟨hstart, hlt, hvalue, hts⟩, hus⟩
      exact ⟨hstart, hlt, hvalue, mid, hts, hus⟩

theorem Tiles.hi_unique {hi' : Nat} (h : Tiles text lo ts hi) (h' : Tiles text lo ts hi') :
    hi = hi' := by
  induction ts generalizing lo with
  | nil => exact h.symm.trans h'
  | cons t ts ih => exact ih h.2.2.2 h'.2.2.2

/-- A token stands between the ends, and its value is not empty. -/
theorem Tiles.mem (h : Tiles text lo ts hi) (ht : t ∈ ts) :
    lo ≤ t.start ∧ t.start < t.stop ∧ t.stop ≤ hi ∧ t.value = text.slice t.start t.stop := by
  obtain ⟨before, after, rfl⟩ := List.append_of_mem ht
  obtain ⟨mid, hbefore, rfl, hlt, hvalue, hafter⟩ := tiles_append.1 h
  exact ⟨hbefore.le, hlt, hafter.le, hvalue⟩

theorem Tiles.stop_eq_start (h : Tiles text lo (before ++ t :: u :: after) hi) :
    t.stop = u.start := by
  obtain ⟨_, _, _, _, _, hnext, _⟩ := tiles_append.1 h
  exact hnext.symm

/-- Exactly one token covers a position. -/
theorem Tiles.covers (h : Tiles text lo ts hi) (hlo : lo ≤ i) (hhi : i < hi) :
    ∃ t ∈ ts, t.start ≤ i ∧ i < t.stop ∧ ∀ u ∈ ts, u.start ≤ i → i < u.stop → u = t := by
  induction ts generalizing lo with
  | nil =>
    have : lo = hi := h
    omega
  | cons t ts ih =>
    obtain ⟨rfl, _, _, hrest⟩ := h
    rcases Nat.lt_or_ge i t.stop with hin | hpast
    · refine ⟨t, List.mem_cons_self, hlo, hin, ?_⟩
      intro u hu hstart hstop
      rcases List.mem_cons.1 hu with rfl | hu
      · rfl
      · have := (hrest.mem hu).1
        omega
    · obtain ⟨v, hv, hstart, hstop, hunique⟩ := ih hrest hpast
      refine ⟨v, List.mem_cons_of_mem _ hv, hstart, hstop, ?_⟩
      intro u hu hstart' hstop'
      rcases List.mem_cons.1 hu with rfl | hu
      · omega
      · exact hunique u hu hstart' hstop'

/-! ## The tokens of a line -/

theorem tiles_lay (h : Cuts text start values) (seen : Bool) :
    Tiles text start (lay start seen values) text.length := by
  induction h generalizing seen with
  | nil => rfl
  | cons hcut _ ih =>
    rw [lay_cons, hcut.start_add_length]
    exact ⟨rfl, hcut.spans.start_lt, rfl, ih _⟩

theorem exists_cut_of_mem_lay (h : Cuts text start values) (ht : t ∈ lay start seen values) :
    ∃ lexeme : Lexeme, lexeme.Cut text t.start t.stop := by
  induction h generalizing seen with
  | nil => cases ht
  | @cons _ _ lexeme _ hcut _ ih =>
    rw [lay_cons, hcut.start_add_length] at ht
    rcases List.mem_cons.1 ht with rfl | ht
    · exact ⟨lexeme, hcut⟩
    · exact ih ht

/-- The tokens of a line cover it. -/
theorem tiles_scan (text : Text) : Tiles text 0 (scan text) text.length :=
  tiles_lay (cuts_tokenValues text) false

/-- Each token of a line is a lexeme cut out of it. -/
theorem exists_cut_of_mem_scan (h : t ∈ scan text) :
    ∃ lexeme : Lexeme, lexeme.Cut text t.start t.stop :=
  exists_cut_of_mem_lay (cuts_tokenValues text) h

theorem kind_of_scan (h : scan text = before ++ t :: after) :
    t.kind = kindAfter (before.any fun u => !u.isBlank) (lexicalKind t.value) :=
  kind_of_lay h

end Token

end Typeahead
