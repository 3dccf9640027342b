import Typeahead.Line.Lexer
import Typeahead.Proofs.Line.Position

/-!
Lexemes in a line, told by positions. A lexeme opens with its first character, goes on with each
further one that is part of it, and the quoting machine goes along.
-/
namespace Typeahead

/-! ## Kinds of characters -/

/-- The characters that end a word. -/
def isDelimiter (c : Char) : Bool := Text.isBlank c || isQuoteMark c || isOperatorMark c

variable {c : Char}

theorem isQuoteMark_iff : isQuoteMark c = true ↔ c = '\'' ∨ c = '"' := by
  simp [isQuoteMark]

theorem isBlank_of_isQuoteMark (h : isQuoteMark c = true) : Text.isBlank c = false := by
  rcases isQuoteMark_iff.1 h with rfl | rfl <;> decide

theorem isOperatorMark_iff : isOperatorMark c = true ↔
    c = '|' ∨ c = '&' ∨ c = ';' ∨ c = '<' ∨ c = '>' ∨ c = '(' ∨ c = ')' := by
  simp [isOperatorMark]

theorem isBlank_of_isOperatorMark (h : isOperatorMark c = true) : Text.isBlank c = false := by
  rcases isOperatorMark_iff.1 h with rfl | rfl | rfl | rfl | rfl | rfl | rfl <;> decide

theorem isQuoteMark_of_isOperatorMark (h : isOperatorMark c = true) : isQuoteMark c = false := by
  rcases isOperatorMark_iff.1 h with rfl | rfl | rfl | rfl | rfl | rfl | rfl <;> decide

theorem isDelimiter_eq_false_iff : isDelimiter c = false ↔
    Text.isBlank c = false ∧ isQuoteMark c = false ∧ isOperatorMark c = false := by
  simp [isDelimiter, and_assoc]

theorem ne_backslash_of_isDelimiter (h : isDelimiter c = true) : c ≠ '\\' := by
  rintro rfl
  revert h
  decide

/-! ## What a lexeme does with a character -/

namespace Lexeme

/-- The lexeme that a lexeme becomes with a further character of its own. -/
inductive Step : Lexeme → Char → Lexeme → Prop
  | blank {c : Char} : Text.isBlank c = true → Step blank c blank
  | operator {c : Char} : isOperatorMark c = true → Step operator c operator
  | wordEscaped {c : Char} : Step (word true) c (word false)
  | wordEscape : Step (word false) '\\' (word true)
  | wordPlain {c : Char} : c ≠ '\\' → isDelimiter c = false → Step (word false) c (word false)
  | quotedEscaped {mark c : Char} : Step (quoted mark true) c (quoted mark false)
  | quotedEscape {mark : Char} : Step (quoted mark false) '\\' (quoted mark true)
  | quotedClose {mark : Char} : mark ≠ '\\' → Step (quoted mark false) mark closed
  | quotedPlain {mark c : Char} : c ≠ '\\' → c ≠ mark →
      Step (quoted mark false) c (quoted mark false)

variable {lexeme next : Lexeme}

theorem step_of_next? (h : lexeme.next? c = some next) : Step lexeme c next := by
  unfold next? at h
  split at h
  · split at h
    · cases h
      exact .blank ‹_›
    · cases h
  · split at h
    · cases h
      exact .operator ‹_›
    · cases h
  · cases h
    exact .wordEscaped
  · split at h
    · rename_i hc
      cases h
      rw [hc]
      exact .wordEscape
    · rename_i hc
      split at h
      · cases h
      · rename_i hd
        cases h
        exact .wordPlain hc (Bool.eq_false_iff.2 hd)
  · cases h
    exact .quotedEscaped
  · split at h
    · rename_i hc
      cases h
      rw [hc]
      exact .quotedEscape
    · rename_i hc
      split at h
      · rename_i hm
        cases h
        rw [hm] at hc ⊢
        exact .quotedClose hc
      · cases h
        exact .quotedPlain hc ‹_›
  · cases h

/-- A character that a lexeme does not take. -/
inductive Stop : Lexeme → Char → Prop
  | blank {c : Char} : Text.isBlank c = false → Stop blank c
  | operator {c : Char} : isOperatorMark c = false → Stop operator c
  | word {c : Char} : isDelimiter c = true → Stop (word false) c
  | closed {c : Char} : Stop closed c

theorem stop_of_next? (h : lexeme.next? c = none) : Stop lexeme c := by
  unfold next? at h
  split at h
  · split at h
    · cases h
    · exact .blank (Bool.eq_false_iff.2 ‹_›)
  · split at h
    · cases h
    · exact .operator (Bool.eq_false_iff.2 ‹_›)
  · cases h
  · split at h
    · cases h
    · split at h
      · exact .word ‹_›
      · cases h
  · cases h
  · split at h
    · cases h
    · split at h <;> cases h
  · exact .closed

/-- The lexeme that a character opens, by the class of the character. -/
inductive Opens : Char → Lexeme → Prop
  | blank {c : Char} : Text.isBlank c = true → Opens c blank
  | quoted {c : Char} : isQuoteMark c = true → Opens c (quoted c false)
  | operator {c : Char} : isOperatorMark c = true → Opens c operator
  | word {c : Char} : isDelimiter c = false → Opens c (word (c = '\\'))

theorem opens_opening (c : Char) : Opens c (opening c) := by
  unfold opening
  split
  · exact .blank ‹_›
  · rename_i hblank
    split
    · exact .quoted ‹_›
    · rename_i hquote
      split
      · exact .operator ‹_›
      · rename_i hoperator
        exact .word (isDelimiter_eq_false_iff.2 ⟨Bool.eq_false_iff.2 hblank,
          Bool.eq_false_iff.2 hquote, Bool.eq_false_iff.2 hoperator⟩)

theorem Opens.eq_opening (h : Opens c lexeme) : lexeme = opening c := by
  cases h with
  | blank hblank => simp [opening, hblank]
  | quoted hquote => simp [opening, hquote, isBlank_of_isQuoteMark hquote]
  | operator hoperator =>
    simp [opening, hoperator, isBlank_of_isOperatorMark hoperator,
      isQuoteMark_of_isOperatorMark hoperator]
  | word hplain =>
    obtain ⟨hblank, hquote, hoperator⟩ := isDelimiter_eq_false_iff.1 hplain
    simp [opening, hblank, hquote, hoperator]

/-! ## Lexemes in a line -/

/-- The characters from `start` up to a position are read as one lexeme. -/
inductive Spans (text : Text) (start : Nat) : Nat → Lexeme → Prop
  | first {c : Char} : text[start]? = some c → Spans text start (start + 1) (opening c)
  | snoc {stop : Nat} {lexeme next : Lexeme} {c : Char} : Spans text start stop lexeme →
      text[stop]? = some c → lexeme.next? c = some next → Spans text start (stop + 1) next

/-- What the quoting machine holds after a lexeme, if no quote was open before it. -/
def quoting : Lexeme → QuoteScan
  | word escaped => ⟨.none, escaped⟩
  | quoted mark escaped => ⟨Quote.opening mark, escaped⟩
  | _ => {}

variable {text : Text} {start stop : Nat}

theorem Spans.start_lt (h : Spans text start stop lexeme) : start < stop := by
  induction h with
  | first _ => omega
  | snoc _ _ _ ih => omega

theorem Spans.stop_le (h : Spans text start stop lexeme) : stop ≤ text.length := by
  cases h with
  | first hc => exact (List.getElem?_eq_some_iff.1 hc).1
  | snoc _ hc _ => exact (List.getElem?_eq_some_iff.1 hc).1

/-- A quoted run starts with its mark. -/
theorem Spans.mark {mark : Char} {escaped : Bool} (h : Spans text start stop lexeme)
    (hl : lexeme = quoted mark escaped) : text[start]? = some mark ∧ isQuoteMark mark = true := by
  induction h generalizing escaped with
  | @first c hc =>
    have hopens := opens_opening c
    rw [hl] at hopens
    cases hopens with
    | quoted hquote => exact ⟨hc, hquote⟩
  | snoc _ _ hnext ih =>
    have hstep := step_of_next? hnext
    rw [hl] at hstep
    cases hstep with
    | quotedEscaped => exact ih rfl
    | quotedEscape => exact ih rfl
    | quotedPlain _ _ => exact ih rfl

/-! ## Quoting along a lexeme -/

theorem quote_opening_of_not_mark (h : isQuoteMark c = false) : Quote.opening c = .none := by
  unfold Quote.opening
  split
  · cases h
  · cases h
  · rfl

theorem step_idle (hslash : c ≠ '\\') (hquote : isQuoteMark c = false) :
    QuoteScan.step {} c = {} := by
  simp [QuoteScan.step, hslash, quote_opening_of_not_mark hquote]

theorem step_of_isBlank (h : Text.isBlank c = true) : QuoteScan.step {} c = {} := by
  have hdelimiter : isDelimiter c = true := by simp [isDelimiter, h]
  have hquote : isQuoteMark c = false :=
    Bool.eq_false_iff.2 fun hq => by simp [isBlank_of_isQuoteMark hq] at h
  exact step_idle (ne_backslash_of_isDelimiter hdelimiter) hquote

theorem step_of_isOperatorMark (h : isOperatorMark c = true) : QuoteScan.step {} c = {} := by
  have hdelimiter : isDelimiter c = true := by simp [isDelimiter, h]
  exact step_idle (ne_backslash_of_isDelimiter hdelimiter) (isQuoteMark_of_isOperatorMark h)

theorem Opens.quoting (h : Opens c lexeme) : QuoteScan.step {} c = lexeme.quoting := by
  cases h with
  | blank hblank => exact step_of_isBlank hblank
  | quoted hquote => rcases isQuoteMark_iff.1 hquote with rfl | rfl <;> rfl
  | operator hoperator => exact step_of_isOperatorMark hoperator
  | word hplain =>
    by_cases hslash : c = '\\'
    · rw [hslash]
      rfl
    · rw [step_idle hslash (isDelimiter_eq_false_iff.1 hplain).2.1]
      simp [Lexeme.quoting, hslash]

theorem Step.quoting (h : Step lexeme c next)
    (hmark : ∀ mark escaped, lexeme = quoted mark escaped → isQuoteMark mark = true) :
    lexeme.quoting.step c = next.quoting := by
  -- Each case is one step of the machine, and only the quoted ones depend on the mark.
  cases h with
  | blank hblank => exact step_of_isBlank hblank
  | operator hoperator => exact step_of_isOperatorMark hoperator
  | wordEscaped => rfl
  | wordEscape => rfl
  | wordPlain hslash hplain => exact step_idle hslash (isDelimiter_eq_false_iff.1 hplain).2.1
  | quotedEscaped => rfl
  | quotedEscape => rfl
  | quotedClose _ =>
    rcases isQuoteMark_iff.1 (hmark _ _ rfl) with rfl | rfl <;> rfl
  | quotedPlain hslash hne =>
    rcases isQuoteMark_iff.1 (hmark _ _ rfl) with rfl | rfl <;>
      simp [Lexeme.quoting, QuoteScan.step, Quote.opening, Quote.closing?, hslash, Ne.symm hne]

/-- From an idle start, the quoting machine goes along with the lexeme. -/
theorem Spans.run (hidle : QuoteScan.run {} (text.take start) = {})
    (h : Spans text start stop lexeme) : QuoteScan.run {} (text.take stop) = lexeme.quoting := by
  induction h with
  | @first c hc =>
    rw [QuoteScan.run_take_succ hc, hidle]
    exact (opens_opening c).quoting
  | snoc hspans hc hnext ih =>
    rw [QuoteScan.run_take_succ hc, ih]
    exact (step_of_next? hnext).quoting fun _ _ hl => (hspans.mark hl).2

/-- No quote is open after a lexeme that leaves a character to the next one. -/
theorem Stop.quoting (h : Stop lexeme c) : lexeme.quoting = {} := by
  cases h <;> rfl

/-! ## What a lexeme says about its characters -/

/-- What is known of the characters that were read as a lexeme. -/
def Describes (text : Text) (start stop : Nat) : Lexeme → Prop
  | blank => Text.Absent (fun i => !text.holdsAt Text.isBlank i) start stop
  | operator => Text.Absent (fun i => !text.holdsAt isOperatorMark i) start stop
  | word _ => Text.Absent (text.bareAt isDelimiter) start stop
  | quoted mark _ => Text.Absent (text.bareAt (· == mark)) (start + 1) stop
  | closed => ∃ mark last, isQuoteMark mark = true ∧ text[start]? = some mark ∧ start < last ∧
      stop = last + 1 ∧ text.bareAt (· == mark) last = true ∧
      Text.Absent (text.bareAt (· == mark)) (start + 1) last

theorem Opens.describes (h : Opens c lexeme) (hc : text[start]? = some c) :
    lexeme.Describes text start (start + 1) := by
  cases h with
  | blank hblank => exact Text.Absent.self.snoc (by simp [Text.holdsAt_of_getElem? hc, hblank])
  | quoted _ => exact Text.Absent.self -- The opening mark itself is left out.
  | operator hoperator =>
    exact Text.Absent.self.snoc (by simp [Text.holdsAt_of_getElem? hc, hoperator])
  | word hplain => exact Text.Absent.self.snoc (by simp [Text.bareAt_of_getElem? hc, hplain])

theorem Step.describes (h : Step lexeme c next)
    (hspans : Spans text start stop lexeme) (hc : text[stop]? = some c)
    (hescaped : text.escapedAt stop = lexeme.quoting.escaped)
    (hread : lexeme.Describes text start stop) : next.Describes text start (stop + 1) := by
  cases h with
  | blank hblank => exact Text.Absent.snoc hread (by simp [Text.holdsAt_of_getElem? hc, hblank])
  | operator hoperator =>
    exact Text.Absent.snoc hread (by simp [Text.holdsAt_of_getElem? hc, hoperator])
  | wordEscaped =>
    exact Text.Absent.snoc hread (by simp [Text.bareAt_of_getElem? hc, hescaped, Lexeme.quoting])
  | wordEscape => exact Text.Absent.snoc hread (by rw [Text.bareAt_of_getElem? hc]; rfl)
  | wordPlain _ hplain =>
    exact Text.Absent.snoc hread (by simp [Text.bareAt_of_getElem? hc, hplain])
  | quotedEscaped =>
    exact Text.Absent.snoc hread (by simp [Text.bareAt_of_getElem? hc, hescaped, Lexeme.quoting])
  | @quotedEscape mark =>
    -- A bare backslash would close the run if it were the mark.
    have hne : '\\' ≠ mark := by
      rintro rfl
      have hmark := (hspans.mark rfl).2
      revert hmark
      decide
    exact Text.Absent.snoc hread (by simp [Text.bareAt_of_getElem? hc, hne])
  | quotedClose _ =>
    obtain ⟨hmark, hquote⟩ := hspans.mark rfl
    refine ⟨c, stop, hquote, hmark, hspans.start_lt, rfl, ?_, hread⟩
    simp [Text.bareAt_of_getElem? hc, hescaped, Lexeme.quoting]
  | quotedPlain _ hne => exact Text.Absent.snoc hread (by simp [Text.bareAt_of_getElem? hc, hne])

theorem Spans.describes (hidle : QuoteScan.run {} (text.take start) = {})
    (h : Spans text start stop lexeme) : lexeme.Describes text start stop := by
  induction h with
  | @first c hc => exact (opens_opening c).describes hc
  | @snoc stop lexeme next c hspans hc hnext ih =>
    have hescaped : text.escapedAt stop = lexeme.quoting.escaped := by
      rw [Text.escapedAt_eq, hspans.run hidle]
    exact (step_of_next? hnext).describes hspans hc hescaped ih

end Lexeme

end Typeahead
