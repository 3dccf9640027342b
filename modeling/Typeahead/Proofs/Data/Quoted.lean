import Mathlib.Data.List.Basic
import Typeahead.Data.Toml.Quoted
import Typeahead.Data.Toml.Writer

/-!
Texts in quotes, read back. Whatever marks a text is written in, reading gives the text and what
follows its closing marks, if no further mark follows at once.
-/
namespace Typeahead.Toml

variable {c : Char} {t rest after : Text}

/-! ## Characters -/

/-- A character that needs no escape is no control character, or it breaks the line. -/
theorem isControl_of_not_needsEscape (h : needsEscape c = false) (hbreak : c ≠ '\n') :
    isControl c = false := by
  unfold needsEscape at h
  unfold isControl
  simp_all

/-- The hexadecimal digits of a character stand for it. -/
theorem hexChar?_code (h : c.toNat < 256) :
    hexChar? ['0', '0', hexDigit (c.toNat / 16), hexDigit (c.toNat % 16)] = some c := by
  have hdigit : ∀ d < 16, Text.hexValue? (hexDigit d) = some d := by decide
  have hhigh := hdigit (c.toNat / 16) (by omega)
  have hlow := hdigit (c.toNat % 16) (by omega)
  have hzero : Text.hexValue? '0' = some 0 := rfl
  have hvalue : Text.digitsValue? 16
      ['0', '0', hexDigit (c.toNat / 16), hexDigit (c.toNat % 16)] = some c.toNat := by
    unfold Text.digitsValue?
    simp only [List.foldlM, hzero, hhigh, hlow, Option.bind_some]
    have hlt : c.toNat / 16 < 16 := by omega
    have hlt' : c.toNat % 16 < 16 := by omega
    simp [hlt, hlt']
    omega
  have hvalid : c.toNat.isValidChar := c.valid
  unfold hexChar?
  rw [hvalue]
  exact dif_pos hvalid

/-- An escape is read as its character. -/
theorem escaped?_of_escape {code : Text} (h : escape c = '\\' :: code) :
    escaped? (code ++ rest) = some (c, rest) := by
  unfold escape at h
  split at h
  all_goals try (cases h; rfl)
  split at h
  · rename_i hneeds
    cases h
    have hlt : c.toNat < 256 := by
      simp [needsEscape] at hneeds
      omega
    simp [escaped?, hexChar?_code hlt]
  · simp_all

/-- A character is written as an escape or as itself. As itself it is no mark and no control
character. -/
theorem escape_cases (c : Char) :
    (∃ code, escape c = '\\' :: code) ∨
      escape c = [c] ∧ c ≠ '"' ∧ c ≠ '\\' ∧ isControl c = false ∧ c ≠ '\n' ∧ c ≠ '\r' := by
  unfold escape
  split
  all_goals try exact Or.inl ⟨_, rfl⟩
  split
  · exact Or.inl ⟨_, rfl⟩
  · rename_i hneeds
    right
    have hcontrol := isControl_of_not_needsEscape (c := c) (by simpa using hneeds)
    simp_all

/-! ## Short texts -/

theorem basic?_backslash (h : escaped? rest = some (c, after)) :
    basic? ('\\' :: rest) = (basic? after).map fun (t, rest) => (c :: t, rest) := by
  rw [basic?]
  split
  · rename_i hnone
    rw [h] at hnone
    cases hnone
  · rename_i hsome
    rw [h] at hsome
    cases hsome
    rfl

theorem basic?_cons (hmark : c ≠ '"') (hslash : c ≠ '\\') (hcontrol : isControl c = false) :
    basic? (c :: rest) = (basic? rest).map fun (t, rest) => (c :: t, rest) := by
  rw [basic?.eq_def]
  simp [hcontrol]

/-- Between double quotes every character is read back. -/
theorem basic?_flatMap_escape (t rest : Text) :
    basic? (t.flatMap escape ++ '"' :: rest) = some (t, rest) := by
  induction t with
  | nil => simp [basic?]
  | cons c cs ih =>
    rw [List.flatMap_cons, List.append_assoc]
    rcases escape_cases c with ⟨code, hcode⟩ | ⟨hself, hmark, hslash, hcontrol, _⟩
    · rw [hcode, List.cons_append, basic?_backslash (escaped?_of_escape hcode), ih]
      rfl
    · rw [hself, List.singleton_append, basic?_cons hmark hslash hcontrol, ih]
      rfl

/-- Between single quotes every character stands for itself. -/
theorem literal?_append (h : ∀ c ∈ t, c ≠ '\'' ∧ isControl c = false) :
    literal? (t ++ '\'' :: rest) = some (t, rest) := by
  induction t with
  | nil => rfl
  | cons c cs ih =>
    obtain ⟨hmark, hcontrol⟩ := h c List.mem_cons_self
    have hcs := ih fun d hd => h d (List.mem_cons_of_mem c hd)
    rw [List.cons_append, literal?.eq_def]
    simp [hcontrol, hcs]

/-! ## Long texts -/

section Long

variable {mark : Char} {escapes : Bool} {fuel : Nat} {w : Text}

/-- A text with three closing marks and what follows them. -/
def closed (mark : Char) (w rest : Text) : Text := w ++ mark :: mark :: mark :: rest

theorem closing?_of_ne (h : c ≠ mark) : closing? mark (c :: rest) = none := by
  unfold closing?
  split
  · rename_i heq
    cases heq
    simp [h]
  · rfl

/-- Up to two marks before the closing ones belong to the text. -/
theorem closing?_replicate {n : Nat} (hn : n ≤ 2) (hrest : rest.head? ≠ some mark) :
    closing? mark (closed mark (List.replicate n mark) rest) =
      some (List.replicate n mark, rest) := by
  have hnone : rest.takeWhile (· = mark) = [] := by
    cases rest with
    | nil => rfl
    | cons c cs => simp_all
  obtain rfl | rfl | rfl : n = 0 ∨ n = 1 ∨ n = 2 := by omega
  all_goals simp [closed, closing?, hnone, List.replicate]

/-- A mark does not close the text if another character stands next to it or next to its neighbour,
before the closing marks. -/
theorem closing?_eq_none (hnil : w ≠ []) (hmark : w ≠ [mark]) (htwo : ¬ [mark, mark] <+: w) :
    closing? mark (closed mark (mark :: w) rest) = none := by
  cases w with
  | nil => exact absurd rfl hnil
  | cons a w =>
    cases w with
    | nil =>
      have ha : a ≠ mark := by simpa using hmark
      simp [closed, closing?, ha]
    | cons b w =>
      have hab : ¬ (a = mark ∧ b = mark) := by
        rintro ⟨rfl, rfl⟩
        exact htwo ⟨w, rfl⟩
      simp only [closed, closing?, List.cons_append]
      grind

/-- The text `w` is written between long marks for `t`: no three marks in a row stand as themselves,
and no control characters but line feeds. -/
inductive Between (mark : Char) (escapes : Bool) : (w t : Text) → Prop where
  | nil : Between mark escapes [] []
  | lineFeed {w t : Text} (h : Between mark escapes w t) :
      Between mark escapes ('\n' :: w) ('\n' :: t)
  | mark {w t : Text} (h : Between mark escapes w t) (htwo : ¬ [mark, mark] <+: w) :
      Between mark escapes (mark :: w) (mark :: t)
  | plain {c : Char} {w t : Text} (h : Between mark escapes w t) (hmark : c ≠ mark)
      (hslash : escapes → c ≠ '\\') (hcontrol : isControl c = false) :
      Between mark escapes (c :: w) (c :: t)
  | escape {c : Char} {code w t : Text} (h : Between mark escapes w t) (hescapes : escapes)
      (hcode : Toml.escape c = '\\' :: code) :
      Between mark escapes ('\\' :: (code ++ w)) (c :: t)

theorem long?_of_closing (h : closing? mark rest = some (t, after)) :
    long? mark escapes (fuel + 1) rest = some (t, after) := by
  rw [long?, h]

theorem long?_lineFeed (h : closing? mark ('\n' :: rest) = none) :
    long? mark escapes (fuel + 1) ('\n' :: rest) =
      (long? mark escapes fuel rest).map fun (t, rest) => ('\n' :: t, rest) := by
  rw [long?, h]
  simp only

theorem long?_plain (h : closing? mark (c :: rest) = none) (hslash : escapes → c ≠ '\\')
    (hcontrol : isControl c = false) :
    long? mark escapes (fuel + 1) (c :: rest) =
      (long? mark escapes fuel rest).map fun (t, rest) => (c :: t, rest) := by
  have hfeed : c ≠ '\n' := by rintro rfl; exact absurd hcontrol (by decide)
  have hreturn : c ≠ '\r' := by rintro rfl; exact absurd hcontrol (by decide)
  have hslash : ¬ (escapes && c = '\\') := by simpa using hslash
  rw [long?, h]
  simp only
  split <;> simp_all

/-- A written escape does not continue a line. -/
theorem skipBreak?_of_escape {code : Text} (h : escape c = '\\' :: code) :
    skipBreak? (code ++ rest) = none := by
  unfold escape at h
  split at h
  all_goals try (cases h; rfl)
  split at h
  · cases h
    rfl
  · simp_all

theorem long?_escape {code : Text} (hmark : mark ≠ '\\') (h : escape c = '\\' :: code) :
    long? mark true (fuel + 1) ('\\' :: (code ++ rest)) =
      (long? mark true fuel rest).map fun (t, rest) => (c :: t, rest) := by
  rw [long?, closing?_of_ne hmark.symm]
  simp [skipBreak?_of_escape h, escaped?_of_escape h]

/-- Only marks are written for marks. -/
theorem Between.eq_of_forall (h : Between mark escapes w t) (hmark : mark ≠ '\\')
    (hall : ∀ c ∈ w, c = mark) : t = w := by
  induction h with
  | nil => rfl
  | lineFeed _ ih => simp_all
  | mark _ _ ih => simp_all
  | plain _ hne => exact absurd (hall _ List.mem_cons_self) hne
  | escape => exact absurd (hall _ List.mem_cons_self).symm hmark

/-- What is written between long marks is read back. -/
theorem long?_of_between (hmark : mark = '"' ∨ mark = '\'') (hrest : rest.head? ≠ some mark)
    (h : Between mark escapes w t) (hfuel : w.length < fuel) :
    long? mark escapes fuel (closed mark w rest) = some (t, rest) := by
  have hslash : mark ≠ '\\' := by rcases hmark with rfl | rfl <;> decide
  have hfeed : mark ≠ '\n' := by rcases hmark with rfl | rfl <;> decide
  have hcontrol : isControl mark = false := by rcases hmark with rfl | rfl <;> decide
  induction h generalizing fuel with
  | nil =>
    obtain ⟨fuel, rfl⟩ := Nat.exists_eq_add_of_lt hfuel
    exact long?_of_closing (closing?_replicate (Nat.zero_le 2) hrest)
  | lineFeed h ih =>
    obtain ⟨fuel, rfl⟩ := Nat.exists_eq_add_of_lt hfuel
    rw [closed, List.cons_append, long?_lineFeed (closing?_of_ne hfeed.symm), ← closed,
      ih (by simp only [List.length_cons]; omega)]
    rfl
  | @mark w t h htwo ih =>
    obtain ⟨fuel, rfl⟩ := Nat.exists_eq_add_of_lt hfuel
    by_cases hshort : w = [] ∨ w = [mark]
    · have hall : ∀ c ∈ w, c = mark := by rcases hshort with rfl | rfl <;> simp
      have hlength : w.length ≤ 1 := by rcases hshort with rfl | rfl <;> simp
      have hw : mark :: w = List.replicate (w.length + 1) mark :=
        List.eq_replicate_of_mem (by simpa using hall)
      rw [h.eq_of_forall hslash hall, hw]
      exact long?_of_closing (closing?_replicate (by omega) hrest)
    · rw [not_or] at hshort
      have hnone : closing? mark (mark :: closed mark w rest) = none :=
        closing?_eq_none hshort.1 hshort.2 htwo
      rw [closed, List.cons_append, ← closed, long?_plain hnone (fun _ => hslash) hcontrol,
        ih (by simp only [List.length_cons]; omega)]
      rfl
  | plain h hne hslash hcontrol ih =>
    obtain ⟨fuel, rfl⟩ := Nat.exists_eq_add_of_lt hfuel
    rw [closed, List.cons_append, long?_plain (closing?_of_ne hne) hslash hcontrol, ← closed,
      ih (by simp only [List.length_cons]; omega)]
    rfl
  | escape h hescapes hcode ih =>
    obtain ⟨fuel, rfl⟩ := Nat.exists_eq_add_of_lt hfuel
    subst hescapes
    rw [closed, List.cons_append, List.append_assoc, long?_escape hslash hcode, ← closed,
      ih (by simp only [List.length_cons, List.length_append]; omega)]
    rfl

/-- A double quote comes first only where the text starts with one that is not the third in a
row. -/
theorem eq_cons_of_head?_escapeLong {run : Nat} (h : (escapeLong run t).head? = some '"') :
    run ≠ 2 ∧ ∃ cs, t = '"' :: cs ∧ escapeLong run t = '"' :: escapeLong (run + 1) cs := by
  unfold escapeLong at h
  split at h
  · cases h
  · rename_i cs
    split at h
    · cases h
    · rename_i hrun
      exact ⟨hrun, cs, rfl, by simp [escapeLong, hrun]⟩
  · cases h
  · rename_i c cs hmark _
    rcases escape_cases c with ⟨code, hcode⟩ | ⟨hself, _⟩
    · rw [hcode] at h
      cases h
    · rw [hself] at h
      cases h
      exact absurd rfl hmark

/-- After a double quote no two others in a row stand as themselves. -/
theorem not_prefix_escapeLong {run : Nat} (hrun : 1 ≤ run) (hlt : run ≤ 2) :
    ¬ ['"', '"'] <+: escapeLong run t := by
  rintro ⟨after, hafter⟩
  have hfirst : (escapeLong run t).head? = some '"' := by
    rw [← hafter]
    rfl
  obtain ⟨hne, cs, rfl, hcons⟩ := eq_cons_of_head?_escapeLong hfirst
  obtain rfl : run = 1 := by omega
  have hsecond : (escapeLong 2 cs).head? = some '"' := by
    rw [hcons] at hafter
    have htail : '"' :: after = escapeLong 2 cs := by simpa using hafter
    rw [← htail]
    rfl
  exact (eq_cons_of_head?_escapeLong hsecond).1 rfl

/-- Line feeds, marks that are not three in a row, escapes and the other characters stand between
double quotes. -/
theorem between_escapeLong (t : Text) {run : Nat} (hrun : run ≤ 2) :
    Between '"' true (escapeLong run t) t := by
  fun_induction escapeLong run t with
  | case1 => exact .nil
  | case2 cs ih =>
    have hcode : escape '"' = '\\' :: ['"'] := rfl
    exact .escape (ih (by omega)) rfl hcode
  | case3 run cs hne ih =>
    exact .mark (ih (by omega)) (not_prefix_escapeLong (by omega) (by omega))
  | case4 run cs ih => exact .lineFeed (ih (by omega))
  | case5 run c cs hmark hfeed ih =>
    rcases escape_cases c with ⟨code, hcode⟩ | ⟨hself, hne, hslash, hcontrol, _⟩
    · rw [hcode]
      exact .escape (ih (by omega)) rfl hcode
    · rw [hself]
      exact .plain (ih (by omega)) hne (fun _ => hslash) hcontrol

theorem le_longestRun {run : Nat} : run ≤ longestRun mark run t := by
  induction t generalizing run with
  | nil => exact Nat.le_refl run
  | cons c cs ih =>
    rw [longestRun]
    split
    · exact Nat.le_of_succ_le ih
    · exact Nat.le_max_left ..

/-- A text without three marks in a row stands between single quotes as it is. -/
theorem between_self {run : Nat} (hplain : ∀ c ∈ t, needsEscape c = false)
    (hrun : longestRun '\'' run t ≤ 2) : Between '\'' false t t := by
  induction t generalizing run with
  | nil => exact .nil
  | cons c cs ih =>
    have hcs := fun d hd => hplain d (List.mem_cons_of_mem c hd)
    rw [longestRun] at hrun
    by_cases hmark : c = '\''
    · subst hmark
      rw [if_pos rfl] at hrun
      refine .mark (ih hcs hrun) ?_
      rintro ⟨after, rfl⟩
      have hthree : run + 1 + 1 + 1 ≤ longestRun '\'' (run + 1 + 1 + 1) after := le_longestRun
      simp only [List.cons_append, List.nil_append, longestRun, ↓reduceIte] at hrun
      omega
    · rw [if_neg hmark] at hrun
      have htail : longestRun '\'' 0 cs ≤ 2 := by omega
      by_cases hfeed : c = '\n'
      · subst hfeed
        exact .lineFeed (ih hcs htail)
      · exact .plain (ih hcs htail) hmark nofun
          (isControl_of_not_needsEscape (hplain c List.mem_cons_self) hfeed)

/-- Reading drops the line feed that was written after the opening marks, and no other. -/
theorem Between.dropBreak_openingBreak (hmark : mark = '"' ∨ mark = '\'')
    (h : Between mark escapes w t) :
    dropBreak (openingBreak t ++ closed mark w rest) = closed mark w rest := by
  unfold openingBreak
  split
  · rfl
  · rename_i hfeed
    cases h with
    | nil => rcases hmark with rfl | rfl <;> rfl
    | lineFeed => simp at hfeed
    | mark => rcases hmark with rfl | rfl <;> rfl
    | @plain c w t h hne hslash hcontrol =>
      have hreturn : c ≠ '\r' := by rintro rfl; exact absurd hcontrol (by decide)
      have hfeed : c ≠ '\n' := by rintro rfl; simp at hfeed
      simp only [List.nil_append, closed, List.cons_append]
      unfold dropBreak
      split <;> simp_all
    | escape => rfl

/-- After the opening marks a text is read back up to its closing ones. -/
theorem Between.long?_dropBreak (hmark : mark = '"' ∨ mark = '\'') (hrest : rest.head? ≠ some mark)
    (h : Between mark escapes w t) (hfuel : w.length < fuel) :
    long? mark escapes fuel (dropBreak (openingBreak t ++ closed mark w rest)) =
      some (t, rest) := by
  rw [h.dropBreak_openingBreak hmark]
  exact long?_of_between hmark hrest h hfuel

end Long

/-! ## Texts in the marks that suit them -/

theorem quoted?_basic (h : ¬ ['"', '"'] <+: rest) : quoted? ('"' :: rest) = basic? rest := by
  unfold quoted?
  split <;> simp_all

theorem quoted?_literal (h : ¬ ['\'', '\''] <+: rest) : quoted? ('\'' :: rest) = literal? rest := by
  unfold quoted?
  split <;> simp_all

/-- Single quotes stand around one line without single quotes and control characters. -/
theorem of_eq_literal (h : Quoting.of t = .literal) :
    ∀ c ∈ t, c ≠ '\'' ∧ isControl c = false := by
  unfold Quoting.of at h
  have hplain : (t.any needsEscape = false ∧ '\n' ∉ t) ∧ '\'' ∉ t := by grind
  intro c hc
  have hneeds : needsEscape c = false := by simpa using List.any_eq_false.1 hplain.1.1 c hc
  refine ⟨ne_of_mem_of_not_mem hc hplain.2, isControl_of_not_needsEscape hneeds ?_⟩
  exact ne_of_mem_of_not_mem hc hplain.1.2

/-- Three single quotes stand around text without three of them in a row. -/
theorem of_eq_longLiteral (h : Quoting.of t = .longLiteral) :
    (∀ c ∈ t, needsEscape c = false) ∧ longestRun '\'' 0 t ≤ 2 := by
  unfold Quoting.of at h
  have hplain : t.any needsEscape = false ∧ longestRun '\'' 0 t ≤ 2 := by grind
  exact ⟨fun c hc => by simpa using List.any_eq_false.1 hplain.1 c hc, hplain.2⟩

theorem exists_quote_eq_cons (t : Text) :
    ∃ mark cs, quote t = mark :: cs ∧ (mark = '"' ∨ mark = '\'') := by
  unfold quote
  cases Quoting.of t <;> simp

/-- A written text is read back, whatever follows it but a further quotation mark. -/
theorem quoted?_quote (t : Text) (hbasic : rest.head? ≠ some '"')
    (hliteral : rest.head? ≠ some '\'') : quoted? (quote t ++ rest) = some (t, rest) := by
  unfold quote
  cases hof : Quoting.of t with
  | basic =>
    have htwo : ¬ ['"', '"'] <+: t.flatMap escape ++ '"' :: rest := by
      cases t with
      | nil => cases rest <;> simp_all [@eq_comm _ _ '"']
      | cons c cs =>
        rw [List.flatMap_cons, List.append_assoc]
        rcases escape_cases c with ⟨code, hcode⟩ | ⟨hself, hmark, _⟩
        · simp [hcode]
        · simp [hself, hmark.symm]
    simp only [List.cons_append, List.append_assoc, List.nil_append]
    rw [quoted?_basic htwo, basic?_flatMap_escape]
  | literal =>
    have hall := of_eq_literal hof
    have htwo : ¬ ['\'', '\''] <+: t ++ '\'' :: rest := by
      cases t with
      | nil => cases rest <;> simp_all [@eq_comm _ _ '\'']
      | cons c cs => simp [(hall c List.mem_cons_self).1.symm]
    simp only [List.cons_append, List.append_assoc, List.nil_append]
    rw [quoted?_literal htwo, literal?_append hall]
  | longBasic =>
    simp only [List.cons_append, List.append_assoc, List.nil_append]
    apply (between_escapeLong t (Nat.zero_le 2)).long?_dropBreak (Or.inl rfl) hbasic
    simp only [List.length_cons, List.length_append]
    omega
  | longLiteral =>
    have hall := of_eq_longLiteral hof
    simp only [List.cons_append, List.append_assoc, List.nil_append]
    apply (between_self hall.1 hall.2).long?_dropBreak (Or.inr rfl) hliteral
    simp only [List.length_cons, List.length_append]
    omega

end Typeahead.Toml
