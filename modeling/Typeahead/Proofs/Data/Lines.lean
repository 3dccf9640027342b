import Typeahead.Data.Toml.Reader
import Typeahead.Proofs.Data.Quoted

/-!
Lines of a document, read back: numbers and values, keys, and the sections line by line as the
statements that they are.
-/
namespace Typeahead.Toml

variable {t rest word name key : Text} {fuel : Nat} {sections : List Section}

/-! ## Numbers -/

theorem isDigit_of_mem_toDigits {n : Nat} {c : Char} (h : c ∈ Nat.toDigits 10 n) :
    c.isDigit = true :=
  Nat.isDigit_of_mem_toDigits (by decide) (by decide) h

/-- Only zero is written with a zero in front. -/
theorem head?_toDigits {n : Nat} (h : 0 < n) : (Nat.toDigits 10 n).head? ≠ some '0' := by
  induction n using Nat.strongRecOn with
  | ind n ih =>
    rw [Nat.toDigits_eq_if (by decide)]
    split
    · rename_i hlt
      have hdigit : ∀ d < 10, 0 < d → Nat.digitChar d ≠ '0' := by decide
      simpa using hdigit n hlt h
    · have hhigh := ih (n / 10) (by omega) (by omega)
      rwa [List.head?_append_of_ne_nil _ Nat.toDigits_ne_nil]

theorem splitOn_of_not_mem {separator : Char} (h : separator ∉ t) :
    Text.splitOn separator t = [t] := by
  induction t with
  | nil => rfl
  | cons c cs ih =>
    obtain ⟨hc, hcs⟩ := not_or.1 (mt List.mem_cons.2 h)
    simp [Text.splitOn, ih hcs, Ne.symm hc]

/-- Digits without underscores are one group. -/
theorem separated?_of_digits (hne : t ≠ []) (h : ∀ c ∈ t, c.isDigit = true) :
    separated? Char.isDigit t = some t := by
  have hline : '_' ∉ t := fun hmem => absurd (h '_' hmem) (by decide)
  unfold separated?
  rw [splitOn_of_not_mem hline]
  simpa [hne] using h

theorem inRange_of_lt {n : Nat} (h : n < wordLimit) : whole?.inRange n = some (n : Int) := by
  have hlimit : wordLimit ≤ Decimal.powerOfTwo 128 := by decide
  have hlow : -(Decimal.powerOfTwo 127 : Int) ≤ n := by omega
  have hhigh : (n : Int) < (Decimal.powerOfTwo 128 : Nat) := by omega
  unfold whole?.inRange
  simp only [hlow, hhigh, decide_true, Bool.and_self, if_true]

/-- A written number is read back, if it is not too large. -/
theorem whole?_toDigits {n : Nat} (h : n < wordLimit) : whole? (Nat.toDigits 10 n) = some n := by
  have hother (c : Char) (hc : c.isDigit = false) : c ∉ Nat.toDigits 10 n :=
    fun hmem => absurd (isDigit_of_mem_toDigits hmem) (by simp [hc])
  have hdecimal : decimal? (Nat.toDigits 10 n) = some (Nat.toDigits 10 n) := by
    unfold decimal?
    rw [separated?_of_digits Nat.toDigits_ne_nil fun c => isDigit_of_mem_toDigits]
    have hzero : ¬ ((Nat.toDigits 10 n).head? = some '0' ∧ 1 < (Nat.toDigits 10 n).length) := by
      rintro ⟨hhead, hlength⟩
      obtain rfl | hpos := Nat.eq_zero_or_pos n
      · exact absurd hlength (by decide)
      · exact head?_toDigits hpos hhead
    simp only [Option.bind_eq_bind, Option.bind_some, Bool.and_eq_true, decide_eq_true_eq]
    rw [if_neg (by simpa using hzero)]
  have hsigned : signed (Nat.toDigits 10 n) = (false, Nat.toDigits 10 n) := by
    unfold signed
    split
    · exact absurd (by simp_all) (hother '-' (by decide))
    · exact absurd (by simp_all) (hother '+' (by decide))
    · rfl
  unfold whole?
  split
  · exact absurd (by simp_all) (hother 'x' (by decide))
  · exact absurd (by simp_all) (hother 'o' (by decide))
  · exact absurd (by simp_all) (hother 'b' (by decide))
  · rw [hsigned]
    dsimp only
    rw [hdecimal, Option.bind_some, Nat.ofDigitChars_ten_toDigits]
    exact inRange_of_lt h

/-! ## Values -/

theorem isBare_toDigits (n : Nat) : ∀ c ∈ Nat.toDigits 10 n, isBare c = true := by
  intro c hc
  have hdigit := isDigit_of_mem_toDigits hc
  simp [isBare, Char.isAlphanum, hdigit]

/-- At the end of a line a value without quotes is a word. -/
theorem bare_append (h : ∀ c ∈ word, isBare c = true) :
    bare (word ++ '\n' :: rest) = (word, '\n' :: rest) := by
  have hbreak : isBare '\n' = false := by decide
  unfold bare
  rw [List.takeWhile_append_of_pos h, List.dropWhile_append_of_pos h]
  simp [hbreak]

theorem value?_of_bare {d : Data} (hne : word ≠ []) (h : ∀ c ∈ word, isBare c = true)
    (hvalue : bareValue? word = some d) :
    value? (fuel + 1) (word ++ '\n' :: rest) = some (d, '\n' :: rest) := by
  have hbare : bare (word ++ '\n' :: rest) = (word, '\n' :: rest) := bare_append h
  cases word with
  | nil => exact absurd rfl hne
  | cons c cs =>
    have hc := h c List.mem_cons_self
    rw [value?.eq_def]
    simp only [List.cons_append] at hbare ⊢
    split
    all_goals first | (rename_i heq; cases heq; exact absurd hc (by decide)) | skip
    rw [hbare]
    simp [hvalue]

theorem value?_quote (t : Text) :
    value? (fuel + 1) (quote t ++ '\n' :: rest) = some (.text t, '\n' :: rest) := by
  have hread : quoted? (quote t ++ '\n' :: rest) = some (t, '\n' :: rest) :=
    quoted?_quote t (by simp) (by simp)
  have hvalue : value? (fuel + 1) (quote t ++ '\n' :: rest) =
      (quoted? (quote t ++ '\n' :: rest)).map fun read => (.text read.1, read.2) := by
    obtain ⟨mark, cs, hcons, rfl | rfl⟩ := exists_quote_eq_cons t <;> rw [hcons] <;> rfl
  rw [hvalue, hread]
  rfl

namespace Scalar

/-- A number that a document can hold. -/
def Fits : Scalar → Prop
  | whole n => n < wordLimit
  | boolean _ | text _ => True

instance : (v : Scalar) → Decidable v.Fits
  | whole n => inferInstanceAs (Decidable (n < wordLimit))
  | boolean _ | text _ => inferInstanceAs (Decidable True)

end Scalar

/-- A written value is read back at the end of its line. -/
theorem value?_write {v : Scalar} (h : v.Fits) :
    value? (fuel + 1) (v.write ++ '\n' :: rest) = some (v.toData, '\n' :: rest) := by
  cases v with
  | boolean b =>
    cases b
    · exact value?_of_bare (by decide) (List.all_eq_true.1 rfl) rfl
    · exact value?_of_bare (by decide) (List.all_eq_true.1 rfl) rfl
  | whole n =>
    apply value?_of_bare Nat.toDigits_ne_nil (isBare_toDigits n)
    have hletter : 'e' ∉ Nat.toDigits 10 n :=
      fun hmem => absurd (isDigit_of_mem_toDigits hmem) (by decide)
    have htrue : Nat.toDigits 10 n ≠ "true".toList := by
      intro heq
      simp [heq] at hletter
    have hfalse : Nat.toDigits 10 n ≠ "false".toList := by
      intro heq
      simp [heq] at hletter
    unfold bareValue?
    rw [if_neg htrue, if_neg hfalse, whole?_toDigits h]
    rfl
  | text t => exact value?_quote t

/-! ## Keys -/

/-- A name that needs no quotes as a key. -/
structure IsBareKey (name : Text) : Prop where
  ne_nil : name ≠ []
  isKeyChar : ∀ c ∈ name, isKeyChar c = true

instance (name : Text) : Decidable (IsBareKey name) :=
  decidable_of_iff (name ≠ [] ∧ name.all isKeyChar = true)
    ⟨fun h => ⟨h.1, List.all_eq_true.1 h.2⟩, fun h => ⟨h.1, List.all_eq_true.2 h.2⟩⟩

theorem IsBareKey.exists_cons (h : IsBareKey name) :
    ∃ c cs, name = c :: cs ∧ Toml.isKeyChar c = true := by
  obtain ⟨c, cs, rfl⟩ := List.exists_cons_of_ne_nil h.ne_nil
  exact ⟨c, cs, rfl, h.isKeyChar c List.mem_cons_self⟩

/-- A key does not start with the bracket of a header. -/
theorem IsBareKey.append_ne_bracket (h : IsBareKey name) (after : Text) :
    name ++ rest ≠ '[' :: after := by
  obtain ⟨c, cs, rfl, hc⟩ := h.exists_cons
  intro heq
  cases heq
  exact absurd hc (by decide)

section Key

variable {d : Char}

/-- A key without quotes ends where another character stands. -/
theorem keyPart?_append (hname : IsBareKey name) (hd : isKeyChar d = false) :
    keyPart? (name ++ d :: rest) = some (name, d :: rest) := by
  have hchars := hname.isKeyChar
  obtain ⟨c, cs, rfl, hc⟩ := hname.exists_cons
  unfold keyPart?
  simp only [List.cons_append]
  split
  · rename_i heq
    cases heq
    exact absurd hc (by decide)
  · rename_i heq
    cases heq
    exact absurd hc (by decide)
  · rw [← List.cons_append, List.takeWhile_append_of_pos hchars,
      List.dropWhile_append_of_pos hchars]
    simp [hd]

theorem isSpace_of_isKeyChar {c : Char} (h : isKeyChar c = true) : isSpace c = false := by
  rw [Bool.eq_false_iff]
  intro hspace
  obtain rfl | rfl : c = ' ' ∨ c = '\t' := by simpa [isSpace] using hspace
  all_goals exact absurd h (by decide)

theorem skipSpace_append (hname : IsBareKey name) : skipSpace (name ++ rest) = name ++ rest := by
  obtain ⟨c, cs, rfl, hc⟩ := hname.exists_cons
  simp [skipSpace, isSpace_of_isKeyChar hc]

/-- A key without dots and quotes, and what follows it. -/
theorem key?_append (hname : IsBareKey name) (hd : isKeyChar d = false)
    (hdot : ∀ after, skipSpace (d :: rest) ≠ '.' :: after) :
    key? (fuel + 1) (name ++ d :: rest) = some (([], name), skipSpace (d :: rest)) := by
  rw [key?, skipSpace_append hname, keyPart?_append hname hd]
  simp only [Option.bind_eq_bind, Option.bind_some]

end Key

/-! ## Lines -/

/-- The header of a section is read. -/
theorem statement?_header (hname : IsBareKey name) (rest : Text) :
    statement? ('[' :: (name ++ ']' :: '\n' :: rest)) =
      some (.header [] name, '\n' :: rest) := by
  have hkey (fuel : Nat) : key? (fuel + 1) (name ++ ']' :: '\n' :: rest) =
      some (([], name), ']' :: '\n' :: rest) :=
    key?_append hname (by decide) (by intro after h; cases h)
  unfold statement?
  split
  · rename_i heq
    exact absurd (List.cons.inj heq).2 (hname.append_ne_bracket _)
  · rename_i heq
    cases heq
    rw [List.length_cons, hkey]
    rfl
  · rename_i hne
    exact absurd rfl (hne _)

/-- A value does not start with a blank. -/
theorem skipSpace_write (v : Scalar) : skipSpace (v.write ++ rest) = v.write ++ rest := by
  obtain ⟨c, cs, hwrite, hspace⟩ : ∃ c cs, v.write = c :: cs ∧ isSpace c = false := by
    cases v with
    | boolean b => cases b <;> exact ⟨_, _, rfl, rfl⟩
    | whole n =>
      obtain ⟨c, cs, hcons⟩ := List.exists_cons_of_ne_nil (Nat.toDigits_ne_nil (n := n) (b := 10))
      refine ⟨c, cs, hcons, isSpace_of_isKeyChar ?_⟩
      have hdigit : c.isDigit = true := isDigit_of_mem_toDigits (hcons ▸ List.mem_cons_self)
      simp [isKeyChar, Char.isAlphanum, hdigit]
    | text t =>
      obtain ⟨mark, cs, hcons, rfl | rfl⟩ := exists_quote_eq_cons t <;> exact ⟨_, cs, hcons, rfl⟩
  rw [hwrite]
  simp [skipSpace, hspace]

/-- A key with its value is read. -/
theorem statement?_assign {v : Scalar} (hname : IsBareKey key) (hv : v.Fits) (rest : Text) :
    statement? (key ++ ' ' :: '=' :: ' ' :: (v.write ++ '\n' :: rest)) =
      some (.assign ([], key) v.toData, '\n' :: rest) := by
  have hkey (fuel : Nat) : key? (fuel + 1) (key ++ ' ' :: '=' :: ' ' :: (v.write ++ '\n' :: rest)) =
      some (([], key), '=' :: ' ' :: (v.write ++ '\n' :: rest)) :=
    key?_append hname (by decide) (by intro after h; cases h)
  have hskip : skipSpace (' ' :: (v.write ++ '\n' :: rest)) = v.write ++ '\n' :: rest :=
    skipSpace_write v
  unfold statement?
  split
  · rename_i heq
    exact absurd heq (hname.append_ne_bracket _)
  · rename_i heq
    exact absurd heq (hname.append_ne_bracket _)
  · rw [List.length_append, List.length_cons, ← Nat.add_assoc, hkey]
    simp [Text.strip?, hskip, value?_write hv]

/-! ## Sections -/

section Line

variable {c : Char} {cs : Text} {statement : Statement}

/-- A statement on a line of its own is the first one of what follows. -/
theorem statements?_of_statement (hspace : isSpace c = false) (hfeed : c ≠ '\n')
    (hreturn : c ≠ '\r') (hcomment : c ≠ '#')
    (h : statement? (c :: cs) = some (statement, '\n' :: rest)) (fuel : Nat) :
    statements? (fuel + 1) (c :: cs) = (statements? fuel rest).map (statement :: ·) := by
  have hskip : skipSpace (c :: cs) = c :: cs := by simp [skipSpace, hspace]
  rw [statements?, hskip]
  split
  · rename_i heq
    cases heq
  · rename_i heq
    cases heq
    exact absurd rfl hfeed
  · rename_i heq
    cases heq
    exact absurd rfl hreturn
  · rename_i heq
    cases heq
    exact absurd rfl hcomment
  rw [h]
  cases hrest : statements? fuel rest <;> simp [lineEnd?, skipSpace, isSpace, hrest]

theorem statements?_lineFeed : statements? (fuel + 1) ('\n' :: rest) = statements? fuel rest := by
  rw [statements?]
  rfl

end Line

namespace Section

/-- A section with keys that need no quotes, no key twice, and numbers that a document can hold. -/
structure IsWellFormed (s : Section) : Prop where
  name : IsBareKey s.name
  keys : ∀ entry ∈ s.entries, IsBareKey entry.1
  values : ∀ entry ∈ s.entries, entry.2.Fits
  nodup : (s.entries.map Prod.fst).Nodup

/-- The line of a key. -/
def line (entry : Text × Scalar) : Text :=
  entry.1 ++ ' ' :: '=' :: ' ' :: (entry.2.write ++ ['\n'])

/-- The statement of such a line. -/
def assignment (entry : Text × Scalar) : Statement := .assign ([], entry.1) entry.2.toData

/-- The statements of a section. -/
def statements (s : Section) : List Statement := .header [] s.name :: s.entries.map assignment

/-- The fields of a section. -/
def toData (s : Section) : Data := .record (s.entries.map fun (key, v) => (key, v.toData))

theorem write_eq (s : Section) :
    s.write = '[' :: (s.name ++ ']' :: '\n' :: s.entries.flatMap line) := by
  have hline : line = fun entry => entry.1 ++ [' ', '=', ' '] ++ entry.2.write ++ ['\n'] := by
    funext entry
    simp [line]
  simp [write, hline]

theorem length_entries_lt (s : Section) : s.entries.length < s.write.length := by
  have hlines (entries : List (Text × Scalar)) :
      entries.length ≤ (entries.flatMap line).length := by
    induction entries with
    | nil => exact Nat.le_refl 0
    | cons entry entries ih =>
      simp only [List.flatMap_cons, line, List.length_append, List.length_cons] at ih ⊢
      omega
  have hentries := hlines s.entries
  rw [write_eq]
  simp only [List.length_append, List.length_cons]
  omega

end Section

section Statements

variable {s next : Section} {entries : List (Text × Scalar)}

/-- A line that starts with a key is its statement. -/
theorem statements?_line {entry : Text × Scalar} (hname : IsBareKey entry.1)
    (hv : entry.2.Fits) :
    statements? (fuel + 1) (Section.line entry ++ rest) =
      (statements? fuel rest).map (Section.assignment entry :: ·) := by
  obtain ⟨key, v⟩ := entry
  have hstatement := statement?_assign hname hv rest
  have hline : Section.line (key, v) ++ rest =
      key ++ ' ' :: '=' :: ' ' :: (v.write ++ '\n' :: rest) := by simp [Section.line]
  rw [hline]
  obtain ⟨c, cs, rfl, hc⟩ := hname.exists_cons
  apply statements?_of_statement (isSpace_of_isKeyChar hc)
  · rintro rfl
    exact absurd hc (by decide)
  · rintro rfl
    exact absurd hc (by decide)
  · rintro rfl
    exact absurd hc (by decide)
  · exact hstatement

theorem statements?_lines (hkeys : ∀ entry ∈ entries, IsBareKey entry.1)
    (hvalues : ∀ entry ∈ entries, entry.2.Fits) :
    statements? (fuel + entries.length) (entries.flatMap Section.line ++ rest) =
      (statements? fuel rest).map (entries.map Section.assignment ++ ·) := by
  induction entries with
  | nil => simp
  | cons entry entries ih =>
    obtain ⟨hkey, hkeys⟩ := List.forall_mem_cons.1 hkeys
    obtain ⟨hv, hvalues⟩ := List.forall_mem_cons.1 hvalues
    rw [List.flatMap_cons, List.append_assoc, List.length_cons, ← Nat.add_assoc,
      statements?_line hkey hv, ih hkeys hvalues, Option.map_map]
    rfl

/-- The lines of a section are its statements. -/
theorem statements?_section (h : s.IsWellFormed) :
    statements? (fuel + s.entries.length + 1) (s.write ++ rest) =
      (statements? fuel rest).map (s.statements ++ ·) := by
  have hheader := statements?_of_statement (by decide) (by decide) (by decide) (by decide)
    (statement?_header h.name (s.entries.flatMap Section.line ++ rest)) (fuel + s.entries.length)
  rw [statements?_lines h.keys h.values, Option.map_map] at hheader
  rw [Section.write_eq, List.cons_append, List.append_assoc]
  exact hheader

theorem write_cons_cons :
    write (s :: next :: sections) = s.write ++ '\n' :: write (next :: sections) := by
  simp [write, Text.joinWith]

/-- The lines of a document are the statements of its sections. -/
theorem statements?_write (h : ∀ s ∈ sections, s.IsWellFormed)
    (hfuel : (write sections).length < fuel) :
    statements? fuel (write sections) = some (sections.flatMap Section.statements) := by
  induction sections generalizing fuel with
  | nil =>
    obtain ⟨fuel, rfl⟩ := Nat.exists_eq_add_of_lt hfuel
    rfl
  | cons s sections ih =>
    obtain ⟨hs, hsections⟩ := List.forall_mem_cons.1 h
    have hentries := s.length_entries_lt
    cases sections with
    | nil =>
      have hwrite : write [s] = s.write ++ [] := by simp [write, Text.joinWith]
      rw [hwrite, List.length_append] at hfuel
      have hsplit : fuel = fuel - (s.entries.length + 2) + 1 + s.entries.length + 1 := by omega
      rw [hwrite, hsplit, statements?_section hs]
      simp [statements?, skipSpace]
    | cons next sections =>
      rw [write_cons_cons, List.length_append, List.length_cons] at hfuel
      have hsplit : fuel = fuel - (s.entries.length + 2) + 1 + s.entries.length + 1 := by omega
      rw [write_cons_cons, hsplit, statements?_section hs, statements?_lineFeed,
        ih hsections (by omega)]
      rfl

end Statements

end Typeahead.Toml
