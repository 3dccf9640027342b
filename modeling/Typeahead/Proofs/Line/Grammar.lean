import Typeahead.Proofs.Line.Cutting

/-!
The grammar of a line, said by positions and without the lexer. A line has exactly one list of
tokens that follows it, and the lexer finds this one.
-/
namespace Typeahead

/-! ## The grammar -/

/-- A maximal run of characters of a class. One that stands right before the run is escaped, so it
is the end of a word. -/
structure IsRun (text : Text) (p : Char → Bool) (start stop : Nat) : Prop where
  starts : text.holdsAt p start = true
  ends : text.IsFirst (fun i => !text.holdsAt p i) start stop
  alone : ∀ i, i + 1 = start → text.bareAt p i = false

/-- The class of a word by how it starts. -/
inductive WordForm (word : Text) : TokenKind → Prop
  | option : "-".toList <+: word → WordForm word .option
  | entity : "@".toList <+: word → WordForm word .entity
  | path (beginning : String) : beginning ∈ ["/", "./", "../", "~/"] →
      beginning.toList <+: word → WordForm word .path
  | argument : (∀ beginning ∈ ["-", "@", "/", "./", "../", "~/"], ¬ beginning.toList <+: word) →
      WordForm word .argument

/-- The forms that a token can have, each with its class. -/
inductive Form (text : Text) (start stop : Nat) : TokenKind → Prop
  | blanks : IsRun text Text.isBlank start stop → Form text start stop .whitespace
  | operators : IsRun text isOperatorMark start stop → Form text start stop .operator
  /-- A quoted run stops after the first bare mark like the one that opens it, or at the end. -/
  | quoted {mark : Char} {last : Nat} : isQuoteMark mark = true → text[start]? = some mark →
      text.IsFirst (text.bareAt (· == mark)) (start + 1) last →
      stop = min (last + 1) text.length → Form text start stop .string
  /-- A word stops before the first bare delimiter, or at the end. -/
  | word {kind : TokenKind} : text.holdsAt (fun c => !isDelimiter c) start = true →
      text.IsFirst (text.bareAt isDelimiter) start stop →
      WordForm (text.slice start stop) kind → Form text start stop kind

/-- The tokens cover the line side by side, each has one of the forms, and the first one that is not
blank is the command. -/
structure Lexes (text : Text) (tokens : List Token) : Prop where
  tiles : Token.Tiles text 0 tokens text.length
  forms : ∀ before t after, tokens = before ++ t :: after → ∃ form, Form text t.start t.stop form ∧
    t.kind = Token.kindAfter (before.any fun u => !u.isBlank) form

variable {text value : Text} {start stop : Nat} {lexeme : Lexeme} {kind : TokenKind} {c : Char}

/-! ## The class of a form -/

theorem wordForm_wordKind (value : Text) : WordForm value (wordKind value) := by
  unfold wordKind
  split
  · exact .option ⟨_, rfl⟩
  · exact .entity ⟨_, rfl⟩
  · exact .path "/" (by simp) ⟨_, rfl⟩
  · exact .path "./" (by simp) ⟨_, rfl⟩
  · exact .path "../" (by simp) ⟨_, rfl⟩
  · exact .path "~/" (by simp) ⟨_, rfl⟩
  · rename_i h1 h2 h3 h4 h5 h6
    refine .argument ?_
    intro beginning hmem
    simp only [List.mem_cons, List.not_mem_nil, or_false] at hmem
    rcases hmem with rfl | rfl | rfl | rfl | rfl | rfl <;> rintro ⟨rest, rfl⟩
    · exact h1 _ rfl
    · exact h2 _ rfl
    · exact h3 _ rfl
    · exact h4 _ rfl
    · exact h5 _ rfl
    · exact h6 _ rfl

theorem WordForm.eq_wordKind (h : WordForm value kind) : kind = wordKind value := by
  cases h with
  | option h =>
    obtain ⟨rest, rfl⟩ := h
    rfl
  | entity h =>
    obtain ⟨rest, rfl⟩ := h
    rfl
  | path beginning hmem h =>
    obtain ⟨rest, rfl⟩ := h
    simp only [List.mem_cons, List.not_mem_nil, or_false] at hmem
    rcases hmem with rfl | rfl | rfl | rfl <;> rfl
  | argument h =>
    unfold wordKind
    split
    · exact absurd ⟨_, rfl⟩ (h "-" (by simp))
    · exact absurd ⟨_, rfl⟩ (h "@" (by simp))
    · exact absurd ⟨_, rfl⟩ (h "/" (by simp))
    · exact absurd ⟨_, rfl⟩ (h "./" (by simp))
    · exact absurd ⟨_, rfl⟩ (h "../" (by simp))
    · exact absurd ⟨_, rfl⟩ (h "~/" (by simp))
    · rfl

theorem IsRun.lt {p : Char → Bool} (h : IsRun text p start stop) : start < stop := by
  refine h.ends.lt (Text.lt_length_of_holdsAt h.starts) ?_
  rw [h.starts]
  rfl

theorem exists_plain_of_holdsAt (h : text.holdsAt (fun c => !isDelimiter c) start = true) :
    ∃ c, text[start]? = some c ∧ isDelimiter c = false := by
  obtain ⟨c, hc, hplain⟩ := Text.exists_of_holdsAt h
  exact ⟨c, hc, (Bool.not_eq_true' _).mp hplain⟩

theorem Form.lt (h : Form text start stop kind) : start < stop := by
  cases h with
  | blanks hrun => exact hrun.lt
  | operators hrun => exact hrun.lt
  | quoted _ hmark hlast hstop =>
    have hlt := (List.getElem?_eq_some_iff.1 hmark).1
    have := hlast.start_le
    omega
  | word hstarts hends _ =>
    obtain ⟨c, hc, hplain⟩ := exists_plain_of_holdsAt hstarts
    refine hends.lt (Text.lt_length_of_holdsAt hstarts) ?_
    rw [Text.bareAt_of_getElem? hc, hplain]
    rfl

/-- The class of a form is that of its characters. -/
theorem Form.eq_lexicalKind (h : Form text start stop kind) :
    kind = lexicalKind (text.slice start stop) := by
  have hlt := h.lt
  cases h with
  | blanks hrun =>
    obtain ⟨c, hc, hblank⟩ := Text.exists_of_holdsAt hrun.starts
    rw [Text.slice_cons hlt hc]
    simp [lexicalKind, hblank]
  | operators hrun =>
    obtain ⟨c, hc, hoperator⟩ := Text.exists_of_holdsAt hrun.starts
    rw [Text.slice_cons hlt hc]
    simp [lexicalKind, isBlank_of_isOperatorMark hoperator, hoperator,
      isQuoteMark_of_isOperatorMark hoperator]
  | quoted hquote hmark _ _ =>
    rw [Text.slice_cons hlt hmark]
    simp [lexicalKind, isBlank_of_isQuoteMark hquote, hquote]
  | word hstarts _ hform =>
    obtain ⟨c, hc, hplain⟩ := exists_plain_of_holdsAt hstarts
    obtain ⟨hblank, hquote, hoperator⟩ := isDelimiter_eq_false_iff.1 hplain
    rw [hform.eq_wordKind, Text.slice_cons hlt hc]
    simp [lexicalKind, hblank, hquote, hoperator]

/-! ## Where a form stops -/

/-- Where a token stops that a lexeme opens. -/
def Lexeme.StopsAt (text : Text) (start stop : Nat) : Lexeme → Prop
  | blank => text.IsFirst (fun i => !text.holdsAt Text.isBlank i) start stop
  | operator => text.IsFirst (fun i => !text.holdsAt isOperatorMark i) start stop
  | word _ => text.IsFirst (text.bareAt isDelimiter) start stop
  | quoted mark _ => ∃ last, text.IsFirst (text.bareAt (· == mark)) (start + 1) last ∧
      stop = min (last + 1) text.length
  | closed => False

theorem Lexeme.StopsAt.unique {stop' : Nat} (h : lexeme.StopsAt text start stop)
    (h' : lexeme.StopsAt text start stop') : stop = stop' := by
  cases lexeme with
  | blank => exact Text.IsFirst.unique h h'
  | operator => exact Text.IsFirst.unique h h'
  | word _ => exact Text.IsFirst.unique h h'
  | quoted mark _ =>
    obtain ⟨last, hlast, rfl⟩ := h
    obtain ⟨last', hlast', rfl⟩ := h'
    rw [hlast.unique hlast']
  | closed => exact h.elim

/-- The character that starts a form opens a lexeme, and this says where the form stops. -/
theorem Form.stopsAt (h : Form text start stop kind) :
    ∃ c lexeme, text[start]? = some c ∧ Lexeme.Opens c lexeme ∧ lexeme.StopsAt text start stop := by
  cases h with
  | blanks hrun =>
    obtain ⟨c, hc, hblank⟩ := Text.exists_of_holdsAt hrun.starts
    exact ⟨c, _, hc, .blank hblank, hrun.ends⟩
  | operators hrun =>
    obtain ⟨c, hc, hoperator⟩ := Text.exists_of_holdsAt hrun.starts
    exact ⟨c, _, hc, .operator hoperator, hrun.ends⟩
  | quoted hquote hmark hlast hstop => exact ⟨_, _, hmark, .quoted hquote, _, hlast, hstop⟩
  | word hstarts hends _ =>
    obtain ⟨c, hc, hplain⟩ := exists_plain_of_holdsAt hstarts
    exact ⟨c, _, hc, .word hplain, hends⟩

/-- At a position at most one form starts. -/
theorem Form.unique {stop' : Nat} {kind' : TokenKind} (h : Form text start stop kind)
    (h' : Form text start stop' kind') : stop = stop' ∧ kind = kind' := by
  obtain ⟨c, lexeme, hc, hopens, hstops⟩ := h.stopsAt
  obtain ⟨c', lexeme', hc', hopens', hstops'⟩ := h'.stopsAt
  rw [hc] at hc'
  cases hc'
  have hlexeme : lexeme = lexeme' := hopens.eq_opening.trans hopens'.eq_opening.symm
  subst hlexeme
  have hstop : stop = stop' := hstops.unique hstops'
  subst hstop
  exact ⟨rfl, h.eq_lexicalKind.trans h'.eq_lexicalKind.symm⟩

/-! ## A line has one list of tokens -/

variable {done ts us : List Token} {t u : Token}

theorem Lexes.not_longer (h : Lexes text done) : ¬ Lexes text (done ++ t :: ts) := by
  intro hlonger
  obtain ⟨mid, hdone, hstart, hlt, _, hrest⟩ := Token.tiles_append.1 hlonger.tiles
  have hend := hdone.hi_unique h.tiles
  have := hrest.le
  omega

/-- After the same tokens comes the same one. -/
theorem Lexes.next_unique (h : Lexes text (done ++ t :: ts)) (h' : Lexes text (done ++ u :: us)) :
    t = u := by
  obtain ⟨mid, hdone, hstart, _, hvalue, _⟩ := Token.tiles_append.1 h.tiles
  obtain ⟨mid', hdone', hstart', _, hvalue', _⟩ := Token.tiles_append.1 h'.tiles
  obtain ⟨form, hform, hkind⟩ := h.forms done t ts rfl
  obtain ⟨form', hform', hkind'⟩ := h'.forms done u us rfl
  -- Both start where the same tokens end, so they have the same form and with it all the rest.
  have hsame : t.start = u.start := by rw [hstart, hstart', hdone.hi_unique hdone']
  rw [← hsame] at hform' hvalue'
  obtain ⟨hstop, rfl⟩ := hform.unique hform'
  rw [← hstop, ← hvalue] at hvalue'
  obtain ⟨kind, value, start, stop⟩ := t
  obtain ⟨kind', value', start', stop'⟩ := u
  simp_all

theorem Lexes.rest_unique (h : Lexes text (done ++ ts)) (h' : Lexes text (done ++ us)) :
    ts = us := by
  -- The tokens that are done are the same on both sides, and each step adds one to them.
  induction ts generalizing done us with
  | nil =>
    cases us with
    | nil => rfl
    | cons u us =>
      rw [List.append_nil] at h
      exact absurd h' h.not_longer
  | cons t ts ih =>
    cases us with
    | nil =>
      rw [List.append_nil] at h'
      exact absurd h h'.not_longer
    | cons u us =>
      have htoken := h.next_unique h'
      subst htoken
      rw [List.append_cons] at h h'
      rw [ih h h']

/-! ## The lexer finds it -/

/-- A run is not preceded by a bare character of its class: the lexeme before it would have taken
the run. -/
theorem Lexeme.Cut.alone {p : Char → Bool} {i : Nat} (h : lexeme.Cut text start stop)
    (hp : p = Text.isBlank ∨ p = isOperatorMark) (hc : text[stop]? = some c) (hpc : p c = true)
    (hi : i + 1 = stop) : text.bareAt p i = false := by
  have hread := h.spans.describes h.idle
  have hlt := h.spans.start_lt
  by_contra hbare
  rw [Bool.not_eq_false] at hbare
  obtain ⟨d, hd, hpd⟩ := Text.exists_of_holdsAt (Text.holdsAt_of_bareAt hbare)
  rw [Text.bareAt_of_getElem? hd, hpd, Bool.true_and] at hbare
  -- `d` is the last character of the lexeme and `c` the first one after it. In each case the lexeme
  -- tells them apart by their classes.
  cases h.ends c hc with
  | blank hblank =>
    have hdblank := hread i (by omega) (by omega)
    simp only [Text.holdsAt_of_getElem? hd, Bool.not_eq_eq_eq_not, Bool.not_false] at hdblank
    rcases hp with rfl | rfl
    · simp [hpc] at hblank
    · simp [isBlank_of_isOperatorMark hpd] at hdblank
  | operator hoperator =>
    have hdoperator := hread i (by omega) (by omega)
    simp only [Text.holdsAt_of_getElem? hd, Bool.not_eq_eq_eq_not, Bool.not_false] at hdoperator
    rcases hp with rfl | rfl
    · simp [isBlank_of_isOperatorMark hdoperator] at hpd
    · simp [hpc] at hoperator
  | word _ =>
    have hplain := hread i (by omega) (by omega)
    rw [Text.bareAt_of_getElem? hd, hbare, Bool.and_true, isDelimiter_eq_false_iff] at hplain
    rcases hp with rfl | rfl
    · simp [hplain.1] at hpd
    · simp [hplain.2.2] at hpd
  | closed =>
    obtain ⟨mark, last, hquote, _, _, rfl, hlast, _⟩ := hread
    obtain rfl : i = last := by omega
    simp only [Text.bareAt_of_getElem? hd, hbare, Bool.and_true, beq_iff_eq] at hlast
    subst hlast
    rcases hp with rfl | rfl
    · simp [isBlank_of_isQuoteMark hquote] at hpd
    · simp [isQuoteMark_of_isOperatorMark hpd] at hquote

theorem isRun_of_absent {p : Char → Bool} (hlt : start < stop) (hle : stop ≤ text.length)
    (hread : Text.Absent (fun i => !text.holdsAt p i) start stop)
    (hends : ∀ c, text[stop]? = some c → p c = false)
    (halone : text.holdsAt p start = true → ∀ i, i + 1 = start → text.bareAt p i = false) :
    IsRun text p start stop := by
  have hstarts : text.holdsAt p start = true := by
    have hstart := hread start (Nat.le_refl _) hlt
    simpa using hstart
  refine ⟨hstarts, ⟨Nat.le_of_lt hlt, hle, hread, ?_⟩, halone hstarts⟩
  intro hstop
  have hc : text[stop]? = some text[stop] := List.getElem?_eq_getElem hstop
  simp [Text.holdsAt_of_getElem? hc, hends _ hc]

/-- A lexeme that is cut out has one of the forms. -/
theorem Lexeme.Cut.form (h : lexeme.Cut text start stop)
    (halone : ∀ p, (p = Text.isBlank ∨ p = isOperatorMark) → text.holdsAt p start = true →
      ∀ i, i + 1 = start → text.bareAt p i = false) : ∃ kind, Form text start stop kind := by
  have hread := h.spans.describes h.idle
  have hlt := h.spans.start_lt
  have hle := h.spans.stop_le
  have hstopped : stop < text.length → ∃ c, text[stop]? = some c ∧ Stop lexeme c :=
    fun hstop => ⟨_, List.getElem?_eq_getElem hstop, h.ends _ (List.getElem?_eq_getElem hstop)⟩
  cases lexeme with
  | blank =>
    refine ⟨_, .blanks (isRun_of_absent hlt hle hread ?_ (halone _ (Or.inl rfl)))⟩
    intro c hc
    cases h.ends c hc with
    | blank hblank => exact hblank
  | operator =>
    refine ⟨_, .operators (isRun_of_absent hlt hle hread ?_ (halone _ (Or.inr rfl)))⟩
    intro c hc
    cases h.ends c hc with
    | operator hoperator => exact hoperator
  | word escaped =>
    refine ⟨_, .word ?_ ⟨Nat.le_of_lt hlt, hle, hread, ?_⟩ (wordForm_wordKind _)⟩
    · -- No quote is open at the start, so the first character is not escaped either.
      have hstart : start < text.length := Nat.lt_of_lt_of_le hlt hle
      have hc : text[start]? = some text[start] := List.getElem?_eq_getElem hstart
      have hplain := hread start (Nat.le_refl _) hlt
      rw [Text.bareAt_of_getElem? hc, Text.escapedAt_eq, h.idle] at hplain
      simpa [Text.holdsAt_of_getElem? hc] using hplain
    · intro hstop
      obtain ⟨c, hc, hends⟩ := hstopped hstop
      cases hends with
      | word hdelimiter =>
        rw [Text.bareAt_of_getElem? hc, Text.escapedAt_eq, h.spans.run h.idle, hdelimiter]
        rfl
  | quoted mark escaped =>
    obtain ⟨hmark, hquote⟩ := h.spans.mark rfl
    -- An open quote takes every character, so it can only have come to the end.
    have hend : stop = text.length := by
      rcases Nat.lt_or_eq_of_le hle with hstop | hend
      · obtain ⟨c, _, hends⟩ := hstopped hstop
        cases hends
      · exact hend
    refine ⟨_, .quoted hquote hmark ⟨hlt, hle, hread, fun hstop => ?_⟩ (by omega)⟩
    omega
  | closed =>
    obtain ⟨mark, last, hquote, hmark, hstart, rfl, hlast, hinside⟩ := hread
    exact ⟨_, .quoted hquote hmark ⟨hstart, by omega, hinside, fun _ => hlast⟩ (by omega)⟩

/-- The tokens of the lexer follow the grammar. -/
theorem lexes_scan (text : Text) : Lexes text (Token.scan text) := by
  refine ⟨Token.tiles_scan text, ?_⟩
  intro before t after hsplit
  have htiles := Token.tiles_scan text
  have ht : t ∈ Token.scan text := by
    rw [hsplit]
    simp
  obtain ⟨lexeme, hcut⟩ := Token.exists_cut_of_mem_scan ht
  have halone : ∀ p, (p = Text.isBlank ∨ p = isOperatorMark) → text.holdsAt p t.start = true →
      ∀ i, i + 1 = t.start → text.bareAt p i = false := by
    intro p hp hholds i hi
    obtain ⟨c, hc, hpc⟩ := Text.exists_of_holdsAt hholds
    -- The token before, if there is one, has left its character to this run.
    rcases List.eq_nil_or_concat before with rfl | ⟨earlier, u, rfl⟩
    · rw [hsplit] at htiles
      have := htiles.1
      omega
    · rw [List.concat_append] at hsplit
      rw [hsplit] at htiles
      have hu : u ∈ Token.scan text := by
        rw [hsplit]
        simp
      obtain ⟨previous, hprevious⟩ := Token.exists_cut_of_mem_scan hu
      rw [htiles.stop_eq_start] at hprevious
      exact hprevious.alone hp hc hpc hi
  obtain ⟨form, hform⟩ := hcut.form halone
  refine ⟨form, hform, ?_⟩
  rw [Token.kind_of_scan hsplit, (htiles.mem ht).2.2.2, ← hform.eq_lexicalKind]

/-- Every line has exactly one list of tokens that follows the grammar, and this is what the lexer
makes of it. -/
theorem the_lexer_accepts_its_grammar (text : Text) (tokens : List Token) :
    Lexes text tokens ↔ tokens = Token.scan text := by
  constructor
  · intro h
    have hall : Lexes text ([] ++ tokens) := h
    exact hall.rest_unique (lexes_scan text)
  · rintro rfl
    exact lexes_scan text

end Typeahead
