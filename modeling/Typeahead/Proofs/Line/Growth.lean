import Mathlib.Data.List.Infix
import Typeahead.Proofs.Line.Grammar

/-!
What typing at the end of a line does to its tokens. All but the last one stay as they are. The last
one may grow, and keeps its kind unless it becomes a path.
-/
namespace Typeahead

variable {text value : Text}

/-! ## The last value grows -/

/-- The value of the open token is only added to. -/
theorem Lexeme.values_eq_cons (lexeme : Lexeme) (value rest : Text) :
    ∃ extra after, lexeme.values value rest = (value ++ extra) :: after := by
  induction rest generalizing lexeme value with
  | nil => exact ⟨[], [], by simp [values]⟩
  | cons c cs ih =>
    unfold values
    split
    · rename_i next _
      obtain ⟨extra, after, h⟩ := ih next (value ++ [c])
      exact ⟨c :: extra, after, by simp [h]⟩
    · exact ⟨[], _, by rw [List.append_nil]⟩

/-- More characters at the end leave all values but the last one. -/
theorem Lexeme.values_append (lexeme : Lexeme) (rest more : Text) (hvalue : value ≠ []) :
    ∃ before last extra after, last ≠ [] ∧ lexeme.values value rest = before ++ [last] ∧
      lexeme.values value (rest ++ more) = before ++ (last ++ extra) :: after := by
  induction rest generalizing lexeme value with
  | nil =>
    -- The open token is the last one, and only here the two texts go different ways.
    obtain ⟨extra, after, h⟩ := lexeme.values_eq_cons value more
    exact ⟨[], value, extra, after, hvalue, rfl, h⟩
  | cons c cs ih =>
    rw [List.cons_append]
    unfold values
    rcases lexeme.next? c with _ | next
    · obtain ⟨before, last, extra, after, hlast, hshort, hlong⟩ :=
        ih (opening c) (List.cons_ne_nil c [])
      exact ⟨value :: before, last, extra, after, hlast, by simp [hshort], by simp [hlong]⟩
    · exact ih next (by simp)

theorem tokenValues_append (h : text ≠ []) (more : Text) :
    ∃ before last extra after, last ≠ [] ∧ tokenValues text = before ++ [last] ∧
      tokenValues (text ++ more) = before ++ (last ++ extra) :: after := by
  cases text with
  | nil => exact absurd rfl h
  | cons c cs => exact (Lexeme.opening c).values_append cs more (List.cons_ne_nil c [])

/-! ## The class of a value that grows -/

variable {extra : Text} {kind : TokenKind}

/-- The texts that only a slash makes a path. -/
def pathStarts : List Text := [".".toList, "..".toList, "~".toList]

/-- Only the beginning of a path can still be completed. -/
theorem mem_pathStarts {beginning : String} (hvalue : value ≠ [])
    (hmem : beginning ∈ ["-", "@", "/", "./", "../", "~/"])
    (hlong : beginning.toList <+: value ++ extra) (hshort : ¬ beginning.toList <+: value) :
    value ∈ pathStarts ∧ beginning ∈ ["./", "../", "~/"] := by
  -- What starts the longer value and not the shorter one goes past the end of the shorter one.
  have hpart : value <+: beginning.toList := by
    rcases List.prefix_or_prefix_of_prefix hlong (List.prefix_append value extra) with h | h
    · exact absurd h hshort
    · exact h
  have hne : value ≠ beginning.toList := by
    rintro rfl
    exact hshort (List.prefix_refl _)
  have hin := (List.mem_inits value beginning.toList).2 hpart
  simp only [List.mem_cons, List.not_mem_nil, or_false] at hmem
  rcases hmem with rfl | rfl | rfl | rfl | rfl | rfl <;> simp_all [pathStarts, List.inits]
  -- Only the two dots with their slash have two beginnings of their own.
  exact hin.imp_right Or.inl

theorem WordForm.append (h : WordForm value kind) (hkind : kind ≠ .argument) (extra : Text) :
    WordForm (value ++ extra) kind := by
  cases h with
  | option h => exact .option (h.trans (List.prefix_append _ _))
  | entity h => exact .entity (h.trans (List.prefix_append _ _))
  | path beginning hmem h => exact .path beginning hmem (h.trans (List.prefix_append _ _))
  | argument _ => exact absurd rfl hkind

theorem WordForm.append_argument (h : WordForm value .argument) (hvalue : value ≠ [])
    (hlonger : WordForm (value ++ extra) kind) :
    kind = .argument ∨ kind = .path ∧ value ∈ pathStarts := by
  cases h with
  | argument hnone =>
    cases hlonger with
    | option h =>
      have hstart := (mem_pathStarts hvalue (by simp) h (hnone "-" (by simp))).2
      simp at hstart
    | entity h =>
      have hstart := (mem_pathStarts hvalue (by simp) h (hnone "@" (by simp))).2
      simp at hstart
    | path beginning hmem h =>
      have hmem' := List.mem_cons_of_mem "-" (List.mem_cons_of_mem "@" hmem)
      exact Or.inr ⟨rfl, (mem_pathStarts hvalue hmem' h (hnone beginning hmem')).1⟩
    | argument _ => exact Or.inl rfl

/-- A value that gets longer keeps its class, unless it becomes a path. -/
theorem lexicalKind_append (hvalue : value ≠ []) (extra : Text) :
    lexicalKind (value ++ extra) = lexicalKind value ∨ lexicalKind value = .argument ∧
      lexicalKind (value ++ extra) = .path ∧ value ∈ pathStarts := by
  obtain ⟨c, cs, rfl⟩ := List.exists_cons_of_ne_nil hvalue
  have hlonger := wordForm_wordKind (c :: cs ++ extra)
  have hshorter := wordForm_wordKind (c :: cs)
  rw [List.cons_append] at hlonger ⊢
  unfold lexicalKind
  dsimp only
  split
  · exact Or.inl rfl
  · split
    · exact Or.inl rfl
    · split
      · exact Or.inl rfl
      · by_cases hkind : wordKind (c :: cs) = .argument
        · rw [hkind] at hshorter ⊢
          rcases hshorter.append_argument hvalue hlonger with h | ⟨h, hstart⟩
          · exact Or.inl h
          · exact Or.inr ⟨rfl, h, hstart⟩
        · exact Or.inl (hshorter.append hkind extra).eq_wordKind.symm

/-! ## The tokens -/

namespace Token

theorem lay_append (start : Nat) (seen : Bool) (values more : List Text) :
    lay start seen (values ++ more) = lay start seen values ++
      lay (start + values.flatten.length)
        (seen || values.any fun v => lexicalKind v ≠ .whitespace) more := by
  induction values generalizing start seen with
  | nil => simp [lay]
  | cons value rest ih =>
    rw [List.cons_append, lay_cons, lay_cons, ih]
    simp [Nat.add_assoc, Bool.or_assoc]

/-- What the last token may become: it starts where it did, goes on with more characters, and keeps
its kind unless it was an argument that only a slash makes a path. -/
structure Grows (t u : Token) : Prop where
  start : u.start = t.start
  value : t.value <+: u.value
  kind : u.kind = t.kind ∨ t.kind = .argument ∧ u.kind = .path ∧ t.value ∈ pathStarts

theorem kindAfter_append (hvalue : value ≠ []) (extra : Text) (seen : Bool) :
    kindAfter seen (lexicalKind (value ++ extra)) = kindAfter seen (lexicalKind value) ∨
      kindAfter seen (lexicalKind value) = .argument ∧
        kindAfter seen (lexicalKind (value ++ extra)) = .path ∧ value ∈ pathStarts := by
  rcases lexicalKind_append hvalue extra with h | ⟨h, h', hstart⟩
  · rw [h]
    exact Or.inl rfl
  · rw [h, h']
    cases seen with
    | false => exact Or.inl rfl
    | true => exact Or.inr ⟨rfl, rfl, hstart⟩

end Token

/-- Whatever is typed at the end of a line, all its tokens but the last one stay, and the next token
is the last one grown. -/
theorem typing_at_the_end_touches_only_the_last_token (h : text ≠ []) (more : Text) :
    ∃ before last next after, Token.scan text = before ++ [last] ∧
      Token.scan (text ++ more) = before ++ next :: after ∧ last.Grows next := by
  obtain ⟨values, value, extra, after, hvalue, hshort, hlong⟩ := tokenValues_append h more
  unfold Token.scan
  rw [hshort, hlong, Token.lay_append, Token.lay_append, Token.lay_cons, Token.lay_cons]
  refine ⟨_, _, _, _, rfl, rfl, rfl, List.prefix_append _ _, ?_⟩
  exact Token.kindAfter_append hvalue extra _

/-- A dot after the command is an argument, and a slash makes it a path. -/
theorem a_dot_grows_into_a_path :
    let text : Text := "cd .".toList
    text ≠ [] ∧ (∃ before last next after, Token.scan text = before ++ [last] ∧
      Token.scan (text ++ "/x y".toList) = before ++ next :: after ∧ last.Grows next) ∧
    (Token.scan text).map Token.kind = [.command, .whitespace, .argument] ∧
    (Token.scan (text ++ "/x y".toList)).map Token.kind =
      [.command, .whitespace, .path, .whitespace, .argument] := by
  intro text
  have htext : text ≠ [] := by decide
  exact ⟨htext, typing_at_the_end_touches_only_the_last_token htext _, rfl, rfl⟩

end Typeahead
