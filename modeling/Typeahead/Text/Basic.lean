/-!
Texts as lists of characters, and the cuts that many rules share. Every position, length and
index in this library counts characters.
-/
namespace Typeahead

/-- A text is the list of its characters. -/
abbrev Text := List Char

namespace Text

/-- Whether a sorted table of ranges, both ends included, holds the character. -/
def inRanges (table : List (Nat × Nat)) (c : Char) : Bool :=
  table.any fun (first, last) => first ≤ c.toNat && c.toNat ≤ last

/-- The pieces between the separators, empty pieces kept. -/
def splitOn (separator : Char) : Text → List Text
  | [] => [[]]
  | c :: cs =>
    match splitOn separator cs with
    | [] => [[c]]
    | piece :: pieces => if c = separator then [] :: piece :: pieces else (c :: piece) :: pieces

/-- What stands before and after the first separator. -/
def splitOnce (separator : Char) (t : Text) : Option (Text × Text) :=
  match t.dropWhile (· ≠ separator) with
  | [] => none
  | _ :: after => some (t.takeWhile (· ≠ separator), after)

/-- What follows the given beginning. -/
def strip? : (beginning : Text) → Text → Option Text
  | [], t => some t
  | _ :: _, [] => none
  | b :: bs, c :: cs => if b = c then strip? bs cs else none

/-- The text cut after its last separator: everything up to it, and the rest. -/
def splitAfterLast (separator : Char) (t : Text) : Text × Text :=
  let tail := (t.reverse.takeWhile (· ≠ separator)).reverse
  (t.take (t.length - tail.length), tail)

/-- The texts one after another with the separator between neighbours. -/
def joinWith (separator : Text) (ts : List Text) : Text :=
  (ts.intersperse separator).flatten

/-- The value of a hexadecimal digit. -/
def hexValue? (c : Char) : Option Nat :=
  if c.isDigit then some (c.toNat - 48)
  else if 'a' ≤ c && c ≤ 'f' then some (c.toNat - 87)
  else if 'A' ≤ c && c ≤ 'F' then some (c.toNat - 55)
  else none

/-- The value of digits of a base up to sixteen. -/
def digitsValue? (base : Nat) (t : Text) : Option Nat :=
  t.foldlM (fun n c => (hexValue? c).bind fun d => if d < base then some (base * n + d) else none) 0

/-- Order by code point, the shorter text first where one continues the other. -/
def le : Text → Text → Bool
  | [], _ => true
  | _ :: _, [] => false
  | a :: as, b :: bs => if a = b then le as bs else a.toNat < b.toNat

/-! ## Beginnings -/

@[simp] theorem strip?_append (beginning t : Text) :
    strip? beginning (beginning ++ t) = some t := by
  induction beginning with
  | nil => rfl
  | cons b bs ih => simp [strip?, ih]

/-- A beginning is stripped exactly where it stands. -/
theorem strip?_eq_some_iff {beginning t rest : Text} :
    strip? beginning t = some rest ↔ t = beginning ++ rest := by
  constructor
  · intro h
    induction beginning generalizing t with
    | nil => simpa [strip?] using h
    | cons b bs ih =>
      cases t with
      | nil => simp [strip?] at h
      | cons c cs =>
        simp only [strip?] at h
        split at h
        · rename_i hbc
          rw [hbc, ih h, List.cons_append]
        · simp at h
  · rintro rfl
    exact strip?_append beginning rest

/-! ## Pieces -/

theorem splitOn_ne_nil (separator : Char) (t : Text) : splitOn separator t ≠ [] := by
  cases t with
  | nil => simp [splitOn]
  | cons c cs =>
    simp only [splitOn]
    split
    · simp
    · split <;> simp

/-- The pieces with the separator between them are the text. -/
theorem joinWith_splitOn (separator : Char) (t : Text) :
    joinWith [separator] (splitOn separator t) = t := by
  induction t with
  | nil => rfl
  | cons c cs ih =>
    unfold splitOn
    split
    · rename_i hnil
      exact absurd hnil (splitOn_ne_nil separator cs)
    · rename_i piece pieces hpieces
      rw [hpieces] at ih
      split
      · rename_i hc
        rw [hc, ← ih]
        rfl
      · cases pieces with
        | nil => simpa [joinWith] using ih
        | cons next pieces => simpa [joinWith] using ih

/-- The first separator is the one with no other before it. -/
theorem splitOnce_eq_some_iff {separator : Char} {t before after : Text} :
    splitOnce separator t = some (before, after) ↔
      t = before ++ separator :: after ∧ separator ∉ before := by
  unfold splitOnce
  constructor
  · intro h
    have hcut := List.takeWhile_append_dropWhile (p := (· ≠ separator)) (l := t)
    split at h
    · cases h
    · rename_i c rest hrest
      cases h
      have hc : c = separator := by
        have hhead := List.head?_dropWhile_not (· ≠ separator) t
        rw [hrest] at hhead
        simpa using hhead
      rw [hrest, hc] at hcut
      refine ⟨hcut.symm, fun hmem => ?_⟩
      simpa using List.all_eq_true.1 List.all_takeWhile separator hmem
  · rintro ⟨rfl, hbefore⟩
    have hkept : ∀ c ∈ before, decide (c ≠ separator) = true :=
      fun c hc => decide_eq_true fun hsame => hbefore (hsame ▸ hc)
    rw [List.dropWhile_append_of_pos hkept, List.takeWhile_append_of_pos hkept]
    simp

/-- The two parts of a text cut after its last separator are the text. -/
theorem splitAfterLast_append (separator : Char) (t : Text) :
    (splitAfterLast separator t).1 ++ (splitAfterLast separator t).2 = t := by
  have cut : t = (t.reverse.dropWhile (· ≠ separator)).reverse ++
      (t.reverse.takeWhile (· ≠ separator)).reverse := by
    rw [← List.reverse_append, List.takeWhile_append_dropWhile, List.reverse_reverse]
  have size := congrArg List.length cut
  rw [List.length_append] at size
  have head : t.take (t.length - (t.reverse.takeWhile (· ≠ separator)).reverse.length) =
      (t.reverse.dropWhile (· ≠ separator)).reverse := by
    conv => lhs; arg 2; rw [cut]
    rw [List.take_append_of_le_length (by omega), List.take_of_length_le (by omega)]
  simp only [splitAfterLast]
  rw [head]
  exact cut.symm

/-! ## Order -/

theorem le_antisymm {a b : Text} (hab : le a b = true) (hba : le b a = true) : a = b := by
  induction a generalizing b with
  | nil =>
    cases b with
    | nil => rfl
    | cons y ys => cases hba
  | cons x xs ih =>
    cases b with
    | nil => cases hab
    | cons y ys =>
      unfold le at hab hba
      by_cases hxy : x = y
      · subst hxy
        rw [if_pos rfl] at hab hba
        rw [ih hab hba]
      · rw [if_neg hxy, decide_eq_true_iff] at hab
        rw [if_neg (Ne.symm hxy), decide_eq_true_iff] at hba
        omega

theorem le_total (a b : Text) : (le a b || le b a) = true := by
  induction a generalizing b with
  | nil => simp [le]
  | cons x xs ih =>
    cases b with
    | nil => simp [le]
    | cons y ys =>
      by_cases h : x = y
      · subst h
        simpa [le] using ih ys
      · have hne : x.toNat ≠ y.toNat := fun e => h (Char.toNat_inj.1 e)
        have hyx : y ≠ x := fun e => h e.symm
        simp only [le, h, hyx, if_false, Bool.or_eq_true, decide_eq_true_eq]
        omega

theorem le_trans {a b c : Text} (hab : le a b = true) (hbc : le b c = true) : le a c = true := by
  induction a generalizing b c with
  | nil => rfl
  | cons x xs ih =>
    cases b with
    | nil => simp [le] at hab
    | cons y ys =>
      cases c with
      | nil => simp [le] at hbc
      | cons z zs =>
        simp only [le] at hab hbc ⊢
        by_cases hxy : x = y <;> by_cases hyz : y = z <;> by_cases hxz : x = z <;>
          simp_all
        · exact ih hab hbc
        · omega
        · omega

end Text

end Typeahead
