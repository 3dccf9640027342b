import Typeahead.Text.Columns

/-!
How the columns of a text come from its characters. What a sequence gives back was taken before, so
the columns never fall below zero, and blanks behind a text add to it. Three kinds of characters can
be wider in a text than by themselves: controls, the emoji selector and the joiner of Tifinagh
letters. Without them a text is no wider than its characters one by one.
-/
namespace Typeahead.Text

/-! ## Tables apart from each other -/

/-- No range of one table meets one of the other. -/
def areApart (table other : List (Nat × Nat)) : Bool :=
  table.all fun (first, last) => other.all fun (start, stop) =>
    Nat.blt last start || Nat.blt stop first

theorem inRanges_eq_false {table other : List (Nat × Nat)} {c : Char}
    (hapart : areApart table other = true) (h : inRanges table c = true) :
    inRanges other c = false := by
  obtain ⟨⟨first, last⟩, hrange, hc⟩ := List.any_eq_true.1 h
  have hothers := List.all_eq_true.1 hapart _ hrange
  unfold inRanges
  rw [List.any_eq_false]
  rintro ⟨start, stop⟩ hother
  have hmiss := List.all_eq_true.1 hothers _ hother
  simp only [Bool.and_eq_true, Bool.or_eq_true, decide_eq_true_eq, Nat.blt_eq] at hc hmiss ⊢
  omega

namespace Columns

variable {c : Char} {ahead : Ahead} {letter : Ligature} {zwj : Bool} {n : Int}

theorem ofPrintable_pos (h : inRanges zeroWidth c = false) : 1 ≤ ofPrintable c := by
  unfold ofPrintable
  rw [h, if_neg Bool.false_ne_true]
  repeat' split
  all_goals omega

/-! ## Characters in a sequence -/

/-- The columns that the characters left of this one can take back. -/
def owed : Ahead → Int
  | .ligature .khmerLetter _ => 1
  | .ligature .tifinaghJoined _ => 1
  | _ => 0

def isEmojiForm : Ahead → Bool
  | .emojiForm _ => true
  | _ => false

/-- Controls, the emoji selector and the joiner of Tifinagh letters: characters that can make a text
wider than they are by themselves. -/
def widens (c : Char) : Bool :=
  c.toNat < 0x20 || within c 0x7F 0x9F || c = emojiSelector || c.toNat == 0x2D7F

/-- What a character may add, and leave ahead for the one left of it. -/
structure IsFair (c : Char) (ahead : Ahead) (step : Int × Ahead) : Prop where
  /-- What can be taken back later is added now or was there before. -/
  owed_le : owed step.2 ≤ step.1 + owed ahead
  /-- A character that does not widen adds at most the columns that it has by itself. -/
  le_ofPrintable : widens c = false → isEmojiForm ahead = false → step.1 ≤ ofPrintable c
  isEmojiForm_eq_false : widens c = false → isEmojiForm step.2 = false

theorem owed_nonneg (ahead : Ahead) : 0 ≤ owed ahead := by
  unfold owed
  split <;> omega

theorem owed_ligature (letter : Ligature) (zwj zwj' : Bool) :
    owed (.ligature letter zwj) = owed (.ligature letter zwj') := by
  cases letter <;> rfl

theorem owed_announce_of_not (h : isKhmerLetter c = false) : owed (announce c) = 0 := by
  unfold announce
  simp only [h, apply_ite owed]
  simp [owed]

/-- Only the letters that can hang below another one give a column back, and each has one. -/
theorem owed_announce_le (c : Char) : owed (announce c) ≤ 1 ∧ owed (announce c) ≤ ofPrintable c := by
  cases hkhmer : isKhmerLetter c with
  | false =>
    rw [owed_announce_of_not hkhmer]
    exact ⟨by omega, Int.natCast_nonneg _⟩
  | true =>
    have hzero : inRanges zeroWidth c = false := inRanges_eq_false (by decide +kernel) hkhmer
    have hpos := ofPrintable_pos hzero
    have hone : owed (announce c) ≤ 1 := by
      unfold owed
      split <;> omega
    exact ⟨hone, by omega⟩

theorem isEmojiForm_announce (h : widens c = false) : isEmojiForm (announce c) = false := by
  have hselector : c ≠ emojiSelector := by
    rintro rfl
    exact absurd h (by decide)
  unfold announce
  simp only [hselector, if_false, apply_ite isEmojiForm]
  simp [isEmojiForm]

/-! ### One rule after the other -/

theorem isFair_alone (c : Char) (ahead : Ahead) : IsFair c ahead (alone c) := by
  have hnonneg := owed_nonneg ahead
  obtain ⟨hone, hprintable⟩ := owed_announce_le c
  unfold alone
  split
  · rename_i hcontrol
    have hwidens : widens c = true := by
      unfold widens
      rw [hcontrol]
      rfl
    exact ⟨by dsimp only; omega, by simp [hwidens], by simp [hwidens]⟩
  · exact ⟨by dsimp only; omega, fun _ _ => Int.le_refl _, isEmojiForm_announce⟩

/-- A character that is taken into a sequence adds nothing. -/
theorem isFair_taken {after : Ahead} (howed : owed after ≤ owed ahead)
    (hform : isEmojiForm after = false) : IsFair c ahead (0, after) :=
  ⟨by dsimp only; omega, fun _ _ => Int.natCast_nonneg _, fun _ => hform⟩

/-- A character that closes a sequence can take back what is owed. -/
theorem isFair_takenBack (howed : owed ahead = 1) : IsFair c ahead (-1, .plain) :=
  ⟨by rw [howed]; exact Int.le_refl _,
    fun _ _ => Int.le_trans (by decide : (-1 : Int) ≤ 0) (Int.natCast_nonneg _), fun _ => rfl⟩

theorem isFair_tifinaghJoiner (h : c.toNat = 0x2D7F) :
    IsFair c (.ligature .tifinaghLetter zwj) (1, .ligature .tifinaghJoined false) := by
  have hwidens : widens c = true := by
    unfold widens
    simp [h]
  exact ⟨Int.le_refl _, by simp [hwidens], by simp [hwidens]⟩

theorem isFair_ligate {step : Int × Ahead} (h : ligate c letter zwj = some step) :
    IsFair c (.ligature letter zwj) step := by
  have hnonneg := owed_nonneg (.ligature letter zwj)
  unfold ligate at h
  split at h
  · repeat' split at h
    all_goals cases h
    all_goals exact isFair_taken hnonneg rfl
  · split at h
    · cases h
      exact isFair_taken (Int.le_of_eq (owed_ligature letter true zwj)) rfl
    · split at h
      · cases h
        exact isFair_taken (Int.le_refl _) rfl
      · cases letter with
        | alef => cases h
        | khmerLetter =>
          obtain ⟨_, h⟩ := Option.ite_none_right_eq_some.1 h
          cases h
          exact isFair_takenBack rfl
        | tifinaghJoined =>
          obtain ⟨_, h⟩ := Option.ite_none_right_eq_some.1 h
          cases h
          exact isFair_takenBack rfl
        | tifinaghLetter =>
          dsimp only at h
          split at h
          · cases h
            exact isFair_tifinaghJoiner ‹_›
          · obtain ⟨_, h⟩ := Option.ite_none_right_eq_some.1 h
            cases h
            exact isFair_taken hnonneg rfl
        | lamed | bugineseYa | bugineseVowelYa | lisuTone | turkicI =>
          obtain ⟨_, h⟩ := Option.ite_none_right_eq_some.1 h
          cases h
          exact isFair_taken hnonneg rfl

theorem isFair_beside (c : Char) (ahead : Ahead) : IsFair c ahead (beside c ahead) := by
  have hnonneg := owed_nonneg ahead
  have hzero : (0 : Int) ≤ ofPrintable c := Int.natCast_nonneg _
  unfold beside
  split
  · rename_i hselector
    have hwidens : widens c = true := by
      rw [hselector]
      decide
    exact ⟨by simpa [owed] using hnonneg, fun _ _ => hzero, by simp [hwidens]⟩
  · split
    · exact isFair_taken hnonneg rfl
    · split
      · split
        · rename_i hrequest
          -- The narrow form of a sign that has columns.
          have hshown : inRanges zeroWidth c = false :=
            inRanges_eq_false (by decide +kernel) hrequest
          have hpos := ofPrintable_pos hshown
          exact ⟨by decide, fun _ _ => by dsimp only; omega, fun _ => rfl⟩
        · exact isFair_alone c _
      · repeat' split
        · exact isFair_taken hnonneg rfl
        · exact isFair_taken hnonneg rfl
        · exact isFair_alone c _
      · split
        · exact isFair_taken hnonneg rfl
        · exact isFair_alone c _
      · repeat' split
        · exact isFair_taken hnonneg rfl
        · exact isFair_taken hnonneg rfl
        · exact isFair_alone c _
      · rename_i letter zwj
        cases hligate : ligate c letter zwj with
        | some step => exact isFair_ligate hligate
        | none => exact isFair_alone c _
      · exact isFair_alone c _

/-- Before the emoji selector nothing is owed either, and no bound is asked for. -/
theorem IsFair.emojiForm {step : Int × Ahead} (h : IsFair c .plain step) (tied : Bool) :
    IsFair c (.emojiForm tied) step :=
  ⟨h.owed_le, by simp [isEmojiForm], h.isEmojiForm_eq_false⟩

theorem isFair_measure (c : Char) (ahead : Ahead) : IsFair c ahead (measure c ahead) := by
  unfold measure
  split
  · rename_i tied
    split
    · refine ⟨?_, by simp [isEmojiForm], fun _ => rfl⟩
      cases tied <;> decide
    · split
      · exact isFair_alone c _
      · exact (isFair_beside c .plain).emojiForm tied
  · split
    · exact isFair_taken (Int.le_refl _) rfl
    · exact isFair_alone c _
  · exact isFair_alone c _
  · split
    · exact isFair_alone c _
    · exact isFair_beside c _

/-! ## Whole texts -/

theorem scan_cons (c : Char) (cs : Text) :
    scan (c :: cs) =
      ((scan cs).1 + (measure c (scan cs).2).1, (measure c (scan cs).2).2) := rfl

/-- What can be taken back has been counted. -/
theorem owed_scan_le (t : Text) : owed (scan t).2 ≤ (scan t).1 := by
  induction t with
  | nil => exact Int.le_refl 0
  | cons c cs ih =>
    have hstep := (isFair_measure c (scan cs).2).owed_le
    rw [scan_cons]
    dsimp only
    omega

theorem scan_nonneg (t : Text) : 0 ≤ (scan t).1 :=
  Int.le_trans (owed_nonneg _) (owed_scan_le t)

/-- Behind a text that leaves nothing ahead, a text is measured as if it were alone. -/
theorem scan_append {u : Text} (hu : (scan u).2 = .plain) (t : Text) :
    scan (t ++ u) = ((scan t).1 + (scan u).1, (scan t).2) := by
  induction t with
  | nil =>
    rw [List.nil_append]
    exact Prod.ext (Int.zero_add _).symm hu
  | cons c cs ih =>
    rw [List.cons_append, scan_cons, scan_cons, ih]
    exact Prod.ext (Int.add_right_comm _ _ _) rfl

end Columns

open Columns

/-- Where nothing is left ahead, the columns of two texts add up. -/
theorem columns_append {u : Text} (hu : (scan u).2 = .plain) (t : Text) :
    columns (t ++ u) = columns t + columns u := by
  have ht := scan_nonneg t
  have hu' := scan_nonneg u
  unfold columns
  rw [scan_append hu]
  dsimp only
  omega

theorem scan_blanks (n : Nat) : scan (List.replicate n ' ') = ((n : Int), .plain) := by
  induction n with
  | zero => rfl
  | succ n ih =>
    have hblank : alone ' ' = (1, .plain) := by decide +kernel
    have hmeasure : measure ' ' .plain = (1, .plain) := hblank
    rw [List.replicate_succ, scan_cons, ih]
    dsimp only
    rw [hmeasure]
    exact Prod.ext (by dsimp only; omega) rfl

/-- The columns of the characters one by one, a control taken as none. -/
def columnsApart : Text → Nat
  | [] => 0
  | c :: cs => (charColumns? c).getD 0 + columnsApart cs

/-- Without characters that widen it, a text is no wider than its characters one by one. -/
theorem columns_le_columnsApart {t : Text} (h : ∀ c ∈ t, widens c = false) :
    columns t ≤ columnsApart t := by
  have hscan : (scan t).1 ≤ columnsApart t ∧ isEmojiForm (scan t).2 = false := by
    induction t with
    | nil => exact ⟨Int.le_refl 0, rfl⟩
    | cons c cs ih =>
      obtain ⟨hc, hcs⟩ := List.forall_mem_cons.1 h
      obtain ⟨hle, hform⟩ := ih hcs
      have hfair := isFair_measure c (scan cs).2
      have hmore := hfair.le_ofPrintable hc hform
      have hprinted : (charColumns? c).getD 0 = ofPrintable c := by
        unfold charColumns?
        rw [if_neg]
        · rfl
        · intro hcontrol
          unfold widens at hc
          rw [hcontrol] at hc
          cases hc
      refine ⟨?_, hfair.isEmojiForm_eq_false hc⟩
      rw [scan_cons, columnsApart, hprinted]
      dsimp only
      omega
  unfold columns
  have := scan_nonneg t
  omega

end Typeahead.Text
