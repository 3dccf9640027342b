import Typeahead.Menu.Frame
import Typeahead.Proofs.Text.Measuring

/-!
What a label looks like in its column. It is the text and blanks, or a beginning of the text with an
ellipsis and blanks. It takes exactly the columns given to it unless the beginning that was kept is
wider than its characters one by one, by which it was cut.
-/
namespace Typeahead

open Text Text.Columns

variable {width used : Nat} {t : Text}

/-! ## Cutting -/

theorem isPrefix_takeColumns (width used : Nat) (t : Text) : takeColumns width used t <+: t := by
  induction t generalizing used with
  | nil => exact List.prefix_rfl
  | cons c cs ih =>
    unfold takeColumns
    dsimp only
    split
    · exact (List.prefix_cons_inj c).2 (ih _)
    · exact List.nil_prefix

/-- What is kept stays below the width when its characters are measured one by one. -/
theorem columnsApart_takeColumns (h : used < width) (t : Text) :
    used + columnsApart (takeColumns width used t) < width := by
  induction t generalizing used with
  | nil => exact h
  | cons c cs ih =>
    unfold takeColumns
    dsimp only
    split
    · rename_i hfits
      have hrest := ih hfits
      rw [columnsApart]
      omega
    · exact h

/-- The character behind what is kept would reach the width. -/
theorem le_columnsApart_of_takeColumns {c : Char} {rest : Text}
    (h : t = takeColumns width used t ++ c :: rest) :
    width ≤ used + columnsApart (takeColumns width used t ++ [c]) := by
  induction t generalizing used with
  | nil => simp [takeColumns] at h
  | cons d ds ih =>
    unfold takeColumns at h ⊢
    dsimp only at h ⊢
    split at h
    · rename_i hfits
      have hrest := ih (List.cons.inj h).2
      rw [if_pos hfits]
      rw [List.cons_append, columnsApart]
      omega
    · rename_i hfull
      obtain ⟨rfl, _⟩ := List.cons.inj h
      rw [if_neg hfull]
      simp [columnsApart]
      omega

/-! ## Filling up -/

theorem columns_padColumns (width : Nat) (t : Text) :
    columns (padColumns width t) = max width (columns t) := by
  unfold padColumns
  rw [columns_append (congrArg Prod.snd (scan_blanks _))]
  have hblanks : columns (List.replicate (width - columns t) ' ') = width - columns t := by
    unfold columns
    rw [scan_blanks]
    rfl
  rw [hblanks]
  omega

theorem columns_ellipsis (t : Text) : columns (t ++ ['…']) = columns t + 1 := by
  have hscan : scan ['…'] = (1, .plain) := by decide +kernel
  rw [columns_append (congrArg Prod.snd hscan)]
  unfold columns
  rw [hscan]
  rfl

/-! ## Fitting -/

/-- A text in a column: as it is with blanks behind it, or, where it is wider, a beginning of it with
an ellipsis and blanks. A column without width stays empty. -/
inductive IsFitting (width : Nat) (t : Text) : Text → Prop
  | whole (n : Nat) (h : columns t ≤ width) : IsFitting width t (t ++ List.replicate n ' ')
  | cut (kept : Text) (n : Nat) (h : width < columns t) (hwidth : 0 < width) (hkept : kept <+: t) :
      IsFitting width t (kept ++ '…' :: List.replicate n ' ')
  | nothing (h : width < columns t) (hwidth : width = 0) : IsFitting width t []

theorem isFitting_fitColumns (width : Nat) (t : Text) : IsFitting width t (fitColumns width t) := by
  unfold fitColumns
  split
  · exact .whole _ ‹_›
  · rename_i hwide
    split
    · exact .nothing (by omega) ‹_›
    · unfold padColumns
      rw [List.append_assoc, List.singleton_append]
      exact .cut _ _ (by omega) (by omega) (isPrefix_takeColumns width 0 t)

theorem columns_fitColumns (width : Nat) (t : Text) :
    columns (fitColumns width t) =
      if columns t ≤ width ∨ width = 0 then width
      else max width (columns (takeColumns width 0 t) + 1) := by
  unfold fitColumns
  split
  · rename_i hfits
    rw [columns_padColumns, if_pos (Or.inl hfits)]
    omega
  · rename_i hwide
    split
    · rename_i hnone
      rw [if_pos (Or.inr hnone), hnone]
      rfl
    · rename_i hsome
      rw [columns_padColumns, columns_ellipsis, if_neg (not_or.2 ⟨hwide, hsome⟩)]

/-- A label is the text with blanks, or a beginning of it with an ellipsis and blanks, and never
narrower than its column. The beginning is the longest one whose characters, one by one, stay below
the width. The label is wider than its column exactly where that beginning takes all of the column by
itself; without controls, emoji selectors and Tifinagh joiners this does not happen. -/
theorem a_label_takes_its_column_unless_it_is_wider_than_its_characters (width : Nat) (t : Text) :
    let label := fitColumns width t
    let kept := takeColumns width 0 t
    IsFitting width t label ∧
      width ≤ columns label ∧
      (columns label ≠ width ↔ 0 < width ∧ width < columns t ∧ width ≤ columns kept) ∧
      (0 < width → columnsApart kept < width ∧
        ∀ c rest, t = kept ++ c :: rest → width ≤ columnsApart (kept ++ [c])) ∧
      ((∀ c ∈ t, widens c = false) → columns label = width) := by
  intro label kept
  have hlabel : columns label =
      if columns t ≤ width ∨ width = 0 then width else max width (columns kept + 1) :=
    columns_fitColumns width t
  have hwider : columns label ≠ width ↔ 0 < width ∧ width < columns t ∧ width ≤ columns kept := by
    rw [hlabel]
    split <;> omega
  have hbelow : 0 < width → columnsApart kept < width := by
    intro hwidth
    have hapart := columnsApart_takeColumns hwidth t
    rwa [Nat.zero_add] at hapart
  refine ⟨isFitting_fitColumns width t, ?_, hwider, fun hwidth => ⟨hbelow hwidth, ?_⟩, ?_⟩
  · rw [hlabel]
    split <;> omega
  · intro c rest hcut
    have hfull := le_columnsApart_of_takeColumns hcut
    rwa [Nat.zero_add] at hfull
  · intro hplain
    have hkept : ∀ c ∈ kept, widens c = false := fun c hc =>
      hplain c ((isPrefix_takeColumns width 0 t).subset hc)
    have hle := columns_le_columnsApart hkept
    refine Decidable.byContradiction fun hne => ?_
    obtain ⟨hwidth, _, hfull⟩ := hwider.1 hne
    have := hbelow hwidth
    omega

/-- A word of letters is cut to its column. -/
theorem the_letters_are_cut_to_five_columns :
    (∀ c ∈ "abcdefgh".toList, widens c = false) ∧
      fitColumns 5 "abcdefgh".toList = "abcd…".toList ∧
      columns (fitColumns 5 "abcdefgh".toList) = 5 := by
  have hall : ("abcdefgh".toList.all fun c => !widens c) = true := by decide +kernel
  have hplain : ∀ c ∈ "abcdefgh".toList, widens c = false := by
    simpa only [List.all_eq_true, Bool.not_eq_true'] using hall
  have hlabel := a_label_takes_its_column_unless_it_is_wider_than_its_characters 5 "abcdefgh".toList
  exact ⟨hplain, by decide +kernel, hlabel.2.2.2.2 hplain⟩

/-- Two hearts with their selectors take two columns each, but their characters one by one only one:
nothing is cut off, and the label is two columns wider than its column. -/
theorem two_hearts_are_wider_than_their_column :
    columns "❤\ufe0f❤\ufe0f".toList = 4 ∧
      fitColumns 3 "❤\ufe0f❤\ufe0f".toList = "❤\ufe0f❤\ufe0f…".toList ∧
      columns (fitColumns 3 "❤\ufe0f❤\ufe0f".toList) = 5 := by
  decide +kernel

end Typeahead
