import Mathlib.Data.List.Nodup
import Mathlib.Data.List.Perm.Basic
import Typeahead.Source.Reference

/-!
Ascending lists, which their members determine, and references collected by name: they stand in the order
of their names, and of each name the first one is kept.
-/
namespace Typeahead

/-! ## Ascending lists -/

/-- The members stand in strictly ascending order by their texts. -/
def AscendingBy {α : Type} (text : α → Text) (l : List α) : Prop :=
  l.Pairwise fun a b => Text.le (text a) (text b) = true ∧ text a ≠ text b

namespace AscendingBy

variable {α : Type} {text : α → Text} {l l' : List α}

theorem nodup (h : AscendingBy text l) : l.Nodup := by
  apply h.imp
  rintro a b ⟨_, hne⟩ rfl
  exact hne rfl

/-- Ascending lists are the same if they have the same members. -/
theorem eq_of_mem_iff (h : AscendingBy text l) (h' : AscendingBy text l')
    (hmem : ∀ a, a ∈ l ↔ a ∈ l') : l = l' := by
  have hperm : l.Perm l' := (List.perm_ext_iff_of_nodup h.nodup h'.nodup).2 hmem
  apply hperm.eq_of_pairwise _ h h'
  intro a b _ _ hab hba
  exact absurd (Text.le_antisymm hab.1 hba.1) hab.2

end AscendingBy

namespace Reference

/-! ## The order of names -/

/-- The names stand in strictly ascending order. -/
def InNameOrder (refs : List Reference) : Prop :=
  refs.Pairwise fun a b => Text.le a.name b.name = true ∧ a.name ≠ b.name

/-- What comes before the first name in order is not among the names. -/
theorem InNameOrder.not_mem_names {r x : Reference} {refs : List Reference}
    (h : InNameOrder (x :: refs)) (hle : Text.le r.name x.name = true) (hne : r.name ≠ x.name) :
    r.name ∉ (x :: refs).map Reference.name := by
  intro hmem
  rcases List.mem_cons.1 hmem with hsame | hmem
  · exact hne hsame
  · obtain ⟨y, hy, hname⟩ := List.mem_map.1 hmem
    obtain ⟨hxy, _⟩ := (List.pairwise_cons.1 h).1 y hy
    exact hne (Text.le_antisymm hle (hname ▸ hxy))

/-- An addition keeps what is there, and the new reference if its name is new. -/
theorem mem_insert {r s : Reference} {refs : List Reference} (h : InNameOrder refs) :
    s ∈ r.insert refs ↔ s ∈ refs ∨ (s = r ∧ r.name ∉ refs.map Reference.name) := by
  induction refs with
  | nil => simp [insert]
  | cons x xs ih =>
    obtain ⟨_, htail⟩ := List.pairwise_cons.1 h
    unfold insert
    split
    · rename_i hsame
      simp [hsame]
    · rename_i hne
      split
      · rename_i hle
        have hnew := h.not_mem_names hle hne
        rw [List.mem_cons, and_iff_left hnew, or_comm]
      · rw [List.mem_cons, ih htail, List.mem_cons, List.map_cons, List.mem_cons, not_or, or_assoc,
          and_iff_right hne]

theorem names_ne_insert {r : Reference} {refs : List Reference} (h : InNameOrder refs) :
    (r.insert refs).Pairwise fun a b => a.name ≠ b.name := by
  induction refs with
  | nil => exact List.pairwise_singleton _ _
  | cons x xs ih =>
    obtain ⟨hhead, htail⟩ := List.pairwise_cons.1 h
    obtain ⟨_, hnames⟩ := List.pairwise_and_iff.1 h
    unfold insert
    split
    · exact hnames
    · rename_i hne
      split
      · rename_i hle
        have hnew := h.not_mem_names hle hne
        refine List.pairwise_cons.2 ⟨fun y hy hsame => ?_, hnames⟩
        exact hnew (List.mem_map.2 ⟨y, hy, hsame.symm⟩)
      · refine List.pairwise_cons.2 ⟨fun y hy => ?_, ih htail⟩
        rcases (mem_insert htail).1 hy with hy | ⟨rfl, _⟩
        · exact (hhead y hy).2
        · exact Ne.symm hne

theorem inNameOrder_insert {r : Reference} {refs : List Reference} (h : InNameOrder refs) :
    InNameOrder (r.insert refs) := by
  obtain ⟨hle, _⟩ := List.pairwise_and_iff.1 h
  exact List.pairwise_and_iff.2 ⟨insert_pairwise_le hle, names_ne_insert h⟩

/-! ## Collecting -/

/-- References by name, the first one of each. -/
def collect (rs : List Reference) : List Reference := rs.foldl (fun refs r => insert r refs) []

theorem inNameOrder_foldl {rs refs : List Reference} (h : InNameOrder refs) :
    InNameOrder (rs.foldl (fun refs r => insert r refs) refs) := by
  induction rs generalizing refs with
  | nil => exact h
  | cons r rs ih => exact ih (inNameOrder_insert h)

theorem mem_foldl {s : Reference} {rs refs : List Reference} (h : InNameOrder refs) :
    s ∈ rs.foldl (fun refs r => insert r refs) refs ↔
      s ∈ refs ∨ (s.name ∉ refs.map Reference.name ∧ rs.find? (·.name = s.name) = some s) := by
  induction rs generalizing refs with
  | nil => simp
  | cons r rs ih =>
    rw [List.foldl_cons, ih (inNameOrder_insert h), mem_insert h, mem_names_insert, List.find?_cons]
    by_cases hname : r.name = s.name
    · simp only [hname, decide_true, true_or, not_true_eq_false, false_and, or_false]
      rw [Option.some_inj, eq_comm, and_comm]
    · have hne : s ≠ r := fun hsame => hname (hsame ▸ rfl)
      simp [hname, hne, Ne.symm hname]

theorem inNameOrder_collect (rs : List Reference) : InNameOrder (collect rs) :=
  inNameOrder_foldl List.Pairwise.nil

/-- Of each name the first reference is collected. -/
theorem mem_collect {r : Reference} {rs : List Reference} :
    r ∈ collect rs ↔ rs.find? (·.name = r.name) = some r := by
  unfold collect
  rw [mem_foldl List.Pairwise.nil]
  simp

/-- What is collected depends only on the first reference of each name. -/
theorem collect_eq {rs rs' : List Reference}
    (h : ∀ name, rs.find? (·.name = name) = rs'.find? (·.name = name)) :
    collect rs = collect rs' := by
  apply AscendingBy.eq_of_mem_iff (inNameOrder_collect rs) (inNameOrder_collect rs')
  intro r
  rw [mem_collect, mem_collect, h]

/-- Where each name stands for one reference, nothing is lost. -/
theorem mem_collect_of_unique {rs : List Reference}
    (h : ∀ r ∈ rs, ∀ s ∈ rs, r.name = s.name → r = s) {r : Reference} : r ∈ collect rs ↔ r ∈ rs := by
  rw [mem_collect]
  constructor
  · exact List.mem_of_find?_eq_some
  · intro hr
    cases hfind : rs.find? (·.name = r.name) with
    | none => simpa using List.find?_eq_none.1 hfind r hr
    | some s =>
      have hname : s.name = r.name := by simpa using List.find?_some hfind
      rw [h s (List.mem_of_find?_eq_some hfind) r hr hname]

/-- Among references of one kind, the first one of a name is the only one. -/
theorem find?_of_kind {rs : List Reference} {kind : ReferenceKind} (h : ∀ r ∈ rs, r.kind = kind)
    (name : Text) :
    rs.find? (·.name = name) = if ⟨name, kind⟩ ∈ rs then some ⟨name, kind⟩ else none := by
  split
  · rename_i hmem
    cases hfind : rs.find? (·.name = name) with
    | none => simpa using List.find?_eq_none.1 hfind _ hmem
    | some r =>
      have hname : r.name = name := by simpa using List.find?_some hfind
      rw [← hname, ← h r (List.mem_of_find?_eq_some hfind)]
  · rename_i hnot
    rw [List.find?_eq_none]
    intro r hr hname
    rw [decide_eq_true_iff] at hname
    exact hnot (hname ▸ h r hr ▸ hr)

end Reference

end Typeahead
