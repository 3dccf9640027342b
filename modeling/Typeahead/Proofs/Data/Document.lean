import Mathlib.Data.List.Nodup
import Typeahead.Proofs.Data.Lines

/-!
Documents of sections, read back: the record of a written document has the sections in order, and
each of them its values under their keys.
-/
namespace Typeahead.Toml

variable {name key : Text} {sections : List Section}

/-! ## Tables -/

namespace Entries

/-- The entries with those of a list before them. -/
def prepend : List (Text × Tree) → Entries → Entries
  | [], entries => entries
  | (key, tree) :: before, entries => cons key tree (prepend before entries)

variable {before after : List (Text × Tree)} {entries : Entries} {f : Option Tree → Option Tree}

theorem prepend_append :
    prepend (before ++ after) entries = prepend before (prepend after entries) := by
  induction before with
  | nil => rfl
  | cons entry before ih => simp [prepend, ih]

theorem toFields_prepend :
    (prepend before entries).toFields =
      (before.map fun (key, tree) => (key, tree.toData)) ++ entries.toFields := by
  induction before with
  | nil => rfl
  | cons entry before ih => simp [prepend, toFields, ih]

/-- Entries of other keys stay as they are. -/
theorem alter_prepend (h : key ∉ before.map Prod.fst) :
    (prepend before entries).alter key f = (entries.alter key f).map (prepend before) := by
  induction before with
  | nil => cases hentries : entries.alter key f <;> simp [prepend, hentries]
  | cons entry before ih =>
    obtain ⟨hne, hbefore⟩ := not_or.1 (mt List.mem_cons.2 h)
    rw [prepend, alter, if_neg (Ne.symm hne), ih hbefore, Option.map_map]
    rfl

end Entries

namespace Section

/-- The entries of values, in the order of a list. -/
def values (entries : List (Text × Scalar)) : List (Text × Tree) :=
  entries.map fun entry => (entry.1, .value entry.2.toData)

theorem map_fst_values (entries : List (Text × Scalar)) :
    (values entries).map Prod.fst = entries.map Prod.fst := by
  simp [values, Function.comp_def]

/-- The table that the lines of a section describe. -/
def tree (s : Section) : Tree := .table .header (.prepend (values s.entries) .nil)

theorem toData_tree (s : Section) : s.tree.toData = s.toData := by
  unfold tree values
  rw [Tree.toData, Entries.toFields_prepend]
  simp [toData, Tree.toData, Entries.toFields]

end Section

namespace Document

variable {before : List (Text × Tree)} {current : List Text}

/-- A header opens a new table behind the others. -/
theorem take_header (h : name ∉ before.map Prod.fst) :
    take ⟨.prepend before .nil, current⟩ (.header [] name) =
      some ⟨.prepend before (.cons name (.table .header .nil) .nil), [name]⟩ := by
  simp [take, Entries.addHeader, Entries.alterAt, Entries.alter_prepend h, Entries.alter]

/-- A key is added to the table that was opened last. -/
theorem take_assign {inside : List (Text × Tree)} {d : Data} (h : name ∉ before.map Prod.fst)
    (hkey : key ∉ inside.map Prod.fst) :
    take ⟨.prepend before (.cons name (.table .header (.prepend inside .nil)) .nil), [name]⟩
        (.assign ([], key) d) =
      some ⟨.prepend before (.cons name
        (.table .header (.prepend inside (.cons key (.value d) .nil))) .nil), [name]⟩ := by
  have hadd : (Entries.prepend inside .nil).assign ([], key) d =
      some (.prepend inside (.cons key (.value d) .nil)) := by
    rw [Entries.assign]
    simp only [List.reverse_nil]
    rw [Entries.addValue, Entries.alter_prepend hkey]
    rfl
  simp [take, Entries.alterAt, Entries.alter_prepend h, Entries.alter, openByHeader?, hadd]

/-- The lines of a section are its values, if no key stands there twice. -/
theorem foldlM_assign (done todo : List (Text × Scalar)) (h : name ∉ before.map Prod.fst)
    (hnodup : ((done ++ todo).map Prod.fst).Nodup) :
    (todo.map Section.assignment).foldlM take
        ⟨.prepend before (.cons name (.table .header (.prepend (Section.values done) .nil)) .nil),
          [name]⟩ =
      some ⟨.prepend before
        (.cons name (.table .header (.prepend (Section.values (done ++ todo)) .nil)) .nil),
          [name]⟩ := by
  induction todo generalizing done with
  | nil => simp
  | cons entry todo ih =>
    obtain ⟨key, v⟩ := entry
    have hkey : key ∉ (Section.values done).map Prod.fst := by
      rw [Section.map_fst_values]
      simp only [List.map_append, List.map_cons, List.nodup_append] at hnodup
      exact fun hmem => hnodup.2.2 key hmem key List.mem_cons_self rfl
    have hnext := ih (done ++ [(key, v)]) (by simpa using hnodup)
    have hvalues : Section.values (done ++ [(key, v)]) =
        Section.values done ++ [(key, .value v.toData)] := List.map_append
    rw [List.append_assoc, hvalues, Entries.prepend_append] at hnext
    rw [List.map_cons, List.foldlM_cons, Section.assignment, take_assign h hkey]
    exact hnext

/-- A section is a table behind the others. -/
theorem foldlM_section {s : Section} (h : s.name ∉ before.map Prod.fst) (hs : s.IsWellFormed) :
    s.statements.foldlM take ⟨.prepend before .nil, current⟩ =
      some ⟨.prepend (before ++ [(s.name, s.tree)]) .nil, [s.name]⟩ := by
  have hlines := foldlM_assign [] s.entries h hs.nodup
  rw [Section.statements, List.foldlM_cons, take_header h, Entries.prepend_append]
  exact hlines

/-- The sections are tables in order, if no name stands there twice. -/
theorem foldlM_sections (before : List (Text × Tree)) (current : List Text)
    (h : ∀ s ∈ sections, s.IsWellFormed)
    (hnodup : (before.map Prod.fst ++ sections.map Section.name).Nodup) :
    ∃ last, (sections.flatMap Section.statements).foldlM take ⟨.prepend before .nil, current⟩ =
      some ⟨.prepend (before ++ sections.map fun s => (s.name, s.tree)) .nil, last⟩ := by
  induction sections generalizing before current with
  | nil => exact ⟨current, by simp⟩
  | cons s sections ih =>
    obtain ⟨hs, hsections⟩ := List.forall_mem_cons.1 h
    have hname : s.name ∉ before.map Prod.fst := by
      rw [List.map_cons, List.nodup_append] at hnodup
      exact fun hmem => hnodup.2.2 s.name hmem s.name List.mem_cons_self rfl
    obtain ⟨last, hlast⟩ := ih (before ++ [(s.name, s.tree)]) [s.name] hsections
      (by simpa using hnodup)
    refine ⟨last, ?_⟩
    rw [List.flatMap_cons, List.foldlM_append, foldlM_section hname hs]
    simpa using hlast

end Document

/-- A written document is read back: its sections in order, with their values. -/
theorem read?_write (h : ∀ s ∈ sections, s.IsWellFormed)
    (hnodup : (sections.map Section.name).Nodup) :
    read? (write sections) = some (.record (sections.map fun s => (s.name, s.toData))) := by
  have hmark : dropMark (write sections) = write sections := by
    cases sections with
    | nil => rfl
    | cons s sections => cases sections <;> rfl
  have htables : Document.ofStatements? (sections.flatMap Section.statements) =
      some (.record (sections.map fun s => (s.name, s.toData))) := by
    obtain ⟨last, hlast⟩ := Document.foldlM_sections [] [] h hnodup
    rw [Entries.prepend, List.nil_append] at hlast
    unfold Document.ofStatements?
    rw [hlast]
    simp [Entries.toFields_prepend, Entries.toFields, Section.toData_tree]
  simp only [read?, hmark, statements?_write h (Nat.lt_succ_self _), Option.bind_eq_bind,
    Option.bind_some, htables]

end Typeahead.Toml
