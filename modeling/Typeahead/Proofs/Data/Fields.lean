import Typeahead.Proofs.Data.Document

/-!
Records read field by field, and sections of which some values were written. A field is found if it
was written, and whoever reads it takes a default in its place if it was not.
-/
namespace Typeahead

/-! ## Lookups -/

section Lookup

variable {α β : Type} (entries : List (Text × α)) (key : Text)

/-- What is kept by its key is found under that key. -/
theorem lookup_filter_fst (keep : Text → Bool) :
    (entries.filter fun entry => keep entry.1).lookup key =
      if keep key then entries.lookup key else none := by
  induction entries with
  | nil => simp
  | cons entry entries ih =>
    obtain ⟨k, v⟩ := entry
    rw [List.filter_cons, List.lookup_cons]
    by_cases hk : key = k
    · subst hk
      cases hkeep : keep key <;> simp [hkeep, ih]
    · have hne : (key == k) = false := by simpa using hk
      cases hkeep : keep k <;> simp [ih, hne, List.lookup_cons]

theorem lookup_map_snd (f : α → β) :
    (entries.map fun (key, a) => (key, f a)).lookup key = (entries.lookup key).map f := by
  induction entries with
  | nil => rfl
  | cons entry entries ih =>
    obtain ⟨k, v⟩ := entry
    rw [List.map_cons, List.lookup_cons, List.lookup_cons, ih]
    cases key == k <;> rfl

theorem mem_of_lookup {entries : List (Text × α)} {key : Text} {a : α}
    (h : entries.lookup key = some a) : (key, a) ∈ entries := by
  induction entries with
  | nil => cases h
  | cons entry entries ih =>
    obtain ⟨k, v⟩ := entry
    rw [List.lookup_cons] at h
    by_cases hk : key = k
    · simp_all
    · have hne : (key == k) = false := by simpa using hk
      rw [hne] at h
      exact List.mem_cons_of_mem _ (ih h)

end Lookup

/-- The fields that were read of a record give what the record gives under the names asked for. -/
def Fields.AreOf (fs : Fields) (names : List String) (fields : List (Text × Data)) : Prop :=
  ∀ name ∈ names, fs.given.lookup name.toList = fields.lookup name.toList

theorem Dialect.exists_fields {fields : List (Text × Data)} (dialect : Dialect)
    (names : List String) (least : Nat) (h : (fields.map Prod.fst).Nodup) :
    ∃ fs, dialect.fields? names least (.record fields) = some fs ∧ fs.AreOf names fields := by
  refine ⟨_, if_pos (h.sublist (List.filter_sublist.map Prod.fst)), fun name hname => ?_⟩
  have hknown : decide (name.toList ∈ names.map String.toList) = true :=
    decide_eq_true (List.mem_map_of_mem hname)
  have hlookup := lookup_filter_fst fields name.toList fun key =>
    decide (key ∈ names.map String.toList)
  exact hlookup.trans (if_pos hknown)

theorem Data.toWord?_whole {n : Nat} (h : n < wordLimit) : toWord? (.whole n) = some n := by
  simp [toWord?, h]

/-! ## Sections with some of their values -/

namespace Toml.Section

/-- A section with some of its values. -/
def restrict (given : Text → Bool) (s : Section) : Section :=
  { s with entries := s.entries.filter fun entry => given entry.1 }

variable {given : Text → Bool} {s : Section} {sections : List Section} {names : List String}
  {name : String} {fs : Fields} {α : Type} {decode : Data → Option α} {a otherwise : α}

theorem IsWellFormed.restrict (h : s.IsWellFormed) : (s.restrict given).IsWellFormed where
  name := h.name
  keys entry hentry := h.keys entry (List.mem_of_mem_filter hentry)
  values entry hentry := h.values entry (List.mem_of_mem_filter hentry)
  nodup := h.nodup.sublist (List.filter_sublist.map Prod.fst)

/-- The names and values of a section. -/
def fields (s : Section) : List (Text × Data) := s.entries.map fun (key, v) => (key, v.toData)

theorem IsWellFormed.exists_fields (h : s.IsWellFormed) (names : List String) (least : Nat) :
    ∃ fs, dialect.fields? names least s.toData = some fs ∧ fs.AreOf names s.fields := by
  apply Dialect.exists_fields
  simpa [fields, Function.comp_def] using h.nodup

/-- A field is read as it was written if it is given, and otherwise has its default. -/
theorem read_restrict {v : Scalar} (hfs : fs.AreOf names (s.restrict given).fields)
    (hname : name ∈ names) (hv : s.entries.lookup name.toList = some v)
    (hdecode : decode v.toData = some a) :
    fs.read name decode (some otherwise) = some (if given name.toList then a else otherwise) := by
  unfold Fields.read
  rw [hfs name hname, fields, lookup_map_snd, restrict, lookup_filter_fst, hv]
  cases given name.toList <;> simp [hdecode]

theorem read_whole {n otherwise : Nat} (h : s.IsWellFormed)
    (hfs : fs.AreOf names (s.restrict given).fields) (hname : name ∈ names)
    (hv : s.entries.lookup name.toList = some (.whole n)) :
    fs.read name Data.toWord? (some otherwise) =
      some (if given name.toList then n else otherwise) := by
  have hfits : (Scalar.whole n).Fits := h.values (name.toList, .whole n) (mem_of_lookup hv)
  exact read_restrict hfs hname hv (Data.toWord?_whole hfits)

/-- A section is found by its name if it is kept. -/
theorem lookup_filter {part : Section} (keep : Section → Bool)
    (hnodup : (sections.map Section.name).Nodup) (hpart : part ∈ sections) :
    ((sections.filter keep).map fun s => (s.name, s.toData)).lookup part.name =
      if keep part then some part.toData else none := by
  induction sections with
  | nil => cases hpart
  | cons s sections ih =>
    obtain ⟨hname, hnodup⟩ := List.nodup_cons.1 hnodup
    rcases List.mem_cons.1 hpart with rfl | hpart
    · have hnone : ((sections.filter keep).map fun s => (s.name, s.toData)).lookup part.name =
          none := by
        rw [List.lookup_eq_none_iff]
        intro field hfield
        obtain ⟨s, hs, rfl⟩ := List.mem_map.1 hfield
        rw [bne_iff_ne]
        exact fun heq => hname (heq ▸ List.mem_map_of_mem (List.mem_of_mem_filter hs))
      cases hkeep : keep part <;> simp [hkeep, hnone]
    · have hne : (part.name == s.name) = false := by
        rw [beq_eq_false_iff_ne]
        exact fun heq => hname (heq ▸ List.mem_map_of_mem hpart)
      rw [← ih hnodup hpart]
      cases hkeep : keep s <;> simp [hkeep, List.lookup_cons, hne]

/-- A section that is left out reads like an empty one. -/
theorem read_filter {kept : Text → Bool} (part : Section)
    (hfs : fs.AreOf names ((sections.filter fun part => !part.entries.isEmpty || kept part.name).map
      fun s => (s.name, s.toData)))
    (hname : part.name = name.toList) (hmem : name ∈ names)
    (hnodup : (sections.map Section.name).Nodup) (hpart : part ∈ sections)
    (hempty : decode (.record []) = some otherwise) (hdecode : decode part.toData = some a) :
    fs.read name decode (some otherwise) = some a := by
  unfold Fields.read
  rw [hfs name hmem, ← hname, lookup_filter _ hnodup hpart]
  by_cases hkeep : (!part.entries.isEmpty || kept part.name) = true
  · rw [if_pos hkeep]
    exact hdecode
  · have hnil : part.entries = [] := by simp_all
    have hrecord : part.toData = .record [] := by simp [toData, hnil]
    rw [if_neg hkeep, ← hempty, ← hrecord]
    exact hdecode

end Toml.Section

end Typeahead
