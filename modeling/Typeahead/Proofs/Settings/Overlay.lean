import Typeahead.Proofs.Data.Fields
import Typeahead.Proofs.Disk.Writing
import Typeahead.Proofs.Settings.Field

/-!
Settings files that give some of the fields. Whatever fields a document leaves out, those that it
gives are read as they were written, and the others have their defaults.
-/
namespace Typeahead

/-! ## Values -/

theorem Mode.ofData?_name (mode : Mode) :
    ofData? Toml.dialect (Toml.Scalar.text mode.name.toList).toData = some mode := by
  cases mode <;> decide

theorem LogLevel.read?_name (level : LogLevel) :
    read? Toml.dialect (Toml.Scalar.text level.name.toList).toData = some level := by
  cases level <;> decide

/-! ## Section by section -/

section Sections

variable (given : Text → Bool)

open Toml.Section (read_restrict read_whole)

namespace CompletionSettings

/-- The fields that are given, and the others as they are below. -/
def overlay (c base : CompletionSettings) : CompletionSettings where
  maxResults := if given "max_results".toList then c.maxResults else base.maxResults
  defaultMode := if given "default_mode".toList then c.defaultMode else base.defaultMode
  pathLifetime := if given "path_cache_ttl_secs".toList then c.pathLifetime else base.pathLifetime

theorem read?_restrict {c : CompletionSettings} (h : c.toSection.IsWellFormed) :
    read? Toml.dialect (c.toSection.restrict given).toData = some (c.overlay given {}) := by
  obtain ⟨fs, hread, hfs⟩ := h.restrict.exists_fields
    ["max_results", "default_mode", "path_cache_ttl_secs"] 0
  unfold read?
  rw [hread]
  simp only [Option.bind_eq_bind, Option.bind_some]
  rw [read_whole h hfs (by decide) rfl,
    read_restrict hfs (by decide) rfl (Mode.ofData?_name _),
    read_whole h hfs (by decide) rfl]
  rfl

end CompletionSettings

namespace MenuSettings

/-- The fields that are given, and the others as they are below. -/
def overlay (m base : MenuSettings) : MenuSettings where
  maxVisible := if given "max_visible".toList then m.maxVisible else base.maxVisible
  valueWidth := if given "value_width".toList then m.valueWidth else base.valueWidth
  hidesCursor := if given "hide_cursor".toList then m.hidesCursor else base.hidesCursor
  showsPosition :=
    if given "show_scroll_indicator".toList then m.showsPosition else base.showsPosition

theorem read?_restrict {m : MenuSettings} (h : m.toSection.IsWellFormed) :
    read? Toml.dialect (m.toSection.restrict given).toData = some (m.overlay given {}) := by
  obtain ⟨fs, hread, hfs⟩ := h.restrict.exists_fields
    ["max_visible", "value_width", "hide_cursor", "show_scroll_indicator"] 0
  unfold read?
  rw [hread]
  simp only [Option.bind_eq_bind, Option.bind_some]
  rw [read_whole h hfs (by decide) rfl,
    read_whole h hfs (by decide) rfl,
    read_restrict (a := m.hidesCursor) hfs (by decide) rfl rfl,
    read_restrict (a := m.showsPosition) hfs (by decide) rfl rfl]
  rfl

end MenuSettings

namespace HistorySettings

/-- The fields that are given, and the others as they are below. -/
def overlay (x base : HistorySettings) : HistorySettings where
  maxSize := if given "max_size".toList then x.maxSize else base.maxSize
  maxAgeDays := if given "max_age_days".toList then x.maxAgeDays else base.maxAgeDays
  file := if given "file_path".toList then x.file else base.file

theorem read?_restrict {x : HistorySettings} (home : Text) (h : x.toSection.IsWellFormed) :
    read? Toml.dialect home (x.toSection.restrict given).toData =
      some (x.overlay given { file := defaultFile home }) := by
  obtain ⟨fs, hread, hfs⟩ := h.restrict.exists_fields ["max_size", "max_age_days", "file_path"] 0
  unfold read?
  rw [hread]
  simp only [Option.bind_eq_bind, Option.bind_some]
  rw [read_whole h hfs (by decide) rfl,
    read_whole h hfs (by decide) rfl,
    read_restrict (a := x.file) hfs (by decide) rfl rfl]
  rfl

end HistorySettings

namespace DisplaySettings

/-- The fields that are given, and the others as they are below. -/
def overlay (x base : DisplaySettings) : DisplaySettings where
  color := if given "color_output".toList then x.color else base.color
  highlights := if given "syntax_highlighting".toList then x.highlights else base.highlights

theorem read?_restrict {x : DisplaySettings} (h : x.toSection.IsWellFormed) :
    read? Toml.dialect (x.toSection.restrict given).toData = some (x.overlay given {}) := by
  obtain ⟨fs, hread, hfs⟩ := h.restrict.exists_fields ["color_output", "syntax_highlighting"] 0
  unfold read?
  rw [hread]
  simp only [Option.bind_eq_bind, Option.bind_some]
  rw [read_restrict (a := x.color) hfs (by decide) rfl rfl,
    read_restrict (a := x.highlights) hfs (by decide) rfl rfl]
  rfl

end DisplaySettings

namespace LoggingSettings

/-- The fields that are given, and the others as they are below. -/
def overlay (l base : LoggingSettings) : LoggingSettings where
  level := if given "level".toList then l.level else base.level
  timestamps := if given "timestamps".toList then l.timestamps else base.timestamps

theorem read?_restrict {l : LoggingSettings} (h : l.toSection.IsWellFormed) :
    read? Toml.dialect (l.toSection.restrict given).toData = some (l.overlay given {}) := by
  obtain ⟨fs, hread, hfs⟩ := h.restrict.exists_fields ["level", "timestamps"] 0
  unfold read?
  rw [hread]
  simp only [Option.bind_eq_bind, Option.bind_some]
  rw [read_restrict hfs (by decide) rfl (LogLevel.read?_name _),
    read_restrict (a := l.timestamps) hfs (by decide) rfl rfl]
  rfl

end LoggingSettings

end Sections

/-! ## Parts of the settings -/

namespace Settings

/-- Every number of the settings can stand in a document. -/
def Fits (s : Settings) : Prop := ∀ f : Field, (f.value s).Fits

/-- Some of the values of a document of all settings. A section without any of them is left out if
it is not kept. -/
def partly (given : Text → Text → Bool) (kept : Text → Bool) (s : Settings) :
    List Toml.Section :=
  (s.sections.map fun part => part.restrict (given part.name)).filter fun part =>
    !part.entries.isEmpty || kept part.name

variable {given : Text → Text → Bool} {kept : Text → Bool} {s : Settings} {part : Toml.Section}

theorem exists_field (hpart : part ∈ s.sections) {entry : Text × Toml.Scalar}
    (hentry : entry ∈ part.entries) : ∃ f : Field, entry = (f.key.toList, f.value s) := by
  have hmem : (part.name, entry.1, entry.2) ∈
      s.sections.flatMap fun part => part.entries.map fun entry => (part.name, entry.1, entry.2) :=
    List.mem_flatMap.2 ⟨part, hpart, List.mem_map.2 ⟨entry, hentry, rfl⟩⟩
  rw [flatMap_sections] at hmem
  obtain ⟨f, _, hf⟩ := List.mem_map.1 hmem
  exact ⟨f, congrArg Prod.snd hf.symm⟩

/-- All settings have the sections and the keys of the defaults. -/
theorem names_sections (s : Settings) :
    s.sections.map Toml.Section.name = (default []).sections.map Toml.Section.name := rfl

theorem keys_sections (s : Settings) :
    (s.sections.map fun part => part.entries.map Prod.fst) =
      (default []).sections.map fun part => part.entries.map Prod.fst := rfl

theorem nodup_names (s : Settings) : (s.sections.map Toml.Section.name).Nodup := by
  rw [names_sections]
  decide

theorem nodup_partly (s : Settings) : ((s.partly given kept).map Toml.Section.name).Nodup :=
  List.Nodup.sublist (List.filter_sublist.map _) s.nodup_names

/-- All sections can be written. -/
theorem Fits.isWellFormed (h : s.Fits) (part : Toml.Section) (hpart : part ∈ s.sections) :
    part.IsWellFormed where
  name := by
    have hnames : ∀ name ∈ (default []).sections.map Toml.Section.name, Toml.IsBareKey name := by
      decide
    exact hnames _ (names_sections s ▸ List.mem_map_of_mem hpart)
  keys entry hentry := by
    have hkeys : ∀ f ∈ Field.all, Toml.IsBareKey f.key.toList := by decide
    obtain ⟨f, rfl⟩ := exists_field hpart hentry
    exact hkeys f f.mem_all
  values entry hentry := by
    obtain ⟨f, rfl⟩ := exists_field hpart hentry
    exact h f
  nodup := by
    have hkeys : ∀ keys ∈ (default []).sections.map fun part => part.entries.map Prod.fst,
        keys.Nodup := by
      decide
    exact hkeys _ (keys_sections s ▸ List.mem_map_of_mem hpart)

/-- The fields that are given, and the others as they are below. -/
def overlay (given : Text → Text → Bool) (s base : Settings) : Settings where
  completion := s.completion.overlay (given "completion".toList) base.completion
  menu := s.menu.overlay (given "menu".toList) base.menu
  history := s.history.overlay (given "history".toList) base.history
  display := s.display.overlay (given "display".toList) base.display
  logging := s.logging.overlay (given "logging".toList) base.logging

theorem value_overlay (given : Text → Text → Bool) (s base : Settings) (f : Field) :
    f.value (s.overlay given base) =
      if given f.part.toList f.key.toList then f.value s else f.value base := by
  cases f with
  | defaultMode => exact (apply_ite (fun mode : Mode => Toml.Scalar.text mode.name.toList) ..)
  | level => exact (apply_ite (fun level : LogLevel => Toml.Scalar.text level.name.toList) ..)
  | _ => exact apply_ite _ ..

/-- The names and values of some of the sections. -/
def partlyFields (given : Text → Text → Bool) (kept : Text → Bool) (s : Settings) :
    List (Text × Data) :=
  (s.partly given kept).map fun part => (part.name, part.toData)

theorem read_partly {α : Type} {decode : Data → Option α} {a : α} {names : List String}
    {name : String} {fs : Fields} (hfs : fs.AreOf names (s.partlyFields given kept))
    (otherwise : α) (hdecode : decode (part.restrict (given part.name)).toData = some a)
    (hempty : decode (.record []) = some otherwise) (hpart : part ∈ s.sections)
    (hname : part.name = name.toList) (hmem : name ∈ names) :
    fs.read name decode (some otherwise) = some a := by
  have hnodup : ((s.sections.map fun part => part.restrict (given part.name)).map
      Toml.Section.name).Nodup := s.nodup_names
  exact Toml.Section.read_filter (part.restrict (given part.name)) hfs hname hmem hnodup
    (List.mem_map_of_mem hpart) hempty hdecode

/-- Some of the values of a document are read as they were written. -/
theorem ofData?_partly (h : s.Fits) (home : Text) :
    ofData? Toml.dialect home (.record (s.partlyFields given kept)) =
      some (s.overlay given (default home)) := by
  have hnames : ((s.partlyFields given kept).map Prod.fst).Nodup := by
    simpa [partlyFields, Function.comp_def] using s.nodup_partly
  have hcompletion := CompletionSettings.read?_restrict (given "completion".toList)
    (h.isWellFormed s.completion.toSection (by simp [sections]))
  have hmenu := MenuSettings.read?_restrict (given "menu".toList)
    (h.isWellFormed s.menu.toSection (by simp [sections]))
  have hhistory := HistorySettings.read?_restrict (given "history".toList) home
    (h.isWellFormed s.history.toSection (by simp [sections]))
  have hdisplay := DisplaySettings.read?_restrict (given "display".toList)
    (h.isWellFormed s.display.toSection (by simp [sections]))
  have hlogging := LoggingSettings.read?_restrict (given "logging".toList)
    (h.isWellFormed s.logging.toSection (by simp [sections]))
  obtain ⟨fs, hread, hfs⟩ := Dialect.exists_fields Toml.dialect
    ["completion", "menu", "history", "display", "logging"] 0 hnames
  unfold ofData?
  rw [hread]
  simp only [Option.bind_eq_bind, Option.bind_some]
  rw [read_partly hfs (default home).completion hcompletion rfl (by simp [sections]) rfl
      (by decide),
    read_partly hfs (default home).menu hmenu rfl (by simp [sections]) rfl (by decide),
    read_partly hfs (default home).history hhistory rfl (by simp [sections]) rfl (by decide),
    read_partly hfs (default home).display hdisplay rfl (by simp [sections]) rfl (by decide),
    read_partly hfs (default home).logging hlogging rfl (by simp [sections]) rfl (by decide)]
  rfl

theorem ofToml_partly (h : s.Fits) (home : Text) :
    ofToml home (Toml.write (s.partly given kept)) = .ok (s.overlay given (default home)) := by
  have hparts : ∀ part ∈ s.partly given kept, part.IsWellFormed := by
    intro part hpart
    obtain ⟨whole, hwhole, rfl⟩ := List.mem_map.1 (List.mem_of_mem_filter hpart)
    exact (h.isWellFormed whole hwhole).restrict
  unfold ofToml
  rw [Toml.read?_write hparts s.nodup_partly, Option.bind_some, ← partlyFields,
    ofData?_partly h home]

/-- A document of all settings is read as these settings. -/
theorem ofToml_toToml (h : s.Fits) (home : Text) : ofToml home s.toToml = .ok s := by
  have hall : s.partly (fun _ _ => true) (fun _ => true) = s.sections := by
    simp [partly, Toml.Section.restrict]
  have hsame : s.overlay (fun _ _ => true) (default home) = s := rfl
  rw [toToml, ← hall, ofToml_partly h, hsame]

theorem mapError_eq_ok_iff {ε ε' α : Type} {result : Except ε α} {f : ε → ε'} {a : α} :
    result.mapError f = .ok a ↔ result = .ok a := by
  cases result <;> simp [Except.mapError]

theorem exists_write_of_save {d d' : Disk} {path : Text} (h : s.save d path = .ok d') :
    ∃ above : Disk, above.write path (.text s.toToml) = .ok d' := by
  unfold save at h
  dsimp only [bind, Except.bind] at h
  split at h
  · split at h
    · cases h
    · exact ⟨_, mapError_eq_ok_iff.1 h⟩
  · exact ⟨d, mapError_eq_ok_iff.1 h⟩

/-- What was saved is loaded. -/
theorem load_of_save {d d' : Disk} {path : Text} (h : s.Fits) (home : Text)
    (hsave : s.save d path = .ok d') : load d' home (some path) = .ok s := by
  obtain ⟨above, hwrite⟩ := exists_write_of_save hsave
  unfold load
  simp only [Disk.pathExists_of_write hwrite, Disk.readText_of_write hwrite, ofToml_toToml h]
  rfl

/-- A document with some of the values of settings gives the settings that have these values and the
defaults for all other fields, whether sections without values are left out or not. With all values
it gives the settings themselves, and so does the file to which they were saved. -/
theorem a_partial_document_overlays_the_defaults (s : Settings) (home : Text) (h : s.Fits) :
    (∀ (given : Text → Text → Bool) (kept : Text → Bool), ∃ s',
      ofToml home (Toml.write (s.partly given kept)) = .ok s' ∧
      ∀ f : Field, f.value s' =
        if given f.part.toList f.key.toList then f.value s else f.value (default home)) ∧
    ofToml home s.toToml = .ok s ∧
    ∀ d d' path, s.save d path = .ok d' → load d' home (some path) = .ok s :=
  ⟨fun given _ =>
      ⟨s.overlay given (default home), ofToml_partly h home, s.value_overlay given (default home)⟩,
    ofToml_toToml h home, fun _ _ _ => load_of_save h home⟩

/-- Two of the fields are given, one of them a file with a quotation mark in its name, and the saved
settings are loaded. -/
theorem the_given_fields_are_read :
    let home := "/home".toList
    let s : Settings :=
      { completion.defaultMode := .nl, menu.maxVisible := 4, history.file := "x\"y".toList }
    let given (_ key : Text) : Bool := key = "default_mode".toList || key = "file_path".toList
    let document := "[completion]\ndefault_mode = \"nl\"\n\n[history]\nfile_path = 'x\"y'\n".toList
    let d : Disk := ⟨.directory .nil, []⟩
    s.Fits ∧ Toml.write (s.partly given fun _ => false) = document ∧
      ofToml home document = .ok { s with menu.maxVisible := 10 } ∧
      ∃ d', s.save d "own.toml".toList = .ok d' ∧ load d' home (some "own.toml".toList) = .ok s := by
  intro home s given document d
  have hfits : s.Fits := by
    have hall : ∀ f ∈ Field.all, (f.value s).Fits := by decide
    exact fun f => hall f f.mem_all
  have hdocument : Toml.write (s.partly given fun _ => false) = document := by decide +kernel
  obtain ⟨hpartial, -, hload⟩ := a_partial_document_overlays_the_defaults s home hfits
  refine ⟨hfits, hdocument, ?_, ?_⟩
  · obtain ⟨s', hread, hvalue⟩ := hpartial given fun _ => false
    have hs' : s' = { s with menu.maxVisible := 10 } := by
      apply ext_value
      intro f
      rw [hvalue f]
      cases f <;> rfl
    rw [← hdocument, hread, hs']
  · have hsaved : (s.save d "own.toml".toList).toOption.isSome = true := by decide +kernel
    cases hsave : s.save d "own.toml".toList with
    | error e =>
      rw [hsave] at hsaved
      cases hsaved
    | ok d' => exact ⟨d', rfl, hload d d' _ hsave⟩

end Settings

end Typeahead
