import Typeahead.Command.Run
import Typeahead.Proofs.Settings.Layer

/-!
Where the settings of a run come from: the arguments come before the environment, the environment
before the file, and the file before the defaults. A run has no settings only where the file or a
variable cannot be used, and those that it has are valid.
-/
namespace Typeahead

namespace Settings

variable {d : Disk} {home : Text} {path : Option Text} {s : Settings}

/-! ## What the file gives -/

/-- The layer of the document in a file. A file that is missing gives nothing. -/
def fileLayer (d : Disk) (path : Text) : Layer :=
  match d.readText path with
  | .ok t => ((Toml.read? t).map (Layer.ofData Toml.dialect)).getD {}
  | .error _ => {}

theorem readText_of_missing {p : Text} (h : d.pathExists p = false) :
    ∃ e, d.readText p = .error e := by
  unfold Disk.pathExists at h
  unfold Disk.readText
  cases hfind : d.find p with
  | error e => exact ⟨e, rfl⟩
  | ok found =>
    rw [hfind] at h
    cases h

theorem fileLayer_of_missing {p : Text} (h : d.pathExists p = false) : fileLayer d p = {} := by
  obtain ⟨e, he⟩ := readText_of_missing h
  unfold fileLayer
  rw [he]

theorem eq_onto_of_ofToml {p t : Text} (hread : d.readText p = .ok t) (h : ofToml home t = .ok s) :
    s = (fileLayer d p).onto (default home) := by
  unfold fileLayer
  rw [hread]
  dsimp only
  unfold ofToml at h
  cases hdata : Toml.read? t with
  | none =>
    rw [hdata] at h
    cases h
  | some data =>
    rw [hdata, Option.bind_some] at h
    split at h
    · rename_i decoded hdecoded
      cases h
      exact eq_onto_of_ofData hdecoded
    · cases h

/-- The file cannot be used. -/
inductive IsUnusable (d : Disk) (home : Text) (path : Option Text) : Prop
  /-- It was asked for and is missing. -/
  | missing {p : Text} (asked : path = some p) (h : d.pathExists p = false)
  /-- It is there and cannot be read. -/
  | unreadable {e : DiskError} (there : d.pathExists (path.getD (defaultPath home)) = true)
      (h : d.readText (path.getD (defaultPath home)) = .error e)
  /-- It is there and does not hold settings. -/
  | undecodable {t : Text} {e : SettingsError}
      (there : d.pathExists (path.getD (defaultPath home)) = true)
      (read : d.readText (path.getD (defaultPath home)) = .ok t) (h : ofToml home t = .error e)

theorem load_eq (d : Disk) (home : Text) (path : Option Text) :
    load d home path =
      if d.pathExists (path.getD (defaultPath home)) then
        match d.readText (path.getD (defaultPath home)) with
        | .ok t => (ofToml home t).mapError .settings
        | .error e => .error (.ofDisk e)
      else
        match path with
        | some p => .error (.settings (.fileNotFound p))
        | none => .ok (default home) := by
  cases path <;> rfl

theorem exists_error_of_load (h : IsUnusable d home path) : ∃ e, load d home path = .error e := by
  rw [load_eq]
  cases h with
  | missing asked hmissing =>
    subst asked
    rw [Option.getD_some, hmissing]
    exact ⟨_, rfl⟩
  | unreadable there hread =>
    rw [if_pos there, hread]
    exact ⟨_, rfl⟩
  | undecodable there hread hdecode =>
    rw [if_pos there, hread]
    dsimp only
    rw [hdecode]
    exact ⟨_, rfl⟩

/-- A file that can be used is laid on the defaults. -/
theorem load_eq_ok (h : ¬IsUnusable d home path) :
    load d home path =
      .ok ((fileLayer d (path.getD (defaultPath home))).onto (default home)) := by
  rw [load_eq]
  split
  · rename_i there
    cases hread : d.readText (path.getD (defaultPath home)) with
    | error e => exact absurd (.unreadable there hread) h
    | ok t =>
      cases hdecode : ofToml home t with
      | error e => exact absurd (.undecodable there hread hdecode) h
      | ok s =>
        rw [eq_onto_of_ofToml hread hdecode] at hdecode
        dsimp only
        rw [hdecode]
        rfl
  · rename_i hmissing
    rw [Bool.not_eq_true] at hmissing
    cases path with
    | some p => exact absurd (.missing rfl hmissing) h
    | none =>
      rw [fileLayer_of_missing hmissing, Layer.empty_onto]

end Settings

namespace Command

open Settings (IsUnusable fileLayer defaultPath)

/-! ## What the arguments give -/

namespace Arguments

/-- The layer of the options. A limit or a mode that is given to a completion is no setting; it
holds for that completion alone. -/
def layer (args : Arguments) : Settings.Layer where
  color := if args.noColor then some false else none
  level := if args.veryVerbose then some .trace else if args.verbose then some .debug else none
  historyFile := args.historyFile

theorem override_eq_onto (args : Arguments) (s : Settings) :
    args.override s = args.layer.onto s := by
  unfold override layer Settings.Layer.onto
  cases args.noColor <;> cases args.veryVerbose <;> cases args.verbose <;> simp

/-- The options touch no number that must not be zero. -/
theorem isValid_override (args : Arguments) (s : Settings) :
    (args.override s).isValid = s.isValid := rfl

end Arguments

/-! ## The settings of a run -/

theorem isValid_default (home : Text) : (Settings.default home).isValid = true := rfl

namespace Host

variable {h : Host} {args : Arguments}

/-- The file and the environment on the defaults. -/
def merged (h : Host) (args : Arguments) : Settings :=
  h.environment.layer.onto
    ((fileLayer h.disk (args.configFile.getD (defaultPath h.home))).onto (Settings.default h.home))

theorem exists_error_of_settings
    (hbad : IsUnusable h.disk h.home args.configFile ∨ h.environment.IsMalformed) :
    ∃ e, h.settings args = .error e := by
  unfold settings
  by_cases hfile : IsUnusable h.disk h.home args.configFile
  · obtain ⟨e, he⟩ := Settings.exists_error_of_load hfile
    rw [he]
    exact ⟨e, rfl⟩
  · obtain ⟨s, e, happly⟩ := Environment.exists_error_of_apply (hbad.resolve_left hfile)
      ((fileLayer h.disk (args.configFile.getD (defaultPath h.home))).onto
        (Settings.default h.home))
    rw [Settings.load_eq_ok hfile]
    dsimp only [bind, Except.bind]
    rw [happly]
    exact ⟨.settings e, rfl⟩

/-- Where the file and the environment cannot be used together, the defaults take their place. -/
theorem settings_eq_ok (hfile : ¬IsUnusable h.disk h.home args.configFile)
    (henv : ¬h.environment.IsMalformed) :
    ∃ output, h.settings args =
      .ok (args.layer.onto
        (if (h.merged args).isValid then h.merged args else Settings.default h.home), output) := by
  have hmerged : h.environment.layer.onto
      ((fileLayer h.disk (args.configFile.getD (defaultPath h.home))).onto
        (Settings.default h.home)) = h.merged args := rfl
  unfold settings
  rw [Settings.load_eq_ok hfile]
  dsimp only [bind, Except.bind]
  rw [Environment.apply_eq_onto henv, hmerged]
  unfold Settings.isValid
  dsimp only
  rw [← Arguments.override_eq_onto]
  cases (h.merged args).invalid? with
  | none => exact ⟨_, rfl⟩
  | some e => exact ⟨_, rfl⟩

end Host

/-- A run has no settings exactly if the file was asked for and is missing, is there and cannot be
read or decoded, or a variable is set to what cannot be read. Otherwise its settings are valid. Each
field is as the arguments give it, or else the environment, or else the file, or else as by default,
where the file and the environment together are left out if what they give is not valid. -/
theorem the_settings_are_valid_and_merged_by_precedence (h : Host) (args : Arguments) :
    ((∃ e, h.settings args = .error e) ↔
      IsUnusable h.disk h.home args.configFile ∨ h.environment.IsMalformed) ∧
    ∀ s output, h.settings args = .ok (s, output) →
      s.isValid = true ∧
      let file := fileLayer h.disk (args.configFile.getD (defaultPath h.home))
      let merged := h.environment.layer.onto (file.onto (Settings.default h.home))
      s = args.layer.onto (if merged.isValid then merged else Settings.default h.home) := by
  by_cases hbad : IsUnusable h.disk h.home args.configFile ∨ h.environment.IsMalformed
  · obtain ⟨e, he⟩ := Host.exists_error_of_settings hbad
    refine ⟨iff_of_true ⟨e, he⟩ hbad, ?_⟩
    intro s output hs
    rw [he] at hs
    cases hs
  · obtain ⟨hfile, henv⟩ := not_or.1 hbad
    obtain ⟨written, hok⟩ := Host.settings_eq_ok hfile henv
    refine ⟨iff_of_false ?_ hbad, ?_⟩
    · rintro ⟨e, he⟩
      rw [hok] at he
      cases he
    · intro s output hs
      rw [hok] at hs
      cases hs
      refine ⟨?_, rfl⟩
      rw [← Arguments.override_eq_onto, Arguments.isValid_override]
      split
      · assumption
      · exact isValid_default h.home

/-- The file gives the rows of the menu and a history, the environment a limit and another history,
and the arguments a third history. -/
theorem each_layer_gives_a_field :
    let file : Node :=
      .file (.text "[menu]\nmax_visible = 4\n[history]\nfile_path = 'old'\n".toList) 0o644
    let h : Host :=
      { disk := ⟨.directory (.cons (.text "own.toml".toList) file .nil), []⟩
        home := "/home".toList, directory := "/".toList, searchPath := []
        environment := { maxResults := some " 7 ".toList, historyFile := some "new".toList }
        now := 0 }
    let args : Arguments :=
      { configFile := some "own.toml".toList, historyFile := some "mine".toList }
    let s : Settings :=
      { completion.maxResults := 7, menu.maxVisible := 4, history.file := "mine".toList }
    h.settings args = .ok (s, {}) ∧ s.isValid = true := by
  intro file h args s
  have hsome : (h.settings args).toOption = some (s, {}) := by decide +kernel
  have hok : h.settings args = .ok (s, {}) := by
    cases hresult : h.settings args with
    | error e =>
      rw [hresult] at hsome
      cases hsome
    | ok result =>
      rw [hresult] at hsome
      exact congrArg Except.ok (Option.some.inj hsome)
  exact ⟨hok, ((the_settings_are_valid_and_merged_by_precedence h args).2 s {} hok).1⟩

end Command

end Typeahead
