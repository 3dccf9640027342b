import Typeahead.Settings.Document
import Typeahead.Settings.Environment

/-!
Settings made of layers. A layer holds the fields that one place gives, such as a document or the
environment, and leaves the others to what is below. What is read from a document is its layer on
the defaults, and the variables of the environment are a layer on what was there before, if all of
them can be read.
-/
namespace Typeahead

/-! ## What a document gives -/

/-- The value that a record gives for one of its fields. -/
def Data.given? (dialect : Dialect) (names : List String) (name : String) (d : Data) : Option Data :=
  (dialect.fields? names 0 d).bind fun fs => fs.given.lookup name.toList

theorem Data.given?_eq {dialect : Dialect} {names : List String} {d : Data} {fs : Fields}
    (h : dialect.fields? names 0 d = some fs) (name : String) :
    d.given? dialect names name = fs.given.lookup name.toList := by
  unfold Data.given?
  rw [h, Option.bind_some]

namespace Fields

variable {α : Type} {fs : Fields} {name : String} {decode : Data → Option α} {otherwise a : α}

/-- What holds of a field that is left out and of each value that it may give holds of the field as
read. -/
@[elab_as_elim]
theorem read_induction {motive : Option Data → α → Prop}
    (h : fs.read name decode (some otherwise) = some a) (absent : motive none otherwise)
    (given : ∀ d, decode d = some a → motive (some d) a) :
    motive (fs.given.lookup name.toList) a := by
  unfold read at h
  split at h
  · rename_i d hd
    rw [hd]
    exact given d h
  · rename_i hnone
    obtain rfl := Option.some.inj h
    rw [hnone]
    exact absent

theorem eq_getD_of_read (h : fs.read name decode (some otherwise) = some a) :
    a = ((fs.given.lookup name.toList).bind decode).getD otherwise := by
  refine read_induction h rfl fun d hd => ?_
  rw [Option.bind_some, hd]
  rfl

end Fields

/-! ### Section by section -/

variable {dialect : Dialect} {home : Text} {d : Data}

namespace CompletionSettings

def given? (dialect : Dialect) : String → Data → Option Data :=
  Data.given? dialect ["max_results", "default_mode", "path_cache_ttl_secs"]

theorem eq_of_read {c : CompletionSettings} (h : read? dialect d = some c) :
    c =
      { maxResults := ((given? dialect "max_results" d).bind Data.toWord?).getD 50
        defaultMode := ((given? dialect "default_mode" d).bind (Mode.ofData? dialect)).getD .shell
        pathLifetime := ((given? dialect "path_cache_ttl_secs" d).bind Data.toWord?).getD 30 } := by
  unfold read? at h
  simp only [Option.bind_eq_bind, Option.bind_eq_some_iff, Option.some.injEq] at h
  obtain ⟨fs, hfs, maxResults, hresults, defaultMode, hmode, pathLifetime, hlifetime, rfl⟩ := h
  simp only [given?, Data.given?_eq hfs, Fields.eq_getD_of_read hresults,
    Fields.eq_getD_of_read hmode, Fields.eq_getD_of_read hlifetime]

end CompletionSettings

namespace MenuSettings

def given? (dialect : Dialect) : String → Data → Option Data :=
  Data.given? dialect ["max_visible", "value_width", "hide_cursor", "show_scroll_indicator"]

theorem eq_of_read {m : MenuSettings} (h : read? dialect d = some m) :
    m =
      { maxVisible := ((given? dialect "max_visible" d).bind Data.toWord?).getD 10
        valueWidth := ((given? dialect "value_width" d).bind Data.toWord?).getD 30
        hidesCursor := ((given? dialect "hide_cursor" d).bind Data.toBool?).getD true
        showsPosition :=
          ((given? dialect "show_scroll_indicator" d).bind Data.toBool?).getD true } := by
  unfold read? at h
  simp only [Option.bind_eq_bind, Option.bind_eq_some_iff, Option.some.injEq] at h
  obtain ⟨fs, hfs, maxVisible, hvisible, valueWidth, hwidth, hidesCursor, hcursor, showsPosition,
    hposition, rfl⟩ := h
  simp only [given?, Data.given?_eq hfs, Fields.eq_getD_of_read hvisible,
    Fields.eq_getD_of_read hwidth, Fields.eq_getD_of_read hcursor,
    Fields.eq_getD_of_read hposition]

end MenuSettings

namespace HistorySettings

def given? (dialect : Dialect) : String → Data → Option Data :=
  Data.given? dialect ["max_size", "max_age_days", "file_path"]

theorem eq_of_read {x : HistorySettings} (h : read? dialect home d = some x) :
    x =
      { maxSize := ((given? dialect "max_size" d).bind Data.toWord?).getD 1000
        maxAgeDays := ((given? dialect "max_age_days" d).bind Data.toWord?).getD 30
        file := ((given? dialect "file_path" d).bind Data.toText?).getD (defaultFile home) } := by
  unfold read? at h
  simp only [Option.bind_eq_bind, Option.bind_eq_some_iff, Option.some.injEq] at h
  obtain ⟨fs, hfs, maxSize, hsize, maxAgeDays, hage, file, hfile, rfl⟩ := h
  simp only [given?, Data.given?_eq hfs, Fields.eq_getD_of_read hsize, Fields.eq_getD_of_read hage,
    Fields.eq_getD_of_read hfile]

end HistorySettings

namespace DisplaySettings

def given? (dialect : Dialect) : String → Data → Option Data :=
  Data.given? dialect ["color_output", "syntax_highlighting"]

theorem eq_of_read {x : DisplaySettings} (h : read? dialect d = some x) :
    x =
      { color := ((given? dialect "color_output" d).bind Data.toBool?).getD true
        highlights := ((given? dialect "syntax_highlighting" d).bind Data.toBool?).getD true } := by
  unfold read? at h
  simp only [Option.bind_eq_bind, Option.bind_eq_some_iff, Option.some.injEq] at h
  obtain ⟨fs, hfs, color, hcolor, highlights, hhighlights, rfl⟩ := h
  simp only [given?, Data.given?_eq hfs, Fields.eq_getD_of_read hcolor,
    Fields.eq_getD_of_read hhighlights]

end DisplaySettings

namespace LoggingSettings

def given? (dialect : Dialect) : String → Data → Option Data :=
  Data.given? dialect ["level", "timestamps"]

theorem eq_of_read {l : LoggingSettings} (h : read? dialect d = some l) :
    l =
      { level := ((given? dialect "level" d).bind (LogLevel.read? dialect)).getD .warn
        timestamps := ((given? dialect "timestamps" d).bind Data.toBool?).getD false } := by
  unfold read? at h
  simp only [Option.bind_eq_bind, Option.bind_eq_some_iff, Option.some.injEq] at h
  obtain ⟨fs, hfs, level, hlevel, timestamps, htimestamps, rfl⟩ := h
  simp only [given?, Data.given?_eq hfs, Fields.eq_getD_of_read hlevel,
    Fields.eq_getD_of_read htimestamps]

end LoggingSettings

namespace Settings

/-! ## Layers -/

/-- The fields that one place gives. -/
structure Layer where
  maxResults : Option Nat := none
  defaultMode : Option Mode := none
  pathLifetime : Option Nat := none
  maxVisible : Option Nat := none
  valueWidth : Option Nat := none
  hidesCursor : Option Bool := none
  showsPosition : Option Bool := none
  maxSize : Option Nat := none
  maxAgeDays : Option Nat := none
  historyFile : Option Text := none
  color : Option Bool := none
  highlights : Option Bool := none
  level : Option LogLevel := none
  timestamps : Option Bool := none

namespace Layer

/-- Each field as the layer gives it, or else as it is below. -/
def onto (l : Layer) (s : Settings) : Settings where
  completion :=
    { maxResults := l.maxResults.getD s.completion.maxResults
      defaultMode := l.defaultMode.getD s.completion.defaultMode
      pathLifetime := l.pathLifetime.getD s.completion.pathLifetime }
  menu :=
    { maxVisible := l.maxVisible.getD s.menu.maxVisible
      valueWidth := l.valueWidth.getD s.menu.valueWidth
      hidesCursor := l.hidesCursor.getD s.menu.hidesCursor
      showsPosition := l.showsPosition.getD s.menu.showsPosition }
  history :=
    { maxSize := l.maxSize.getD s.history.maxSize
      maxAgeDays := l.maxAgeDays.getD s.history.maxAgeDays
      file := l.historyFile.getD s.history.file }
  display :=
    { color := l.color.getD s.display.color
      highlights := l.highlights.getD s.display.highlights }
  logging :=
    { level := l.level.getD s.logging.level
      timestamps := l.timestamps.getD s.logging.timestamps }

/-- A layer that gives nothing changes nothing. -/
theorem empty_onto (s : Settings) : onto {} s = s := rfl

/-- The layer that a document gives. A section that it leaves out gives nothing. -/
def ofData (dialect : Dialect) (d : Data) : Layer :=
  let part := d.given? dialect ["completion", "menu", "history", "display", "logging"]
  let completion name := (part "completion").bind (CompletionSettings.given? dialect name)
  let menu name := (part "menu").bind (MenuSettings.given? dialect name)
  let history name := (part "history").bind (HistorySettings.given? dialect name)
  let display name := (part "display").bind (DisplaySettings.given? dialect name)
  let logging name := (part "logging").bind (LoggingSettings.given? dialect name)
  { maxResults := (completion "max_results").bind Data.toWord?
    defaultMode := (completion "default_mode").bind (Mode.ofData? dialect)
    pathLifetime := (completion "path_cache_ttl_secs").bind Data.toWord?
    maxVisible := (menu "max_visible").bind Data.toWord?
    valueWidth := (menu "value_width").bind Data.toWord?
    hidesCursor := (menu "hide_cursor").bind Data.toBool?
    showsPosition := (menu "show_scroll_indicator").bind Data.toBool?
    maxSize := (history "max_size").bind Data.toWord?
    maxAgeDays := (history "max_age_days").bind Data.toWord?
    historyFile := (history "file_path").bind Data.toText?
    color := (display "color_output").bind Data.toBool?
    highlights := (display "syntax_highlighting").bind Data.toBool?
    level := (logging "level").bind (LogLevel.read? dialect)
    timestamps := (logging "timestamps").bind Data.toBool? }

end Layer

/-- What is read from a document is its layer on the defaults. -/
theorem eq_onto_of_ofData {s : Settings} (h : ofData? dialect home d = some s) :
    s = (Layer.ofData dialect d).onto (default home) := by
  unfold ofData? at h
  simp only [Option.bind_eq_bind, Option.bind_eq_some_iff, Option.some.injEq] at h
  obtain ⟨fs, hfs, completion, hcompletion, menu, hmenu, history, hhistory, display, hdisplay,
    logging, hlogging, rfl⟩ := h
  unfold Layer.onto Layer.ofData
  simp only [Data.given?_eq hfs]
  -- A section that is left out has its defaults, and so has each of its fields.
  congr 1
  · exact Fields.read_induction hcompletion rfl fun _ => CompletionSettings.eq_of_read
  · exact Fields.read_induction hmenu rfl fun _ => MenuSettings.eq_of_read
  · exact Fields.read_induction hhistory rfl fun _ => HistorySettings.eq_of_read
  · exact Fields.read_induction hdisplay rfl fun _ => DisplaySettings.eq_of_read
  · exact Fields.read_induction hlogging rfl fun _ => LoggingSettings.eq_of_read

end Settings

/-! ## What the environment gives -/

namespace Environment

/-- The layer of the variables. -/
def layer (env : Environment) : Settings.Layer where
  maxResults := env.maxResults.bind fun t => readWord? (Text.trim t)
  defaultMode := env.mode.bind fun t => (Mode.read t).toOption
  maxVisible := env.menuMaxVisible.bind fun t => readWord? (Text.trim t)
  historyFile := env.historyFile
  color := if env.noColor then some false else none

/-- A variable is set to what cannot be read. -/
inductive IsMalformed (env : Environment) : Prop
  | maxResults {t : Text} (set : env.maxResults = some t) (h : readWord? (Text.trim t) = none)
  | mode {t word : Text} (set : env.mode = some t) (h : Mode.read t = .error word)
  | menuMaxVisible {t : Text} (set : env.menuMaxVisible = some t)
      (h : readWord? (Text.trim t) = none)

variable {env : Environment} {s s' : Settings}

/-! ### Change by change -/

/-- If all changes were made, each of them could be made. -/
theorem ok_of_applyChanges {cs : List Change} (h : applyChanges s cs = (s', none)) :
    ∀ c ∈ cs, ∃ before after, c before = .ok after := by
  induction cs generalizing s with
  | nil => simp
  | cons c cs ih =>
    unfold applyChanges at h
    split at h
    · rename_i after hc
      exact List.forall_mem_cons.2 ⟨⟨s, after, hc⟩, ih h⟩
    · cases h

/-- A change that was made could be read, if its variable is set. -/
theorem exists_ok_of_change {α : Type} {value : Option Text}
    {read : Text → Except SettingsError α} {set : Settings → α → Settings} (h : change value read set s = .ok s') {t : Text}
    (ht : value = some t) : ∃ a, read t = .ok a := by
  subst ht
  unfold change at h
  dsimp only at h
  cases hread : read t with
  | ok a => exact ⟨a, rfl⟩
  | error e =>
    rw [hread] at h
    cases h

/-- A change that can be read, or whose variable is not set, is made. -/
theorem change_eq_ok {α : Type} {value : Option Text} {read : Text → Except SettingsError α}
    (set : Settings → α → Settings) (h : ∀ t, value = some t → ∃ a, read t = .ok a)
    (s : Settings) :
    change value read set s =
      .ok ((value.bind fun t => (read t).toOption).elim s (set s)) := by
  unfold change
  cases value with
  | none => rfl
  | some t =>
    obtain ⟨a, ha⟩ := h t rfl
    dsimp only
    rw [Option.bind_some, ha]
    rfl

theorem toOption_word (field : String) (t : Text) :
    (word field t).toOption = readWord? (Text.trim t) := by
  unfold word
  cases readWord? (Text.trim t) <;> rfl

theorem toOption_modeOf (field : String) (t : Text) :
    (modeOf field t).toOption = (Mode.read t).toOption := by
  unfold modeOf
  cases Mode.read t <;> rfl

theorem exists_ok_word_iff {field : String} {t : Text} :
    (∃ n, word field t = .ok n) ↔ readWord? (Text.trim t) ≠ none := by
  unfold word
  cases readWord? (Text.trim t) with
  | none => exact iff_of_false (fun ⟨_, h⟩ => by cases h) (fun h => h rfl)
  | some n => exact iff_of_true ⟨n, rfl⟩ (Option.some_ne_none n)

theorem exists_ok_modeOf_iff {field : String} {t : Text} :
    (∃ mode, modeOf field t = .ok mode) ↔ ∀ word, Mode.read t ≠ .error word := by
  unfold modeOf
  cases Mode.read t with
  | ok mode => exact iff_of_true ⟨mode, rfl⟩ (fun _ h => by cases h)
  | error word => exact iff_of_false (fun ⟨_, h⟩ => by cases h) (fun h => h word rfl)

/-! ### All changes -/

theorem not_isMalformed_of_apply (h : env.apply s = (s', none)) : ¬env.IsMalformed := by
  have hchanges := ok_of_applyChanges h
  intro hmalformed
  cases hmalformed with
  | maxResults hset hbad =>
    obtain ⟨_, _, hok⟩ := hchanges _ List.mem_cons_self
    exact exists_ok_word_iff.1 (exists_ok_of_change hok hset) hbad
  | mode hset hbad =>
    obtain ⟨_, _, hok⟩ := hchanges _ (List.mem_cons_of_mem _ List.mem_cons_self)
    exact exists_ok_modeOf_iff.1 (exists_ok_of_change hok hset) _ hbad
  | menuMaxVisible hset hbad =>
    obtain ⟨_, _, hok⟩ := hchanges _
      (List.mem_cons_of_mem _ (List.mem_cons_of_mem _ List.mem_cons_self))
    exact exists_ok_word_iff.1 (exists_ok_of_change hok hset) hbad

/-- Variables that can be read are laid on the settings. -/
theorem apply_eq_onto (h : ¬env.IsMalformed) (s : Settings) :
    env.apply s = (env.layer.onto s, none) := by
  have hresults : ∀ t, env.maxResults = some t → ∃ n, word "completion.max_results" t = .ok n :=
    fun t ht => exists_ok_word_iff.2 fun hnone => h (.maxResults ht hnone)
  have hmode : ∀ t, env.mode = some t → ∃ mode, modeOf "completion.default_mode" t = .ok mode :=
    fun t ht => exists_ok_modeOf_iff.2 fun word hread => h (.mode ht hread)
  have hvisible : ∀ t, env.menuMaxVisible = some t → ∃ n, word "menu.max_visible" t = .ok n :=
    fun t ht => exists_ok_word_iff.2 fun hnone => h (.menuMaxVisible ht hnone)
  have hfile : ∀ t, env.historyFile = some t → ∃ file, Except.ok (ε := SettingsError) t = .ok file :=
    fun t _ => ⟨t, rfl⟩
  unfold apply changes
  simp only [applyChanges, change_eq_ok _ hresults, change_eq_ok _ hmode, change_eq_ok _ hvisible,
    change_eq_ok _ hfile, toOption_word, toOption_modeOf]
  unfold layer
  generalize (env.maxResults.bind fun t => readWord? (Text.trim t)) = maxResults
  generalize (env.mode.bind fun t => (Mode.read t).toOption) = mode
  generalize (env.menuMaxVisible.bind fun t => readWord? (Text.trim t)) = maxVisible
  cases env.noColor <;> cases maxResults <;> cases mode <;> cases maxVisible <;>
    cases env.historyFile <;> rfl

/-- A variable that cannot be read stops the others. -/
theorem exists_error_of_apply (h : env.IsMalformed) (s : Settings) :
    ∃ s' e, env.apply s = (s', some e) := by
  cases happly : env.apply s with
  | mk s' error =>
    cases error with
    | none => exact absurd h (not_isMalformed_of_apply happly)
    | some e => exact ⟨s', e, rfl⟩

end Environment

end Typeahead
