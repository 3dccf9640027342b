import Typeahead.Data.Toml.Reader
import Typeahead.Data.Toml.Writer
import Typeahead.Settings.Basic

/-!
Settings in files. A file gives the fields that differ from the defaults; what it gives besides is
passed over.
-/
namespace Typeahead

namespace LogLevel

def read? (dialect : Dialect) : Data → Option LogLevel := dialect.choice? ofName?

end LogLevel

namespace Mode

def ofData? (dialect : Dialect) : Data → Option Mode := dialect.choice? ofName?

end Mode

namespace CompletionSettings

def read? (dialect : Dialect) (d : Data) : Option CompletionSettings := do
  let fs ← dialect.fields? ["max_results", "default_mode", "path_cache_ttl_secs"] 0 d
  let defaults : CompletionSettings := {}
  some
    { maxResults := ← fs.read "max_results" Data.toWord? defaults.maxResults
      defaultMode := ← fs.read "default_mode" (Mode.ofData? dialect) defaults.defaultMode
      pathLifetime := ← fs.read "path_cache_ttl_secs" Data.toWord? defaults.pathLifetime }

def toSection (c : CompletionSettings) : Toml.Section where
  name := "completion".toList
  entries :=
    [ ("max_results".toList, .whole c.maxResults),
      ("default_mode".toList, .text c.defaultMode.name.toList),
      ("path_cache_ttl_secs".toList, .whole c.pathLifetime) ]

end CompletionSettings

namespace MenuSettings

def read? (dialect : Dialect) (d : Data) : Option MenuSettings := do
  let fs ← dialect.fields?
    ["max_visible", "value_width", "hide_cursor", "show_scroll_indicator"] 0 d
  let defaults : MenuSettings := {}
  some
    { maxVisible := ← fs.read "max_visible" Data.toWord? defaults.maxVisible
      valueWidth := ← fs.read "value_width" Data.toWord? defaults.valueWidth
      hidesCursor := ← fs.read "hide_cursor" Data.toBool? defaults.hidesCursor
      showsPosition := ← fs.read "show_scroll_indicator" Data.toBool? defaults.showsPosition }

def toSection (m : MenuSettings) : Toml.Section where
  name := "menu".toList
  entries :=
    [ ("max_visible".toList, .whole m.maxVisible),
      ("value_width".toList, .whole m.valueWidth),
      ("hide_cursor".toList, .boolean m.hidesCursor),
      ("show_scroll_indicator".toList, .boolean m.showsPosition) ]

end MenuSettings

namespace HistorySettings

def read? (dialect : Dialect) (home : Text) (d : Data) : Option HistorySettings := do
  let fs ← dialect.fields? ["max_size", "max_age_days", "file_path"] 0 d
  let defaults : HistorySettings := { file := defaultFile home }
  some
    { maxSize := ← fs.read "max_size" Data.toWord? defaults.maxSize
      maxAgeDays := ← fs.read "max_age_days" Data.toWord? defaults.maxAgeDays
      file := ← fs.read "file_path" Data.toText? defaults.file }

def toSection (h : HistorySettings) : Toml.Section where
  name := "history".toList
  entries :=
    [ ("max_size".toList, .whole h.maxSize),
      ("max_age_days".toList, .whole h.maxAgeDays),
      ("file_path".toList, .text h.file) ]

end HistorySettings

namespace DisplaySettings

def read? (dialect : Dialect) (d : Data) : Option DisplaySettings := do
  let fs ← dialect.fields? ["color_output", "syntax_highlighting"] 0 d
  let defaults : DisplaySettings := {}
  some
    { color := ← fs.read "color_output" Data.toBool? defaults.color
      highlights := ← fs.read "syntax_highlighting" Data.toBool? defaults.highlights }

def toSection (d : DisplaySettings) : Toml.Section where
  name := "display".toList
  entries :=
    [ ("color_output".toList, .boolean d.color),
      ("syntax_highlighting".toList, .boolean d.highlights) ]

end DisplaySettings

namespace LoggingSettings

def read? (dialect : Dialect) (d : Data) : Option LoggingSettings := do
  let fs ← dialect.fields? ["level", "timestamps"] 0 d
  let defaults : LoggingSettings := {}
  some
    { level := ← fs.read "level" (LogLevel.read? dialect) defaults.level
      timestamps := ← fs.read "timestamps" Data.toBool? defaults.timestamps }

def toSection (l : LoggingSettings) : Toml.Section where
  name := "logging".toList
  entries :=
    [ ("level".toList, .text l.level.name.toList),
      ("timestamps".toList, .boolean l.timestamps) ]

end LoggingSettings

namespace Settings

/-! ## All settings -/

/-- Reads settings from a value; what is not given has its default. -/
def ofData? (dialect : Dialect) (home : Text) (d : Data) : Option Settings := do
  let fs ← dialect.fields? ["completion", "menu", "history", "display", "logging"] 0 d
  let defaults := default home
  some
    { completion :=
        ← fs.read "completion" (CompletionSettings.read? dialect) defaults.completion
      menu := ← fs.read "menu" (MenuSettings.read? dialect) defaults.menu
      history := ← fs.read "history" (HistorySettings.read? dialect home) defaults.history
      display := ← fs.read "display" (DisplaySettings.read? dialect) defaults.display
      logging := ← fs.read "logging" (LoggingSettings.read? dialect) defaults.logging }

/-- All settings, section by section. -/
def sections (s : Settings) : List Toml.Section :=
  [ s.completion.toSection, s.menu.toSection, s.history.toSection, s.display.toSection,
    s.logging.toSection ]

/-- The settings as a document. -/
def toToml (s : Settings) : Text := Toml.write s.sections

/-- The settings as one value. -/
def toData (s : Settings) : Data :=
  .record (s.sections.map fun part =>
    (part.name, .record (part.entries.map fun (key, value) => (key, value.toData))))

/-- Reads settings from a TOML document. -/
def ofToml (home : Text) (t : Text) : Except SettingsError Settings :=
  match (Toml.read? t).bind (ofData? Toml.dialect home) with
  | some s => .ok s
  | none => .error (.invalidFormat "the document does not hold settings".toList)

/-! ## Files -/

/-- Loads settings from a file. A file that was asked for has to be there; the default one may be
missing. -/
def load (d : Disk) (home : Text) (path : Option Text) : Except Failure Settings :=
  let read (p : Text) : Except Failure Settings :=
    match d.readText p with
    | .ok t => (ofToml home t).mapError .settings
    | .error e => .error (.ofDisk e)
  match path with
  -- A link that leads nowhere counts as a missing file.
  | some p => if d.pathExists p then read p else .error (.settings (.fileNotFound p))
  | none =>
    let p := defaultPath home
    if d.pathExists p then read p else .ok (default home)

/-- Writes settings to a file, and makes the directories above it that are missing. -/
def save (s : Settings) (d : Disk) (path : Text) : Except Failure Disk := do
  let d ←
    match Path.parent? path with
    | some parent => (d.makeDirectories parent).mapError .ofDisk
    | none => .ok d
  (d.write path (.text s.toToml)).mapError .ofDisk

end Settings

end Typeahead
