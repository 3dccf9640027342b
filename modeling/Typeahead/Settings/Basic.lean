import Typeahead.Decimal.Power
import Typeahead.Failure
import Typeahead.History.Basic
import Typeahead.Line.Mode
import Typeahead.Menu.Frame

/-!
The settings of the program: their sections with the defaults, and the conditions that they have to
meet.
-/
namespace Typeahead

/-! ## Sections -/

/-- What is written to the log. -/
inductive LogLevel where
  | error
  | warn
  | info
  | debug
  | trace
  deriving DecidableEq, Repr

namespace LogLevel

def all : List LogLevel := [error, warn, info, debug, trace]

/-- The name used in files. -/
def name : LogLevel → String
  | error => "error"
  | warn => "warn"
  | info => "info"
  | debug => "debug"
  | trace => "trace"

/-- The level with the given name. -/
def ofName? (n : String) : Option LogLevel := all.find? (·.name == n)

end LogLevel

structure CompletionSettings where
  /-- Most candidates in the menu. -/
  maxResults : Nat := 50
  defaultMode : Mode := .shell
  /-- For how many seconds a scan of the search path holds. -/
  pathLifetime : Nat := 30
  deriving DecidableEq, Repr

structure MenuSettings where
  /-- Most candidates shown at once. -/
  maxVisible : Nat := 10
  /-- Columns of a candidate's label. -/
  valueWidth : Nat := 30
  hidesCursor : Bool := true
  showsPosition : Bool := true
  deriving DecidableEq, Repr

structure HistorySettings where
  maxSize : Nat := 1000
  maxAgeDays : Nat := 30
  /-- The file that holds earlier commands. -/
  file : Text
  deriving DecidableEq, Repr

structure DisplaySettings where
  color : Bool := true
  /-- Whether the input line is highlighted. -/
  highlights : Bool := true
  deriving DecidableEq, Repr

structure LoggingSettings where
  level : LogLevel := .warn
  timestamps : Bool := false
  deriving DecidableEq, Repr

structure Settings where
  completion : CompletionSettings := {}
  menu : MenuSettings := {}
  history : HistorySettings
  display : DisplaySettings := {}
  logging : LoggingSettings := {}
  deriving DecidableEq, Repr

/-! ## Derived values -/

/-- The file of earlier commands unless told otherwise. -/
def HistorySettings.defaultFile (home : Text) : Text :=
  Path.join home ".promptline_history".toList

/-- The longest age in seconds, at most the largest 64-bit word. -/
def HistorySettings.maxAge (h : HistorySettings) : Nat :=
  min (h.maxAgeDays * (24 * 60 * 60)) (wordLimit - 1)

/-- The limits on the recorded commands. -/
def HistorySettings.limits (h : HistorySettings) : Limits := ⟨h.maxSize, h.maxAge⟩

/-- The layout of the menu. -/
def MenuSettings.painter (m : MenuSettings) : Painter where
  rowLimit := m.maxVisible
  labelWidth := m.valueWidth
  hidesCursor := m.hidesCursor
  showsPosition := m.showsPosition

namespace Settings

/-! ## Defaults and conditions -/

/-- The settings of someone who set nothing. -/
def default (home : Text) : Settings where
  history := { file := HistorySettings.defaultFile home }

/-- The settings file unless told otherwise. -/
def defaultPath (home : Text) : Text :=
  Path.join (Path.join home ".promptline".toList) "config.toml".toList

/-- The numbers that must not be zero, with their names. -/
def positives (s : Settings) : List (String × Nat) :=
  [ ("completion.max_results", s.completion.maxResults),
    ("menu.max_visible", s.menu.maxVisible),
    ("menu.value_width", s.menu.valueWidth),
    ("history.max_size", s.history.maxSize) ]

/-- The first number that is zero but must not be. -/
def invalid? (s : Settings) : Option SettingsError :=
  (s.positives.find? (·.2 = 0)).map fun (field, _) => .invalidValue field.toList ['0']

/-- Whether the settings can be used. -/
def isValid (s : Settings) : Bool := s.invalid?.isNone

end Settings

end Typeahead
