import Typeahead.Proofs.Settings.Layer

/-!
The fields of the settings, each with the section and the name under which a document gives it.
-/
namespace Typeahead

theorem Mode.toList_name_inj {m m' : Mode} : m.name.toList = m'.name.toList ↔ m = m' := by
  cases m <;> cases m' <;> decide

theorem LogLevel.toList_name_inj {l l' : LogLevel} :
    l.name.toList = l'.name.toList ↔ l = l' := by
  cases l <;> cases l' <;> decide

namespace Settings

/-! ## Fields -/

/-- One field of the settings. -/
inductive Field where
  | maxResults
  | defaultMode
  | pathLifetime
  | maxVisible
  | valueWidth
  | hidesCursor
  | showsPosition
  | maxSize
  | maxAgeDays
  | historyFile
  | color
  | highlights
  | level
  | timestamps
  deriving DecidableEq, Repr

namespace Field

/-- The section of a field. -/
def part : Field → String
  | maxResults | defaultMode | pathLifetime => "completion"
  | maxVisible | valueWidth | hidesCursor | showsPosition => "menu"
  | maxSize | maxAgeDays | historyFile => "history"
  | color | highlights => "display"
  | level | timestamps => "logging"

/-- The name of a field in its section. -/
def key : Field → String
  | maxResults => "max_results"
  | defaultMode => "default_mode"
  | pathLifetime => "path_cache_ttl_secs"
  | maxVisible => "max_visible"
  | valueWidth => "value_width"
  | hidesCursor => "hide_cursor"
  | showsPosition => "show_scroll_indicator"
  | maxSize => "max_size"
  | maxAgeDays => "max_age_days"
  | historyFile => "file_path"
  | color => "color_output"
  | highlights => "syntax_highlighting"
  | level => "level"
  | timestamps => "timestamps"

/-- The value of a field, as a document gives it. -/
def value (f : Field) (s : Settings) : Toml.Scalar :=
  match f with
  | maxResults => .whole s.completion.maxResults
  | defaultMode => .text s.completion.defaultMode.name.toList
  | pathLifetime => .whole s.completion.pathLifetime
  | maxVisible => .whole s.menu.maxVisible
  | valueWidth => .whole s.menu.valueWidth
  | hidesCursor => .boolean s.menu.hidesCursor
  | showsPosition => .boolean s.menu.showsPosition
  | maxSize => .whole s.history.maxSize
  | maxAgeDays => .whole s.history.maxAgeDays
  | historyFile => .text s.history.file
  | color => .boolean s.display.color
  | highlights => .boolean s.display.highlights
  | level => .text s.logging.level.name.toList
  | timestamps => .boolean s.logging.timestamps

/-- The numbers that must not be zero. -/
def positives : List Field := [maxResults, maxVisible, valueWidth, maxSize]

def all : List Field :=
  [ maxResults, defaultMode, pathLifetime, maxVisible, valueWidth, hidesCursor, showsPosition,
    maxSize, maxAgeDays, historyFile, color, highlights, level, timestamps ]

theorem mem_all (f : Field) : f ∈ all := by
  cases f <;> decide

end Field

/-! ## Fields and settings -/

variable {s s' : Settings}

/-- A document of all settings gives just the fields. -/
theorem flatMap_sections (s : Settings) :
    (s.sections.flatMap fun part => part.entries.map fun entry => (part.name, entry.1, entry.2)) =
      Field.all.map fun f => (f.part.toList, f.key.toList, f.value s) := rfl

/-- Settings are their fields. -/
theorem ext_value (h : ∀ f : Field, f.value s = f.value s') : s = s' := by
  have hall : ∀ f ∈ Field.all, f.value s = f.value s' := fun f _ => h f
  obtain ⟨⟨_, _, _⟩, ⟨_, _, _, _⟩, ⟨_, _, _⟩, ⟨_, _⟩, ⟨_, _⟩⟩ := s
  obtain ⟨⟨_, _, _⟩, ⟨_, _, _, _⟩, ⟨_, _, _⟩, ⟨_, _⟩, ⟨_, _⟩⟩ := s'
  simpa [Field.all, Field.value, Mode.toList_name_inj, LogLevel.toList_name_inj, and_assoc]
    using hall

/-- Settings are valid if no number is zero that must not be. -/
theorem isValid_iff : s.isValid = true ↔ ∀ f ∈ Field.positives, f.value s ≠ .whole 0 := by
  simp [isValid, invalid?, positives, Field.positives, Field.value]

/-! ## Fields and layers -/

/-- The value that a layer gives for a field. -/
def Layer.value? (l : Layer) : Field → Option Toml.Scalar
  | .maxResults => l.maxResults.map .whole
  | .defaultMode => l.defaultMode.map fun mode => .text mode.name.toList
  | .pathLifetime => l.pathLifetime.map .whole
  | .maxVisible => l.maxVisible.map .whole
  | .valueWidth => l.valueWidth.map .whole
  | .hidesCursor => l.hidesCursor.map .boolean
  | .showsPosition => l.showsPosition.map .boolean
  | .maxSize => l.maxSize.map .whole
  | .maxAgeDays => l.maxAgeDays.map .whole
  | .historyFile => l.historyFile.map .text
  | .color => l.color.map .boolean
  | .highlights => l.highlights.map .boolean
  | .level => l.level.map fun level => .text level.name.toList
  | .timestamps => l.timestamps.map .boolean

/-- A field is as the layer gives it, or else as it is below. -/
theorem Layer.value_onto (l : Layer) (s : Settings) (f : Field) :
    f.value (l.onto s) = (l.value? f).getD (f.value s) := by
  cases f with
  | defaultMode =>
    exact (Option.getD_map (fun mode : Mode => Toml.Scalar.text mode.name.toList) _ _).symm
  | level =>
    exact (Option.getD_map (fun level : LogLevel => Toml.Scalar.text level.name.toList) _ _).symm
  | _ => exact (Option.getD_map _ _ _).symm

end Settings

end Typeahead
