import Typeahead.Proofs.Settings.Field
import Typeahead.Proofs.Settings.Precedence

/-!
What becomes of the environment where the file is rejected. The defaults then take the place of the
file and the environment together, so that a variable that could be read is lost with a number of
the file that it has nothing to do with. The arguments are applied afterwards and are not lost.
-/
namespace Typeahead

open Settings (Field Layer IsUnusable fileLayer defaultPath)

/-- No variable gives zero for a number that must not be zero. -/
def Environment.IsAcceptable (env : Environment) : Prop :=
  ∀ f ∈ Field.positives, env.layer.value? f ≠ some (.whole 0)

instance (env : Environment) : Decidable env.IsAcceptable :=
  inferInstanceAs (Decidable (∀ f ∈ Field.positives, env.layer.value? f ≠ some (.whole 0)))

namespace Command

/-! ## Rejected files -/

namespace Host

variable {h : Host} {args : Arguments}

/-- The layer of the settings file of a run. -/
def file (h : Host) (args : Arguments) : Layer :=
  fileLayer h.disk (args.configFile.getD (defaultPath h.home))

/-- The file gives zero for a number that must not be zero, and the environment does not replace
it. -/
def Rejects (h : Host) (args : Arguments) : Prop :=
  ∃ f ∈ Field.positives, h.environment.layer.value? f = none ∧
    (h.file args).value? f = some (.whole 0)

/-- Where there are settings, the file could be used and the variables could be read. -/
theorem usable_of_settings (hsome : (h.settings args).toOption.isSome = true) :
    ¬IsUnusable h.disk h.home args.configFile ∧ ¬h.environment.IsMalformed := by
  rw [← not_or]
  intro hbad
  obtain ⟨e, he⟩ := exists_error_of_settings hbad
  rw [he] at hsome
  cases hsome

/-- No default is zero that must not be. -/
theorem value_default_ne_zero (home : Text) :
    ∀ f ∈ Field.positives, f.value (Settings.default home) ≠ .whole 0 :=
  Settings.isValid_iff.1 (isValid_default home)

theorem value_merged (f : Field) :
    f.value (h.merged args) =
      (h.environment.layer.value? f).getD
        (((h.file args).value? f).getD (f.value (Settings.default h.home))) := by
  unfold merged
  rw [Layer.value_onto, Layer.value_onto]
  rfl

/-- With acceptable variables the file and the environment are valid together unless the file is
rejected. -/
theorem isValid_merged_iff (henv : h.environment.IsAcceptable) :
    (h.merged args).isValid = true ↔ ¬h.Rejects args := by
  rw [Settings.isValid_iff]
  constructor
  · rintro hvalid ⟨f, hf, hnone, hzero⟩
    apply hvalid f hf
    rw [value_merged, hnone, hzero]
    rfl
  · intro hnot f hf hzero
    rw [value_merged] at hzero
    cases hgiven : h.environment.layer.value? f with
    | some v =>
      rw [hgiven, Option.getD_some] at hzero
      exact henv f hf (hzero ▸ hgiven)
    | none =>
      rw [hgiven, Option.getD_none] at hzero
      cases hfile : (h.file args).value? f with
      | some v =>
        rw [hfile, Option.getD_some] at hzero
        exact hnot ⟨f, hf, hgiven, hzero ▸ hfile⟩
      | none =>
        rw [hfile, Option.getD_none] at hzero
        exact value_default_ne_zero h.home f hf hzero

end Host

/-- With a file that can be used and variables that can be read and are acceptable, a run has
settings. A field that a variable gives and no argument has the value of the variable, unless the
file is rejected: then it has its default. -/
theorem the_environment_wins_unless_the_file_is_rejected (h : Host) (args : Arguments)
    (hfile : ¬IsUnusable h.disk h.home args.configFile) (henv : ¬h.environment.IsMalformed)
    (hvalid : h.environment.IsAcceptable) :
    ∃ s output, h.settings args = .ok (s, output) ∧
      ∀ f v, h.environment.layer.value? f = some v → args.layer.value? f = none →
        (¬h.Rejects args → f.value s = v) ∧
        (h.Rejects args → f.value s = f.value (Settings.default h.home)) := by
  obtain ⟨output, hok⟩ := Host.settings_eq_ok hfile henv
  refine ⟨_, output, hok, fun f v hgiven hargs => ?_⟩
  rw [Layer.value_onto, hargs, Option.getD_none]
  constructor
  · intro hnot
    rw [if_pos ((Host.isValid_merged_iff hvalid).2 hnot), Host.value_merged, hgiven,
      Option.getD_some]
  · intro hrejects
    rw [if_neg fun hmerged => (Host.isValid_merged_iff hvalid).1 hmerged hrejects]

/-- The file gives no results at all, and a variable gives seven: the file is not rejected, and the
colors stay turned off. -/
theorem a_variable_repairs_the_file :
    let file : Node := .file (.text "[completion]\nmax_results = 0\n".toList) 0o644
    let h : Host :=
      { disk := ⟨.directory (.cons (.text "own.toml".toList) file .nil), []⟩
        home := "/home".toList, directory := "/".toList, searchPath := []
        environment := { maxResults := some "7".toList, noColor := true }
        now := 0 }
    let args : Arguments := { configFile := some "own.toml".toList }
    ∃ s output, h.settings args = .ok (s, output) ∧
      Field.maxResults.value s = .whole 7 ∧ Field.color.value s = .boolean false := by
  intro file h args
  have hsome : (h.settings args).toOption.isSome = true := by decide +kernel
  obtain ⟨hfile, henv⟩ := Host.usable_of_settings hsome
  have hvalid : h.environment.IsAcceptable := by decide +kernel
  obtain ⟨s, output, hok, hvalue⟩ :=
    the_environment_wins_unless_the_file_is_rejected h args hfile henv hvalid
  have hnot : ¬h.Rejects args := (Host.isValid_merged_iff hvalid).1 (by decide +kernel)
  exact ⟨s, output, hok, (hvalue .maxResults (.whole 7) (by decide +kernel) rfl).1 hnot,
    (hvalue .color (.boolean false) rfl rfl).1 hnot⟩

/-- Colors are turned off by a variable, and the file gives a column no width: then there are
colors. -/
theorem colors_return_with_a_column_of_no_width :
    let file : Node := .file (.text "[menu]\nvalue_width = 0\n".toList) 0o644
    let h : Host :=
      { disk := ⟨.directory (.cons (.text "c.toml".toList) file .nil), []⟩
        home := "/home".toList, directory := "/".toList, searchPath := []
        environment := { noColor := true }
        now := 0 }
    let args : Arguments := { configFile := some "c.toml".toList }
    ¬IsUnusable h.disk h.home args.configFile ∧ ¬h.environment.IsMalformed ∧
      h.environment.IsAcceptable ∧ h.environment.layer.value? .color = some (.boolean false) ∧
      args.layer.value? .color = none ∧
      ∃ s output, h.settings args = .ok (s, output) ∧ Field.color.value s = .boolean true := by
  intro file h args
  have hsome : (h.settings args).toOption.isSome = true := by decide +kernel
  have hcolor : (h.settings args).toOption.map (fun result => Field.color.value result.1) =
      some (.boolean true) := by decide +kernel
  obtain ⟨hfile, henv⟩ := Host.usable_of_settings hsome
  refine ⟨hfile, henv, by decide +kernel, rfl, rfl, ?_⟩
  cases hresult : h.settings args with
  | error e =>
    rw [hresult] at hsome
    cases hsome
  | ok result =>
    rw [hresult] at hcolor
    exact ⟨result.1, result.2, rfl, Option.some.inj hcolor⟩

end Command

end Typeahead
