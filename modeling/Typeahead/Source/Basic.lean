import Typeahead.Candidate
import Typeahead.Failure
import Typeahead.Line.Snapshot

/-!
Sources of candidates, and the registry that keeps them in order under distinct names.
-/
namespace Typeahead

/-! ## Sources and their answers -/

/-- What a source answers when it is asked. -/
inductive Answer where
  | candidates (cs : List Candidate)
  | failed (e : Failure)
  /-- The source broke down. -/
  | panicked

namespace Answer

/-- The candidates of an answer; a failure has none. -/
def toList : Answer → List Candidate
  | candidates cs => cs
  | failed _ | panicked => []

/-- The warning that an answer of the named source calls for. -/
def warning? (source : Text) : Answer → Option Text
  | candidates _ => none
  | failed e => some ("Completer '".toList ++ source ++ "' failed: ".toList ++ e.message)
  | panicked => some (SourceError.panicked source).message

/-- The answer of a computation that may fail. -/
def ofExcept : Except Failure (List Candidate) → Answer
  | .ok cs => candidates cs
  | .error e => failed e

end Answer

/-- A source of candidates over a world `σ`. Asking has two steps: `begin` says how long the source
will take, and `answer` gives what it found when that time is over. Both may change the world. -/
structure Source (σ : Type) where
  name : Text
  /-- Whether the source is to be asked at all. -/
  relevant : Snapshot → Bool
  /-- How many milliseconds the answer takes. Without a number it is given at once; with zero it is
  given in the same instant, after all else that is due. -/
  begin : Snapshot → σ → Option Nat × σ
  answer : Snapshot → σ → Answer × σ

/-! ## The registry -/

/-- The registered sources, in the order of registration. -/
structure Registry (σ : Type) where
  sources : List (Source σ) := []

namespace Registry

variable {σ : Type} (r : Registry σ)

def names : List Text := r.sources.map Source.name

def size : Nat := r.sources.length

/-- Whether a source of the given name is registered. -/
def has (name : Text) : Bool := r.sources.any (·.name = name)

/-- Adds a source, unless there is one of its name; tells whether it was added. -/
def register (s : Source σ) : Registry σ × Bool :=
  if r.has s.name then (r, false) else (⟨r.sources ++ [s]⟩, true)

/-- Removes the source of the given name; tells whether there was one. -/
def unregister (name : Text) : Registry σ × Bool :=
  (⟨r.sources.filter (·.name ≠ name)⟩, r.has name)

/-- The sources to ask about a snapshot. -/
def relevant (s : Snapshot) : List (Source σ) := r.sources.filter (·.relevant s)

/-- The registry of the given sources, registered one after another. -/
def ofList (sources : List (Source σ)) : Registry σ :=
  sources.foldl (fun r s => (r.register s).1) {}

theorem has_iff_mem_names (name : Text) : r.has name = true ↔ name ∈ r.names := by
  simp [has, names]

@[simp] theorem names_unregister (name : Text) :
    (r.unregister name).1.names = r.names.filter (· ≠ name) := by
  simp [unregister, names, List.filter_map, Function.comp_def]

end Registry

/-! ## Merging -/

/-- The answers of the sources in their order, ranked and cut to the limit. -/
def merge (limit : Option Nat) (answers : List Answer) : List Candidate :=
  let cs := ranked (answers.flatMap Answer.toList)
  match limit with
  | some n => cs.take n
  | none => cs

/-- Without a limit nothing that was answered is lost, and nothing is added. -/
theorem merge_none_perm (answers : List Answer) :
    (merge none answers).Perm (answers.flatMap Answer.toList) :=
  stableSort_perm _ _

theorem length_merge_le (n : Nat) (answers : List Answer) :
    (merge (some n) answers).length ≤ n := by
  simp only [merge, List.length_take]
  omega

end Typeahead
