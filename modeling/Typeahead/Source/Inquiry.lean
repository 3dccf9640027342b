import Typeahead.Source.Basic

/-!
Asking several sources at once. Each of them answers in its own time; what they found is put
together in the order of registration, whatever the order in which they answered.
-/
namespace Typeahead

/-- Runs an action, which changes the world and may warn, over the elements of a list in order. -/
def sweep {σ α β : Type} (act : α → σ → β × σ × List Text) : List α → σ → List β × σ × List Text
  | [], world => ([], world, [])
  | a :: as, world =>
    let (b, world, warnings) := act a world
    let (bs, world, more) := sweep act as world
    (b :: bs, world, warnings ++ more)

/-! ## One source -/

/-- A source that is being asked. -/
structure Question (σ : Type) where
  source : Source σ
  /-- The instant at which the answer is there. -/
  due : Nat
  answer : Option Answer := none

namespace Question

variable {σ : Type}

def isOpen (q : Question σ) : Bool := q.answer.isNone

/-- Takes the answer of the source, together with the warning that it calls for. -/
def take (q : Question σ) (s : Snapshot) (world : σ) : Question σ × σ × List Text :=
  let (answer, world) := q.source.answer s world
  ({ q with answer := some answer }, world, (answer.warning? q.source.name).toList)

/-- Asks a source. One that answers at once has its answer taken. -/
def ask (source : Source σ) (s : Snapshot) (now : Nat) (world : σ) :
    Question σ × σ × List Text :=
  match source.begin s world with
  | (none, world) => Question.take ⟨source, now, none⟩ s world
  | (some delay, world) => (⟨source, now + delay, none⟩, world, [])

/-- Takes the answer if it is due and has not been taken. -/
def poll (q : Question σ) (s : Snapshot) (now : Nat) (world : σ) : Question σ × σ × List Text :=
  if q.isOpen && q.due ≤ now then q.take s world else (q, world, [])

end Question

/-! ## All sources -/

/-- The sources asked about one snapshot, in the order of registration. -/
structure Inquiry (σ : Type) where
  snapshot : Snapshot
  questions : List (Question σ)

namespace Inquiry

variable {σ : Type}

/-- Asks the relevant sources, one after another in the same instant. -/
def start (r : Registry σ) (s : Snapshot) (now : Nat) (world : σ) :
    Inquiry σ × σ × List Text :=
  let (questions, world, warnings) :=
    sweep (fun source => Question.ask source s now) (r.relevant s) world
  (⟨s, questions⟩, world, warnings)

/-- Takes the answers that are due. -/
def advance (i : Inquiry σ) (now : Nat) (world : σ) : Inquiry σ × σ × List Text :=
  let (questions, world, warnings) :=
    sweep (fun q : Question σ => q.poll i.snapshot now) i.questions world
  ({ i with questions }, world, warnings)

/-- The earliest instant at which an answer is due, if any is still open. -/
def nextDue? (i : Inquiry σ) : Option Nat :=
  ((i.questions.filter Question.isOpen).map Question.due).min?

def isSettled (i : Inquiry σ) : Bool := i.questions.all fun q => !q.isOpen

/-- The answers taken so far, in the order of registration. -/
def answers (i : Inquiry σ) : List Answer := i.questions.filterMap Question.answer

/-- What the sources found, once all have answered. -/
def result? (i : Inquiry σ) (limit : Option Nat) : Option (List Candidate) :=
  if i.isSettled then some (merge limit i.answers) else none

/-- The end of an inquiry: what was found, when the last answer came, the warnings in the order in
which they arose, and the world after it. -/
structure Outcome (σ : Type) where
  found : List Candidate
  instant : Nat
  warnings : List Text
  world : σ

/-- Waits for one answer after another until all are there, or for `rounds` answers. -/
def wait (limit : Option Nat) : (rounds : Nat) → Inquiry σ → (now : Nat) → σ → Outcome σ
  | 0, i, now, world => ⟨merge limit i.answers, now, [], world⟩
  | rounds + 1, i, now, world =>
    match i.nextDue? with
    | none => ⟨merge limit i.answers, now, [], world⟩
    | some due =>
      -- An answer that is overdue takes no further time.
      let now := max now due
      let (i, world, warnings) := i.advance now world
      let outcome := wait limit rounds i now world
      { outcome with warnings := warnings ++ outcome.warnings }

end Inquiry

/-- Asks all relevant sources about a snapshot and waits for their answers. -/
def Registry.query {σ : Type} (r : Registry σ) (s : Snapshot) (limit : Option Nat) (world : σ) :
    Inquiry.Outcome σ :=
  let (i, world, warnings) := Inquiry.start r s 0 world
  let outcome := i.wait limit i.questions.length 0 world
  { outcome with warnings := warnings ++ outcome.warnings }

end Typeahead
