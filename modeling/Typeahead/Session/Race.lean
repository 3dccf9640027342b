import Typeahead.Session.Assistant

/-!
Things that happen to one session at overlapping times. Time passes in whole milliseconds, and only
while everything waits. What is due in the same instant goes on in the order of the list, each
until it has to wait.
-/
namespace Typeahead

/-! ## Happenings -/

/-- What happens to a session: an update, or something that takes no time and yields a result. -/
inductive Happening (ε ρ : Type) where
  | update (line : Text) (cursor : Nat) (mode : Mode)
  | momentary (run : Assistant ε → Assistant ε × ρ)

/-- How far a happening has got. -/
inductive Runner (ε ρ : Type) where
  /-- It begins at the given instant. -/
  | waiting (due : Nat) (h : Happening ε ρ)
  | updating (u : Update ε)
  | done (result : ρ)

namespace Runner

variable {ε ρ : Type}

/-- The result, once there is one. -/
def result? : Runner ε ρ → Option ρ
  | done result => some result
  | waiting _ _ | updating _ => none

/-- The instant at which it can go on. -/
def nextDue? : Runner ε ρ → Option Nat
  | waiting due _ => some due
  | updating u => u.inquiry.nextDue?
  | done _ => none

/-- The runner after a step of an update. The result is read as soon as the update has ended. -/
def ofStep (read : Assistant ε → UpdateOutcome → ρ)
    (step : Assistant ε × (UpdateOutcome ⊕ Update ε) × List Text) :
    Runner ε ρ × Assistant ε × List Text :=
  match step with
  | (a, .inl outcome, warnings) => (done (read a outcome), a, warnings)
  | (a, .inr u, warnings) => (updating u, a, warnings)

/-- Goes on as far as the instant allows. -/
def poll (read : Assistant ε → UpdateOutcome → ρ) (now : Nat) :
    Runner ε ρ → Assistant ε → Runner ε ρ × Assistant ε × List Text
  | done result, a => (done result, a, [])
  | updating u, a => ofStep read (a.continueUpdate u now)
  | waiting due h, a =>
    if now < due then (waiting due h, a, [])
    else
      match h with
      | .update line cursor mode => ofStep read (a.startUpdate line cursor mode now)
      | .momentary run =>
        let (a, result) := run a
        (done result, a, [])

/-- Lets time pass from one due instant to the next, for at most the given number of rounds. -/
def run (read : Assistant ε → UpdateOutcome → ρ) :
    (rounds : Nat) → List (Runner ε ρ) → (now : Nat) → Assistant ε →
      List (Runner ε ρ) × Assistant ε × List Text
  | 0, runners, _, a => (runners, a, [])
  | rounds + 1, runners, now, a =>
    match (runners.filterMap nextDue?).min? with
    | none => (runners, a, [])
    | some due =>
      let now := max now due
      let (runners, a, warnings) := sweep (poll read now) runners a
      let (runners, a, more) := run read rounds runners now a
      (runners, a, warnings ++ more)

end Runner

/-- Lets several things happen, each from its own instant on. The results come in the order of the
list, the warnings in the order in which they arose. Each round begins something or takes an
answer, which bounds their number. -/
def Assistant.race {ε ρ : Type} (a : Assistant ε) (read : Assistant ε → UpdateOutcome → ρ)
    (happenings : List (Nat × Happening ε ρ)) : List ρ × Assistant ε × List Text :=
  let runners := happenings.map fun (due, h) => Runner.waiting due h
  let rounds := runners.length * (a.registry.size + runners.length + 1)
  let (runners, a, warnings) := Runner.run read rounds runners 0 a
  (runners.filterMap Runner.result?, a, warnings)

end Typeahead
