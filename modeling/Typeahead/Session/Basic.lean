import Typeahead.Line.Snapshot
import Typeahead.Menu.Frame
import Typeahead.Menu.Key

/-!
The menu of an editing session, driven by updates, keys and resets. An update has two steps, its
start and its end, and others may come between them: only the update that was started last may
change what the menu shows.
-/
namespace Typeahead

/-! ## States and outcomes -/

/-- The state of a session. -/
structure Session where
  /-- Number of the latest update; accepting, dismissing and resetting count as well. A number has no
  bound here. A 64-bit word tells the same numbers apart while there are fewer than `2 ^ 64` of these
  counts, which is assumed of every session. -/
  generation : Nat := 0
  menu : Menu := .empty
  painter : Painter := {}
  lastMode : Option Mode := none
  /-- The snapshot that the candidates in the menu belong to. -/
  origin : Option Snapshot := none

/-- How an update ended. -/
inductive UpdateOutcome where
  /-- The menu shows this many candidates. -/
  | applied (count : Nat)
  /-- The menu is closed, for want of a trigger or of candidates. -/
  | cleared
  /-- A later update, an accepted or dismissed candidate or a reset came between. -/
  | stale
  deriving DecidableEq, Repr

/-- An update whose candidates are still awaited. -/
structure PendingUpdate where
  /-- The number that the session counted at the start of the update, with the same assumption. -/
  generation : Nat
  snapshot : Snapshot
  deriving DecidableEq, Repr

namespace Session

variable (s : Session)

/-- Closes the menu. -/
def close : Session := { s with menu := .empty, origin := none }

/-! ## Updates -/

/-- Starts an update for a snapshot. A change of mode closes the menu; without a trigger the update
ends here. -/
def begin (snapshot : Snapshot) : Session × (UpdateOutcome ⊕ PendingUpdate) :=
  -- The update counts, and so makes others stale, even if it ends here.
  let generation := s.generation + 1
  let s := { s with generation }
  let s := if s.lastMode.any (· ≠ snapshot.mode) then s.close else s
  let s := { s with lastMode := some snapshot.mode }
  if snapshot.trigger.isActive then (s, .inr ⟨generation, snapshot⟩)
  else (s.close, .inl .cleared)

/-- Ends an update with the candidates that were found. -/
def finish (p : PendingUpdate) (found : List Candidate) : Session × UpdateOutcome :=
  if s.generation ≠ p.generation then (s, .stale)
  else if found.isEmpty then (s.close, .cleared)
  else ({ s with menu := .ofList found, origin := some p.snapshot }, .applied found.length)

/-- An update that is not the latest changes nothing. -/
theorem finish_of_ne {p : PendingUpdate} (h : s.generation ≠ p.generation)
    (found : List Candidate) : s.finish p found = (s, .stale) := by
  simp [finish, h]

/-! ## Keys and drawing -/

/-- Applies a key. An accepted candidate replaces what was typed at the snapshot that it was found
for; accepting and dismissing make updates under way stale. -/
def press (key : Key) (held : Modifiers) : Session × KeyOutcome :=
  let (menu, outcome) := s.menu.press key held
  match outcome with
  | .accepted text _ =>
    let replaced := s.origin.bind Snapshot.replaced?
    ({ s with menu, generation := s.generation + 1, origin := none }, .accepted text replaced)
  | .dismissed =>
    ({ s with menu, generation := s.generation + 1, origin := none }, .dismissed)
  | .navigated | .notHandled => ({ s with menu }, outcome)

/-- Forgets the menu and the mode, and makes updates under way stale. The last frame is remembered,
so that it can still be erased. -/
def reset : Session := { s.close with generation := s.generation + 1, lastMode := none }

/-- Draws the menu. -/
def render (palette : Palette) : Session × List Signal :=
  let (painter, signals) := s.painter.render palette s.menu
  ({ s with painter }, signals)

/-- Erases the last frame. -/
def erase : Session × List Signal :=
  let (painter, signals) := s.painter.erase
  ({ s with painter }, signals)

end Session

end Typeahead
