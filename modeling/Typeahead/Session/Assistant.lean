import Typeahead.Line.Highlight
import Typeahead.Session.Basic
import Typeahead.Source.Inquiry
import Typeahead.World

/-!
What a line editor talks to at each keystroke: a session together with the sources that it asks and
the world around them.
-/
namespace Typeahead

/-! ## The assistant -/

/-- A session, its sources and its surroundings. -/
structure Assistant (ε : Type) where
  registry : Registry (World ε)
  /-- Most candidates shown in the menu. -/
  limit : Option Nat := none
  /-- Directory of path completion. -/
  directory : Text
  palette : Palette := .colored
  /-- Whether the input line is highlighted. -/
  highlights : Bool := true
  session : Session := {}
  world : World ε

/-- An update whose sources are being asked. -/
structure Update (ε : Type) where
  pending : PendingUpdate
  inquiry : Inquiry (World ε)

namespace Assistant

variable {ε : Type}

/-! ## Updates -/

/-- How many recent commands a snapshot holds. -/
def snapshotWindow : Nat := 50

/-- The snapshot for a keystroke. -/
def snapshot (a : Assistant ε) (line : Text) (cursor : Nat) (mode : Mode) :
    Snapshot × Assistant ε :=
  let (recent, world) := a.world.recentCommands snapshotWindow
  (Snapshot.ofLine line cursor mode a.directory recent, { a with world })

/-- An update with nothing else going on: asks the sources, waits for all of them and shows what
they found. Gives the warnings as well. -/
def update (a : Assistant ε) (line : Text) (cursor : Nat) (mode : Mode) :
    Assistant ε × UpdateOutcome × List Text :=
  let (snapshot, a) := a.snapshot line cursor mode
  match a.session.begin snapshot with
  | (session, .inl outcome) => ({ a with session }, outcome, [])
  | (session, .inr pending) =>
    let o := a.registry.query snapshot a.limit a.world
    let (session, outcome) := session.finish pending o.found
    ({ a with session, world := o.world }, outcome, o.warnings)

/-- Ends an update if all of its sources have answered. -/
def settle (a : Assistant ε) (u : Update ε) : Assistant ε × (UpdateOutcome ⊕ Update ε) :=
  match u.inquiry.result? a.limit with
  | some found =>
    let (session, outcome) := a.session.finish u.pending found
    ({ a with session }, .inl outcome)
  | none => (a, .inr u)

/-- Starts an update; the warnings are those of sources that answer at once. -/
def startUpdate (a : Assistant ε) (line : Text) (cursor : Nat) (mode : Mode) (now : Nat) :
    Assistant ε × (UpdateOutcome ⊕ Update ε) × List Text :=
  let (snapshot, a) := a.snapshot line cursor mode
  match a.session.begin snapshot with
  | (session, .inl outcome) => ({ a with session }, .inl outcome, [])
  | (session, .inr pending) =>
    let (inquiry, world, warnings) := Inquiry.start a.registry snapshot now a.world
    let (a, next) := { a with session, world }.settle ⟨pending, inquiry⟩
    (a, next, warnings)

/-- Goes on with an update at a later instant. -/
def continueUpdate (a : Assistant ε) (u : Update ε) (now : Nat) :
    Assistant ε × (UpdateOutcome ⊕ Update ε) × List Text :=
  let (inquiry, world, warnings) := u.inquiry.advance now a.world
  let (a, next) := { a with world }.settle { u with inquiry }
  (a, next, warnings)

/-! ## Keys, drawing and history -/

/-- Applies a key. -/
def press (a : Assistant ε) (key : Key) (held : Modifiers) : Assistant ε × KeyOutcome :=
  let (session, outcome) := a.session.press key held
  ({ a with session }, outcome)

def reset (a : Assistant ε) : Assistant ε := { a with session := a.session.reset }

/-- The terminal output that draws the menu. -/
def render (a : Assistant ε) : Assistant ε × Text :=
  let (session, signals) := a.session.render a.palette
  ({ a with session }, Signal.encodeAll signals)

/-- The terminal output that erases the menu. -/
def erase (a : Assistant ε) : Assistant ε × Text :=
  let (session, signals) := a.session.erase
  ({ a with session }, Signal.encodeAll signals)

/-- A line as it is shown while it is edited. -/
def highlight (a : Assistant ε) (line : Text) : Text :=
  Typeahead.highlight a.highlights a.palette line

/-- Remembers a command that was run; tells whether it was recorded. -/
def record (a : Assistant ε) (command : Text) : Assistant ε × Bool :=
  let (world, added) := a.world.record command
  ({ a with world }, added)

end Assistant

end Typeahead
