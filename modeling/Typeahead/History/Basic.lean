import Typeahead.Text.Blank

/-!
The commands that were run, oldest first. The limits on age and number are applied when the list is
read, so a reading may shorten what is stored.
-/
namespace Typeahead

/-! ## Instants -/

/-- A point in time, in nanoseconds of a calendar that starts in 1970. -/
abbrev Instant := Int

namespace Instant

/-- A second. -/
def second : Int := 1000000000

/-- The first instant of the calendar; no date can be told before it. -/
def earliest : Instant := -8334601228800 * second

/-- Whole seconds from the one instant to the other, rounded toward zero. -/
def secondsSince (now before : Instant) : Int := (now - before).tdiv second

end Instant

/-- A length of time. -/
structure Duration where
  nanoseconds : Nat
  deriving DecidableEq, Repr

namespace Duration

def ofSeconds (seconds : Nat) : Duration := ⟨seconds * 1000000000⟩

/-- The whole seconds of a duration. -/
def seconds (d : Duration) : Nat := d.nanoseconds / 1000000000

/-- A number stands for so many seconds. -/
instance : Coe Nat Duration := ⟨ofSeconds⟩

instance {n : Nat} : OfNat Duration n := ⟨ofSeconds n⟩

instance : CoeOut Duration Nat := ⟨seconds⟩

end Duration

/-! ## Entries and limits -/

/-- A command and when it was last run. -/
structure Entry where
  command : Text
  time : Instant
  deriving DecidableEq, Repr

/-- The first word of the command. -/
def Entry.program? (e : Entry) : Option Text := (Text.words e.command).head?

/-- How many entries are kept, and for how long. -/
structure Limits where
  maxSize : Nat := 1000
  maxAge : Duration := .ofSeconds (30 * 24 * 60 * 60)
  deriving DecidableEq, Repr

/-- The stored commands, oldest first. -/
structure History where
  limits : Limits := {}
  entries : List Entry := []
  deriving DecidableEq, Repr

namespace History

/-- The instant before which entries are too old; none where no such instant can be told. -/
def cutoff? (limits : Limits) (now : Instant) : Option Instant :=
  let limit := now - limits.maxAge.nanoseconds
  if limit < Instant.earliest then none else some limit

/-- The entries within the limits: those too old are dropped first, then the oldest ones too
many. -/
def retained (limits : Limits) (now : Instant) (entries : List Entry) : List Entry :=
  let young :=
    match cutoff? limits now with
    | some limit => entries.filter fun (e : Entry) => limit ≤ e.time
    | none => entries
  young.drop (young.length - limits.maxSize)

variable (h : History)

/-- Drops what exceeds the limits. -/
def prune (now : Instant) : History := { h with entries := retained h.limits now h.entries }

/-- Records an entry, trimmed, and tells whether the list changed. A blank command is not recorded;
the command that was recorded last is given the later time instead of a second entry. -/
def add (e : Entry) : History × Bool :=
  let command := Text.trim e.command
  if command.isEmpty then (h, false)
  else
    match h.entries.getLast? with
    | some last =>
      -- Running a command again refreshes its entry.
      if last.command = command then
        ({ h with entries := h.entries.dropLast ++ [⟨command, max last.time e.time⟩] }, true)
      else ({ h with entries := h.entries ++ [⟨command, e.time⟩] }, true)
    | none => ({ h with entries := [⟨command, e.time⟩] }, true)

/-- Records entries in order. -/
def addAll (es : List Entry) : History := es.foldl (fun h e => (h.add e).1) h

/-- Forgets everything. -/
def clear : History := { h with entries := [] }

/-- The latest entries, at most the given number, the latest first. -/
def latest (n : Nat) : List Entry := h.entries.reverse.take n

/-- The latest commands, at most the given number, the latest first. -/
def latestCommands (n : Nat) : List Text := (h.latest n).map Entry.command

theorem length_retained_le (limits : Limits) (now : Instant) (entries : List Entry) :
    (retained limits now entries).length ≤ limits.maxSize := by
  simp only [retained, List.length_drop]
  omega

end History

end Typeahead
