import Typeahead.History.Basic

/-!
What can be asked of the history over time. Every question first drops what exceeds the limits.
-/
namespace Typeahead.History

/-- A question about the stored commands. -/
inductive Question where
  /-- All entries, oldest first. -/
  | entries
  /-- The latest entries. -/
  | latest (n : Nat)
  | latestCommands (n : Nat)
  | length
  | isEmpty
  deriving DecidableEq, Repr

/-- A call at one instant. -/
inductive Call where
  /-- A command is run. -/
  | add (command : Text)
  /-- A command was run at another time. -/
  | addEntry (e : Entry)
  | clear
  | ask (q : Question)
  deriving DecidableEq, Repr

/-- What a call returns. -/
inductive Reply where
  /-- Whether the list changed. -/
  | recorded (changed : Bool)
  | cleared
  | entries (es : List Entry)
  | commands (commands : List Text)
  | number (n : Nat)
  | truth (b : Bool)
  deriving DecidableEq, Repr

/-- The answer of the history as it is stored. -/
def answer (h : History) : Question → Reply
  | .entries => .entries h.entries
  | .latest n => .entries (h.latest n)
  | .latestCommands n => .commands (h.latestCommands n)
  | .length => .number h.entries.length
  | .isEmpty => .truth h.entries.isEmpty

/-- The history after a call, and what the call returns. -/
def call (h : History) (now : Instant) : Call → History × Reply
  | .add command =>
    let (h, changed) := h.add ⟨command, now⟩
    (h, .recorded changed)
  | .addEntry e =>
    let (h, changed) := h.add e
    (h, .recorded changed)
  | .clear => (h.clear, .cleared)
  | .ask q =>
    let h := h.prune now
    (h, h.answer q)

/-- What calls return one after another, each with the time of its call. -/
def replies (h : History) : List (Instant × Call) → List Reply
  | [] => []
  | (now, c) :: calls =>
    let (h, reply) := h.call now c
    reply :: h.replies calls

end Typeahead.History
