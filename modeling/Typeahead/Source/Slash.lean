import Typeahead.Source.Basic

/-!
Slash commands of the client itself.
-/
namespace Typeahead

/-- A slash command with its description. -/
structure SlashCommand where
  name : Text
  description : Text
  deriving DecidableEq, Repr

namespace SlashCommand

/-- The commands that the client always has. -/
def builtin : List SlashCommand :=
  [ ("help", "Show available commands"),
    ("clear", "Clear the screen"),
    ("exit", "Exit the session"),
    ("quit", "Exit the session"),
    ("mode", "Switch input mode (shell, nl)"),
    ("history", "Show recent commands"),
    ("reset", "Reset the conversation"),
    ("config", "Show or edit configuration"),
    ("model", "Select the model"),
    ("cwd", "Show the working directory") ].map fun (name, description) =>
    ⟨name.toList, description.toList⟩

/-- The candidate for a command. -/
def candidate (c : SlashCommand) (score : Nat) : Candidate where
  value := c.name
  group := .internalCommand
  score := Float.ofNat score
  source := "slash".toList
  display := some ('/' :: c.name)
  description := some c.description

/-- Whether slash commands may be meant. -/
def isMeant (s : Snapshot) : Bool := s.mode = .slash || s.isSlashCommand

/-- Whether the cursor is on another token than the first one that is not blank. -/
def isElsewhere (s : Snapshot) : Bool :=
  match s.current?, s.command? with
  | some current, some command => (current.start, current.stop) ≠ (command.start, command.stop)
  | _, _ => false

/-- The candidates of a catalogue, in its order: only on the first word, which may start with a
slash. -/
def candidates (catalogue : List SlashCommand) (s : Snapshot) : List Candidate :=
  if isElsewhere s then []
  else
    let typed := (Text.strip? ['/'] s.typed).getD s.typed
    catalogue.filterMap fun c =>
      let score := matchScore c.name typed
      if 0 < score then some (c.candidate score) else none

end SlashCommand

end Typeahead
