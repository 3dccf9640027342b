import Typeahead.History.Frecency
import Typeahead.Source.Files
import Typeahead.Source.Mention
import Typeahead.Source.Program
import Typeahead.Source.Reference
import Typeahead.Source.Slash

/-!
What the built-in sources look at: directories, the search path, the recorded commands and the
clock. The sources themselves are made here from the rules for their candidates.
-/
namespace Typeahead

/-! ## Surroundings -/

/-- The surroundings of a session. `more` is the state of sources that are not built in. -/
structure World (ε : Type) where
  disk : Disk
  /-- The home directory; there always is one. -/
  home : Text
  /-- The search path as a text, empty if there is none or it is not Unicode. -/
  searchPath : Text
  /-- The clock that dates commands, and by which the scan of the search path grows old. -/
  now : Instant
  history : History := {}
  programs : ProgramCache
  mentions : List Mention := []
  more : ε

namespace World

variable {ε : Type}

/-- Drops what the history holds beyond its limits. -/
def pruneHistory (w : World ε) : World ε := { w with history := w.history.prune w.now }

/-- The recent commands, and the world after they were read. -/
def recentCommands (w : World ε) (n : Nat) : List Text × World ε :=
  let w := w.pruneHistory
  (w.history.latestCommands n, w)

/-- Records a command that was run now; tells whether it was recorded. -/
def record (w : World ε) (command : Text) : World ε × Bool :=
  let (history, added) := w.history.add ⟨command, w.now⟩
  ({ w with history }, added)

end World

namespace Source

variable {ε : Type}

/-! ## Sources -/

/-- A source that answers at once and leaves the world as it is. -/
def immediate {σ : Type} (name : Text) (relevant : Snapshot → Bool)
    (answer : Snapshot → σ → Answer) : Source σ where
  name := name
  relevant := relevant
  begin := fun _ w => (none, w)
  answer := fun s w => (answer s w, w)

/-- A source that has to wait for the disk. -/
def deferred {σ : Type} (name : Text) (relevant : Snapshot → Bool)
    (answer : Snapshot → σ → Answer) : Source σ :=
  { immediate name relevant answer with begin := fun _ w => (some 0, w) }

/-- Slash commands of a catalogue. -/
def slash (catalogue : List SlashCommand) : Source (World ε) :=
  immediate "slash".toList SlashCommand.isMeant fun s _ =>
    .candidates (SlashCommand.candidates catalogue s)

/-- Files and directories, at most the given number. -/
def files (limit : Nat) : Source (World ε) :=
  deferred "file".toList (·.trigger.kind = .entity) fun s w =>
    .ofExcept (completeFiles w.disk w.home limit s)

/-- Branches and tags. -/
def references : Source (World ε) :=
  deferred "git_ref".toList
    (fun s => s.mode = .shell && s.trigger.kind = .entity && !s.isMention && Reference.isWanted s)
    fun s w =>
      .ofExcept ((Reference.list w.disk s.directory).map
        fun refs => Reference.candidates refs s.trigger.typed)

/-- Things to mention, as the world holds them. -/
def mentions : Source (World ε) :=
  immediate "entity".toList Snapshot.isMention fun s w =>
    .candidates (mentionCandidates w.mentions s.trigger.typed)

/-- Programs for the command word. The search path is read only when something was typed, and then
from the disk unless the cache still holds. -/
def commands : Source (World ε) where
  name := "command".toList
  relevant := fun s => s.mode = .shell && s.trigger.kind = .command
  begin := fun s w =>
    if s.trigger.typed.isEmpty || (w.programs.get? w.searchPath w.now).isSome then (none, w)
    else (some 0, w)
  answer := fun s w =>
    if s.trigger.typed.isEmpty then (.candidates (knownPrograms []), w)
    else
      let (found, programs) := w.programs.fetch w.disk w.searchPath w.now
      (.candidates (commandCandidates found s.trigger.typed), { w with programs })

/-- How many recent entries lift candidates. -/
def recentWindow : Nat := 200

/-- A source whose candidates are lifted by recent use. -/
def boosted (window : Nat) (inner : Source (World ε)) : Source (World ε) :=
  { inner with
    answer := fun s w =>
      match inner.answer s w with
      | (.candidates cs, w) =>
        let w := w.pruneHistory
        match w.history.latest window with
        | [] => (.candidates cs, w)
        | recent => (.candidates (boost recent w.now cs), w)
      | other => other }

/-- The sources of a session that is set up by its settings, in order. -/
def standard : List (Source (World ε)) :=
  [ boosted recentWindow commands, slash SlashCommand.builtin, boosted recentWindow references,
    files fileLimit, mentions ]

end Source

end Typeahead
