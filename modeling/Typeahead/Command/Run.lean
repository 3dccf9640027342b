import Typeahead.Command.Arguments
import Typeahead.Command.Script
import Typeahead.Data.Json.Writer
import Typeahead.Data.Record
import Typeahead.Session.Assistant
import Typeahead.Settings.Document

/-!
What a run of the program does, as a function from its surroundings and arguments to what it writes.
-/
namespace Typeahead

/-- A session set up by its settings. -/
def Assistant.standard {ε : Type} (settings : Settings) (directory : Text) (world : World ε) :
    Assistant ε where
  registry := .ofList Source.standard
  limit := some settings.completion.maxResults
  directory := directory
  palette := .ofColor settings.display.color
  highlights := settings.display.highlights
  session := { painter := settings.menu.painter }
  world :=
    { world with
      history := { world.history with limits := settings.history.limits }
      programs := { lifetime := settings.completion.pathLifetime } }

namespace Command

/-! ## The surroundings -/

/-- The surroundings of a run. -/
structure Host where
  disk : Disk
  home : Text
  /-- The current directory. -/
  directory : Text
  searchPath : Text
  environment : Environment := {}
  now : Instant

/-- What was written so far. -/
structure Output where
  out : Text := []
  err : Text := []
  deriving DecidableEq, Repr

namespace Output

/-- Writes lines. -/
def print (o : Output) (lines : List Text) : Output :=
  { o with out := o.out ++ lines.flatMap (· ++ ['\n']) }

/-- Writes lines that are no result. -/
def warn (o : Output) (lines : List Text) : Output :=
  { o with err := o.err ++ lines.flatMap (· ++ ['\n']) }

end Output

/-! ## The settings of a run -/

/-- Overrides settings by arguments. -/
def Arguments.override (args : Arguments) (s : Settings) : Settings :=
  let level :=
    if args.veryVerbose then .trace else if args.verbose then .debug else s.logging.level
  { s with
    display.color := s.display.color && !args.noColor
    logging.level := level
    history.file := args.historyFile.getD s.history.file }

/-- The settings of a run: those of the file, overridden by the environment, or the defaults if
these cannot be used, overridden by the arguments. -/
def Host.settings (h : Host) (args : Arguments) : Except Failure (Settings × Output) := do
  let file ← Settings.load h.disk h.home args.configFile
  let merged ←
    match h.environment.apply file with
    | (s, none) => .ok s
    | (_, some e) => .error (Failure.settings e)
  let (checked, output) :=
    match merged.invalid? with
    | none => (merged, ({} : Output))
    | some e =>
      (Settings.default h.home,
        Output.warn {}
          [ "Warning: Configuration validation failed: ".toList ++ (Failure.settings e).message,
            "Using default configuration instead.".toList ])
  .ok (args.override checked, output)

/-- The commands in a file of earlier commands, one on a line; a missing file has none. -/
def loadHistory (d : Disk) (path : Text) : Except Failure (List Text) :=
  match d.readText path with
  | .ok t => .ok (((Text.lines t).map Text.trim).filter (!·.isEmpty))
  | .error .notFound => .ok []
  | .error e => .error (.ofDisk e)

/-! ## The subcommands -/

/-- What a snapshot says about the cursor. -/
def triggerReport (s : Snapshot) : Data :=
  .ofFields
    [ ("mode", .ofString s.mode.name),
      ("cursor", .ofNat s.cursor),
      ("token_index", .ofOption .ofNat s.tokenIndex),
      ("current_token", .ofOption Token.toData s.current?),
      ("prefix", .text s.typed),
      ("is_slash_command", .boolean s.isSlashCommand),
      ("is_entity_trigger", .boolean s.isMention),
      ("trigger", s.trigger.toData) ]

/-- The text of a report, its fields sorted by name. -/
def reportText (d : Data) : Text := Json.write d.sorted

/-- An accepted candidate as a report shows it. -/
def acceptedData (text : Text) (replaced : Option (Nat × Nat)) : Data :=
  .ofFields
    [ ("insert_text", .text text),
      ("replace_range",
        .ofOption (fun (first, last) => .list [.ofNat first, .ofNat last]) replaced) ]

/-- Presses keys by their names, up to one that is no key; tells the candidate accepted last. -/
def pressKeys {ε : Type} (a : Assistant ε) (accepted : Data) :
    List Text → Except Failure (Assistant ε × Data)
  | [] => .ok (a, accepted)
  | name :: names =>
    match Key.read? name with
    | none => .error (.generic ("unknown key: ".toList ++ name))
    | some (key, held) =>
      match a.press key held with
      | (a, .accepted text replaced) => pressKeys a (acceptedData text replaced) names
      | (a, _) => pressKeys a accepted names

/-- The assistant for one completion, with the earlier commands recorded just now. -/
def Host.assistant (h : Host) (settings : Settings) (directory : Text) (commands : List Text) :
    Assistant Unit :=
  let world : World Unit :=
    { disk := h.disk, home := h.home, searchPath := h.searchPath, now := h.now
      programs := { lifetime := 0 }, more := () }
  let a := Assistant.standard settings directory world
  let history := a.world.history.addAll (commands.map fun command => ⟨command, h.now⟩)
  { a with world := { a.world with history, now := h.now + 1000 } }

/-- Completes one line, shows the menu if asked to, and presses keys. -/
def complete (h : Host) (settings : Settings) (directory : Text) (line : Text)
    (cursor : Option Nat) (mode : Option Mode) (keys : List Text) (render : Bool)
    (output : Output) : Output × Except Failure Bool :=
  match loadHistory h.disk settings.history.file with
  | .error e => (output, .error e)
  | .ok commands =>
    let (a, _, _) := (h.assistant settings directory commands).update line
      (cursor.getD line.length) (mode.getD settings.completion.defaultMode)
    let found := a.session.menu.candidates
    let (a, output) :=
      if render then
        let (a', frame) := a.render
        (a', output.warn [a.highlight line ++ frame])
      else (a, output)
    match pressKeys a .null keys with
    | .error e => (output, .error e)
    | .ok (a, accepted) =>
      let menu := a.session.menu
      let report := Data.ofFields
        [ ("completions", .list (found.map Candidate.toData)),
          ("selected", .ofOption Candidate.toData menu.selected?),
          ("active", .boolean menu.isActive),
          ("accepted", accepted) ]
      (output.print [reportText report], .ok true)

/-- The version of the program. -/
def version : String := "0.3.0"

/-- The lines that tell the versions. -/
def versionLines : List Text :=
  ["promptline version ".toList ++ version.toList, "Rust version: 1.91".toList]

/-- The outcome of checking the settings file. -/
def validationLine (h : Host) (path : Text) : Text :=
  if !h.disk.pathExists path then "❌ Configuration file does not exist".toList
  else
    match Settings.load h.disk h.home (some path) with
    | .error e => "❌ Failed to load configuration: ".toList ++ e.message
    | .ok s =>
      match s.invalid? with
      | none => "✅ Configuration is valid".toList
      | some e =>
        "❌ Configuration validation failed: ".toList ++ (Failure.settings e).message

/-- Shows and checks settings. -/
def config (h : Host) (settings : Settings) (path : Text) (display validate : Bool)
    (output : Output) : Output :=
  let output :=
    if validate then
      output.print ["Validating configuration file: ".toList ++ path, validationLine h path]
    else output
  if display then
    output.print
      [ "Configuration file: ".toList ++ path, [], "=== Effective Configuration ===".toList, [],
        settings.toToml ]
  else output

/-! ## A whole run -/

/-- Does what is asked for; tells whether anything was. -/
def perform (h : Host) (args : Arguments) (settings : Settings) (output : Output) :
    Output × Except Failure Bool :=
  match args.request with
  | none => (output, .ok false)
  | some (.tokenize line) =>
    (output.print [Json.write (.list ((Token.scan line).map Token.toData))], .ok true)
  | some (.trigger line cursor mode) =>
    let s := Snapshot.ofLine line (cursor.getD line.length)
      (mode.getD settings.completion.defaultMode) h.directory
    (output.print [reportText (triggerReport s)], .ok true)
  | some (.complete line cursor mode maxResults keys render) =>
    let settings :=
      { settings with
        completion.maxResults := maxResults.getD settings.completion.maxResults }
    complete h settings (args.directory.getD h.directory) line cursor mode keys render output
  | some .version => (output.print versionLines, .ok true)
  | some (.completion name) =>
    match Shell.read? name with
    | some shell => ({ output with out := output.out ++ shell.script }, .ok true)
    | none =>
      let message := "Unsupported shell: ".toList ++ name ++
        ". Supported shells: bash, zsh, fish".toList
      (output, .error (.settings (.generic message)))
  | some (.config display validate) =>
    let path := args.configFile.getD (Settings.defaultPath h.home)
    (config h settings path display validate output, .ok true)

/-- A run that has ended. -/
structure Result where
  output : Output := {}
  /-- The settings of the run, if they could be loaded. -/
  settings : Option Settings := none
  /-- Whether anything was asked for. -/
  handled : Except Failure Bool

/-- Runs the program. -/
def run (h : Host) (args : Arguments) : Result :=
  match h.settings args with
  | .error e => { handled := .error e }
  | .ok (settings, output) =>
    let (output, handled) := perform h args settings output
    { output, settings := some settings, handled }

end Command

end Typeahead
