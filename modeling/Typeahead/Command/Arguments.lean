import Typeahead.Line.Mode
import Typeahead.Settings.Environment

/-!
The arguments of the command line: which options and subcommands there are, and how a list of
arguments is read. Arguments are read from left to right; an option that takes a value waits for the
next argument, and its value is checked only when something else that is known follows, or at the
end.
-/
namespace Typeahead.Command

/-- Why arguments are refused, or what is to be shown instead of a run. -/
inductive ArgumentError where
  | unknownSubcommand
  | missingOperand
  | unknownArgument
  /-- A value that is no number or mode. -/
  | malformedValue
  /-- A value that is missing or empty. -/
  | missingValue
  /-- An option that may be given once was given twice. -/
  | repeated
  /-- A value for an option that takes none. -/
  | unwantedValue
  | helpWanted
  | versionWanted
  deriving DecidableEq, Repr

/-! ## Options and subcommands -/

/-- The level of the command line that an argument is read at. -/
inductive Level where
  | top
  | tokenize
  | trigger
  | complete
  | version
  | completion
  | config
  deriving DecidableEq, Repr

namespace Level

/-- The subcommands with their names. -/
def subcommands : List (String × Level) :=
  [ ("tokenize", tokenize), ("trigger", trigger), ("complete", complete), ("version", version),
    ("completion", completion), ("config", config) ]

/-- Whether the level takes an operand, which has to be given. -/
def takesOperand : Level → Bool
  | tokenize | trigger | complete | completion => true
  | top | version | config => false

end Level

/-- The options. -/
inductive Switch where
  | config
  | noColor
  | verbose
  | veryVerbose
  | historyFile
  | directory
  | cursor
  | mode
  | maxResults
  | keys
  | render
  | display
  | validate
  | help
  | version
  deriving DecidableEq, Repr

/-- What an option takes. -/
inductive ValueKind where
  | nothing
  /-- A path, which must not be empty. -/
  | path
  | word
  | mode
  /-- Texts with commas between them; the option may be repeated. -/
  | texts
  deriving DecidableEq, Repr

namespace Switch

def valueKind : Switch → ValueKind
  | config | historyFile | directory => .path
  | cursor | maxResults => .word
  | mode => .mode
  | keys => .texts
  | noColor | verbose | veryVerbose | render | display | validate | help | version => .nothing

/-- The options known at every level, by their long names. -/
def everywhere : List (String × Switch) :=
  [ ("config", config), ("no-color", noColor), ("verbose", verbose), ("vv", veryVerbose),
    ("history-file", historyFile), ("cwd", directory), ("help", help) ]

/-- The options known at one level only, by their long names. -/
def particular : Level → List (String × Switch)
  | .top => [("version", version)]
  | .trigger => [("cursor", cursor), ("mode", mode)]
  | .complete =>
    [ ("cursor", cursor), ("mode", mode), ("max-results", maxResults), ("keys", keys),
      ("render", render) ]
  | .config => [("show", display), ("validate", validate)]
  | .tokenize | .version | .completion => []

/-- The option of a long name. -/
def ofLong? (level : Level) (name : Text) : Option Switch :=
  (everywhere ++ particular level).lookup (String.ofList name)

/-- The option of a letter. -/
def ofShort? (level : Level) : Char → Option Switch
  | 'c' => some config
  | 'v' => some verbose
  | 'h' => some help
  | 'V' => if level = .top then some version else none
  | _ => none

/-- Checks a value. -/
def check (o : Switch) (value : Text) : Except ArgumentError Unit :=
  match o.valueKind with
  | .nothing | .texts => .ok ()
  | .path => if value.isEmpty then .error .missingValue else .ok ()
  | .word => if (readWord? value).isSome then .ok () else .error .malformedValue
  | .mode => if (Mode.read value).isOk then .ok () else .error .malformedValue

end Switch

/-! ## Reading one level -/

/-- The arguments of a level as far as they were read. -/
structure Reading where
  level : Level
  /-- The options with their values, in order; a flag has an empty value. -/
  given : List (Switch × Text) := []
  /-- An option that was read last, and its value if that was read as well. -/
  pending : Option (Switch × Option Text) := none
  operand : Option Text := none
  /-- Whether a lone double dash was read, after which there are no options. -/
  operandsOnly : Bool := false

namespace Reading

variable (r : Reading)

/-- Adds an option with its value. -/
def add (o : Switch) (value : Text) : Except ArgumentError Reading := do
  match o with
  | .help => .error .helpWanted
  | .version => .error .versionWanted
  | o =>
    if o.valueKind ≠ .texts && r.given.any (·.1 = o) then .error .repeated
    else
      o.check value
      .ok { r with given := r.given ++ [(o, value)] }

/-- Adds the pending option; it must have its value by now. -/
def settle : Except ArgumentError Reading :=
  match r.pending with
  | none => .ok r
  | some (_, none) => .error .missingValue
  | some (o, some value) => { r with pending := none }.add o value

/-- Reads an option that may come with a value of its own. -/
def option (o : Switch) (value : Option Text) : Except ArgumentError Reading := do
  match o.valueKind, value with
  | .nothing, some _ => .error .unwantedValue
  | .nothing, none => (← r.settle).add o []
  | _, some value => (← r.settle).add o value
  | _, none => .ok { (← r.settle) with pending := some (o, none) }

/-- Reads letters after a single dash. Letters of flags may stand together; what follows the letter
of an option with a value is its value, with or without an equals sign. -/
def letters (r : Reading) : Text → Except ArgumentError Reading
  | [] => .ok r
  | c :: cs =>
    match Switch.ofShort? r.level c with
    | none => .error .unknownArgument
    | some o =>
      if o.valueKind = .nothing then do
        let r ← r.option o none
        letters r cs
      else
        match cs with
        | [] => r.option o none
        | '=' :: value => r.option o (some value)
        | value => r.option o (some value)

/-- Reads what follows a double dash: a name, and a value after an equals sign. -/
def long (body : Text) : Except ArgumentError Reading :=
  let (name, value) :=
    match Text.splitOnce '=' body with
    | some (name, value) => (name, some value)
    | none => (body, none)
  match Switch.ofLong? r.level name with
  | none => .error .unknownArgument
  | some o => r.option o value

/-- Whether the option read last waits for its value. -/
def isWaiting : Bool :=
  match r.pending with
  | some (_, none) => true
  | _ => false

/-- Takes the operand; there is at most one. -/
def takeOperand (arg : Text) : Except ArgumentError Reading := do
  if r.level = .top then
    -- A word at the top can only be a subcommand, and after a double dash not even that.
    let isSubcommand := (Level.subcommands.map Prod.fst ++ ["help"]).contains (String.ofList arg)
    .error (if r.operandsOnly && isSubcommand then .unknownArgument else .unknownSubcommand)
  else if r.level.takesOperand && r.operand.isNone then
    .ok { (← r.settle) with operand := some arg }
  else .error .unknownArgument

/-- Reads an argument that is no option. -/
def plain (arg : Text) : Except ArgumentError Reading :=
  match r.pending with
  | some (o, none) =>
    if r.operandsOnly then r.takeOperand arg
    else .ok { r with pending := some (o, some arg) }
  | _ => r.takeOperand arg

/-- Reads one argument. -/
def step (arg : Text) : Except ArgumentError Reading :=
  if r.operandsOnly then r.plain arg
  else
    match arg with
    | ['-', '-'] => .ok { r with operandsOnly := true }
    | '-' :: '-' :: body => r.long body
    | '-' :: c :: cs => r.letters (c :: cs)
    | arg => r.plain arg

/-- Ends the reading of a level. -/
def finish : Except ArgumentError Reading := do
  let r ← r.settle
  if r.level.takesOperand && r.operand.isNone then .error .missingOperand else .ok r

/-- The values of an option, in order. -/
def values (o : Switch) : List Text := (r.given.filter (·.1 = o)).map Prod.snd

def isGiven (o : Switch) : Bool := r.given.any (·.1 = o)

/-- The value of an option that is given at most once. -/
def value? (o : Switch) : Option Text := (r.values o).head?

/-- The number that is the value of an option. -/
def word? (o : Switch) : Option Nat := (r.value? o).bind readWord?

/-- The mode that is the value of an option. -/
def mode? : Option Mode := (r.value? .mode).bind fun t => (Mode.read t).toOption

end Reading

/-! ## Reading all arguments -/

/-- What the program is asked to do. -/
inductive Request where
  | tokenize (line : Text)
  | trigger (line : Text) (cursor : Option Nat) (mode : Option Mode)
  | complete (line : Text) (cursor : Option Nat) (mode : Option Mode) (maxResults : Option Nat)
      (keys : List Text) (render : Bool)
  | version
  | completion (shell : Text)
  | config (display validate : Bool)
  deriving DecidableEq, Repr

/-- The arguments of a run. -/
structure Arguments where
  configFile : Option Text := none
  noColor : Bool := false
  verbose : Bool := false
  veryVerbose : Bool := false
  historyFile : Option Text := none
  directory : Option Text := none
  request : Option Request := none
  deriving DecidableEq, Repr

/-- Reads the arguments of a subcommand. -/
def readLevel (r : Reading) : List Text → Except ArgumentError Reading
  | [] => r.finish
  | arg :: rest => do readLevel (← r.step arg) rest

/-- Reads the names after the subcommand that shows help. -/
def readHelp : List Text → ArgumentError
  | [] => .helpWanted
  | name :: rest =>
    let known := (Level.subcommands.map Prod.fst ++ ["help"]).contains (String.ofList name)
    if known && rest.isEmpty then .helpWanted else .unknownSubcommand

/-- Reads the arguments of the top level, and those of the subcommand that is named among them. -/
def readTop (r : Reading) : List Text → Except ArgumentError (Reading × Option Reading)
  | [] => do .ok (← r.finish, none)
  | arg :: rest => do
    if r.operandsOnly || r.isWaiting then readTop (← r.step arg) rest
    else if arg = "help".toList then .error (readHelp rest)
    else
      match Level.subcommands.lookup (String.ofList arg) with
      | some level =>
        -- The subcommand reads all that follows, and what is wrong there is told first.
        let inner ← readLevel { level } rest
        .ok (← r.finish, some inner)
      | none => readTop (← r.step arg) rest

/-- What a subcommand asks for. -/
def requestOf (r : Reading) : Option Request :=
  let line := r.operand.getD []
  match r.level with
  | .top => none
  | .tokenize => some (.tokenize line)
  | .trigger => some (.trigger line (r.word? .cursor) r.mode?)
  | .complete =>
    let keys := (r.values .keys).flatMap (Text.splitOn ',')
    some (.complete line (r.word? .cursor) r.mode? (r.word? .maxResults) keys (r.isGiven .render))
  | .version => some .version
  | .completion => some (.completion line)
  | .config => some (.config (r.isGiven .display) (r.isGiven .validate))

/-- Reads arguments. Options that are known everywhere may be given before and after the name of the
subcommand; those after it count. -/
def readArguments (args : List Text) : Except ArgumentError Arguments := do
  let (outer, inner?) ← readTop { level := .top } args
  let inner := inner?.getD outer
  let value? (o : Switch) : Option Text := inner.value? o <|> outer.value? o
  let isGiven (o : Switch) : Bool := inner.isGiven o || outer.isGiven o
  .ok
    { configFile := value? .config
      noColor := isGiven .noColor
      verbose := isGiven .verbose
      veryVerbose := isGiven .veryVerbose
      historyFile := value? .historyFile
      directory := value? .directory
      request := inner?.bind requestOf }

end Typeahead.Command
