import Typeahead.Command.Run

/-!
What is shown about the command line itself.
-/
namespace Typeahead.Command

/-- A subcommand in one line. -/
def Level.summary : Level → String
  | top => "Shell-aware tokenizer and completion engine"
  | tokenize => "Print the tokens of a line"
  | trigger => "Print what the cursor asks for"
  | complete => "Print the completion menu of a line"
  | version => "Print the version"
  | completion => "Print a shell completion script"
  | config => "Show or check the settings"

/-- The lines about one option. -/
def optionLine (entry : String × Switch) : Text :=
  let value :=
    match entry.2.valueKind with
    | .nothing => ""
    | .path => " <PATH>"
    | .word => " <N>"
    | .mode => " <MODE>"
    | .texts => " <KEYS>"
  "      --".toList ++ entry.1.toList ++ value.toList

/-- The subcommands and options. -/
def usage : List Text :=
  [Level.top.summary.toList, [], "Usage: promptline [OPTIONS] [COMMAND]".toList, [],
    "Commands:".toList] ++
    Level.subcommands.map (fun (name, level) =>
      "  ".toList ++ padColumns 12 name.toList ++ level.summary.toList) ++
    [[], "Options:".toList] ++
    (Switch.everywhere ++ Switch.particular .top).map optionLine ++
    Level.subcommands.flatMap fun (name, level) =>
      match Switch.particular level with
      | [] => []
      | options =>
        [[], "Options of ".toList ++ name.toList ++ ":".toList] ++ options.map optionLine

/-- Why arguments were refused. -/
def ArgumentError.message : ArgumentError → String
  | unknownSubcommand => "unrecognized subcommand"
  | missingOperand => "a required argument was not provided"
  | unknownArgument => "unexpected argument"
  | malformedValue => "invalid value for an option"
  | missingValue => "a value is required for an option"
  | repeated => "an option cannot be used multiple times"
  | unwantedValue => "unexpected value for an option"
  | helpWanted => "help"
  | versionWanted => "version"

end Typeahead.Command
