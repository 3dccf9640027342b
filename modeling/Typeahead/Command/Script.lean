import Typeahead.Text.Lowercase

/-!
What is added to the completion script of a shell, so that it completes the values of the mode
option.
-/
namespace Typeahead.Command

/-- The shells for which there is a script. -/
inductive Shell where
  | bash
  | zsh
  | fish
  deriving DecidableEq, Repr

namespace Shell

/-- The shell of a name, capitals or not. -/
def read? (name : Text) : Option Shell :=
  match String.ofList (Text.lower name) with
  | "bash" => some bash
  | "zsh" => some zsh
  | "fish" => some fish
  | _ => none

/-- The lines of the addition. -/
def modeLines : Shell → List String
  | bash =>
    [ "",
      "# Complete --mode values",
      "_promptline_enhanced() \x7b",
      "    local cur prev words cword",
      "    _init_completion || return",
      "",
      "    if [[ \"$prev\" == \"--mode\" ]]; then",
      "        COMPREPLY=($(compgen -W \"shell slash nl\" -- \"$cur\"))",
      "        return 0",
      "    fi",
      "",
      "    _promptline \"$@\"",
      "\x7d",
      "",
      "complete -F _promptline_enhanced promptline" ]
  | zsh =>
    [ "",
      "# Complete --mode values",
      "_promptline_enhanced() \x7b",
      "    if [[ $\x7bwords[CURRENT-1]\x7d == \"--mode\" ]]; then",
      "        local -a modes",
      "        modes=(shell slash nl)",
      "        _describe 'modes' modes",
      "        return 0",
      "    fi",
      "",
      "    _promptline \"$@\"",
      "\x7d",
      "",
      "compdef _promptline_enhanced promptline" ]
  | fish =>
    [ "",
      "# Complete --mode values",
      "complete -c promptline -l mode -f -a \"shell slash nl\" -d \"Input mode\"" ]

/-- The script. -/
def script (s : Shell) : Text := s.modeLines.flatMap fun line => line.toList ++ ['\n']

end Shell

end Typeahead.Command
