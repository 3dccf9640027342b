import Typeahead.Data.Basic

/-!
Data written as a TOML document: one section after another, each a header and the values in it. A
text is put into the marks that need the fewest escapes.
-/
namespace Typeahead.Toml

/-! ## Texts -/

/-- Whether a character can only be written as an escape: a control character other than tab and
line feed. -/
def needsEscape (c : Char) : Bool :=
  (c.toNat < 0x20 && c ≠ '\t' && c ≠ '\n') || c.toNat = 0x7F

/-- The longest run of a character in a text; `run` of them have just been read. -/
def longestRun (mark : Char) (run : Nat) : Text → Nat
  | [] => run
  | c :: cs =>
    if c = mark then longestRun mark (run + 1) cs else max run (longestRun mark 0 cs)

/-- The marks around a text. -/
inductive Quoting where
  /-- Double quotes, with escapes. -/
  | basic
  /-- Single quotes, without escapes. -/
  | literal
  /-- Three double quotes over several lines. -/
  | longBasic
  /-- Three single quotes over several lines. -/
  | longLiteral
  deriving DecidableEq, Repr

/-- The marks for a text: those that need no escapes where there are such, short ones first. -/
def Quoting.of (t : Text) : Quoting :=
  let plain := !t.any needsEscape
  let oneLine := '\n' ∉ t
  if plain && oneLine && '"' ∉ t && '\\' ∉ t then basic
  else if plain && oneLine && '\'' ∉ t then literal
  else if plain && '\\' ∉ t && longestRun '"' 0 t ≤ 2 then longBasic
  else if plain && longestRun '\'' 0 t ≤ 2 then longLiteral
  else if oneLine then basic
  else longBasic

/-- One upper-case hexadecimal digit. -/
def hexDigit (n : Nat) : Char := (Nat.digitChar n).toUpper

/-- A character between double quotes. -/
def escape (c : Char) : Text :=
  match c with
  | '\x08' => ['\\', 'b']
  | '\t' => ['\\', 't']
  | '\n' => ['\\', 'n']
  | '\x0c' => ['\\', 'f']
  | '\r' => ['\\', 'r']
  | '"' => ['\\', '"']
  | '\\' => ['\\', '\\']
  | c =>
    if needsEscape c then
      ['\\', 'u', '0', '0', hexDigit (c.toNat / 16), hexDigit (c.toNat % 16)]
    else [c]

/-- A text between three double quotes; `run` double quotes have just been written. Line feeds stand
for themselves, and so do two double quotes in a row, but not the third. -/
def escapeLong (run : Nat) : Text → Text
  | [] => []
  | '"' :: cs =>
    if run = 2 then ['\\', '"'] ++ escapeLong 0 cs else '"' :: escapeLong (run + 1) cs
  | '\n' :: cs => '\n' :: escapeLong 0 cs
  | c :: cs => escape c ++ escapeLong 0 cs

/-- The line feed after three opening marks, for a text of several lines. -/
def openingBreak (t : Text) : Text := if '\n' ∈ t then ['\n'] else []

/-- A text in the marks that suit it. -/
def quote (t : Text) : Text :=
  match Quoting.of t with
  | .basic => '"' :: t.flatMap escape ++ ['"']
  | .literal => '\'' :: t ++ ['\'']
  | .longBasic => ['"', '"', '"'] ++ openingBreak t ++ escapeLong 0 t ++ ['"', '"', '"']
  | .longLiteral => ['\'', '\'', '\''] ++ openingBreak t ++ t ++ ['\'', '\'', '\'']

/-! ## Sections -/

/-- A value that fits on a line. -/
inductive Scalar where
  | boolean (b : Bool)
  | whole (n : Nat)
  | text (t : Text)
  deriving DecidableEq, Repr

namespace Scalar

def toData : Scalar → Data
  | boolean b => .boolean b
  | whole n => .whole n
  | text t => .text t

def write : Scalar → Text
  | boolean b => (if b then "true" else "false").toList
  | whole n => Nat.toDigits 10 n
  | text t => quote t

end Scalar

/-- A table of scalar values under a header. -/
structure Section where
  name : Text
  entries : List (Text × Scalar)
  deriving DecidableEq, Repr

namespace Section

/-- The header and the values, each on a line. -/
def write (s : Section) : Text :=
  ['['] ++ s.name ++ [']', '\n'] ++
    s.entries.flatMap fun (key, value) => key ++ [' ', '=', ' '] ++ value.write ++ ['\n']

end Section

/-- The sections with a blank line between neighbours. -/
def write (sections : List Section) : Text := Text.joinWith ['\n'] (sections.map Section.write)

end Typeahead.Toml
