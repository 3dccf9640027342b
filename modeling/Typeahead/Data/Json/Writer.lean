import Typeahead.Data.Basic
import Typeahead.Decimal.Shortest

/-!
Data written as JSON over several lines, each level two blanks further in.
-/
namespace Typeahead.Json

/-! ## Texts and numbers -/

/-- One hexadecimal digit. -/
def hexDigit (n : Nat) : Char := Nat.digitChar n

/-- A character inside a quoted text. -/
def escape (c : Char) : Text :=
  match c with
  | '"' => ['\\', '"']
  | '\\' => ['\\', '\\']
  | '\x08' => ['\\', 'b']
  | '\t' => ['\\', 't']
  | '\n' => ['\\', 'n']
  | '\x0c' => ['\\', 'f']
  | '\r' => ['\\', 'r']
  | c =>
    if c.toNat < 0x20 then ['\\', 'u', '0', '0', hexDigit (c.toNat / 16), hexDigit (c.toNat % 16)]
    else [c]

/-- A text in quotes. -/
def quote (t : Text) : Text := '"' :: t.flatMap escape ++ ['"']

/-- A whole number. -/
def wholeText (n : Int) : Text :=
  (if n < 0 then ['-'] else []) ++ Nat.toDigits 10 n.natAbs

/-- Decimal digits with a point or an exponent: positional up to sixteen places before the point and
four zeros after it. -/
def decimalText (d : Decimal.Digits) : Text :=
  let digits := Nat.toDigits 10 d.digits
  let point := digits.length + d.power
  if 0 ≤ d.power && point ≤ 16 then digits ++ List.replicate d.power.toNat '0' ++ ['.', '0']
  else if 0 < point && point ≤ 16 then digits.take point.toNat ++ '.' :: digits.drop point.toNat
  else if -5 < point && point ≤ 0 then
    ['0', '.'] ++ List.replicate (-point).toNat '0' ++ digits
  else
    let fraction := if digits.length = 1 then [] else '.' :: digits.drop 1
    digits.take 1 ++ fraction ++ 'e' :: wholeText (point - 1)

/-- A floating-point number by its shortest text; one that is not finite is written as null. -/
def realText (x : Float) : Text :=
  match Decimal.Exact.ofFloat x with
  | .finite negative mantissa exponent =>
    (if negative then ['-'] else []) ++ decimalText (Decimal.shortest mantissa exponent)
  | .nan | .infinite _ => "null".toList

/-! ## Lists and records -/

/-- The start of a line at a level. -/
def lineStart (level : Nat) : Text := '\n' :: List.replicate (2 * level) ' '

/-- Items between brackets, each on a line of its own. -/
def enclose (opening closing : Char) (level : Nat) (items : List Text) : Text :=
  if items.isEmpty then [opening, closing]
  else
    [opening] ++ Text.joinWith [','] (items.map (lineStart (level + 1) ++ ·)) ++
      lineStart level ++ [closing]

mutual

/-- A value at a level. -/
def writeAt (level : Nat) : Data → Text
  | .null => "null".toList
  | .broken => "null".toList
  | .boolean b => (if b then "true" else "false").toList
  | .whole n => wholeText n
  | .real x => realText x
  | .text t => quote t
  | .list items => enclose '[' ']' level (itemsAt (level + 1) items)
  | .record fields => enclose '\x7b' '\x7d' level (fieldsAt (level + 1) fields)

def itemsAt (level : Nat) : List Data → List Text
  | [] => []
  | d :: ds => writeAt level d :: itemsAt level ds

def fieldsAt (level : Nat) : List (Text × Data) → List Text
  | [] => []
  | (name, d) :: fields =>
    (quote name ++ [':', ' '] ++ writeAt level d) :: fieldsAt level fields

end

/-- The text of a value. -/
def write (d : Data) : Text := writeAt 0 d

end Typeahead.Json
