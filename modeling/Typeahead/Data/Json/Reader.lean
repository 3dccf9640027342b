import Typeahead.Data.Basic
import Typeahead.Decimal.Power

/-!
Data read from JSON. A whole number is kept as such when it fits a 64-bit word and as a
floating-point number otherwise.
-/
namespace Typeahead.Json

/-- How JSON writes records and choices. -/
def dialect : Dialect where
  boundsLists := true
  isUnit := fun
    | .null => true
    | _ => false

def isBlank (c : Char) : Bool := c ∈ [' ', '\t', '\n', '\r']

def skipBlanks (t : Text) : Text := t.dropWhile isBlank

/-! ## Texts -/

/-- The character that a backslash and a letter stand for. -/
def simpleEscape? : Char → Option Char
  | '"' => some '"'
  | '\\' => some '\\'
  | '/' => some '/'
  | 'b' => some '\x08'
  | 'f' => some '\x0c'
  | 'n' => some '\n'
  | 'r' => some '\r'
  | 't' => some '\t'
  | _ => none

/-- The code units of a quoted text after its opening mark, and what follows its closing mark. A
number escape stands for one 16-bit unit. -/
def units? : Text → Option (List Nat × Text)
  | '"' :: rest => some ([], rest)
  | '\\' :: 'u' :: a :: b :: c :: d :: rest => do
    let unit ← Text.digitsValue? 16 [a, b, c, d]
    let (units, rest) ← units? rest
    some (unit :: units, rest)
  | '\\' :: c :: rest => do
    let c ← simpleEscape? c
    let (units, rest) ← units? rest
    some (c.toNat :: units, rest)
  | c :: rest =>
    if c.toNat < 0x20 then none
    else do
      let (units, rest) ← units? rest
      some (c.toNat :: units, rest)
  | [] => none

/-- The text of code units; a unit of a pair must not stand alone. -/
def ofUnits? : List Nat → Option Text
  | [] => some []
  | u :: us =>
    if 0xD800 ≤ u && u < 0xDC00 then
      match us with
      | v :: us =>
        if 0xDC00 ≤ v && v < 0xE000 then
          (ofUnits? us).map
            (Char.ofNat (0x10000 + (u - 0xD800) * 0x400 + (v - 0xDC00)) :: ·)
        else none
      | [] => none
    else if 0xDC00 ≤ u && u < 0xE000 then none
    else (ofUnits? us).map (Char.ofNat u :: ·)

/-! ## Numbers -/

/-- A number's digits as read: those that fit a 64-bit word, and the power of ten they are
multiplied by. -/
structure Scanned where
  digits : Nat := 0
  power : Int := 0

namespace Scanned

/-- Whether one more digit still fits a 64-bit word. -/
def fits (s : Scanned) (c : Char) : Bool := s.digits * 10 + (c.toNat - 48) < wordLimit

/-- Adds the digits before the point. From the first one that does not fit on they only count. -/
def addWhole (s : Scanned) : Text → Scanned
  | [] => s
  | c :: cs =>
    if s.fits c then addWhole { s with digits := s.digits * 10 + (c.toNat - 48) } cs
    else { s with power := s.power + (cs.length + 1) }

/-- Adds the digits after the point. From the first one that does not fit on they are dropped. -/
def addFraction (s : Scanned) : Text → Scanned
  | [] => s
  | c :: cs =>
    if s.fits c then addFraction ⟨s.digits * 10 + (c.toNat - 48), s.power - 1⟩ cs else s

/-- Divides by powers of ten that are as large as possible. -/
def divide (x : Float) (power : Nat) : (fuel : Nat) → Float
  | 0 => x
  | fuel + 1 =>
    if power ≤ 308 then x / Float.ofScientific 1 false power
    else divide (x / Float.ofScientific 1 false 308) (power - 308) fuel

/-- The number in floating-point arithmetic: the digits times, or divided by, a power of ten. One
that is too large is infinite. -/
def toFloat (s : Scanned) : Float :=
  let x := Float.ofNat s.digits
  if s.digits = 0 then x
  else if s.power < 0 then divide x (-s.power).toNat 4
  else if s.power ≤ 308 then x * Float.ofScientific 1 false s.power.toNat
  else 1.0 / 0.0

end Scanned

/-- Digits at the start of a text, and the rest. -/
def digits (t : Text) : Text × Text := (t.takeWhile Char.isDigit, t.dropWhile Char.isDigit)

/-- The digits after a point, if there is one; there has to be at least one digit. -/
def fraction? : Text → Option (Option Text × Text)
  | '.' :: t =>
    let (ds, rest) := digits t
    if ds.isEmpty then none else some (some ds, rest)
  | t => some (none, t)

/-- The exponent, if there is one; there has to be at least one digit. -/
def exponent? : Text → Option (Option Int × Text)
  | 'e' :: t | 'E' :: t =>
    let (negative, t) :=
      match t with
      | '-' :: t => (true, t)
      | '+' :: t => (false, t)
      | t => (false, t)
    let (ds, rest) := digits t
    if ds.isEmpty then none
    else
      let n : Int := Nat.ofDigitChars 10 ds 0
      some (some (if negative then -n else n), rest)
  | t => some (none, t)

/-- The value of a number of which the parts were read. -/
def numberOf (negative : Bool) (whole : Text) (fraction : Option Text) (exponent : Option Int) :
    Data :=
  let n := Nat.ofDigitChars 10 whole 0
  let isWhole := fraction.isNone && exponent.isNone
  if isWhole && !negative && n < wordLimit then .whole n
  else if isWhole && negative && 0 < n && 2 * n ≤ wordLimit then .whole (-n)
  else
    let scanned := (Scanned.addWhole {} whole).addFraction (fraction.getD [])
    let x := Scanned.toFloat { scanned with power := scanned.power + exponent.getD 0 }
    .real (if negative then -x else x)

/-- A number: an optional sign, digits without a leading zero, a fraction and an exponent. -/
def number? (t : Text) : Option (Data × Text) := do
  let (negative, t) :=
    match t with
    | '-' :: t => (true, t)
    | t => (false, t)
  let (whole, t) := digits t
  if whole.isEmpty || (whole.head? = some '0' && 1 < whole.length) then none
  else
    let (fraction, t) ← fraction? t
    let (exponent, t) ← exponent? t
    some (numberOf negative whole fraction exponent, t)

/-! ## Values -/

/-- The record of fields with names in code units; it is broken if one of the names is. -/
def recordOf (fields : List (List Nat × Data)) : Data :=
  match fields.mapM fun (units, value) => (ofUnits? units).map (·, value) with
  | some fields => .record fields
  | none => .broken

mutual

/-- A value at the start of a text, and what follows it. -/
def value? : (fuel : Nat) → Text → Option (Data × Text)
  | 0, _ => none
  | fuel + 1, t =>
    match skipBlanks t with
    | '"' :: rest => do
      let (units, rest) ← units? rest
      some (match ofUnits? units with
        | some text => .text text
        | none => .broken, rest)
    | '[' :: rest =>
      match skipBlanks rest with
      | ']' :: rest => some (.list [], rest)
      | rest => do
        let (items, rest) ← items? fuel rest
        some (.list items, rest)
    | '\x7b' :: rest =>
      match skipBlanks rest with
      | '\x7d' :: rest => some (.record [], rest)
      | rest => do
        let (fields, rest) ← fields? fuel rest
        some (recordOf fields, rest)
    | 'n' :: 'u' :: 'l' :: 'l' :: rest => some (.null, rest)
    | 't' :: 'r' :: 'u' :: 'e' :: rest => some (.boolean true, rest)
    | 'f' :: 'a' :: 'l' :: 's' :: 'e' :: rest => some (.boolean false, rest)
    | t => number? t

/-- The items of a list up to its closing bracket; at least one. -/
def items? : (fuel : Nat) → Text → Option (List Data × Text)
  | 0, _ => none
  | fuel + 1, t => do
    let (item, rest) ← value? fuel t
    match skipBlanks rest with
    | ',' :: rest =>
      let (items, rest) ← items? fuel rest
      some (item :: items, rest)
    | ']' :: rest => some ([item], rest)
    | _ => none

/-- The fields of a record up to its closing bracket, each name as code units; at least one. -/
def fields? : (fuel : Nat) → Text → Option (List (List Nat × Data) × Text)
  | 0, _ => none
  | fuel + 1, t =>
    match skipBlanks t with
    | '"' :: rest => do
      let (units, rest) ← units? rest
      match skipBlanks rest with
      | ':' :: rest =>
        let (value, rest) ← value? fuel rest
        match skipBlanks rest with
        | ',' :: rest =>
          let (fields, rest) ← fields? fuel rest
          some ((units, value) :: fields, rest)
        | '\x7d' :: rest => some ([(units, value)], rest)
        | _ => none
      | _ => none
    | _ => none

end

/-- The value of a text that holds nothing else. Each step of the reading takes a character, so the
length bounds their number. -/
def read? (t : Text) : Option Data := do
  let (value, rest) ← value? (t.length + 1) t
  if (skipBlanks rest).isEmpty then some value else none

end Typeahead.Json
