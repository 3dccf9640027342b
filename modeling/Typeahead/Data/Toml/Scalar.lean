import Typeahead.Calendar
import Typeahead.Data.Basic
import Typeahead.Data.Toml.Quoted
import Typeahead.Decimal.Power

/-!
Numbers, dates and truth values as TOML writes them.
-/
namespace Typeahead.Toml

/-! ## Numbers -/

/-- Digits with single underscores between them; the digits alone. -/
def separated? (isDigit : Char → Bool) (t : Text) : Option Text :=
  let groups := Text.splitOn '_' t
  if groups.all fun group => !group.isEmpty && group.all isDigit then some groups.flatten else none

/-- Decimal digits without a leading zero. -/
def decimal? (t : Text) : Option Text := do
  let ds ← separated? Char.isDigit t
  if ds.head? = some '0' && 1 < ds.length then none else some ds

/-- Digits of another base. -/
def radix? (base : Nat) (t : Text) : Option Nat :=
  (separated? (fun c => (Text.hexValue? c).isSome) t).bind (Text.digitsValue? base)

/-- The sign and what follows it. -/
def signed : Text → Bool × Text
  | '-' :: t => (true, t)
  | '+' :: t => (false, t)
  | t => (false, t)

/-- A whole number; it has to fit 128 bits. -/
def whole? (t : Text) : Option Int :=
  match t with
  | '0' :: 'x' :: ds => (radix? 16 ds).bind fun n => inRange n
  | '0' :: 'o' :: ds => (radix? 8 ds).bind fun n => inRange n
  | '0' :: 'b' :: ds => (radix? 2 ds).bind fun n => inRange n
  | t =>
    let (negative, ds) := signed t
    (decimal? ds).bind fun ds =>
      let n : Int := Nat.ofDigitChars 10 ds 0
      inRange (if negative then -n else n)
where
  inRange (n : Int) : Option Int :=
    if -Decimal.powerOfTwo 127 ≤ n && n < Decimal.powerOfTwo 128 then some n else none

/-- The power of ten after an `e`. -/
def exponent? : Text → Option Int
  | [] => some 0
  | 'e' :: t | 'E' :: t => do
    let (negative, ds) := signed t
    let ds ← separated? Char.isDigit ds
    let n : Int := Nat.ofDigitChars 10 ds 0
    some (if negative then -n else n)
  | _ => none

/-- A decimal number as a floating-point number. -/
def scaled (digits : Nat) (power : Int) : Float :=
  if digits = 0 then 0.0
  else if 400 < power then 1.0 / 0.0
  else if power < -400 - (Nat.toDigits 10 digits).length then 0.0
  else Float.ofScientific digits (power < 0) power.natAbs

/-- A number with a fraction or an exponent; only infinity itself is infinite. -/
def real? (t : Text) : Option Float := do
  let (negative, t) := signed t
  let sign (x : Float) : Float := if negative then -x else x
  if t = ['i', 'n', 'f'] then some (sign (1.0 / 0.0))
  else if t = ['n', 'a', 'n'] then some (0.0 / 0.0)
  else
    let isPart (c : Char) : Bool := c.isDigit || c = '_'
    let whole ← decimal? (t.takeWhile isPart)
    let (fraction, rest) ←
      match t.dropWhile isPart with
      | '.' :: t => (separated? Char.isDigit (t.takeWhile isPart)).map (·, t.dropWhile isPart)
      | [] => none
      | t => some ([], t)
    let power ← exponent? rest
    let x := scaled (Nat.ofDigitChars 10 (whole ++ fraction) 0) (power - fraction.length)
    if x.isInf then none else some (sign x)

/-! ## Dates and times -/

/-- The number of two digits. -/
def twoDigits? : Text → Option (Nat × Text)
  | a :: b :: rest =>
    if a.isDigit && b.isDigit then some (Nat.ofDigitChars 10 [a, b] 0, rest) else none
  | _ => none

/-- A date, and what follows it. -/
def date? (t : Text) : Option Text := do
  let (century, t) ← twoDigits? t
  let (year, t) ← twoDigits? t
  let t ← Text.strip? ['-'] t
  let (month, t) ← twoDigits? t
  let t ← Text.strip? ['-'] t
  let (day, t) ← twoDigits? t
  if Calendar.isDate (100 * century + year : Nat) month day then some t else none

/-- A time of day, and what follows it. Seconds may be missing. -/
def time? (t : Text) : Option Text := do
  let (hour, t) ← twoDigits? t
  let t ← Text.strip? [':'] t
  let (minute, t) ← twoDigits? t
  if 23 < hour || 59 < minute then none
  else
    match t with
    | ':' :: t => do
      let (second, t) ← twoDigits? t
      if 60 < second then none
      else
        match t with
        | '.' :: t =>
          if (t.head?).any Char.isDigit then some (t.dropWhile Char.isDigit) else none
        | t => some t
    | t => some t

/-- The offset from universal time, if there is one. -/
def isOffset (t : Text) : Bool :=
  match t with
  | [] | ['Z'] | ['z'] => true
  | sign :: t =>
    (sign = '+' || sign = '-') &&
      (do
        let (hour, t) ← twoDigits? t
        let t ← Text.strip? [':'] t
        let (minute, t) ← twoDigits? t
        some (hour ≤ 23 && minute ≤ 59 && t.isEmpty)).getD false

/-- Whether the text is a date, a time of day or both. -/
def isMoment (t : Text) : Bool :=
  match date? t with
  | none => (time? t).any List.isEmpty
  | some [] => true
  | some (c :: rest) => (c = 'T' || c = 't' || c = ' ') && (time? rest).any isOffset

/-! ## Values without quotes -/

/-- The characters of a value that is not quoted. -/
def isBare (c : Char) : Bool := c.isAlphanum || c ∈ ['_', '-', '+', '.', ':']

/-- The characters of a value that is not quoted, and what follows. A date and a time of day may
have a blank between them. -/
def bare (t : Text) : Text × Text :=
  let word := t.takeWhile isBare
  let rest := t.dropWhile isBare
  match date? word, rest with
  | some [], ' ' :: c :: more =>
    if c.isDigit then (word ++ ' ' :: (c :: more).takeWhile isBare, (c :: more).dropWhile isBare)
    else (word, rest)
  | _, _ => (word, rest)

/-- The value of characters that are not quoted. A date is a record of one nameless field. -/
def bareValue? (t : Text) : Option Data :=
  if t = "true".toList then some (.boolean true)
  else if t = "false".toList then some (.boolean false)
  else
    match whole? t, real? t with
    | some n, _ => some (.whole n)
    | none, some x => some (.real x)
    | none, none => if isMoment t then some (.record [([], .text t)]) else none

end Typeahead.Toml
