import Typeahead.Calendar
import Typeahead.Decimal.Power
import Typeahead.Text.Blank

/-!
Dates with a time of day in the calendar that is used everywhere, told in universal time. A leap
second is told as the sixtieth of its minute.
-/
namespace Typeahead

/-- A point in time: the seconds since the start of 1970, and the nanoseconds in this second. In a
leap second there are a thousand million of them or more. -/
structure Timestamp where
  seconds : Int
  nanos : Nat
  deriving DecidableEq, Repr

namespace Timestamp

open Calendar Decimal

/-! ## Reading -/

/-- The years that can be told. -/
def isYear (year : Int) : Bool := -262143 ≤ year && year ≤ 262142

/-- At least one and at most `width` digits at the start of a text, and what follows. -/
def number? (width : Nat) (t : Text) : Option (Nat × Text) :=
  let ds := (t.takeWhile Char.isDigit).take width
  if ds.isEmpty then none else some (Nat.ofDigitChars 10 ds 0, t.drop ds.length)

/-- A number of a date or time, before which blanks may stand. -/
def field? (width : Nat) (t : Text) : Option (Nat × Text) := number? width (Text.trimStart t)

/-- A year: four digits at most, or any number of them after a sign. -/
def year? (t : Text) : Option (Int × Text) :=
  match Text.trimStart t with
  | '-' :: t => (number? t.length t).map fun (n, rest) => (-n, rest)
  | '+' :: t => (number? t.length t).map fun (n, rest) => (n, rest)
  | t => (number? 4 t).map fun (n, rest) => (n, rest)

/-- A mark, before which blanks may stand. -/
def mark? (c : Char) (t : Text) : Option Text := Text.strip? [c] (Text.trimStart t)

/-- The nanoseconds of a fraction of a second, if there is one; digits after the ninth are
dropped. -/
def fraction? : Text → Option (Nat × Text)
  | '.' :: t =>
    let ds := t.takeWhile Char.isDigit
    if ds.isEmpty then none
    else
      let kept := ds.take 9
      let nanos := Nat.ofDigitChars 10 kept 0 * powerOfTen (9 - kept.length)
      some (nanos, t.dropWhile Char.isDigit)
  | t => some (0, t)

/-- The offset from universal time in seconds, and what follows it. Its hours and minutes have two
digits each. -/
def offset? (t : Text) : Option (Int × Text) :=
  match t with
  | 'Z' :: rest | 'z' :: rest => some (0, rest)
  | sign :: a :: b :: rest =>
    if sign ∈ ['+', '-', Char.ofNat 0x2212] && a.isDigit && b.isDigit then
      match rest.dropWhile fun c => c = ':' || Text.isBlank c with
      | c :: d :: rest =>
        if c.isDigit && c.toNat < 54 && d.isDigit then
          let hours := Nat.ofDigitChars 10 [a, b] 0
          let minutes := Nat.ofDigitChars 10 [c, d] 0
          let seconds : Int := hours * 3600 + minutes * 60
          if hours ≤ 23 then some (if sign = '+' then seconds else -seconds, rest) else none
        else none
      | _ => none
    else none
  | _ => none

/-- The offset, which may also be written by the name of universal time. -/
def zone? (t : Text) : Option (Int × Text) :=
  match t with
  | a :: b :: c :: rest =>
    if [a, b, c].map Char.toUpper = ['U', 'T', 'C'] then some (0, rest) else offset? t
  | _ => offset? t

/-- Reads a date, a time of day and an offset. -/
def read? (t : Text) : Option Timestamp := do
  let (year, t) ← year? t
  let t ← mark? '-' t
  let (month, t) ← field? 2 t
  let t ← mark? '-' t
  let (day, t) ← field? 2 t
  let t ←
    match t with
    | c :: t => if c = 'T' || c = 't' || c = ' ' then some t else none
    | [] => none
  let (hour, t) ← field? 2 t
  let t ← mark? ':' t
  let (minute, t) ← field? 2 t
  let t ← mark? ':' t
  let (second, t) ← field? 2 t
  let (nanos, t) ← fraction? t
  let (offset, t) ← zone? (Text.trimStart t)
  if !t.isEmpty || !isYear year || !isDate year month day || 23 < hour || 59 < minute ||
      60 < second then none
  else
    -- A leap second is the second before it once more, with nanoseconds beyond a whole second.
    let leap := second = 60
    let inDay : Int := hour * 3600 + minute * 60 + (if leap then 59 else second)
    let seconds := daysOfDate year month day * 86400 + inDay - offset
    if isYear (dateOfDays (seconds.fdiv 86400)).1 then
      some ⟨seconds, if leap then nanos + 1000000000 else nanos⟩
    else none

/-! ## Writing -/

/-- The digits of a number, filled up with zeros on the left to at least `width` of them. -/
def padded (width n : Nat) : Text :=
  let digits := Nat.toDigits 10 n
  List.replicate (width - digits.length) '0' ++ digits

/-- A year of four digits, or with a sign and at least five. -/
def yearText (year : Int) : Text :=
  if 0 ≤ year && year ≤ 9999 then padded 4 year.toNat
  else (if year < 0 then '-' else '+') :: padded 5 year.natAbs

/-- A fraction of a second in as few groups of three digits as tell it. -/
def fractionText (nanos : Nat) : Text :=
  if nanos = 0 then []
  else if nanos % 1000000 = 0 then '.' :: padded 3 (nanos / 1000000)
  else if nanos % 1000 = 0 then '.' :: padded 6 (nanos / 1000)
  else '.' :: padded 9 nanos

/-- The date and time of day in universal time. -/
def write (s : Timestamp) : Text :=
  let (year, month, day) := dateOfDays (s.seconds.fdiv 86400)
  let inDay := (s.seconds.fmod 86400).toNat
  let leap := 1000000000 ≤ s.nanos
  let second := inDay % 60 + (if leap then 1 else 0)
  yearText year ++ '-' :: padded 2 month ++ '-' :: padded 2 day ++
    'T' :: padded 2 (inDay / 3600) ++ ':' :: padded 2 (inDay / 60 % 60) ++
    ':' :: padded 2 second ++
    fractionText (if leap then s.nanos - 1000000000 else s.nanos) ++ ['Z']

end Timestamp

end Typeahead
