import Typeahead.Decimal.Dyadic

/-!
The shortest decimal text that reads back as the same floating-point number.
-/
namespace Typeahead.Decimal

/-! ## Numbers that read back -/

/-- A decimal number: the digits as one whole number, times a power of ten. -/
structure Digits where
  digits : Nat
  power : Int
  deriving DecidableEq, Repr

/-- The open interval of numbers that read back as a given one, as fractions of a common
denominator, with the ends included when `closed`. -/
structure Interval where
  low : Nat
  value : Nat
  high : Nat
  den : Nat
  closed : Bool
  deriving DecidableEq, Repr

/-- The interval around `mantissa · 2 ^ exponent`. Below a power of two the neighbour is half as far
away. -/
def Interval.around (mantissa : Nat) (exponent : Int) : Interval :=
  let near := mantissa = powerOfTwo 52 && exponent ≠ -1074
  let low := 4 * mantissa - (if near then 1 else 2)
  let closed := mantissa % 2 = 0
  if 0 ≤ exponent then
    let unit := powerOfTwo exponent.toNat
    ⟨low * unit, 4 * mantissa * unit, (4 * mantissa + 2) * unit, 4, closed⟩
  else ⟨low, 4 * mantissa, 4 * mantissa + 2, 4 * powerOfTwo (-exponent).toNat, closed⟩

namespace Interval

/-- Whether `digits · 10 ^ power` lies in the interval. -/
def holds (i : Interval) (d : Digits) : Bool :=
  let (num, den) :=
    if 0 ≤ d.power then (d.digits * powerOfTen d.power.toNat * i.den, 1)
    else (d.digits * i.den, powerOfTen (-d.power).toNat)
  if i.closed then i.low * den ≤ num && num ≤ i.high * den
  else i.low * den < num && num < i.high * den

/-- The whole count of `10 ^ power` in the value, and what is left over, as a fraction. -/
def count (i : Interval) (power : Int) : Nat × Nat × Nat :=
  let (num, den) :=
    if 0 ≤ power then (i.value, i.den * powerOfTen power.toNat)
    else (i.value * powerOfTen (-power).toNat, i.den)
  (num / den, num % den, den)

/-- The neighbour of the value among the multiples of `10 ^ power` that lies in the interval, the
nearer one if both do and the even one if they are equally near. -/
def hit? (i : Interval) (power : Int) : Option Digits :=
  let (below, left, den) := i.count power
  let lower : Digits := ⟨below, power⟩
  let upper : Digits := ⟨below + 1, power⟩
  let lowerFirst := 2 * left < den || (2 * left == den && below % 2 == 0)
  match i.holds lower, i.holds upper with
  | true, true => some (if lowerFirst then lower else upper)
  | true, false => some lower
  | false, true => some upper
  | false, false => none

/-- The first hit among the powers from the given one down. -/
def search (i : Interval) (power : Int) : Nat → Option Digits
  | 0 => none
  | fuel + 1 =>
    match i.hit? power with
    | some d => some d
    | none => search i (power - 1) fuel

end Interval

/-! ## The shortest one -/

/-- Moves the zeros that end the digits into the power. -/
def Digits.strip (d : Digits) : Nat → Digits
  | 0 => d
  | fuel + 1 =>
    if d.digits ≠ 0 && d.digits % 10 = 0 then Digits.strip ⟨d.digits / 10, d.power + 1⟩ fuel else d

/-- The decimal with the fewest digits that reads back as `mantissa · 2 ^ exponent`, and among
those the nearest. -/
def shortest (mantissa : Nat) (exponent : Int) : Digits :=
  if mantissa = 0 then ⟨0, 0⟩
  else
    let i := Interval.around mantissa exponent
    let start : Int := (Nat.toDigits 10 (i.high / i.den)).length
    ((i.search start (360 + start.toNat)).getD ⟨mantissa, exponent⟩).strip 20

end Typeahead.Decimal
