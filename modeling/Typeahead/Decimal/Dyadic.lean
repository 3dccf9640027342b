import Typeahead.Decimal.Power

/-!
Floating-point numbers as exact fractions. A finite number is a whole number times a power of
two, so decimal text of it can be made, and compared, in exact arithmetic.
-/
namespace Typeahead.Decimal

/-- The exact value of a floating-point number. -/
inductive Exact where
  | nan
  | infinite (negative : Bool)
  /-- `mantissa · 2 ^ exponent`. -/
  | finite (negative : Bool) (mantissa : Nat) (exponent : Int)
  deriving DecidableEq, Repr

/-- Reads the value off the bits of the number. -/
def Exact.ofFloat (x : Float) : Exact :=
  let bits := x.toBits.toNat
  let negative := bits / powerOfTwo 63 == 1
  let biased : Nat := bits / powerOfTwo 52 % powerOfTwo 11
  let fraction : Nat := bits % powerOfTwo 52
  if biased = 2047 then
    if fraction = 0 then .infinite negative else .nan
  else if biased = 0 then .finite negative fraction (-1074)
  else .finite negative (powerOfTwo 52 + fraction) ((biased : Int) - 1075)

end Typeahead.Decimal
