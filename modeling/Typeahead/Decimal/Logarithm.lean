import Typeahead.Decimal.Power

/-!
The natural logarithm of one plus a count, in floating-point arithmetic. The argument is written as
`2 ^ k · (1 + f)` with `f` small; the logarithm of `1 + f` comes from a polynomial in
`f / (2 + f)`, and what was lost when one was added is put back.
-/
namespace Typeahead.Decimal

/-- High part of the logarithm of two; its last bits are zero, so that multiples of it are exact. -/
def ln2High : Float := 6.93147180369123816490e-01

/-- The rest of the logarithm of two. -/
def ln2Low : Float := 1.90821492927058770002e-10

/-- The upper half of the bits. -/
def highWord (x : Float) : Nat := x.toBits.toNat / powerOfTwo 32

/-- The number with its upper half of bits replaced. -/
def withHighWord (x : Float) (high : Nat) : Float :=
  Float.ofBits (high * powerOfTwo 32 + x.toBits.toNat % powerOfTwo 32).toUInt64

/-- An argument of at least one as `2 ^ power · (1 + fraction)`, with the correction for the
rounding of one plus the argument. `tiny` tells that the fraction has no high bits. -/
structure Reduced where
  power : Int
  fraction : Float
  correction : Float
  tiny : Bool

/-- Reduces one plus the given number. -/
def reduce (x : Float) : Reduced :=
  let small := highWord x < 0x43400000
  let u := if small then 1.0 + x else x
  let high := highWord u
  let power : Int := ((high / powerOfTwo 20 : Nat) : Int) - 1023
  let lost := if 0 < power then 1.0 - (u - x) else x - (u - 1.0)
  let correction := if small then lost / u else 0.0
  let bits := high % powerOfTwo 20
  if bits < 0x6A09E then
    ⟨power, withHighWord u (bits + 0x3FF00000) - 1.0, correction, bits == 0⟩
  else
    let tiny := (powerOfTwo 20 - bits) / 4 == 0
    ⟨power + 1, withHighWord u (bits + 0x3FE00000) - 1.0, correction, tiny⟩

/-- The polynomial part, in `z = (f / (2 + f))²`. -/
def polynomial (z : Float) : Float :=
  let z2 := z * z
  let z4 := z2 * z2
  let z6 := z4 * z2
  let r1 := z * 6.666666666666735130e-01
  let r2 := 3.999999999940941908e-01 + z * 2.857142874366239149e-01
  let r3 := 2.222219843214978396e-01 + z * 1.818357216161805012e-01
  let r4 := 1.531383769920937332e-01 + z * 1.479819860511658591e-01
  r1 + z2 * r2 + z4 * r3 + z6 * r4

/-- The natural logarithm of one plus a count. -/
def logOnePlus (count : Nat) : Float :=
  if count = 0 then 0.0
  else
    let r := reduce (Float.ofNat count)
    let f := r.fraction
    let k := Float.ofInt r.power
    let half := 0.5 * f * f
    if r.tiny then
      if f == 0.0 then k * ln2High + (r.correction + k * ln2Low)
      else
        let rest := half * (1.0 - 0.66666666666666666 * f)
        k * ln2High - ((rest - (k * ln2Low + r.correction)) - f)
    else
      let s := f / (2.0 + f)
      let rest := polynomial (s * s)
      k * ln2High - ((half - (s * (half + rest) + (k * ln2Low + r.correction))) - f)

end Typeahead.Decimal
