/-!
Powers of two and of ten, and the range of a 64-bit word.
-/
namespace Typeahead

namespace Decimal

/-- Two multiplied with itself, `n` times. -/
def powerOfTwo (n : Nat) : Nat := Nat.pow 2 n

/-- Ten multiplied with itself, `n` times. -/
def powerOfTen (n : Nat) : Nat := Nat.pow 10 n

end Decimal

/-- The first number that does not fit an unsigned 64-bit word. -/
def wordLimit : Nat := 0x10000000000000000

end Typeahead
