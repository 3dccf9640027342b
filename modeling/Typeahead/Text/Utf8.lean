import Typeahead.Text.Basic

/-!
Bytes read as UTF-8. A broken sequence is found at the first byte that cannot continue it; that byte
is then read anew.
-/
namespace Typeahead.Text

namespace Utf8

/-- A character of which some bytes have been read: how many more it needs, the bounds of the next
one, and the value so far. -/
structure Pending where
  need : Nat
  low : UInt8
  high : UInt8
  value : Nat
  deriving DecidableEq, Repr

/-- What a first byte begins: a whole character, the start of a longer one, or nothing. -/
def first (b : UInt8) : Option Char ⊕ Pending :=
  if b < 0x80 then .inl (some (Char.ofNat b.toNat))
  else if 0xC2 ≤ b && b ≤ 0xDF then .inr ⟨1, 0x80, 0xBF, b.toNat % 32⟩
  else if b = 0xE0 then .inr ⟨2, 0xA0, 0xBF, 0⟩
  else if b = 0xED then .inr ⟨2, 0x80, 0x9F, 13⟩
  else if 0xE1 ≤ b && b ≤ 0xEF then .inr ⟨2, 0x80, 0xBF, b.toNat % 16⟩
  else if b = 0xF0 then .inr ⟨3, 0x90, 0xBF, 0⟩
  else if 0xF1 ≤ b && b ≤ 0xF3 then .inr ⟨3, 0x80, 0xBF, b.toNat % 8⟩
  else if b = 0xF4 then .inr ⟨3, 0x80, 0x8F, 4⟩
  else .inl none

/-- The characters of a byte sequence; none stands for a broken one. -/
def read (pending : Option Pending) : List UInt8 → List (Option Char)
  | [] => if pending.isSome then [none] else []
  | b :: bs =>
    let start :=
      match first b with
      | .inl c => c :: read none bs
      | .inr p => read (some p) bs
    match pending with
    | none => start
    | some p =>
      if p.low ≤ b && b ≤ p.high then
        let value := p.value * 64 + b.toNat % 64
        if p.need ≤ 1 then some (Char.ofNat value) :: read none bs
        else read (some ⟨p.need - 1, 0x80, 0xBF, value⟩) bs
      else none :: start

end Utf8

/-- The text of the bytes, if they are well-formed UTF-8. -/
def ofUtf8? (bytes : List UInt8) : Option Text := (Utf8.read none bytes).mapM id

/-- The text of the bytes, each broken sequence shown as the replacement character. -/
def ofUtf8Lossy (bytes : List UInt8) : Text :=
  (Utf8.read none bytes).map (·.getD (Char.ofNat 0xFFFD))

/-- Number of bytes that a text takes in UTF-8. -/
def utf8Size : Text → Nat
  | [] => 0
  | c :: cs => c.utf8Size + utf8Size cs

end Typeahead.Text
