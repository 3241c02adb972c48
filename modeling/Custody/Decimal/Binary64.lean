namespace Custody

/-!
# Binary floating-point numbers

Reals pass through the library as the 64 bits in which the host writes them.  Nothing is
computed with them, so equality is equality of bits; only printing looks at the value.

* `Binary64.magnitude` -- the number that the bits stand for, as `m * 2 ^ q` with `m` a natural
  number, or one of the two special cases.
* `Binary64.hex` and `Binary64.ofHex?` -- the bits as sixteen hexadecimal digits.
-/

/-- A 64-bit binary floating-point number, by its bits. -/
structure Binary64 where
  bits : UInt64
  deriving DecidableEq, Repr

namespace Binary64

/-- What the bits of a number stand for, its sign apart. -/
inductive Magnitude where
  | notANumber
  | infinite
  /-- The value `mantissa * 2 ^ exponent`; `narrowBelow` says that the next smaller number is
      half as far away as the next larger one. -/
  | finite (mantissa : Nat) (exponent : Int) (narrowBelow : Bool)
  deriving DecidableEq, Repr

/-- Positive zero. -/
def zero : Binary64 := ⟨0⟩

/-- Whether the sign bit is set. -/
def isNegative (x : Binary64) : Bool := 1 <<< 63 ≤ x.bits.toNat

/-- The number that the bits stand for, its sign apart. -/
def magnitude (x : Binary64) : Magnitude :=
  let fraction : Nat := x.bits.toNat % (1 <<< 52)
  let exponent : Nat := (x.bits.toNat >>> 52) % (1 <<< 11)
  if exponent = (1 <<< 11) - 1 then
    if fraction = 0 then .infinite else .notANumber
  else if exponent = 0 then .finite fraction (-1074) false
  else .finite ((1 <<< 52) + fraction) ((exponent : Int) - 1075) (fraction == 0 && 1 < exponent)

/-- The bits as sixteen lowercase hexadecimal digits. -/
def hex (x : Binary64) : String :=
  let digits := Nat.toDigits 16 x.bits.toNat
  String.ofList (List.replicate (16 - digits.length) '0' ++ digits)

/-- The value of a hexadecimal digit. -/
def hexDigit? (c : Char) : Option Nat :=
  if '0' ≤ c ∧ c ≤ '9' then some (c.toNat - '0'.toNat)
  else if 'a' ≤ c ∧ c ≤ 'f' then some (c.toNat - 'a'.toNat + 10)
  else none

/-- The number with these bits, if the text is sixteen hexadecimal digits. -/
def ofHex? (text : String) : Option Binary64 := do
  let digits ← text.toList.mapM hexDigit?
  if digits.length = 16 then
    some ⟨UInt64.ofNat (digits.foldl (fun n d => 16 * n + d) 0)⟩
  else none

end Binary64

end Custody
