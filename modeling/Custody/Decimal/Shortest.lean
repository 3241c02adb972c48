import Custody.Decimal.Binary64

namespace Custody

/-!
# Shortest decimal text of a binary number

A number is printed with the fewest decimal digits that still read back as it, and among
those with the digits nearest to it; a tie goes to the larger.  All of it is exact arithmetic
on natural numbers.

* `Decimal.shortest` -- the digits, for a finite magnitude.
* `NumberStyle` -- the layout: where positional notation ends and how a whole number is shown.
* `Binary64.text` -- the printed number.
-/

/-- The number `digits * 10 ^ exponent`. -/
structure Decimal where
  digits : Nat
  exponent : Int
  deriving DecidableEq, Repr

namespace Decimal

/-- The number of decimal digits of `n`. -/
def length (n : Nat) : Nat := (Nat.toDigits 10 n).length

/-- The same number without trailing zeros in its digits; `fuel` bounds how many are dropped. -/
def strip : Nat → Decimal → Decimal
  | 0, d => d
  | fuel + 1, d =>
    if d.digits ≠ 0 ∧ d.digits % 10 = 0 then strip fuel ⟨d.digits / 10, d.exponent + 1⟩ else d

/-- The fraction `b ^ e` as a numerator and a denominator. -/
def power (b : Nat) (e : Int) : Nat × Nat := (Nat.pow b e.toNat, Nat.pow b (-e).toNat)

/-- The exponent of the leading decimal digit of `num / den`, both positive. -/
def leading (num den : Nat) : Int :=
  let e : Int := (length num : Int) - length den
  let (up, down) := power 10 e
  if den * up ≤ num * down then e else e - 1

/-- The interval of reals that round to `mantissa * 2 ^ exponent`, in quarters of the unit
    `2 ^ exponent`: the value, the lower end and the upper end. -/
def interval (mantissa : Nat) (narrowBelow : Bool) : Nat × Nat × Nat :=
  (4 * mantissa, 4 * mantissa - (if narrowBelow then 1 else 2), 4 * mantissa + 2)

/-- The multiple of `10 ^ k` nearest to `mantissa * 2 ^ exponent` among its two neighbours
    that read back as it, if one does.  The ends of the interval read back for an even mantissa. -/
def onGrid? (mantissa : Nat) (exponent : Int) (narrowBelow : Bool) (k : Int) : Option Decimal :=
  let (value, lower, upper) := interval mantissa narrowBelow
  -- One step of the grid is `a / b` quarters.
  let (ten, tenBelow) := power 10 k
  let (two, twoBelow) := power 2 (2 - exponent)
  let a := ten * two
  let b := tenBelow * twoBelow
  let below := value * b / a
  let readsBack (d : Nat) : Bool :=
    if mantissa % 2 = 0 then lower * b ≤ d * a && d * a ≤ upper * b
    else lower * b < d * a && d * a < upper * b
  let aboveIsNearer : Bool := (below + 1) * a - value * b ≤ value * b - below * a
  if readsBack below && !(readsBack (below + 1) && aboveIsNearer) then some ⟨below, k⟩
  else if readsBack (below + 1) then some ⟨below + 1, k⟩
  else none

/-- The fewest digits that read back as `mantissa * 2 ^ exponent`.  Seventeen always do. -/
def shortest (mantissa : Nat) (exponent : Int) (narrowBelow : Bool) : Decimal :=
  if mantissa = 0 then ⟨0, 0⟩ else
    let (two, twoBelow) := power 2 exponent
    let first := leading (mantissa * two) twoBelow
    let found := (List.range 17).findSome? fun (n : Nat) =>
      onGrid? mantissa exponent narrowBelow (first - n)
    strip 17 (found.getD ⟨0, 0⟩)

end Decimal

/-- How a number is laid out. -/
structure NumberStyle where
  /-- The exponents of the leading digit that are written positionally, from the first up to
      but not including the second; without bounds, all are. -/
  positional : Option (Int × Int)
  /-- What follows the digits of a whole number. -/
  wholeMark : String
  deriving DecidableEq, Repr

namespace NumberStyle

/-- The layout of numbers in reports: a whole number shows a point, and exponents outside
    -4 to 15 are written out. -/
def report : NumberStyle := ⟨some (-4, 16), ".0"⟩

/-- The layout of numbers in stored entries: always positional, and a point only before
    a fraction. -/
def entry : NumberStyle := ⟨none, ""⟩

/-- The digits of `d` with a point where its exponent puts it. -/
def positionalText (style : NumberStyle) (d : Decimal) : String :=
  let ds := Nat.toDigits 10 d.digits
  if 0 ≤ d.exponent then
    String.ofList (ds ++ List.replicate d.exponent.toNat '0') ++ style.wholeMark
  else
    let places := (-d.exponent).toNat
    let padded := List.replicate (places + 1 - ds.length) '0' ++ ds
    let whole := padded.length - places
    String.ofList (padded.take whole) ++ "." ++ String.ofList (padded.drop whole)

/-- The digits of `d` with the point after the first, and the exponent of the first. -/
def exponentText (d : Decimal) (e : Int) : String :=
  match Nat.toDigits 10 d.digits with
  | [] => ""
  | [c] => String.ofList [c] ++ s!"e{e}"
  | c :: rest => String.ofList (c :: '.' :: rest) ++ s!"e{e}"

/-- A decimal number without sign, laid out. -/
def text (style : NumberStyle) (d : Decimal) : String :=
  let e := d.exponent + Decimal.length d.digits - 1
  match style.positional with
  | none => style.positionalText d
  | some (first, last) =>
    if d.digits = 0 ∨ (first ≤ e ∧ e < last) then style.positionalText d else exponentText d e

end NumberStyle

/-- The number in this layout.  The sign of zero is shown, that of a NaN is not. -/
def Binary64.text (style : NumberStyle) (x : Binary64) : String :=
  let sign := if x.isNegative then "-" else ""
  match x.magnitude with
  | .notANumber => "NaN"
  | .infinite => sign ++ "inf"
  | .finite mantissa exponent narrowBelow =>
    sign ++ style.text (Decimal.shortest mantissa exponent narrowBelow)

end Custody
