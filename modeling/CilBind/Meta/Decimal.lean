/-!
# `CilBind.Meta.Decimal`: 96-bit scaled decimals

A decimal is a magnitude of three 32-bit words, a sign and a scale: its value is
`± magnitude / 10^scale`. Building one from a signed mantissa checks that the
mantissa fits in 96 bits and that the scale is at most 28; building one from its
parts checks nothing.

Two decimals are equal when their normal forms agree: trailing zeros of the
magnitude are moved out of the scale, and the sign of zero is dropped. The text
of a decimal is that of its normal form, with a point placed `scale` digits from
the right and zeros in front when the magnitude has fewer digits.
-/

set_option autoImplicit false

namespace CilBind

/-- A magnitude of three words, a sign and a power of ten to divide by. -/
structure Decimal where
  lo : UInt32
  mid : UInt32
  hi : UInt32
  negative : Bool
  scale : UInt8
  deriving DecidableEq, Repr

namespace Decimal

-- Powers are core's natural-number powers (literal exponents are written at type
-- `Nat`), also where another `Pow` instance is in scope.
attribute [local instance (high)] instPowNat

/-- The largest scale a mantissa may be built with. -/
def maxScale : Nat := 28

/-- Zero with scale zero. -/
def zero : Decimal := ⟨0, 0, 0, false, 0⟩

/-- The 96-bit magnitude. -/
def magnitude (d : Decimal) : Nat :=
  d.hi.toNat * 2 ^ (64 : Nat) + d.mid.toNat * 2 ^ (32 : Nat) + d.lo.toNat

/-- Whether the magnitude is zero. -/
def isZero (d : Decimal) : Bool := d.magnitude = 0

/-- The decimal of a signed mantissa and a scale, if the mantissa fits in 96
bits and the scale is at most 28. -/
def ofMantissa? (mantissa : Int) (scale : Nat) : Option Decimal :=
  let m := mantissa.natAbs
  if m < 2 ^ (96 : Nat) ∧ scale ≤ maxScale then
    some ⟨(m % 2 ^ (32 : Nat)).toUInt32, (m / 2 ^ (32 : Nat) % 2 ^ (32 : Nat)).toUInt32,
      (m / 2 ^ (64 : Nat)).toUInt32, decide (mantissa < 0), scale.toUInt8⟩
  else none

/-- The normal form of a decimal's value: a sign, a magnitude and a scale with no
trailing zero that the scale could absorb. -/
structure Normal where
  negative : Bool
  magnitude : Nat
  scale : Nat
  deriving DecidableEq, Repr

/-- Moves trailing zeros of `m` out of the scale `s`, one per step while `s > 0`. -/
def strip : Nat → Nat → Nat × Nat
  | m, 0 => (m, 0)
  | m, s + 1 => if m % 10 = 0 then strip (m / 10) s else (m, s + 1)

/-- The normal form; zero is never negative. -/
def normal (d : Decimal) : Normal :=
  let (m, s) := strip d.magnitude d.scale.toNat
  ⟨d.negative && m != 0, m, s⟩

/-- Equality of values: the normal forms agree. -/
def equiv (a b : Decimal) : Bool := a.normal == b.normal

/-- The text of the value: the digits of the normal form with the point placed
`scale` digits from the right. -/
def text (d : Decimal) : String :=
  let n := d.normal
  let digits := Nat.toDigits 10 n.magnitude
  let sign := if n.negative then "-" else ""
  let body :=
    if n.scale = 0 then String.ofList digits
    else if digits.length > n.scale then
      String.ofList (digits.take (digits.length - n.scale) ++ ['.'] ++
        digits.drop (digits.length - n.scale))
    else
      String.ofList (['0', '.'] ++ List.replicate (n.scale - digits.length) '0' ++ digits)
  sign ++ body

end Decimal

end CilBind
