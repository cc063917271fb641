import CilBind.Float.Shortest

/-!
# `CilBind.Float.Remainder`: the remainder of a truncated division of floats

`x` minus the product of `y` with the quotient `x / y` rounded toward zero, as
C's `fmod` computes it. The result is exact, so it is found in integer
arithmetic on the two values' significands and written back as bits. It has the
sign of `x`; it is `x` itself when `y` is infinite or `x` is zero, and not a
number when `x` is infinite, `y` is zero, or either is not a number.
-/

set_option autoImplicit false

namespace CilBind.Floating

-- Powers are core's natural-number powers (literal exponents are written at type
-- `Nat`), also where another `Pow` instance is in scope.
attribute [local instance (high)] instPowNat

/-- The bits of the 64-bit float `±r · 2^e`, a value the format holds exactly. -/
def exactBits64 (negative : Bool) (r : Nat) (e : Int) : UInt64 :=
  let sign : Nat := if negative then 2 ^ (63 : Nat) else 0
  if r = 0 then sign.toUInt64
  else
    let shift : Int := (Nat.log2 r + 1 : Nat) - 53
    let m : Nat := if shift ≥ 0 then r / 2 ^ shift.toNat else r * 2 ^ (-shift).toNat
    let biased : Int := e + shift + 1075
    if biased ≥ 1 then (sign + biased.toNat * 2 ^ (52 : Nat) + (m - 2 ^ (52 : Nat))).toUInt64
    else (sign + m / 2 ^ (1 - biased).toNat).toUInt64

/-- The value that is not a number. -/
def notANumber : Float := 0.0 / 0.0

/-- The remainder of `x / y` rounded toward zero. -/
def rem (x y : Float) : Float :=
  match classify .binary64 x.toBits.toNat, classify .binary64 y.toBits.toNat with
  | .finite negative bx, .finite _ bY =>
    if bY.m = 0 then notANumber
    else if bx.m = 0 then x
    else
      let e := min bx.q bY.q
      let big := bx.m * 2 ^ (bx.q - e).toNat
      let small := bY.m * 2 ^ (bY.q - e).toNat
      Float.ofBits (exactBits64 negative (big % small) e)
  | .finite _ _, .infinite _ => x
  | _, _ => notANumber

end CilBind.Floating
