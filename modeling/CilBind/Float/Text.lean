import CilBind.Float.Shortest

/-!
# `CilBind.Float.Text`: floating-point values as positional decimal text

Values are written with the fewest digits that read back, and never with an
exponent: the digits are padded with zeros before the point or after the
leading `0.`, and an integral value has no point at all. A negative value,
negative zero included, starts with `-`; the infinities are `inf` and `-inf`,
and every value that is not a number is `NaN`.
-/

set_option autoImplicit false

namespace CilBind.Floating

/-- The digits of `d` laid out with a point and no exponent. -/
def Dec.positional (d : Dec) : String :=
  let ds := Nat.toDigits 10 d.digits
  let point : Int := d.exp + ds.length
  if d.exp ≥ 0 then
    String.ofList (ds ++ List.replicate d.exp.toNat '0')
  else if point ≤ 0 then
    String.ofList (['0', '.'] ++ List.replicate (-point).toNat '0' ++ ds)
  else
    String.ofList (ds.take point.toNat ++ ['.'] ++ ds.drop point.toNat)

/-- The text of the value whose bits in format `f` are `bits`. -/
def text (f : Format) (bits : Nat) : String :=
  match classify f bits with
  | .nan => "NaN"
  | .infinite negative => if negative then "-inf" else "inf"
  | .finite negative x =>
    let body := if x.m = 0 then "0" else (x.shortest f).positional
    if negative then "-" ++ body else body

/-- The text of a 64-bit value. -/
def text64 (x : Float) : String := text .binary64 x.toBits.toNat

/-- The text of a 32-bit value. -/
def text32 (x : Float32) : String := text .binary32 x.toBits.toNat

end CilBind.Floating
