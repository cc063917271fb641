import CilBind.Run.Value
import CilBind.Run.Error
import CilBind.Float.Remainder
import CilBind.Meta.Default

/-!
# `CilBind.Run.Arith`: arithmetic, comparison and conversion of stack values

Integer arithmetic wraps at the operands' width; division and remainder
truncate toward zero and refuse a zero divisor. Shift counts are taken modulo
the width, and a 64-bit value may be shifted by a 32-bit count. 32-bit floats
are computed in 64 bits and rounded back, which gives the same results as
32-bit arithmetic for these operations; a float remainder is `fmod`.

A comparison of integers is signed, or unsigned for `cgt.un` and `clt.un`;
floats compare as IEEE numbers, and the `.un` forms also hold when the two are
unordered. `ceq` on values of other kinds is value equality; `cgt.un` tells a
reference from null.

A conversion first reads the value as a 64-bit integer (floats truncated toward
zero and saturated, NaN as zero) and as a 64-bit float, then narrows.
-/

set_option autoImplicit false

namespace CilBind

namespace Arith

-- Powers are core's natural-number powers (literal exponents are written at type
-- `Nat`), also where another `Pow` instance is in scope.
attribute [local instance (high)] instPowNat

/-- The error of a binary operation on the given kinds. -/
def mismatch (op : OpCode) (a b : Value) : RunError :=
  .typeMismatch op s!"{a.kindName} and {b.kindName}"

/-- The error of a division by zero. -/
def divideByZero : RunError := .host "attempted to divide by zero"

/-- A binary integer operation at 32 bits. -/
def int32Op (op : OpCode) (a b : Int32) : Except RunError Int32 :=
  let n : Nat := b.toUInt32.toNat % 32
  match op with
  | .add => .ok (a + b)
  | .sub => .ok (a - b)
  | .mul => .ok (a * b)
  | .div => if b = 0 then .error divideByZero else .ok (a / b)
  | .rem => if b = 0 then .error divideByZero else .ok (a % b)
  | .and => .ok (a &&& b)
  | .or => .ok (a ||| b)
  | .xor => .ok (a ^^^ b)
  | .shl => .ok (Int32.ofInt (a.toInt * 2 ^ n))
  | .shr => .ok (Int32.ofInt (a.toInt >>> n))
  | _ => .ok (a.toUInt32 >>> n.toUInt32).toInt32

/-- A binary integer operation at 64 bits. -/
def int64Op (op : OpCode) (a b : Int64) : Except RunError Int64 :=
  let n : Nat := b.toUInt64.toNat % 64
  match op with
  | .add => .ok (a + b)
  | .sub => .ok (a - b)
  | .mul => .ok (a * b)
  | .div => if b = 0 then .error divideByZero else .ok (a / b)
  | .rem => if b = 0 then .error divideByZero else .ok (a % b)
  | .and => .ok (a &&& b)
  | .or => .ok (a ||| b)
  | .xor => .ok (a ^^^ b)
  | .shl => .ok (Int64.ofInt (a.toInt * 2 ^ n))
  | .shr => .ok (Int64.ofInt (a.toInt >>> n))
  | _ => .ok (a.toUInt64 >>> n.toUInt64).toInt64

/-- A binary float operation; only the five arithmetic ones exist. -/
def floatOp (op : OpCode) (x y : Float) : Option Float :=
  match op with
  | .add => some (x + y)
  | .sub => some (x - y)
  | .mul => some (x * y)
  | .div => some (x / y)
  | .rem => some (Floating.rem x y)
  | _ => none

/-- Whether `op` is one of the shifts. -/
def isShift (op : OpCode) : Bool := op = .shl || op = .shr || op = .shr_un

/-- `add`, `sub`, `mul`, `div`, `rem`, `and`, `or`, `xor`, `shl`, `shr` and
`shr.un` on the two topmost values, `a` below `b`. -/
def binary (op : OpCode) (a b : Value) : Except RunError Value :=
  match a, b with
  | .i4 x, .i4 y => .i4 <$> int32Op op x y
  | .i8 x, .i8 y => .i8 <$> int64Op op x y
  | .i8 x, .i4 y => if isShift op then .i8 <$> int64Op op x y.toInt64 else .error (mismatch op a b)
  | .r4 x, .r4 y =>
    match floatOp op x.toFloat y.toFloat with
    | some z => .ok (.r4 z.toFloat32)
    | none => .error (mismatch op a b)
  | .r8 x, .r8 y =>
    match floatOp op x y with
    | some z => .ok (.r8 z)
    | none => .error (mismatch op a b)
  | _, _ => .error (mismatch op a b)

/-- `neg` and `not`. -/
def unary (op : OpCode) (v : Value) : Except RunError Value :=
  match op, v with
  | .neg, .i4 x => .ok (.i4 (-x))
  | .neg, .i8 x => .ok (.i8 (-x))
  | .neg, .r4 x => .ok (.r4 (-x))
  | .neg, .r8 x => .ok (.r8 (-x))
  | .not, .i4 x => .ok (.i4 (~~~x))
  | .not, .i8 x => .ok (.i8 (~~~x))
  | _, _ => .error (.typeMismatch op v.kindName)

/-- The order of two floats, none when they are unordered. -/
def floatOrder (x y : Float) : Option Ordering :=
  if x < y then some .lt else if x > y then some .gt else if x == y then some .eq else none

/-- `ceq`, `cgt`, `cgt.un`, `clt` and `clt.un` on `a` below `b`. -/
def compare (op : OpCode) (a b : Value) : Except RunError Bool :=
  let unsigned := op = .cgt_un || op = .clt_un
  let order : Except RunError (Option Ordering) :=
    match a, b with
    | .i4 x, .i4 y =>
      .ok (some (if unsigned then Ord.compare x.toUInt32 y.toUInt32 else Ord.compare x.toInt y.toInt))
    | .i8 x, .i8 y =>
      .ok (some (if unsigned then Ord.compare x.toUInt64 y.toUInt64 else Ord.compare x.toInt y.toInt))
    | .r4 x, .r4 y => .ok (floatOrder x.toFloat y.toFloat)
    | .r8 x, .r8 y => .ok (floatOrder x y)
    | _, _ => .error (mismatch op a b)
  match order with
  | .ok o =>
    match op with
    | .ceq => .ok (o == some .eq)
    | .cgt => .ok (o == some .gt)
    | .clt => .ok (o == some .lt)
    | .cgt_un => .ok (o == some .gt || o == none)
    | _ => .ok (o == some .lt || o == none)
  | .error e =>
    if op = .ceq then .ok (a.equal b)
    else match op, a, b with
      | .cgt_un, .object .., .null => .ok true
      | .cgt_un, .str _, .null => .ok true
      | .cgt_un, .null, .null => .ok false
      | _, _, _ => .error e

/-- A float truncated toward zero, saturated at the 64-bit range, NaN as zero. -/
def truncate (x : Float) : Int := x.toInt64.toInt

/-- The conversions `conv.i1` … `conv.r8`. -/
def convert (op : OpCode) (v : Value) : Except RunError Value := do
  let (int, float) ← match v with
    | .i4 x => pure (x.toInt, x.toInt64.toFloat)
    | .i8 x => pure (x.toInt, x.toFloat)
    | .r4 x => pure (truncate x.toFloat, x.toFloat)
    | .r8 x => pure (truncate x, x)
    | other => throw (.typeMismatch op other.kindName)
  match op with
  | .conv_i1 => pure (.i4 (Int32.ofInt (IntWidth.i8.normalize int)))
  | .conv_i2 => pure (.i4 (Int32.ofInt (IntWidth.i16.normalize int)))
  | .conv_i4 => pure (.i4 (Int32.ofInt int))
  | .conv_u1 => pure (.i4 (Int32.ofInt (IntWidth.u8.normalize int)))
  | .conv_u2 => pure (.i4 (Int32.ofInt (IntWidth.u16.normalize int)))
  | .conv_u4 => pure (.i4 (Int32.ofInt int))
  | .conv_r4 => pure (.r4 float.toFloat32)
  | .conv_r8 => pure (.r8 float)
  | .conv_u8 | .conv_u =>
    match v with
    | .i4 x => pure (.i8 (Int64.ofInt (IntWidth.u32.normalize x.toInt)))
    | _ => pure (.i8 (Int64.ofInt int))
  | _ => pure (.i8 (Int64.ofInt int))

end Arith

end CilBind
