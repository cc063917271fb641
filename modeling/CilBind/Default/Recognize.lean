import CilBind.Default.Composite
import CilBind.Tree.Slots

/-!
# `CilBind.Default.Recognize`: is a constructor argument its declared default?

Only the shapes a compiler emits for a default are recognized; anything else is
taken as a value passed on purpose.

* An integer default: a constant load, or one widened by `conv.i8`, `conv.u8`,
  `conv.i` or `conv.u`, whose value read at the default's width is the default.
  The unsigned widenings read a 32-bit constant as unsigned first.
* A float default: a float constant load equal to it, or both not a number.
* A boolean default: `ldc.i4.1` for true, `ldc.i4.0` for false.
* A decimal default: a decimal composite equal to it.
* A null default of a value type: a load of a local that exactly one other
  instruction touches (`ldloca; initobj; ldloc`), when such struct defaults are
  recognized at all.
* Any other null default: `ldnull`.
-/

set_option autoImplicit false

namespace CilBind

/-- What a recognizer sees: the forest, its slot index, and whether struct
defaults count. -/
structure Recognizer where
  forest : Forest
  slots : SlotIndex
  structDefaults : Bool

namespace Recognizer

-- Powers are core's natural-number powers (literal exponents are written at type
-- `Nat`), also where another `Pow` instance is in scope.
attribute [local instance (high)] instPowNat

/-- The recognizer of a forest. -/
def ofForest (f : Forest) (structDefaults : Bool) : Recognizer :=
  ⟨f, SlotIndex.ofForest f, structDefaults⟩

/-- The value of a short constant load `ldc.i4.m1` to `ldc.i4.8`. -/
def shortConstant? (op : OpCode) : Option Int :=
  match op with
  | .ldc_i4_m1 => some (-1) | .ldc_i4_0 => some 0 | .ldc_i4_1 => some 1
  | .ldc_i4_2 => some 2 | .ldc_i4_3 => some 3 | .ldc_i4_4 => some 4
  | .ldc_i4_5 => some 5 | .ldc_i4_6 => some 6 | .ldc_i4_7 => some 7
  | .ldc_i4_8 => some 8
  | _ => none

/-- Whether packet `p` loads an integer that reads as `value` at `width`. -/
def isInt (r : Recognizer) (p : Packet) (value : Int) (width : IntWidth) : Bool :=
  let (inner, zeroExtend) :=
    match p.instr.opcode, p.children with
    | .conv_i8, [c] | .conv_i, [c] => ((r.forest.get? c).map Packet.instr, false)
    | .conv_u8, [c] | .conv_u, [c] => ((r.forest.get? c).map Packet.instr, true)
    | _, _ => (some p.instr, false)
  match inner with
  | none => false
  | some i =>
    match (shortConstant? i.opcode).or i.intLiteral? with
    | none => false
    | some raw =>
      let raw := if zeroExtend && i.opcode != OpCode.ldc_i8 then (Int.emod raw (2 ^ (32 : Nat) : Nat)) else raw
      width.normalize raw == value

/-- Whether a float constant load pushes `expected`, NaN matching NaN. -/
def floatMatches (i : Instruction) (expected : Float) : Bool :=
  match i.floatLiteral? with
  | some v => v == expected || (v.isNaN && expected.isNaN)
  | none => false

/-- Whether packet `id` evaluates to `default` for a parameter of type `ty`. -/
def isDefault (r : Recognizer) (id : Nat) (ty : TypeRef) (default : DefaultValue) :
    Except ClassifyError Bool := do
  let some p := r.forest.get? id | return false
  let i := p.instr
  match default with
  | .int v w => return r.isInt p v w
  | .f32 v => return floatMatches i v.toFloat
  | .f64 v => return floatMatches i v
  | .decimal d =>
    match ← r.forest.composite id with
    | some lit => return lit.equiv d
    | none => return false
  | .bool b => return i.opcode == (if b then .ldc_i4_1 else .ldc_i4_0)
  | .null =>
    if ty.isValueType then
      return r.structDefaults && match i.localIndex? with
        | some slot => r.slots.refCount slot == 2
        | none => false
    else return i.opcode == .ldnull

end Recognizer

end CilBind
