import CilBind.Meta.TypeRef
import CilBind.Meta.Decimal
import CilBind.Float.Text
import CilBind.Text.Quoted

/-!
# `CilBind.Run.Value`: the values a routine computes with

A value is null, a 32- or 64-bit integer, a 32- or 64-bit float, a string, a
decimal, a host object, or a managed pointer to a local or an argument of the
running routine. A host object carries an identity, the name of its type and
the values it was built from; two objects are the same only when their
identities are.

Two values are equal when they are of the same kind and their payloads agree:
floats as IEEE numbers (a NaN equals nothing), decimals by value, objects by
identity. An `int32` never equals an `int64`.
-/

set_option autoImplicit false

namespace CilBind

/-- A slot of the evaluation stack, an argument or a local. -/
inductive Value where
  | null
  | i4 (v : Int32)
  | i8 (v : Int64)
  | r4 (v : Float32)
  | r8 (v : Float)
  | str (s : String)
  | decimal (d : Decimal)
  | object (id : Nat) (typeName : String) (args : List Value)
  | localAddr (i : UInt16)
  | argAddr (i : UInt16)
  deriving Inhabited

namespace Value

/-- The boolean as `int32` one or zero. -/
def ofBool (b : Bool) : Value := .i4 (if b then 1 else 0)

/-- Whether the value is null. -/
def isNull : Value → Bool
  | null => true
  | _ => false

/-- Whether the value is a host object. -/
def isObject : Value → Bool
  | object .. => true
  | _ => false

/-- The integer of an `int32` or `int64`. -/
def asInt? : Value → Option Int
  | i4 v => some v.toInt
  | i8 v => some v.toInt
  | _ => none

/-- The name of the value's kind, for messages. -/
def kindName : Value → String
  | null => "null"
  | i4 _ => "int32"
  | i8 _ => "int64"
  | r4 _ => "float32"
  | r8 _ => "float64"
  | str _ => "string"
  | decimal _ => "decimal"
  | object .. => "object"
  | localAddr _ | argAddr _ => "managed pointer"

/-- Equality of values. -/
def equal : Value → Value → Bool
  | null, null => true
  | i4 a, i4 b => a == b
  | i8 a, i8 b => a == b
  | r4 a, r4 b => a == b
  | r8 a, r8 b => a == b
  | str a, str b => a == b
  | decimal a, decimal b => a.equiv b
  | object a _ _, object b _ _ => a == b
  | localAddr a, localAddr b => a == b
  | argAddr a, argAddr b => a == b
  | _, _ => false

/-- The text of a value; an object has none of its own. -/
def text? : Value → Option String
  | null => some "null"
  | i4 v => some (toString v.toInt)
  | i8 v => some (toString v.toInt ++ "L")
  | r4 v => some (Floating.text32 v ++ "f")
  | r8 v => some (Floating.text64 v)
  | str s => some (Quoted.quote s)
  | decimal d => some (d.text ++ "m")
  | object .. => none
  | localAddr i => some s!"&loc{i.toNat}"
  | argAddr i => some s!"&arg{i.toNat}"

/-- The zero of a type's inline representation: 64-bit integer zero for the
64-bit integer primitives and enumerations over them, float zeros for the
floats, `int32` zero for the other primitives, decimal zero; null otherwise. -/
def zero (ty : TypeRef) : Value :=
  match ty.underlyingPrimitive? with
  | some .i8 | some .u8 => .i8 0
  | some .r4 => .r4 0
  | some .r8 => .r8 0
  | some _ => .i4 0
  | none => if ty.isDecimal then .decimal Decimal.zero else .null

end Value

end CilBind
