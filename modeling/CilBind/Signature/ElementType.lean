import CilBind.Meta.TypeRef
import CilBind.Signature.Error

/-!
# `CilBind.Signature.ElementType`: the element type tags of signature blobs

Each tag is a compressed integer of the blob. The tags from `0x01` to `0x0D` and
`I`, `U` denote primitives (`Boolean` is the primitive `Bool`); the rest
introduce strings, objects, composite types, modifiers or markers. A number
outside the table is no tag.

Main statement: `ofCode_code`, every tag is read back from its own number.
-/

set_option autoImplicit false

namespace CilBind

/-- An element type tag. -/
inductive ElementType where
  | end_ | void | boolean | char | i1 | u1 | i2 | u2 | i4 | u4 | i8 | u8 | r4 | r8
  | string | ptr | byRef | valueType | classType | var | array | genericInst | typedByRef
  | i | u | fnPtr | object | szArray | mvar | cmodReqd | cmodOpt | internal
  | modifier | sentinel | pinned
  deriving DecidableEq, Repr

namespace ElementType

/-- Every tag, in the order of their numbers. -/
def all : List ElementType :=
  [end_, void, boolean, char, i1, u1, i2, u2, i4, u4, i8, u8, r4, r8, string, ptr, byRef,
    valueType, classType, var, array, genericInst, typedByRef, i, u, fnPtr, object, szArray,
    mvar, cmodReqd, cmodOpt, internal, modifier, sentinel, pinned]

/-- The number of the tag. -/
def code : ElementType → UInt32
  | end_ => 0x00 | void => 0x01 | boolean => 0x02 | char => 0x03 | i1 => 0x04
  | u1 => 0x05 | i2 => 0x06 | u2 => 0x07 | i4 => 0x08 | u4 => 0x09 | i8 => 0x0A
  | u8 => 0x0B | r4 => 0x0C | r8 => 0x0D | string => 0x0E | ptr => 0x0F
  | byRef => 0x10 | valueType => 0x11 | classType => 0x12 | var => 0x13
  | array => 0x14 | genericInst => 0x15 | typedByRef => 0x16 | i => 0x18 | u => 0x19
  | fnPtr => 0x1B | object => 0x1C | szArray => 0x1D | mvar => 0x1E
  | cmodReqd => 0x1F | cmodOpt => 0x20 | internal => 0x21 | modifier => 0x40
  | sentinel => 0x41 | pinned => 0x45

/-- The name of the tag. -/
def name : ElementType → String
  | end_ => "End" | void => "Void" | boolean => "Boolean" | char => "Char"
  | i1 => "I1" | u1 => "U1" | i2 => "I2" | u2 => "U2" | i4 => "I4" | u4 => "U4"
  | i8 => "I8" | u8 => "U8" | r4 => "R4" | r8 => "R8" | string => "String"
  | ptr => "Ptr" | byRef => "ByRef" | valueType => "ValueType" | classType => "Class"
  | var => "Var" | array => "Array" | genericInst => "GenericInst"
  | typedByRef => "TypedByRef" | i => "I" | u => "U" | fnPtr => "FnPtr"
  | object => "Object" | szArray => "SzArray" | mvar => "MVar"
  | cmodReqd => "CModReqd" | cmodOpt => "CModOpt" | internal => "Internal"
  | modifier => "Modifier" | sentinel => "Sentinel" | pinned => "Pinned"

/-- The tag with number `n`; any other number is an unknown tag. -/
def ofCode (n : UInt32) : Except SigError ElementType :=
  match all.find? (fun e => e.code = n) with
  | some e => .ok e
  | none => .error (.unknownElementType n)

/-- The primitive the tag denotes, if it denotes one. -/
def primitive? : ElementType → Option Primitive
  | boolean => some .bool | char => some .char | i1 => some .i1 | u1 => some .u1
  | i2 => some .i2 | u2 => some .u2 | i4 => some .i4 | u4 => some .u4
  | i8 => some .i8 | u8 => some .u8 | r4 => some .r4 | r8 => some .r8
  | i => some .i | u => some .u
  | _ => none

theorem ofCode_code (e : ElementType) : ofCode e.code = .ok e := by
  cases e <;> rfl

end ElementType

end CilBind
