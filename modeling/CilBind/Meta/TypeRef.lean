/-!
# `CilBind.Meta.TypeRef`: named types of the metadata model

A type is void, a primitive value type, `System.Decimal`, an enumeration over a
primitive, another value type, a class, an array, a by-reference type, a pointer
or a generic parameter. The name of an array, by-reference or pointer type is
the name of its element followed by `[]`, `&` or `*`; every other name is given.

Values of primitive, decimal, enumeration, value and pointer types live inline;
the rest live behind references.
-/

set_option autoImplicit false

namespace CilBind

/-- The primitive value types. -/
inductive Primitive where
  | bool | char | i1 | u1 | i2 | u2 | i4 | u4 | i8 | u8 | r4 | r8 | i | u
  deriving DecidableEq, Repr

namespace Primitive

/-- Every primitive, in the order of the table. -/
def all : List Primitive := [bool, char, i1, u1, i2, u2, i4, u4, i8, u8, r4, r8, i, u]

/-- The short name (`Bool`, `I4`, …). -/
def tag : Primitive → String
  | bool => "Bool" | char => "Char" | i1 => "I1" | u1 => "U1" | i2 => "I2" | u2 => "U2"
  | i4 => "I4" | u4 => "U4" | i8 => "I8" | u8 => "U8" | r4 => "R4" | r8 => "R8"
  | i => "I" | u => "U"

/-- The primitive with the given short name. -/
def ofTag? (s : String) : Option Primitive := all.find? (fun p => p.tag = s)

/-- The full name of the system type. -/
def typeName : Primitive → String
  | bool => "System.Boolean" | char => "System.Char" | i1 => "System.SByte"
  | u1 => "System.Byte" | i2 => "System.Int16" | u2 => "System.UInt16"
  | i4 => "System.Int32" | u4 => "System.UInt32" | i8 => "System.Int64"
  | u8 => "System.UInt64" | r4 => "System.Single" | r8 => "System.Double"
  | i => "System.IntPtr" | u => "System.UIntPtr"

end Primitive

/-- A type of the metadata model. -/
inductive TypeRef where
  | void
  | primitive (p : Primitive)
  | decimal
  | enumeration (name : String) (underlying : Primitive)
  | valueType (name : String)
  | classType (name : String)
  | array (elem : TypeRef)
  | byRef (elem : TypeRef)
  | pointer (elem : TypeRef)
  | genericParam (name : String)
  deriving DecidableEq, Repr

namespace TypeRef

/-- `System.String`, a class. -/
def string : TypeRef := classType "System.String"

/-- `System.Object`, a class. -/
def object : TypeRef := classType "System.Object"

/-- The full name of the type. -/
def name : TypeRef → String
  | void => "System.Void"
  | primitive p => p.typeName
  | decimal => "System.Decimal"
  | enumeration n _ => n
  | valueType n => n
  | classType n => n
  | array e => e.name ++ "[]"
  | byRef e => e.name ++ "&"
  | pointer e => e.name ++ "*"
  | genericParam n => n

/-- Whether the type is void. -/
def isVoid : TypeRef → Bool
  | void => true
  | _ => false

/-- Whether values of the type live inline rather than behind a reference. -/
def isValueType : TypeRef → Bool
  | primitive _ | decimal | enumeration _ _ | valueType _ | pointer _ => true
  | _ => false

/-- The primitive that represents the type, looking through enumerations. -/
def underlyingPrimitive? : TypeRef → Option Primitive
  | primitive p | enumeration _ p => some p
  | _ => none

/-- Whether the type is `System.Decimal`. -/
def isDecimal : TypeRef → Bool
  | decimal => true
  | _ => false

end TypeRef

end CilBind
