import CilBind.Meta.TypeRef
import CilBind.Meta.Default

/-!
# `CilBind.Meta.Member`: methods, constructors and fields

A method has a name, a declaring type, parameters, a return type and a flag for
an implicit `this`. A constructor is the method named `.ctor`. A call pops one
value per parameter and one more for `this`; a method returns a value unless its
return type is void. A method is written `Declaring::name(T1, T2)` with the
parameter type names, and a field `Declaring::name`.
-/

set_option autoImplicit false

namespace CilBind

/-- A method parameter; an optional one carries its declared default. -/
structure ParamInfo where
  name : String
  ty : TypeRef
  default : Option DefaultValue

/-- A resolved method or constructor. -/
structure MethodRef where
  name : String
  declaring : TypeRef
  params : List ParamInfo
  returns : TypeRef
  hasThis : Bool

namespace MethodRef

/-- The name every constructor has. -/
def ctorName : String := ".ctor"

/-- Whether the method is a constructor. -/
def isConstructor (m : MethodRef) : Bool := m.name = ctorName

/-- The values a `call` or `callvirt` of the method pops, `this` included. -/
def callPops (m : MethodRef) : Nat := m.params.length + if m.hasThis then 1 else 0

/-- Whether a call leaves a value. -/
def returnsValue (m : MethodRef) : Bool := !m.returns.isVoid

/-- `Declaring::name(T1, T2)`. -/
def text (m : MethodRef) : String :=
  s!"{m.declaring.name}::{m.name}(" ++ ", ".intercalate (m.params.map (·.ty.name)) ++ ")"

end MethodRef

/-- A resolved field. -/
structure FieldRef where
  name : String
  declaring : TypeRef
  ty : TypeRef
  isStatic : Bool

/-- `Declaring::name`. -/
def FieldRef.text (f : FieldRef) : String := s!"{f.declaring.name}::{f.name}"

end CilBind
