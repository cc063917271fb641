import CilBind.Run.Value
import CilBind.Meta.Member

/-!
# `CilBind.Run.Host`: what a routine asks of the world around it

A routine never builds objects or calls methods itself: the host does, in a
monad `m` of its own choosing, and each request ends with a result or with the
host's reason for refusing it. A resolver gives an instance of a type for a
resolution context, or nothing.

`Host.standardDefault` and `Host.standardUnbox` give the plain answers for the requests a host need not
decide itself: a fresh local or `initobj` starts at the type's zero, boxing and
casting keep the value, and unboxing refuses only null for a value type.
-/

set_option autoImplicit false

namespace CilBind

/-- The object model that runs a routine's constructions, calls and field
accesses. -/
structure Host (m : Type → Type) where
  /-- Runs a constructor on its arguments and gives the new instance. -/
  construct : MethodRef → List Value → m (Except String Value)
  /-- Calls a method; the receiver of an instance method comes first. -/
  call : MethodRef → List Value → m (Except String (Option Value))
  /-- Reads a field; no target for a static field. -/
  loadField : FieldRef → Option Value → m (Except String Value)
  /-- Writes a field; no target for a static field. -/
  storeField : FieldRef → Option Value → Value → m (Except String Unit)
  /-- The value a fresh local of the type, or `initobj` on it, starts with. -/
  defaultValue : TypeRef → m (Except String Value)
  /-- Boxes a value of the type. -/
  box : TypeRef → Value → m (Except String Value)
  /-- Unboxes a value to the type. -/
  unbox : TypeRef → Value → m (Except String Value)
  /-- Casts a value to the type; nothing when it is no instance of it. -/
  cast : TypeRef → Value → m (Except String (Option Value))

/-- Gives an instance of a type for a resolution context, or nothing. -/
structure Resolver (m : Type → Type) where
  resolve : TypeRef → Value → m (Except String (Option Value))

namespace Host

/-- The zero of the type. -/
def standardDefault (ty : TypeRef) : Except String Value := .ok (Value.zero ty)

/-- Unboxing refuses null for a value type and keeps everything else. -/
def standardUnbox (ty : TypeRef) (v : Value) : Except String Value :=
  if v.isNull && ty.isValueType then .error s!"cannot unbox null to {ty.name}" else .ok v

end Host

end CilBind
