import CilBind.Signature.Types
import CilBind.Code.Token
import CilBind.Code.Error

/-!
# `CilBind.Signature.Resolve`: from blob types to named types

A blob type becomes a named type of the metadata model. `Void`, `String`,
`Object` and the primitives map to their system types, and `TypedByRef` to the
value type `System.TypedReference`; class, value type and generic rows are looked
up in a token table and must resolve to a type. Arrays of either kind, pointers
and by-reference types wrap their element; generic parameters are named `!n` and
`!!n`; a function pointer is a native integer.
-/

set_option autoImplicit false

namespace CilBind

/-- The type a resolved token names, or the mismatch. -/
def Resolved.toType (token : UInt32) : Resolved → Except DecodeError TypeRef
  | .type t => .ok t
  | .member (.type t) => .ok t
  | other => .error (.tokenKind token "type" other.kindName)

/-- The type at a row of a type table. -/
def TokenTable.resolveRow (tbl : TokenTable) (row : TypeRow) : Except DecodeError TypeRef :=
  match tbl.resolve row.token with
  | .ok r => r.toType row.token
  | .error reason => .error (.token row.token reason)

namespace TypeSig

/-- The named type that a blob type stands for. -/
def toTypeRef (tbl : TokenTable) : TypeSig → Except DecodeError TypeRef
  | primitive .void => .ok .void
  | primitive .string => .ok .string
  | primitive .object => .ok .object
  | primitive .typedByRef => .ok (.valueType "System.TypedReference")
  | primitive et =>
    match et.primitive? with
    | some p => .ok (.primitive p)
    | none => .error (.signature (.unexpectedElementType et.code "type"))
  | classRow r => tbl.resolveRow r
  | valueTypeRow r => tbl.resolveRow r
  | genericInst _ b _ => tbl.resolveRow b
  | szArray _ e => TypeRef.array <$> e.toTypeRef tbl
  | array e _ => TypeRef.array <$> e.toTypeRef tbl
  | byRef e => TypeRef.byRef <$> e.toTypeRef tbl
  | ptr _ e => TypeRef.pointer <$> e.toTypeRef tbl
  | var n => .ok (.genericParam s!"!{n}")
  | mvar n => .ok (.genericParam s!"!!{n}")
  | fnPtr _ => .ok (.primitive .i)

end TypeSig

end CilBind
