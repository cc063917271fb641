import CilBind.Text.Hex

/-!
# `CilBind.Signature.Error`: why a signature blob cannot be read

One constructor per cause. `SigError.message` gives the text that reports it;
numbers in flags and element types are written as `0x` and at least two hex
digits, offsets as decimal numbers.
-/

set_option autoImplicit false

namespace CilBind

/-- The causes for which reading or writing a signature blob stops. -/
inductive SigError where
  /-- The blob ends inside a value that starts before `offset`. -/
  | truncated (offset : Nat)
  /-- A value above `0x1FFFFFFF` has no compressed form. -/
  | overflow (value : UInt32)
  /-- The flags byte does not start a field signature. -/
  | notOnField (flags : UInt32)
  /-- The flags byte does not start a property signature. -/
  | notOnProperty (flags : UInt32)
  /-- The flags byte does not start a method signature. -/
  | notOnMethod (flags : UInt32)
  /-- The flags byte does not start a local variable signature. -/
  | notOnLocals (flags : UInt32)
  /-- A second rollback came with no read after the first. -/
  | doubleRollback
  /-- The tag names no element type. -/
  | unknownElementType (tag : UInt32)
  /-- An element type that the place being read does not allow. -/
  | unexpectedElementType (found : UInt32) (context : String)
  deriving DecidableEq, Repr

namespace SigError

/-- The name of the cause, as reports spell it. -/
def tag : SigError → String
  | truncated _ => "Truncated"
  | overflow _ => "Overflow"
  | notOnField _ => "NotOnField"
  | notOnProperty _ => "NotOnProperty"
  | notOnMethod _ => "NotOnMethod"
  | notOnLocals _ => "NotOnLocals"
  | doubleRollback => "DoubleRollback"
  | unknownElementType _ => "UnknownElementType"
  | unexpectedElementType _ _ => "UnexpectedElementType"

/-- The sentence that reports the cause. -/
def message : SigError → String
  | truncated o => s!"signature truncated at byte {o}"
  | overflow v => s!"value {Hex.alt v.toNat} does not fit the compressed integer encoding"
  | notOnField f => s!"not on a field signature (flags {Hex.padded 4 f.toNat})"
  | notOnProperty f => s!"not on a property signature (flags {Hex.padded 4 f.toNat})"
  | notOnMethod f => s!"not on a method signature (flags {Hex.padded 4 f.toNat})"
  | notOnLocals f => s!"not on a local variable signature (flags {Hex.padded 4 f.toNat})"
  | doubleRollback => "cannot roll back twice without an intervening read"
  | unknownElementType t => s!"unknown element type {Hex.padded 4 t.toNat}"
  | unexpectedElementType f c =>
    s!"unexpected element type {Hex.padded 4 f.toNat} while reading {c}"

end SigError

end CilBind
