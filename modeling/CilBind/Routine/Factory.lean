import CilBind.Routine.Error
import CilBind.Routine.Op
import CilBind.Run.Value
import CilBind.Signature.Resolve

/-!
# `CilBind.Routine.Factory`: what a factory brings to be partially applied

A factory is a body of instructions that constructs an instance from a
resolution context and its own parameters. It comes with the table its tokens
are looked up in, the state it captured as a target when it is an instance
body, its declared return type, and its locals: either a list of types, or a
local variable signature, which wins when both are given.

`FactoryDefinition.localTypes` reads the signature when there is one; a local
marked by-reference in it has the by-reference type.
-/

set_option autoImplicit false

namespace CilBind

/-- Everything a factory brings to be partially applied. -/
structure FactoryDefinition where
  key : FactoryKey
  body : List UInt8
  tokens : TokenTable
  /-- The captured state of an instance body; a static body has none. -/
  target : Option Value
  params : List ParamInfo
  returns : TypeRef
  locals : List TypeRef
  /-- A local variable signature, which takes the place of `locals`. -/
  localSig : Option (List UInt8)
  /-- Whether the body has suspension points. -/
  isAsync : Bool

namespace FactoryDefinition

/-- An instance body takes its target as the first argument. -/
def hasThis (d : FactoryDefinition) : Bool := d.target.isSome

/-- The types of the locals, read from the local signature when there is one. -/
def localTypes (d : FactoryDefinition) : Except SynthesisError (List TypeRef) :=
  match d.localSig with
  | none => .ok d.locals
  | some blob =>
    match SigReader.readLocals (SigReader.ofBytes blob) with
    | .error e _ => .error (.signature e)
    | .ok sigs _ =>
      sigs.mapM fun l =>
        match l.ty.toTypeRef d.tokens with
        | .ok ty => .ok (if l.byRef then .byRef ty else ty)
        | .error e => .error (.decode e)

end FactoryDefinition

end CilBind
