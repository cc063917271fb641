import CilBind.Routine.Layout
import CilBind.Code.Instruction

/-!
# `CilBind.Routine.Op`: synthesized routines and their listing

A routine is a list of operations: instructions replayed from the factory body,
argument loads, stores and address loads at the routine's own ordinals, a load of
the resolution context, a resolution of a type from the context on the stack, and
an unboxing of a resolved instance to its value type.

A routine is identified by the key of its factory, a module and a method token,
written `0x1:0x06000001`. Its listing is a header with the argument layout and
the return type, a line per local, and a line per operation, where operations
that were not replayed are indented past the `IL_0000: ` label.
-/

set_option autoImplicit false

namespace CilBind

/-- The identity of a factory body: its module and method token. -/
structure FactoryKey where
  module : UInt64
  method : UInt32
  deriving DecidableEq, Repr

/-- `0x1:0x06000001`. -/
def FactoryKey.text (k : FactoryKey) : String :=
  Hex.alt k.module.toNat ++ ":" ++ Hex.padded 10 k.method.toNat

/-- One operation of a synthesized routine. -/
inductive RoutineOp where
  /-- An instruction copied from the factory body. -/
  | replay (i : Instruction)
  /-- Loads an argument by its ordinal in the routine. -/
  | loadArg (n : Nat)
  /-- Loads the address of an argument. -/
  | loadArgAddr (n : Nat)
  /-- Stores to an argument. -/
  | storeArg (n : Nat)
  /-- Loads the resolution context. -/
  | loadContext
  /-- Pops a context and pushes an instance of the type resolved for it. -/
  | resolve (ty : TypeRef)
  /-- Unboxes a resolved instance to the value type. -/
  | unbox (ty : TypeRef)

/-- The width of the `IL_0000: ` label of a replayed instruction. -/
def labelWidth : Nat := 9

/-- The line of an operation. -/
def RoutineOp.text : RoutineOp → String
  | .replay i => i.text
  | op =>
    let body := match op with
      | .loadArg n => s!"ldarg {n}"
      | .loadArgAddr n => s!"ldarga {n}"
      | .storeArg n => s!"starg {n}"
      | .loadContext => "ldctx"
      | .resolve ty => s!"resolve {ty.name}"
      | .unbox ty => s!"unbox.any {ty.name}"
      | .replay i => i.text
    String.ofList (List.replicate labelWidth ' ') ++ body

/-- A partially applied factory. -/
structure Routine where
  key : FactoryKey
  layout : Layout
  locals : List TypeRef
  ops : List RoutineOp
  returns : TypeRef
  /-- The constructor parameters now taken from the resolver. -/
  substituted : List String

/-- The listing: header, locals, operations, a line each. -/
def Routine.listing (r : Routine) : String :=
  let params := String.join (r.layout.params.map (fun p => s!", {p.ty.name} {p.name}"))
  let this := if r.layout.hasThis then "this, " else ""
  let header := s!"routine {r.key.text} ({this}ctx{params}) -> {r.returns.name}\n"
  let locals := (List.range r.locals.length).zip r.locals |>.map
    (fun (i, ty) => s!"  .local {i} {ty.name}\n")
  header ++ String.join locals ++ String.join (r.ops.map (fun op => "  " ++ op.text ++ "\n"))

end CilBind
