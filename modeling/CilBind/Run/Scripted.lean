import CilBind.Run.Interpreter

/-!
# `CilBind.Run.Scripted`: a host and a resolver that follow a script

A scripted host answers every request the same simple way and records it. A
construction gives a fresh object of the declaring type holding the arguments,
unless the script makes that type fail; a call gives its argument count as an
`int32` when the method returns a value; a field read gives the field's name as
a string; a fresh value of a value type is a fresh object of the type, and of
any other type its zero; a cast keeps the value unless the script names the
type as failing. A *plain* host keeps the standard default values and lets every
cast succeed without recording it. Boxing keeps the value, and unboxing refuses
only null for a value type.

A scripted resolver records every resolution with its context, fails for the
types the script makes fail, and otherwise gives the value the script maps the
type to, or nothing.

Both run in `Scripted`, a state of the requests recorded so far and the
identity of the next fresh object.
-/

set_option autoImplicit false

namespace CilBind

/-- A request a scripted host recorded. -/
inductive HostEvent where
  | construct (typeName : String) (argc : Nat)
  | call (method : String) (argc : Nat)
  | loadField (field : String) (isStatic : Bool)
  | storeField (field : String) (isStatic : Bool) (value : Value)
  | cast (typeName : String)

/-- What a scripted run recorded: host requests and resolutions in order, and
the identity the next fresh object gets. -/
structure Recording where
  events : List HostEvent
  requests : List (String × Value)
  nextObject : Nat

/-- A computation of a scripted host or resolver. -/
abbrev Scripted := StateM Recording

namespace Scripted

/-- Records a host request. -/
def record (e : HostEvent) : Scripted Unit :=
  modify fun r => { r with events := r.events ++ [e] }

/-- A fresh object of a type, holding `args`. -/
def fresh (typeName : String) (args : List Value) : Scripted Value :=
  modifyGet fun r => (.object r.nextObject typeName args, { r with nextObject := r.nextObject + 1 })

end Scripted

/-- How a scripted host answers. -/
structure HostScript where
  /-- The types whose casts fail. -/
  castFail : List String
  /-- The types whose constructions fail, with the reason. -/
  constructFail : List (String × String)
  /-- Whether default values and casts are the standard ones. -/
  plain : Bool

/-- The host that follows a script. -/
def HostScript.host (s : HostScript) : Host Scripted where
  construct ctor args := do
    let name := ctor.declaring.name
    Scripted.record (.construct name args.length)
    match s.constructFail.lookup name with
    | some reason => return .error reason
    | none => return .ok (← Scripted.fresh name args)
  call m args := do
    Scripted.record (.call m.name args.length)
    return .ok (if m.returnsValue then some (.i4 args.length.toInt32) else none)
  loadField f target := do
    Scripted.record (.loadField f.name target.isNone)
    return .ok (.str f.name)
  storeField f target v := do
    Scripted.record (.storeField f.name target.isNone v)
    return .ok ()
  defaultValue ty :=
    match s.plain, ty with
    | false, .valueType name => do return .ok (← Scripted.fresh name [])
    | _, _ => pure (Host.standardDefault ty)
  box _ v := pure (.ok v)
  unbox ty v := pure (Host.standardUnbox ty v)
  cast ty v :=
    if s.plain then pure (.ok (some v))
    else do
      Scripted.record (.cast ty.name)
      return .ok (if s.castFail.contains ty.name then none else some v)

/-- How a scripted resolver answers. -/
structure ResolverScript where
  /-- The value resolved for each type. -/
  values : List (String × Value)
  /-- The types whose resolution fails, with the reason. -/
  fail : List (String × String)

/-- The resolver that follows a script. -/
def ResolverScript.resolver (s : ResolverScript) : Resolver Scripted where
  resolve ty ctx := do
    modify fun r => { r with requests := r.requests ++ [(ty.name, ctx)] }
    match s.fail.lookup ty.name with
    | some reason => return .error reason
    | none => return .ok (s.values.lookup ty.name)

/-- One run of a bound routine: the context, the factory's own arguments, and
the scripts of the host and the resolver. -/
structure Invocation where
  context : Value
  args : List Value
  host : HostScript
  resolver : ResolverScript

/-- Runs a routine bound to `target`; fresh objects are numbered from
`firstObject`. Gives the result and what the run recorded. -/
def Invocation.run (inv : Invocation) (r : Routine) (target : Option Value) (firstObject : Nat) :
    Except RunError Value × Recording :=
  (Run.invoke inv.host.host inv.resolver.resolver r target inv.context inv.args).run.run
    ⟨[], [], firstObject⟩

end CilBind
