import CilBind.Routine.Factory
import CilBind.Routine.Options
import CilBind.Code.Decoder
import CilBind.Default.Recognize

/-!
# `CilBind.Routine.Synthesis`: from a factory to a partially applied routine

A factory is partially applied in these steps, the first failure winning:

1. A body with suspension points is refused.
2. The body is decoded. A branch to the very next instruction is dropped when
   the options allow it; any other branch, a switch, an indirect call, a jump,
   a throw, a rethrow or the end of a handler is refused, since straight-line
   replay cannot keep it.
3. The instructions are rebuilt as expression trees.
4. The tail expression must be a `ret` of exactly one `newobj`, and no `dup`
   may copy the constructed instance, which would then be changed after its
   construction.
5. Every constructor argument whose parameter has a declared default, and whose
   expression evaluates to that default, is taken from the resolver instead,
   unless some packet of its expression is copied by a `dup`, which would still
   see the literal.
6. The routine replays the remaining packets in order: a taken argument becomes
   a load of the context, a resolution of the parameter's type and, for a value
   type, an unboxing; an argument access moves to the routine's layout.
7. The locals are the factory's, read from its local signature if it has one.

`Synthesis.verbatim` runs the same steps but takes no argument: the routine a
partially applied one is compared with.

Main statements:

* `synthesize_key`: a routine carries the key of its factory.
* `synthesize_async`: a body with suspension points is always refused.
-/

set_option autoImplicit false

namespace CilBind

namespace Synthesis

/-- Whether the instruction is kept for replay, dropped as a branch to the next
instruction, or refused. -/
def keep (opts : SynthesisOptions) (i : Instruction) : Except SynthesisError (Option Instruction) :=
  let op := i.opcode
  if op.isBranch then
    let fallthrough := (op = .br ∨ op = .br_s) ∧ i.branchTarget? = some i.next
    if fallthrough ∧ opts.allowFallthroughBranches then .ok none
    else .error (.unsupportedOperation i.offset op)
  else if op.isTreeDisallowed ∨ op ∈ [.jmp, .throw, .rethrow, .endfinally, .endfilter] then
    .error (.unsupportedOperation i.offset op)
  else .ok (some i)

/-- The instructions that straight-line replay keeps, or the first it refuses. -/
def replayable (opts : SynthesisOptions) (is : List Instruction) : Except SynthesisError (List Instruction) :=
  is.filterMapM (keep opts)

/-- The `newobj` packet that the tail `ret` returns. -/
def constructed (f : Forest) : Except SynthesisError Nat := do
  let some top := f.top? | throw .notSimpleConstruction
  let some ret := f.get? top | throw .notSimpleConstruction
  unless ret.instr.opcode = .ret do throw .notSimpleConstruction
  let [ctor] := ret.children | throw .notSimpleConstruction
  let some made := f.get? ctor | throw .notSimpleConstruction
  unless made.instr.opcode = .newobj do throw .notSimpleConstruction
  if f.packets.any (fun p => p.dupOf = some ctor) then throw .notSimpleConstruction
  return ctor

/-- The packets that some `dup` copies. -/
def duplicated (f : Forest) : List Nat := f.packets.toList.filterMap Packet.dupOf

/-- Which constructor arguments the resolver provides. -/
structure Plan where
  /-- Each taken argument's packet and its parameter's type. -/
  taken : List (Nat × TypeRef)
  /-- Every packet of the taken arguments' expressions. -/
  skipped : List Nat
  /-- The names of the taken parameters, in order. -/
  names : List String

/-- The plan after looking at argument `arg` for parameter `p`. -/
def Plan.consider (recognizer : Recognizer) (dups : List Nat) (acc : Plan) (arg : Nat)
    (p : ParamInfo) : Except SynthesisError Plan := do
  let some default := p.default | return acc
  let hit ← match recognizer.isDefault arg p.ty default with
    | .ok b => pure b
    | .error (.decode e) => throw (.decode e)
    | .error e => throw (.malformedComposite p.name e)
  if !hit then return acc
  let expression := recognizer.forest.postOrder arg
  if expression.any (· ∈ dups) then return acc
  return ⟨acc.taken ++ [(arg, p.ty)], acc.skipped ++ expression, acc.names ++ [p.name]⟩

/-- The plan for the constructor's arguments and parameters, paired in order. -/
def plan (recognizer : Recognizer) (dups : List Nat) (args : List Nat) (params : List ParamInfo) :
    Except SynthesisError Plan :=
  (args.zip params).foldlM (fun acc (arg, p) => acc.consider recognizer dups arg p) ⟨[], [], []⟩

/-- An instruction moved to the routine's layout: argument accesses get the
routine's ordinals, everything else is replayed. -/
def remap (layout : Layout) (i : Instruction) : Except SynthesisError RoutineOp :=
  match i.argIndex? with
  | none => .ok (.replay i)
  | some bodyIndex =>
    match layout.remap bodyIndex with
    | none => .error (.argumentOutOfRange i.offset bodyIndex)
    | some n =>
      match i.opcode with
      | .ldarga_s | .ldarga => .ok (.loadArgAddr n)
      | .starg_s | .starg => .ok (.storeArg n)
      | _ => .ok (.loadArg n)

/-- A resolution of `ty` from the context, unboxed for a value type. -/
def resolution (ty : TypeRef) : List RoutineOp :=
  [.loadContext, .resolve ty] ++ if ty.isValueType then [.unbox ty] else []

/-- The operations for packet `id`. -/
def opsOf (layout : Layout) (pl : Plan) (id : Nat) (p : Packet) :
    Except SynthesisError (List RoutineOp) :=
  match pl.taken.lookup id with
  | some ty => .ok (resolution ty)
  | none => if id ∈ pl.skipped then .ok [] else do return [← remap layout p.instr]

/-- The operations for every packet, in order. -/
def ops (f : Forest) (layout : Layout) (pl : Plan) : Except SynthesisError (List RoutineOp) := do
  let each ← f.packets.toList.zipIdx.mapM (fun (p, id) => opsOf layout pl id p)
  return each.flatten

/-- The argument layout of the routine for `d`. -/
def layoutOf (d : FactoryDefinition) : Layout := ⟨d.hasThis, d.params⟩

/-- The locals, the operations and the taken parameters' names of the routine
for `d`; when `takeDefaults` is false no argument is taken from the resolver. -/
def parts (takeDefaults : Bool) (opts : SynthesisOptions) (d : FactoryDefinition) :
    Except SynthesisError (List TypeRef × List RoutineOp × List String) := do
  if d.isAsync then throw .suspension
  let body ← (decodeBody d.tokens d.body).mapError .decode
  let kept ← replayable opts body
  let forest ← (Forest.build (!d.returns.isVoid) kept).mapError SynthesisError.ofTree
  let ctor ← constructed forest
  let recognizer := Recognizer.ofForest forest opts.recognizeStructDefaults
  let method ← match (forest.get? ctor).bind (·.instr.token?) with
    | some t => t.method.mapError .decode
    | none => throw .notSimpleConstruction
  let pl ← if takeDefaults then plan recognizer (duplicated forest) (forest.childrenOf ctor) method.params
    else pure ⟨[], [], []⟩
  let ops ← ops forest (layoutOf d) pl
  let locals ← d.localTypes
  return (locals, ops, pl.names)

/-- The routine made of the parts of `d`. -/
def routineOf (takeDefaults : Bool) (opts : SynthesisOptions) (d : FactoryDefinition) :
    Except SynthesisError Routine :=
  (parts takeDefaults opts d).map fun (locals, ops, names) =>
    ⟨d.key, layoutOf d, locals, ops, d.returns, names⟩

/-- The routine that replays the whole body of `d`, every argument included,
with argument accesses moved to the routine's layout: what a partially applied
routine does apart from its substitutions. -/
def verbatim (opts : SynthesisOptions) (d : FactoryDefinition) : Except SynthesisError Routine :=
  routineOf false opts d

end Synthesis

/-- The routine that partially applies factory `d`. -/
def synthesize (opts : SynthesisOptions) (d : FactoryDefinition) : Except SynthesisError Routine :=
  Synthesis.routineOf true opts d

/-- A synthesized routine carries its factory's key. -/
theorem synthesize_key (opts : SynthesisOptions) (d : FactoryDefinition) (r : Routine)
    (h : synthesize opts d = .ok r) : r.key = d.key := by
  unfold synthesize Synthesis.routineOf at h
  cases hp : Synthesis.parts true opts d with
  | error e => simp [hp, Except.map] at h
  | ok v =>
    simp only [hp, Except.map, Except.ok.injEq] at h
    subst h
    rfl

theorem synthesize_async (opts : SynthesisOptions) (d : FactoryDefinition) (h : d.isAsync = true) :
    synthesize opts d = .error .suspension := by
  simp only [synthesize, Synthesis.routineOf, Synthesis.parts, h, if_true]
  rfl

end CilBind
