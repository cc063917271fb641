import CilBind.Run.Arith
import CilBind.Run.Host
import CilBind.Routine.Op

/-!
# `CilBind.Run.Interpreter`: running a synthesized routine

A run starts with the routine's arguments, a local per declared local type at
the host's default value for it, and an empty stack, and performs the
operations in order until a `ret`. Constructions, calls, field accesses,
boxing, unboxing, casts and default values go to the host; resolutions go to the
resolver. A `newobj` of a five-argument decimal constructor on five `int32`
values with a scale of at most 28 builds the decimal itself, without the host.

Every operation takes its operands from the top of the stack, the last pushed
last in the list it hands on, and fails with a stack underflow when there are
too few. An instruction outside the supported set fails as unsupported.
-/

set_option autoImplicit false

namespace CilBind

/-- The state of a run: arguments, locals and the evaluation stack, top first. -/
structure Frame where
  args : List Value
  locals : List Value
  stack : List Value

/-- How an operation ends: with the routine's result, or with the next frame. -/
inductive Step where
  | done (v : Value)
  | next (f : Frame)

namespace Frame

/-- Pushes a value. -/
def push (f : Frame) (v : Value) : Frame := { f with stack := v :: f.stack }

/-- Pops the top value; `at_` names the operation for the error. -/
def pop (f : Frame) (at_ : String) : Except RunError (Value × Frame) :=
  match f.stack with
  | v :: rest => .ok (v, { f with stack := rest })
  | [] => .error (.stackUnderflow at_.trimAscii.toString)

/-- Pops `n` values, given in the order they were pushed. -/
def popN (f : Frame) (n : Nat) (at_ : String) : Except RunError (List Value × Frame) :=
  if f.stack.length < n then .error (.stackUnderflow at_.trimAscii.toString)
  else .ok ((f.stack.take n).reverse, { f with stack := f.stack.drop n })

/-- The argument at `i`. -/
def arg (f : Frame) (i : Nat) : Except RunError Value :=
  match f.args[i]? with
  | some v => .ok v
  | none => .error (.slotOutOfRange "argument" i)

/-- Writes the argument at `i`. -/
def setArg (f : Frame) (i : Nat) (v : Value) : Except RunError Frame :=
  if i < f.args.length then .ok { f with args := f.args.set i v }
  else .error (.slotOutOfRange "argument" i)

/-- The local at `i`. -/
def local_ (f : Frame) (i : Nat) : Except RunError Value :=
  match f.locals[i]? with
  | some v => .ok v
  | none => .error (.slotOutOfRange "local" i)

/-- Writes the local at `i`. -/
def setLocal (f : Frame) (i : Nat) (v : Value) : Except RunError Frame :=
  if i < f.locals.length then .ok { f with locals := f.locals.set i v }
  else .error (.slotOutOfRange "local" i)

/-- Writes through a managed pointer. -/
def storeIndirect (f : Frame) (op : OpCode) (addr v : Value) : Except RunError Frame :=
  match addr with
  | .localAddr i => f.setLocal i.toNat v
  | .argAddr i => f.setArg i.toNat v
  | other => .error (.typeMismatch op other.kindName)

end Frame

/-- The decimal a `System.Decimal(lo, mid, hi, sign, scale)` construction on
`int32` values with a scale of 0 to 28 builds. -/
def Decimal.ofConstruction? (args : List Value) : Option Decimal :=
  match args with
  | [.i4 lo, .i4 mid, .i4 hi, .i4 sign, .i4 scale] =>
    if 0 ≤ scale.toInt ∧ scale.toInt ≤ 28 then
      some ⟨lo.toUInt32, mid.toUInt32, hi.toUInt32, sign != 0, scale.toUInt32.toUInt8⟩
    else none
  | _ => none

/-- The arguments a bound routine runs on: the factory's target when it has one,
then the resolution context, then the factory's own arguments. -/
def Layout.invokeArgs (l : Layout) (target : Option Value) (context : Value) (args : List Value) :
    List Value :=
  (if l.hasThis then [target.getD .null] else []) ++ context :: args

namespace Run

variable {m : Type → Type} [Monad m]

/-- A host or resolver answer, its refusal reported as a host failure. -/
def viaHost {α : Type} (x : m (Except String α)) : ExceptT RunError m α :=
  ExceptT.mk do return (← x).mapError RunError.host

/-- A step of pure frame work inside a run. -/
def lift {α : Type} (x : Except RunError α) : ExceptT RunError m α := ExceptT.mk (pure x)

/-- The token of an instruction; an instruction without one is unsupported. -/
def tokenOf (i : Instruction) : Except RunError TokenRef :=
  match i.token? with
  | some t => .ok t
  | none => .error (.unsupported i.opcode)

/-- A token use, its failure reported as a decoding failure. -/
def use {α : Type} (x : Except DecodeError α) : Except RunError α := x.mapError .decode

/-- The slot an instruction names; an instruction without one is unsupported. -/
def slotOf (i : Instruction) (slot : Option Nat) : Except RunError Nat :=
  match slot with
  | some n => .ok n
  | none => .error (.unsupported i.opcode)

/-- Runs one replayed instruction. -/
def instruction (host : Host m) (returns : TypeRef) (f : Frame) (i : Instruction) :
    ExceptT RunError m Step := do
  let here := i.text
  let op := i.opcode
  match op with
  | .nop => return .next f
  | .ldnull => return .next (f.push .null)
  | .ldc_i8 => return .next (f.push (.i8 (Int64.ofInt (i.intLiteral?.getD 0))))
  | .ldc_i4_m1 | .ldc_i4_0 | .ldc_i4_1 | .ldc_i4_2 | .ldc_i4_3 | .ldc_i4_4 | .ldc_i4_5
  | .ldc_i4_6 | .ldc_i4_7 | .ldc_i4_8 | .ldc_i4_s | .ldc_i4 =>
    return .next (f.push (.i4 (Int32.ofInt (i.intLiteral?.getD 0))))
  | .ldc_r4 => return .next (f.push (.r4 (i.floatLiteral?.getD 0).toFloat32))
  | .ldc_r8 => return .next (f.push (.r8 (i.floatLiteral?.getD 0)))
  | .ldstr =>
    let s ← lift (use (← lift (tokenOf i)).string)
    return .next (f.push (.str s))
  | .ldarg_0 | .ldarg_1 | .ldarg_2 | .ldarg_3 | .ldarg_s | .ldarg =>
    let v ← lift (f.arg (← lift (slotOf i i.argIndex?)))
    return .next (f.push v)
  | .ldarga_s | .ldarga =>
    return .next (f.push (.argAddr (← lift (slotOf i i.argIndex?)).toUInt16))
  | .starg_s | .starg =>
    let (v, f) ← lift (f.pop here)
    return .next (← lift (f.setArg (← lift (slotOf i i.argIndex?)) v))
  | .ldloc_0 | .ldloc_1 | .ldloc_2 | .ldloc_3 | .ldloc_s | .ldloc =>
    let v ← lift (f.local_ (← lift (slotOf i i.localIndex?)))
    return .next (f.push v)
  | .ldloca_s | .ldloca =>
    return .next (f.push (.localAddr (← lift (slotOf i i.localIndex?)).toUInt16))
  | .stloc_0 | .stloc_1 | .stloc_2 | .stloc_3 | .stloc_s | .stloc =>
    let (v, f) ← lift (f.pop here)
    return .next (← lift (f.setLocal (← lift (slotOf i i.localIndex?)) v))
  | .dup =>
    match f.stack with
    | v :: _ => return .next (f.push v)
    | [] => throw (.stackUnderflow here)
  | .pop =>
    let (_, f) ← lift (f.pop here)
    return .next f
  | .initobj =>
    let ty ← lift (use (← lift (tokenOf i)).typeRef)
    let (addr, f) ← lift (f.pop here)
    let zero ← viaHost (host.defaultValue ty)
    return .next (← lift (f.storeIndirect op addr zero))
  | .newobj =>
    let ctor ← lift (use (← lift (tokenOf i)).method)
    let (args, f) ← lift (f.popN ctor.params.length here)
    let made ← match (if ctor.declaring.isDecimal then Decimal.ofConstruction? args else none) with
      | some d => pure (Value.decimal d)
      | none => viaHost (host.construct ctor args)
    return .next (f.push made)
  | .call | .callvirt =>
    let method ← lift (use (← lift (tokenOf i)).method)
    let (args, f) ← lift (f.popN method.callPops here)
    let result ← viaHost (host.call method args)
    return .next (if method.returnsValue then f.push (result.getD .null) else f)
  | .ldfld =>
    let field ← lift (use (← lift (tokenOf i)).field)
    let (target, f) ← lift (f.pop here)
    return .next (f.push (← viaHost (host.loadField field (some target))))
  | .ldsfld =>
    let field ← lift (use (← lift (tokenOf i)).field)
    return .next (f.push (← viaHost (host.loadField field none)))
  | .stfld =>
    let field ← lift (use (← lift (tokenOf i)).field)
    let (v, f) ← lift (f.pop here)
    let (target, f) ← lift (f.pop here)
    viaHost (host.storeField field (some target) v)
    return .next f
  | .stsfld =>
    let field ← lift (use (← lift (tokenOf i)).field)
    let (v, f) ← lift (f.pop here)
    viaHost (host.storeField field none v)
    return .next f
  | .box =>
    let ty ← lift (use (← lift (tokenOf i)).typeRef)
    let (v, f) ← lift (f.pop here)
    return .next (f.push (← viaHost (host.box ty v)))
  | .unbox_any =>
    let ty ← lift (use (← lift (tokenOf i)).typeRef)
    let (v, f) ← lift (f.pop here)
    return .next (f.push (← viaHost (host.unbox ty v)))
  | .castclass | .isinst =>
    let ty ← lift (use (← lift (tokenOf i)).typeRef)
    let (v, f) ← lift (f.pop here)
    if v.isNull then return .next (f.push v)
    match ← viaHost (host.cast ty v) with
    | some c => return .next (f.push c)
    | none =>
      if op = .isinst then return .next (f.push .null)
      else throw (.host s!"invalid cast to {ty.name}")
  | .add | .sub | .mul | .div | .rem | .and | .or | .xor | .shl | .shr | .shr_un =>
    let (b, f) ← lift (f.pop here)
    let (a, f) ← lift (f.pop here)
    return .next (f.push (← lift (Arith.binary op a b)))
  | .neg | .not =>
    let (v, f) ← lift (f.pop here)
    return .next (f.push (← lift (Arith.unary op v)))
  | .ceq | .cgt | .cgt_un | .clt | .clt_un =>
    let (b, f) ← lift (f.pop here)
    let (a, f) ← lift (f.pop here)
    return .next (f.push (Value.ofBool (← lift (Arith.compare op a b))))
  | .conv_i1 | .conv_i2 | .conv_i4 | .conv_i8 | .conv_u1 | .conv_u2 | .conv_u4 | .conv_u8
  | .conv_i | .conv_u | .conv_r4 | .conv_r8 =>
    let (v, f) ← lift (f.pop here)
    return .next (f.push (← lift (Arith.convert op v)))
  | .ret =>
    if returns.isVoid then return .done .null
    let (v, _) ← lift (f.pop here)
    return .done v
  | _ => throw (.unsupported op)

/-- Runs one operation of a routine. -/
def operation (host : Host m) (resolver : Resolver m) (r : Routine) (f : Frame) :
    RoutineOp → ExceptT RunError m Step
  | .loadArg n => do return .next (f.push (← lift (f.arg n)))
  | .loadArgAddr n => return .next (f.push (.argAddr n.toUInt16))
  | .storeArg n => do
    let (v, f) ← lift (f.pop (RoutineOp.storeArg n).text)
    return .next (← lift (f.setArg n v))
  | .loadContext => do return .next (f.push (← lift (f.arg r.layout.contextIndex)))
  | .resolve ty => do
    let (ctx, f) ← lift (f.pop (RoutineOp.resolve ty).text)
    match ← (ExceptT.lift (resolver.resolve ty ctx) : ExceptT RunError m _) with
    | .ok (some v) => return .next (f.push v)
    | .ok none => throw (.notResolvable ty.name)
    | .error reason => throw (.resolution ty.name reason)
  | .unbox ty => do
    let (v, f) ← lift (f.pop (RoutineOp.unbox ty).text)
    return .next (f.push (← viaHost (host.unbox ty v)))
  | .replay i => instruction host r.returns f i

/-- Runs operations until one returns. -/
def operations (host : Host m) (resolver : Resolver m) (r : Routine) :
    List RoutineOp → Frame → ExceptT RunError m Value
  | [], _ => throw .noReturn
  | op :: rest, f => do
    match ← operation host resolver r f op with
    | .done v => return v
    | .next f => operations host resolver r rest f

/-- The locals at the host's default values, in order. -/
def freshLocals (host : Host m) : List TypeRef → ExceptT RunError m (List Value)
  | [] => pure []
  | ty :: rest => do
    let v ← viaHost (host.defaultValue ty)
    return v :: (← freshLocals host rest)

/-- Runs a routine on its complete argument list. -/
def routine (host : Host m) (resolver : Resolver m) (r : Routine) (args : List Value) :
    ExceptT RunError m Value := do
  if args.length ≠ r.layout.argCount then throw (.arity r.layout.argCount args.length)
  let locals ← freshLocals host r.locals
  operations host resolver r r.ops ⟨args, locals, []⟩

/-- Runs a routine bound to its factory's target for a context and the
factory's own arguments. -/
def invoke (host : Host m) (resolver : Resolver m) (r : Routine) (target : Option Value)
    (context : Value) (args : List Value) : ExceptT RunError m Value := do
  if args.length ≠ r.layout.params.length then throw (.arity r.layout.params.length args.length)
  routine host resolver r (r.layout.invokeArgs target context args)

end Run

end CilBind
