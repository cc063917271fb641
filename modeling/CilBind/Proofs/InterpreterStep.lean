import CilBind.Proofs.Outcome
import CilBind.Run.Interpreter

/-!
# `CilBind.Proofs.InterpreterStep`: what one operation does to a frame

The interpreter runs an operation on the values at the top of its stack. This
module shows that it keeps to the opcode table: run on a frame whose stack holds
at least as many values as the operation takes, an operation fails only for a
reason other than a stack fault, and otherwise leaves a frame whose stack has
lost what the operation takes and gained what it leaves (`StepPost`).

The same pass keeps track of argument pointers. A predicate `good` on values
stands for what may be stored in a frame: every value for the stack discipline
alone, and for the arguments' safety every value that, if it points to an
argument, points to one of the routine's other than the resolution context
(`Value.ArgSafe`). When the host and the resolver only give `good` values
(`Host.Yields`), every frame of a run holds only `good` values (`FrameOK`), and
when `good` confines argument pointers (`Layout.Confines`) no operation misses
an argument slot or writes the context.

A value the host or the resolver gives is something the host decided: nothing
is known of it but the answers' common property, so the statements are
`Ensures` statements, over every monad the host may run in.
-/

set_option autoImplicit false

namespace CilBind

namespace RunError

/-- A failure of the stack discipline: an operation found too few values, or the
operations ran out before a `ret`. -/
@[simp] def IsStackFault : RunError → Prop
  | stackUnderflow _ | noReturn => True
  | _ => False

/-- A failure to find an argument slot. -/
@[simp] def IsArgumentSlot : RunError → Prop
  | slotOutOfRange kind _ => kind = "argument"
  | _ => False

/-- A failure that is neither a stack fault nor a missing argument slot. -/
def Harmless (e : RunError) : Prop := ¬ e.IsStackFault ∧ ¬ e.IsArgumentSlot

end RunError

/-- A managed pointer, to a local or to an argument. -/
def Value.IsAddress : Value → Prop
  | .localAddr _ | .argAddr _ => True
  | _ => False

namespace Layout

/-- `good` holds of every value that points to no argument, and of a pointer to
any argument other than the context that a routine can name. -/
structure Admits (l : Layout) (good : Value → Prop) : Prop where
  plain : ∀ v, (∀ j, v ≠ .argAddr j) → good v
  argAddr : ∀ n, n < l.argCount → n ≠ l.contextIndex → n < 2 ^ 16 → good (.argAddr n.toUInt16)

/-- Every argument pointer that `good` allows points to an argument of the
routine other than the context. -/
def Confines (l : Layout) (good : Value → Prop) : Prop :=
  ∀ j, good (.argAddr j) → j.toNat < l.argCount ∧ j.toNat ≠ l.contextIndex

end Layout

/-- A value that, if it points to an argument, points to one of the routine's
other than the context. -/
def Value.ArgSafe (l : Layout) (v : Value) : Prop :=
  ∀ j, v = .argAddr j → j.toNat < l.argCount ∧ j.toNat ≠ l.contextIndex

/-- A failure that is no stack fault and, when `good` confines argument
pointers, no missing argument slot. -/
def RunError.Allowed (l : Layout) (good : Value → Prop) (e : RunError) : Prop :=
  ¬ e.IsStackFault ∧ (l.Confines good → ¬ e.IsArgumentSlot)

/-- A harmless failure is allowed whatever `good` confines. -/
theorem RunError.Harmless.allowed {e : RunError} (h : e.Harmless) (l : Layout)
    (good : Value → Prop) : e.Allowed l good :=
  ⟨h.1, fun _ => h.2⟩

/-- A refusal of the host is allowed wherever it comes. -/
theorem RunError.host_allowed (s : String) (l : Layout) (good : Value → Prop) :
    (RunError.host s).Allowed l good :=
  Harmless.allowed (by simp [Harmless]) l good

/-- Every value the host and the resolver can give satisfies `good`. -/
structure Host.Yields {m : Type → Type} [Functor m] (good : Value → Prop) (host : Host m)
    (resolver : Resolver m) : Prop where
  construct : ∀ c vs, Ensures (fun r => ∀ v, r = .ok v → good v) (host.construct c vs)
  call : ∀ c vs, Ensures (fun r => ∀ v, r = .ok (some v) → good v) (host.call c vs)
  loadField : ∀ fld t, Ensures (fun r => ∀ v, r = .ok v → good v) (host.loadField fld t)
  defaultValue : ∀ ty, Ensures (fun r => ∀ v, r = .ok v → good v) (host.defaultValue ty)
  box : ∀ ty v, Ensures (fun r => ∀ w, r = .ok w → good w) (host.box ty v)
  unbox : ∀ ty v, Ensures (fun r => ∀ w, r = .ok w → good w) (host.unbox ty v)
  cast : ∀ ty v, Ensures (fun r => ∀ w, r = .ok (some w) → good w) (host.cast ty v)
  resolve : ∀ ty v, Ensures (fun r => ∀ w, r = .ok (some w) → good w) (resolver.resolve ty v)

/-- What holds of every frame of a run: the routine's arguments are all there,
every value but the context satisfies `good` (with `pending`, the top of the
stack is the context just loaded and is left out), and the context keeps its
slot when `good` confines argument pointers. -/
structure FrameOK (l : Layout) (good : Value → Prop) (ctx : Value) (pending : Bool)
    (f : Frame) : Prop where
  args_length : f.args.length = l.argCount
  stack : ∀ v ∈ (if pending then f.stack.tail else f.stack), good v
  locals : ∀ v ∈ f.locals, good v
  args : ∀ j v, j ≠ l.contextIndex → f.args[j]? = some v → good v
  context : l.Confines good → f.args[l.contextIndex]? = some ctx

/-- Whether the operation loads the context. -/
@[simp] def RoutineOp.isLoadContext : RoutineOp → Bool
  | .loadContext => true
  | _ => false

/-- Whether the operation is a resolution. -/
@[simp] def RoutineOp.isResolve : RoutineOp → Bool
  | .resolve _ => true
  | _ => false

/-- What running `op` on frame `f` may end with, when it takes `pops` values and
leaves `pushes`: the routine's result at a replayed `ret`, the next frame with
the stack changed by the counts and still `FrameOK`, or an allowed failure. -/
def StepPost (l : Layout) (good : Value → Prop) (ctx : Value) (op : RoutineOp) (pops pushes : Nat)
    (f : Frame) : Except RunError Step → Prop
  | .ok (.done _) => ∃ i, op = .replay i ∧ i.opcode = .ret
  | .ok (.next f') =>
    f'.stack.length + pops = f.stack.length + pushes ∧ FrameOK l good ctx op.isLoadContext f'
  | .error e => e.Allowed l good

/-- What the last operation of a run may end with: the routine's result or an
allowed failure, never a next frame. -/
def FinalPost (l : Layout) (good : Value → Prop) : Except RunError Step → Prop
  | .ok (.done _) => True
  | .ok (.next _) => False
  | .error e => e.Allowed l good

/-- A replayed `ret` that ends as a last operation may end keeps to `StepPost`. -/
theorem FinalPost.stepPost {l : Layout} {good : Value → Prop} {ctx : Value} {i : Instruction}
    {pops pushes : Nat} {f : Frame} {res : Except RunError Step} (hop : i.opcode = .ret)
    (h : FinalPost l good res) : StepPost l good ctx (.replay i) pops pushes f res := by
  rcases res with e | v | f'
  · exact h
  · exact ⟨i, rfl, hop⟩
  · exact h.elim

/-- How many values an operation takes and leaves: a replayed instruction as the
opcode table says, where `returnsValue` is whether the routine returns a value. -/
def RoutineOp.effect (returnsValue : Bool) : RoutineOp → Except DecodeError (Nat × Nat)
  | .replay i => do return (← i.stackPops returnsValue, ← i.stackPushes)
  | .loadArg _ | .loadArgAddr _ | .loadContext => .ok (0, 1)
  | .storeArg _ => .ok (1, 0)
  | .resolve _ | .unbox _ => .ok (1, 1)

/-- The operation names only arguments a routine of layout `l` has, other than
the context, and a replayed instruction names none. -/
def RoutineOp.Within (l : Layout) : RoutineOp → Prop
  | .replay i => i.argIndex? = none
  | .loadArg n | .loadArgAddr n | .storeArg n =>
    n < l.argCount ∧ n ≠ l.contextIndex ∧ n < 2 ^ 16
  | .loadContext | .resolve _ | .unbox _ => True

/-- A replayed instruction has the counts the opcode table gives it. -/
theorem RoutineOp.effect_replay {i : Instruction} {rv : Bool} {pops pushes : Nat} :
    (RoutineOp.replay i).effect rv = .ok (pops, pushes) ↔
      i.stackPops rv = .ok pops ∧ i.stackPushes = .ok pushes := by
  simp [RoutineOp.effect]

/-- The context has a slot of its own. -/
theorem Layout.contextIndex_lt (l : Layout) : l.contextIndex < l.argCount := by
  unfold contextIndex argCount
  split <;> omega

/-! ### Frames -/

namespace Frame

variable {f : Frame}

/-- Popping a stack with a top value gives it and the rest. -/
theorem pop_cons {v : Value} {rest : List Value} (h : f.stack = v :: rest) (s : String) :
    f.pop s = .ok (v, { f with stack := rest }) := by
  simp [pop, h]

/-- A stack with a value has a top. -/
theorem exists_cons (h : 1 ≤ f.stack.length) : ∃ v rest, f.stack = v :: rest := by
  cases hs : f.stack with
  | nil => simp [hs] at h
  | cons v rest => exact ⟨v, rest, rfl⟩

/-- Popping `n` values from a stack that holds them gives them bottom first and
the rest. -/
theorem popN_le {n : Nat} (h : n ≤ f.stack.length) (s : String) :
    f.popN n s = .ok ((f.stack.take n).reverse, { f with stack := f.stack.drop n }) := by
  simp [popN, Nat.not_lt.mpr h]

/-- An argument that is there is read. -/
theorem arg_lt {j : Nat} (h : j < f.args.length) : f.arg j = .ok f.args[j] := by
  simp [arg, h]

/-- An argument that is there is written. -/
theorem setArg_lt {j : Nat} (h : j < f.args.length) (v : Value) :
    f.setArg j v = .ok { f with args := f.args.set j v } := by
  simp [setArg, h]

/-- A failed argument write names a missing argument slot. -/
theorem setArg_eq_error {j : Nat} {v : Value} {e : RunError} (h : f.setArg j v = .error e) :
    f.args.length ≤ j ∧ e = .slotOutOfRange "argument" j := by
  unfold setArg at h
  split at h
  · cases h
  · cases h
    exact ⟨by omega, rfl⟩

/-- A local that is read is one of the frame's locals; a missing one is a local
slot failure. -/
theorem local_cases (j : Nat) :
    (∃ v ∈ f.locals, f.local_ j = .ok v) ∨ f.local_ j = .error (.slotOutOfRange "local" j) := by
  unfold local_
  split
  · rename_i v hv
    exact Or.inl ⟨v, List.mem_of_getElem? hv, rfl⟩
  · exact Or.inr rfl

/-- A local write changes that local only; a missing one is a local slot
failure. -/
theorem setLocal_cases (j : Nat) (v : Value) :
    f.setLocal j v = .ok { f with locals := f.locals.set j v } ∨
      f.setLocal j v = .error (.slotOutOfRange "local" j) := by
  unfold setLocal
  split
  · exact Or.inl rfl
  · exact Or.inr rfl

end Frame

namespace FrameOK

variable {l : Layout} {good : Value → Prop} {ctx : Value} {f : Frame}

/-- With no context pending, every stack value is `good`. -/
theorem stack_good (hf : FrameOK l good ctx false f) : ∀ v ∈ f.stack, good v := by
  simpa using hf.stack

/-- A frame with no context pending. -/
theorem settled {pending : Bool} (hf : FrameOK l good ctx pending f) (h : pending ≠ true) :
    FrameOK l good ctx false f := by
  cases pending
  · exact hf
  · exact absurd rfl h

/-- Any stack of `good` values may replace the stack. -/
theorem withStack {pending : Bool} (hf : FrameOK l good ctx pending f) (s : List Value)
    (hs : ∀ v ∈ s, good v) : FrameOK l good ctx false { f with stack := s } :=
  ⟨hf.args_length, by simpa using hs, hf.locals, hf.args, hf.context⟩

/-- Taking the top value off leaves a frame of `good` values, whether or not
the top was the context. -/
theorem pop {pending : Bool} {v : Value} {rest : List Value} (hf : FrameOK l good ctx pending f)
    (hs : f.stack = v :: rest) : FrameOK l good ctx false { f with stack := rest } := by
  refine hf.withStack rest fun w hw => hf.stack w ?_
  cases pending <;> simp [hs, hw]

/-- Pushing a `good` value keeps the frame. -/
theorem push (hf : FrameOK l good ctx false f) {v : Value} (hv : good v) :
    FrameOK l good ctx false (f.push v) := by
  refine hf.withStack (v :: f.stack) fun w hw => ?_
  rcases List.mem_cons.mp hw with rfl | hw
  · exact hv
  · exact hf.stack_good w hw

/-- Writing a `good` value to a local keeps the frame. -/
theorem setLocal (hf : FrameOK l good ctx false f) {v : Value} (hv : good v) (j : Nat) :
    FrameOK l good ctx false { f with locals := f.locals.set j v } := by
  refine ⟨hf.args_length, hf.stack, fun w hw => ?_, hf.args, hf.context⟩
  rcases List.mem_or_eq_of_mem_set hw with hw | rfl
  · exact hf.locals w hw
  · exact hv

/-- Writing a `good` value to an argument keeps the frame, when the argument is
not the context as long as argument pointers are confined. -/
theorem setArg (hf : FrameOK l good ctx false f) {v : Value} (hv : good v) {j : Nat}
    (hj : l.Confines good → j ≠ l.contextIndex) :
    FrameOK l good ctx false { f with args := f.args.set j v } := by
  refine ⟨by simpa using hf.args_length, hf.stack, hf.locals, fun k w hk hw => ?_, fun hc => ?_⟩
  · rw [List.getElem?_set] at hw
    split at hw
    · split at hw
      · cases hw
        exact hv
      · cases hw
    · exact hf.args k w hk hw
  · show (f.args.set j v)[l.contextIndex]? = some ctx
    rw [List.getElem?_set, if_neg (hj hc)]
    exact hf.context hc

end FrameOK

/-! ### Composing a run of `ExceptT` steps -/

namespace Run

section Compose

variable {m : Type → Type} [Monad m] {α β : Type}

/-- A pure step lifted into the run is that step. -/
@[simp] theorem run_lift (x : Except RunError α) : (lift x : ExceptT RunError m α).run = pure x :=
  rfl

variable [LawfulMonad m]

/-- A pure step that succeeds hands its value on. -/
@[simp] theorem lift_ok_bind (a : α) (g : α → ExceptT RunError m β) :
    (lift (.ok a) >>= g) = g a := by
  apply ExceptT.ext
  simp [lift, ExceptT.run_bind, ExceptT.run_mk]

/-- A pure step: what follows its value, or its failure. -/
theorem ensures_lift_bind {q : Except RunError β → Prop} {x : Except RunError α}
    {g : α → ExceptT RunError m β} (hok : ∀ a, x = .ok a → Ensures q (g a).run)
    (herr : ∀ e, x = .error e → q (.error e)) : Ensures q (lift x >>= g).run := by
  cases x with
  | ok a =>
    rw [lift_ok_bind]
    exact hok a rfl
  | error e =>
    rw [ExceptT.run_bind, run_lift, pure_bind]
    exact Ensures.pure (herr e rfl)

/-- A thrown failure ends the run with it. -/
theorem ensures_throw_bind {q : Except RunError β → Prop} {e : RunError}
    {g : α → ExceptT RunError m β} (he : q (.error e)) : Ensures q (throw e >>= g).run := by
  rw [ExceptT.run_bind, ExceptT.run_throw, pure_bind]
  exact Ensures.pure he

/-- A pure step that fails ends the run with its failure. -/
theorem ensures_lift_error_bind {q : Except RunError β → Prop} {e : RunError}
    {g : α → ExceptT RunError m β} (he : q (.error e)) : Ensures q (lift (.error e) >>= g).run :=
  ensures_lift_bind (fun _ h => by cases h) fun _ h => by cases h; exact he

/-- A request to the host: what follows any value it may give, or its refusal. -/
theorem ensures_viaHost_bind {q : Except RunError β → Prop} {P : α → Prop}
    {x : m (Except String α)} {g : α → ExceptT RunError m β}
    (hx : Ensures (fun r => ∀ a, r = .ok a → P a) x) (hok : ∀ a, P a → Ensures q (g a).run)
    (herr : ∀ s, q (.error (.host s))) : Ensures q (viaHost x >>= g).run := by
  rw [ExceptT.run_bind]
  simp only [viaHost, ExceptT.run_mk, bind_assoc, pure_bind]
  refine hx.bind fun r hr => ?_
  cases r with
  | ok a => exact hok a (hr a rfl)
  | error s => exact Ensures.pure (herr s)

/-- A request whose answer the run inspects itself. -/
theorem ensures_exceptLift_bind {γ : Type} {q : Except RunError β → Prop} {P : γ → Prop} {x : m γ}
    {g : γ → ExceptT RunError m β} (hx : Ensures P x) (hok : ∀ a, P a → Ensures q (g a).run) :
    Ensures q ((ExceptT.lift x : ExceptT RunError m γ) >>= g).run := by
  rw [ExceptT.run_bind, ExceptT.run_lift, bind_map_left]
  exact hx.bind hok

end Compose

/-! ### Failures of the pure steps -/

/-- A missing token is a harmless failure. -/
theorem tokenOf_harmless {i : Instruction} {e : RunError} (h : tokenOf i = .error e) :
    e.Harmless := by
  unfold tokenOf at h
  split at h
  · cases h
  · cases h
    simp [RunError.Harmless]

/-- A token that does not resolve is a harmless failure. -/
theorem use_harmless {α : Type} {x : Except DecodeError α} {e : RunError} (h : use x = .error e) :
    e.Harmless := by
  cases x with
  | ok a => cases h
  | error d =>
    cases h
    simp [RunError.Harmless]

/-- A missing local slot is a harmless failure. -/
theorem localSlot_harmless (j : Nat) : (RunError.slotOutOfRange "local" j).Harmless := by
  simp [RunError.Harmless]

/-- An instruction without the slot it needs fails harmlessly. -/
theorem slotOf_harmless {i : Instruction} {slot : Option Nat} {e : RunError}
    (h : slotOf i slot = .error e) : e.Harmless := by
  unfold slotOf at h
  split at h
  · cases h
  · cases h
    simp [RunError.Harmless]

section Lookups

variable {m : Type → Type} [Monad m] [LawfulMonad m] {α β : Type}

/-- Looking an instruction's token up, then a continuation: a failed lookup is
harmless. -/
theorem ensures_token_bind {i : Instruction} {q : Except RunError β → Prop}
    (hq : ∀ e : RunError, e.Harmless → q (.error e)) (look : TokenRef → Except DecodeError α)
    {g : α → ExceptT RunError m β} (hok : ∀ a, Ensures q (g a).run) :
    Ensures q (do g (← lift (use (look (← lift (tokenOf i)))))).run :=
  ensures_lift_bind (fun _ _ => ensures_lift_bind (fun a _ => hok a)
    fun _ he => hq _ (use_harmless he)) fun _ he => hq _ (tokenOf_harmless he)

end Lookups

end Run

namespace Arith

/-- `int32` arithmetic fails only by dividing by zero. -/
theorem int32Op_error {op : OpCode} {x y : Int32} {e : RunError} (h : int32Op op x y = .error e) :
    e = divideByZero := by
  unfold int32Op at h
  split at h <;> (try split at h) <;> simp_all

/-- `int64` arithmetic fails only by dividing by zero. -/
theorem int64Op_error {op : OpCode} {x y : Int64} {e : RunError} (h : int64Op op x y = .error e) :
    e = divideByZero := by
  unfold int64Op at h
  split at h <;> (try split at h) <;> simp_all

/-- A division by zero is a harmless failure. -/
theorem divideByZero_harmless : divideByZero.Harmless := by
  simp [divideByZero, RunError.Harmless]

/-- Operands of the wrong kinds are a harmless failure. -/
theorem mismatch_harmless (op : OpCode) (a b : Value) : (mismatch op a b).Harmless := by
  simp [mismatch, RunError.Harmless]

/-- Binary arithmetic gives a number, never a pointer. -/
theorem binary_plain {op : OpCode} {a b v : Value} (h : binary op a b = .ok v) :
    ∀ j, v ≠ .argAddr j := by
  unfold binary at h
  split at h
  · obtain ⟨_, _, rfl⟩ := Except.map_eq_ok.mp h
    simp
  · obtain ⟨_, _, rfl⟩ := Except.map_eq_ok.mp h
    simp
  · split at h
    · obtain ⟨_, _, rfl⟩ := Except.map_eq_ok.mp h
      simp
    · cases h
  · split at h <;> cases h
    simp
  · split at h <;> cases h
    simp
  · cases h

/-- Binary arithmetic fails harmlessly. -/
theorem binary_harmless {op : OpCode} {a b : Value} {e : RunError} (h : binary op a b = .error e) :
    e.Harmless := by
  unfold binary at h
  split at h
  · rw [int32Op_error (Except.map_eq_error.mp h)]
    exact divideByZero_harmless
  · rw [int64Op_error (Except.map_eq_error.mp h)]
    exact divideByZero_harmless
  · split at h
    · rw [int64Op_error (Except.map_eq_error.mp h)]
      exact divideByZero_harmless
    · cases h
      exact mismatch_harmless ..
  · split at h <;> cases h
    exact mismatch_harmless ..
  · split at h <;> cases h
    exact mismatch_harmless ..
  · cases h
    exact mismatch_harmless ..

/-- Negation and complement give a number, never a pointer. -/
theorem unary_plain {op : OpCode} {a v : Value} (h : unary op a = .ok v) : ∀ j, v ≠ .argAddr j := by
  unfold unary at h
  split at h <;> cases h <;> simp

/-- Negation and complement fail harmlessly. -/
theorem unary_harmless {op : OpCode} {a : Value} {e : RunError} (h : unary op a = .error e) :
    e.Harmless := by
  unfold unary at h
  split at h <;> cases h
  simp [RunError.Harmless]

/-- A comparison fails only on operands of the wrong kinds. -/
theorem compare_error {op : OpCode} {a b : Value} {e : RunError} (h : compare op a b = .error e) :
    e = mismatch op a b := by
  unfold compare at h
  dsimp only at h
  split at h
  · split at h <;> cases h
  · -- Only a failed order fails, and an order fails only on a kind mismatch.
    rename_i e' horder
    have he' : e' = mismatch op a b := by
      split at horder <;> cases horder
      rfl
    split at h
    · cases h
    · split at h <;> cases h
      exact he'

/-- A comparison fails harmlessly. -/
theorem compare_harmless {op : OpCode} {a b : Value} {e : RunError} (h : compare op a b = .error e) :
    e.Harmless := by
  rw [compare_error h]
  exact mismatch_harmless ..

/-- A conversion gives a number, never a pointer. -/
theorem convert_plain {op : OpCode} {a v : Value} (h : convert op a = .ok v) :
    ∀ j, v ≠ .argAddr j := by
  unfold convert at h
  cases a <;> simp only [pure, Except.pure, bind, Except.bind, throw, throwThe,
    MonadExceptOf.throw] at h <;> (try split at h) <;> cases h <;> simp

/-- A conversion fails harmlessly. -/
theorem convert_harmless {op : OpCode} {a : Value} {e : RunError} (h : convert op a = .error e) :
    e.Harmless := by
  unfold convert at h
  cases a <;> simp only [pure, Except.pure, bind, Except.bind, throw, throwThe,
    MonadExceptOf.throw] at h <;> (try split at h) <;> cases h <;> simp [RunError.Harmless]

end Arith

/-! ### The interpreter's opcodes, in the groups it runs alike -/

namespace OpCode

/-- `ldnull` and the integer and float literal loads. -/
def constantLoads : List OpCode :=
  [.ldnull, .ldc_i8, .ldc_i4_m1, .ldc_i4_0, .ldc_i4_1, .ldc_i4_2, .ldc_i4_3, .ldc_i4_4, .ldc_i4_5,
    .ldc_i4_6, .ldc_i4_7, .ldc_i4_8, .ldc_i4_s, .ldc_i4, .ldc_r4, .ldc_r8]

/-- The argument loads and address loads. -/
def argumentLoads : List OpCode :=
  [.ldarg_0, .ldarg_1, .ldarg_2, .ldarg_3, .ldarg_s, .ldarg, .ldarga_s, .ldarga]

/-- The local loads. -/
def localLoads : List OpCode := [.ldloc_0, .ldloc_1, .ldloc_2, .ldloc_3, .ldloc_s, .ldloc]

/-- The local stores. -/
def localStores : List OpCode := [.stloc_0, .stloc_1, .stloc_2, .stloc_3, .stloc_s, .stloc]

/-- The two-operand arithmetic. -/
def binaryOps : List OpCode := [.add, .sub, .mul, .div, .rem, .and, .or, .xor, .shl, .shr, .shr_un]

/-- The comparisons. -/
def comparisons : List OpCode := [.ceq, .cgt, .cgt_un, .clt, .clt_un]

/-- The conversions. -/
def conversions : List OpCode :=
  [.conv_i1, .conv_i2, .conv_i4, .conv_i8, .conv_u1, .conv_u2, .conv_u4, .conv_u8, .conv_i, .conv_u,
    .conv_r4, .conv_r8]

/-- Every opcode the interpreter runs; it refuses the others. -/
def interpreted : List OpCode :=
  -- Plain constructor names: with `.nop` the chain of appends waits on the
  -- element type and takes seconds to elaborate.
  [nop] ++ constantLoads ++ [ldstr] ++ argumentLoads ++ [starg_s, starg] ++ localLoads ++
    [ldloca_s, ldloca] ++ localStores ++ [dup, pop, initobj, newobj, call, callvirt,
    ldfld, ldsfld, stfld, stsfld, box, unbox_any, castclass, isinst] ++ binaryOps ++
    [neg, not] ++ comparisons ++ conversions ++ [ret]

/-- The table's constant loads take nothing and leave one value. -/
theorem constantLoads_counts :
    ∀ op ∈ constantLoads, op.info.pop = .fixed 0 ∧ op.info.push = .fixed 1 := by
  decide

/-- The table's local loads take nothing and leave one value. -/
theorem localLoads_counts : ∀ op ∈ localLoads, op.info.pop = .fixed 0 ∧ op.info.push = .fixed 1 := by
  decide

/-- The table's local stores take one value and leave nothing. -/
theorem localStores_counts :
    ∀ op ∈ localStores, op.info.pop = .fixed 1 ∧ op.info.push = .fixed 0 := by
  decide

/-- The table's binary operations take two values and leave one. -/
theorem binaryOps_counts : ∀ op ∈ binaryOps, op.info.pop = .fixed 2 ∧ op.info.push = .fixed 1 := by
  decide

/-- The table's comparisons take two values and leave one. -/
theorem comparisons_counts :
    ∀ op ∈ comparisons, op.info.pop = .fixed 2 ∧ op.info.push = .fixed 1 := by
  decide

/-- The table's conversions take one value and leave one. -/
theorem conversions_counts :
    ∀ op ∈ conversions, op.info.pop = .fixed 1 ∧ op.info.push = .fixed 1 := by
  decide

end OpCode

/-- An instruction whose opcode has fixed counts takes and leaves them. -/
theorem Instruction.counts_of_fixed {i : Instruction} {a b pops pushes : Nat} {rv : Bool}
    (hinfo : i.opcode.info.pop = .fixed a ∧ i.opcode.info.push = .fixed b)
    (hpops : i.stackPops rv = .ok pops) (hpushes : i.stackPushes = .ok pushes) :
    pops = a ∧ pushes = b := by
  simp only [Instruction.stackPops, Instruction.stackPushes, hinfo.1, hinfo.2,
    Except.ok.injEq] at hpops hpushes
  exact ⟨hpops.symm, hpushes.symm⟩

/-- A construction takes its constructor's parameters and leaves the instance. -/
theorem Instruction.newobj_counts {i : Instruction} {rv : Bool} {pops pushes : Nat}
    (hop : i.opcode = .newobj) (hpops : i.stackPops rv = .ok pops)
    (hpushes : i.stackPushes = .ok pushes) :
    ∃ t ctor, Run.tokenOf i = .ok t ∧ t.method = .ok ctor ∧ pops = ctor.params.length ∧
      pushes = 1 := by
  have hpop : i.opcode.info.pop = .var := by rw [hop]; rfl
  have hpush : i.opcode.info.push = .fixed 1 := by rw [hop]; rfl
  rw [Instruction.stackPops, hpop] at hpops
  simp only [hop] at hpops
  simp only [Instruction.stackPushes, hpush, Except.ok.injEq] at hpushes
  cases ht : i.token? with
  | none => simp [Instruction.expectToken, ht, bind, Except.bind] at hpops
  | some t =>
    obtain ⟨ctor, hctor, rfl⟩ : ∃ ctor, t.method = .ok ctor ∧ ctor.params.length = pops := by
      simpa [Instruction.expectToken, ht] using hpops
    exact ⟨t, ctor, by simp [Run.tokenOf, ht], hctor, rfl, hpushes.symm⟩

/-- A call takes its receiver and arguments and leaves a result when the method
returns one. -/
theorem Instruction.call_counts {i : Instruction} {rv : Bool} {pops pushes : Nat}
    (hop : i.opcode = .call ∨ i.opcode = .callvirt) (hpops : i.stackPops rv = .ok pops)
    (hpushes : i.stackPushes = .ok pushes) :
    ∃ t method, Run.tokenOf i = .ok t ∧ t.method = .ok method ∧ pops = method.callPops ∧
      pushes = if method.returnsValue then 1 else 0 := by
  have hvar : i.opcode.info.pop = .var ∧ i.opcode.info.push = .var := by
    rcases hop with h | h <;> rw [h] <;> exact ⟨rfl, rfl⟩
  rw [Instruction.stackPops, hvar.1] at hpops
  rw [Instruction.stackPushes, hvar.2] at hpushes
  have hpops' : (do pure (← (← i.expectToken).method).callPops) = Except.ok (ε := DecodeError) pops := by
    rcases hop with h | h <;> simpa only [h] using hpops
  have hpushes' : (do pure (if (← (← i.expectToken).method).returnsValue then 1 else 0)) =
      Except.ok (ε := DecodeError) pushes := by
    rcases hop with h | h <;> simpa only [h] using hpushes
  cases ht : i.token? with
  | none => simp [Instruction.expectToken, ht, bind, Except.bind] at hpops'
  | some t =>
    obtain ⟨method, hmethod, rfl⟩ : ∃ method, t.method = .ok method ∧ method.callPops = pops := by
      simpa [Instruction.expectToken, ht] using hpops'
    have hpush : (if method.returnsValue then 1 else 0) = pushes := by
      simpa [Instruction.expectToken, ht, hmethod] using hpushes'
    exact ⟨t, method, by simp [Run.tokenOf, ht], hmethod, rfl, hpush.symm⟩

/-- `ret` takes the result when the method returns one. -/
theorem Instruction.ret_pops {i : Instruction} {rv : Bool} {pops : Nat} (hop : i.opcode = .ret)
    (hpops : i.stackPops rv = .ok pops) : pops = if rv then 1 else 0 := by
  have hpop : i.opcode.info.pop = .var := by rw [hop]; rfl
  rw [Instruction.stackPops, hpop] at hpops
  simp only [hop, Except.ok.injEq] at hpops
  exact hpops.symm

/-! ### One instruction -/

namespace Run

section Families

variable {m : Type → Type} [Monad m] [LawfulMonad m] {host : Host m} {returns : TypeRef}
  {l : Layout} {good : Value → Prop} {ctx : Value} {f : Frame} {i : Instruction}

/-- `nop` keeps the frame as it is. -/
theorem instruction_nop (hop : i.opcode = .nop) (hf : FrameOK l good ctx false f) :
    Ensures (StepPost l good ctx (.replay i) 0 0 f) (instruction host returns f i).run := by
  simp only [instruction, hop]
  exact Ensures.run_pure ⟨rfl, hf⟩

omit [LawfulMonad m] in
/-- `ldnull` and the literal loads push a value of their own, never a pointer. -/
theorem instruction_eq_of_constant (hop : i.opcode ∈ OpCode.constantLoads) :
    ∃ v : Value, (∀ j, v ≠ .argAddr j) ∧ instruction host returns f i = pure (.next (f.push v)) := by
  simp only [OpCode.constantLoads, List.mem_cons, List.not_mem_nil, or_false] at hop
  rcases hop with h | h | h | h | h | h | h | h | h | h | h | h | h | h | h | h <;>
    refine ⟨_, ?_, by rw [instruction, h]⟩ <;> simp

/-- A constant load pushes a `good` value: no constant is a pointer. -/
theorem instruction_constant (hop : i.opcode ∈ OpCode.constantLoads) (hg : l.Admits good)
    (hf : FrameOK l good ctx false f) :
    Ensures (StepPost l good ctx (.replay i) 0 1 f) (instruction host returns f i).run := by
  obtain ⟨v, hv, heq⟩ := @instruction_eq_of_constant _ _ host returns f i hop
  rw [heq]
  exact Ensures.run_pure ⟨by simp [Frame.push], hf.push (hg.plain v hv)⟩

/-- `ldstr` pushes its string, or fails harmlessly on a token that names none. -/
theorem instruction_ldstr (hop : i.opcode = .ldstr) (hg : l.Admits good)
    (hf : FrameOK l good ctx false f) :
    Ensures (StepPost l good ctx (.replay i) 0 1 f) (instruction host returns f i).run := by
  simp only [instruction, hop]
  refine ensures_token_bind (fun _ he => he.allowed l good) TokenRef.string fun s => ?_
  exact Ensures.run_pure ⟨by simp [Frame.push], hf.push (hg.plain _ (by simp))⟩

/-- An opcode the interpreter refuses is an allowed failure. -/
theorem unsupported_allowed (op : OpCode) : (RunError.unsupported op).Allowed l good :=
  RunError.Harmless.allowed (by simp [RunError.Harmless]) l good

/-- An argument access left in the body names no argument the interpreter can
find, and fails as unsupported. -/
theorem instruction_argumentLoad (hop : i.opcode ∈ OpCode.argumentLoads)
    (hidx : i.argIndex? = none) (pops pushes : Nat) :
    Ensures (StepPost l good ctx (.replay i) pops pushes f) (instruction host returns f i).run := by
  -- The loads with a fixed slot always name an argument.
  have hvar : i.opcode ∈ [.ldarg_s, .ldarg, .ldarga_s, .ldarga] := by
    simp only [OpCode.argumentLoads, List.mem_cons, List.not_mem_nil, or_false] at hop
    rcases hop with h | h | h | h | h | h | h | h <;> simp_all [Instruction.argIndex?]
  simp only [List.mem_cons, List.not_mem_nil, or_false] at hvar
  rcases hvar with h | h | h | h <;> simp only [instruction, h, hidx, slotOf] <;>
    exact ensures_lift_error_bind (unsupported_allowed _)

/-- An argument store left in the body names no argument the interpreter can
find, and fails as unsupported once it has its value. -/
theorem instruction_argumentStore (hop : i.opcode = .starg_s ∨ i.opcode = .starg)
    (hidx : i.argIndex? = none) (hk : 1 ≤ f.stack.length) (pops pushes : Nat) :
    Ensures (StepPost l good ctx (.replay i) pops pushes f) (instruction host returns f i).run := by
  obtain ⟨v, rest, hs⟩ := Frame.exists_cons hk
  rcases hop with h | h <;>
    simp only [instruction, h, hidx, slotOf, Frame.pop_cons hs, lift_ok_bind] <;>
    exact ensures_lift_error_bind (unsupported_allowed _)

omit [LawfulMonad m] in
/-- Every local load reads the local it names. -/
theorem instruction_eq_of_localLoad (hop : i.opcode ∈ OpCode.localLoads) :
    instruction host returns f i = (do
      let v ← lift (f.local_ (← lift (slotOf i i.localIndex?)))
      return .next (f.push v)) := by
  simp only [OpCode.localLoads, List.mem_cons, List.not_mem_nil, or_false] at hop
  rcases hop with h | h | h | h | h | h <;> simp only [instruction, h]

/-- A local load pushes the local's value, `good` as every local is. -/
theorem instruction_localLoad (hop : i.opcode ∈ OpCode.localLoads)
    (hf : FrameOK l good ctx false f) :
    Ensures (StepPost l good ctx (.replay i) 0 1 f) (instruction host returns f i).run := by
  rw [instruction_eq_of_localLoad hop]
  refine ensures_lift_bind (fun n _ => ?_) fun e he => (slotOf_harmless he).allowed l good
  rcases Frame.local_cases (f := f) n with ⟨v, hv, hloc⟩ | hloc <;> rw [hloc]
  · rw [lift_ok_bind]
    exact Ensures.run_pure ⟨by simp [Frame.push], hf.push (hf.locals v hv)⟩
  · exact ensures_lift_error_bind ((localSlot_harmless n).allowed l good)

omit [LawfulMonad m] in
/-- Both local address loads push a pointer to the local they name. -/
theorem instruction_eq_of_localAddress (hop : i.opcode = .ldloca_s ∨ i.opcode = .ldloca) :
    instruction host returns f i = (do
      return .next (f.push (.localAddr (← lift (slotOf i i.localIndex?)).toUInt16))) := by
  rcases hop with h | h <;> simp only [instruction, h]

/-- A local address load pushes a pointer to a local, which `good` admits. -/
theorem instruction_localAddress (hop : i.opcode = .ldloca_s ∨ i.opcode = .ldloca)
    (hg : l.Admits good) (hf : FrameOK l good ctx false f) :
    Ensures (StepPost l good ctx (.replay i) 0 1 f) (instruction host returns f i).run := by
  rw [instruction_eq_of_localAddress hop]
  refine ensures_lift_bind (fun n _ => ?_) fun e he => (slotOf_harmless he).allowed l good
  exact Ensures.run_pure ⟨by simp [Frame.push], hf.push (hg.plain _ (by simp))⟩

omit [LawfulMonad m] in
/-- Every local store takes the top value and stores it in the local it names. -/
theorem instruction_eq_of_localStore (hop : i.opcode ∈ OpCode.localStores) :
    instruction host returns f i = (do
      let (v, f) ← lift (f.pop i.text)
      return .next (← lift (f.setLocal (← lift (slotOf i i.localIndex?)) v))) := by
  simp only [OpCode.localStores, List.mem_cons, List.not_mem_nil, or_false] at hop
  rcases hop with h | h | h | h | h | h <;> simp only [instruction, h]

/-- A local store moves the top value into the local it names. -/
theorem instruction_localStore (hop : i.opcode ∈ OpCode.localStores)
    (hf : FrameOK l good ctx false f) (hk : 1 ≤ f.stack.length) :
    Ensures (StepPost l good ctx (.replay i) 1 0 f) (instruction host returns f i).run := by
  obtain ⟨v, rest, hs⟩ := Frame.exists_cons hk
  have hv : good v := hf.stack_good v (by simp [hs])
  rw [instruction_eq_of_localStore hop, Frame.pop_cons hs, lift_ok_bind]
  refine ensures_lift_bind (fun n _ => ?_) fun e he => (slotOf_harmless he).allowed l good
  rcases Frame.setLocal_cases (f := { f with stack := rest }) n v with hset | hset <;> rw [hset]
  · rw [lift_ok_bind]
    exact Ensures.run_pure ⟨by simp [hs], (hf.pop hs).setLocal hv n⟩
  · exact ensures_lift_error_bind ((localSlot_harmless n).allowed l good)

/-- `dup` pushes a copy of the top value. -/
theorem instruction_dup (hop : i.opcode = .dup) (hf : FrameOK l good ctx false f)
    (hk : 1 ≤ f.stack.length) :
    Ensures (StepPost l good ctx (.replay i) 1 2 f) (instruction host returns f i).run := by
  obtain ⟨v, rest, hs⟩ := Frame.exists_cons hk
  simp only [instruction, hop, hs]
  exact Ensures.run_pure ⟨by simp [Frame.push, hs], hf.push (hf.stack_good v (by simp [hs]))⟩

/-- `pop` drops the top value. -/
theorem instruction_pop (hop : i.opcode = .pop) (hf : FrameOK l good ctx false f)
    (hk : 1 ≤ f.stack.length) :
    Ensures (StepPost l good ctx (.replay i) 1 0 f) (instruction host returns f i).run := by
  obtain ⟨v, rest, hs⟩ := Frame.exists_cons hk
  simp only [instruction, hop, Frame.pop_cons hs, lift_ok_bind]
  exact Ensures.run_pure ⟨by simp [hs], hf.pop hs⟩

/-- `initobj` writes the type's default through the address on the stack: to a
local, or to the argument it points to, which is not the context when argument
pointers are confined. -/
theorem instruction_initobj (hop : i.opcode = .initobj) {resolver : Resolver m}
    (hy : Host.Yields good host resolver) (hf : FrameOK l good ctx false f)
    (hk : 1 ≤ f.stack.length) :
    Ensures (StepPost l good ctx (.replay i) 1 0 f) (instruction host returns f i).run := by
  obtain ⟨addr, rest, hs⟩ := Frame.exists_cons hk
  have haddr : good addr := hf.stack_good addr (by simp [hs])
  have hrest := hf.pop hs
  simp only [instruction, hop, Frame.pop_cons hs, lift_ok_bind]
  refine ensures_token_bind (fun _ he => he.allowed l good) TokenRef.typeRef fun ty => ?_
  refine ensures_viaHost_bind (hy.defaultValue ty) (fun zero hzero => ?_)
    fun s => RunError.host_allowed s l good
  cases addr with
  | localAddr j =>
    rcases Frame.setLocal_cases (f := { f with stack := rest }) j.toNat zero with hset | hset <;>
      simp only [Frame.storeIndirect, hset]
    · rw [lift_ok_bind]
      exact Ensures.run_pure ⟨by simp [hs], hrest.setLocal hzero j.toNat⟩
    · exact ensures_lift_error_bind ((localSlot_harmless _).allowed l good)
  | argAddr j =>
    simp only [Frame.storeIndirect]
    by_cases hj : j.toNat < f.args.length
    · rw [Frame.setArg_lt (f := { f with stack := rest }) hj, lift_ok_bind]
      exact Ensures.run_pure ⟨by simp [hs], hrest.setArg hzero fun hc => (hc j haddr).2⟩
    · -- A pointer past the arguments is one that `good` does not confine.
      have hset : ({ f with stack := rest } : Frame).setArg j.toNat zero =
          .error (.slotOutOfRange "argument" j.toNat) := by
        simp [Frame.setArg, hj]
      rw [hset]
      refine ensures_lift_error_bind ⟨by simp, fun hc _ => hj ?_⟩
      rw [hf.args_length]
      exact (hc j haddr).1
  | _ =>
    exact ensures_lift_error_bind (RunError.Harmless.allowed (by simp [RunError.Harmless]) l good)

/-- A construction takes the constructor's arguments and leaves the new
instance: a decimal it builds itself, or what the host constructs. -/
theorem instruction_newobj (hop : i.opcode = .newobj) {resolver : Resolver m}
    (hg : l.Admits good) (hy : Host.Yields good host resolver) (hf : FrameOK l good ctx false f)
    {t : TokenRef} {ctor : MethodRef} (ht : tokenOf i = .ok t) (hctor : t.method = .ok ctor)
    (hk : ctor.params.length ≤ f.stack.length) :
    Ensures (StepPost l good ctx (.replay i) ctor.params.length 1 f)
      (instruction host returns f i).run := by
  have hrest := hf.withStack (f.stack.drop ctor.params.length)
    fun v hv => hf.stack_good v (List.mem_of_mem_drop hv)
  have hdepth : (f.stack.drop ctor.params.length).length + 1 + ctor.params.length =
      f.stack.length + 1 := by
    simp only [List.length_drop]
    omega
  simp only [instruction, hop, ht, use, hctor, Except.mapError, lift_ok_bind,
    Frame.popN_le hk]
  split
  · rw [pure_bind]
    exact Ensures.run_pure ⟨by simpa [Frame.push] using hdepth, hrest.push (hg.plain _ (by simp))⟩
  · refine ensures_viaHost_bind (hy.construct ctor _) (fun made hmade => ?_)
      fun s => RunError.host_allowed s l good
    exact Ensures.run_pure ⟨by simpa [Frame.push] using hdepth, hrest.push hmade⟩

omit [LawfulMonad m] in
/-- `call` and `callvirt` run alike: look the method up, take its arguments and
ask the host. -/
theorem instruction_eq_of_call (hop : i.opcode = .call ∨ i.opcode = .callvirt) :
    instruction host returns f i = (do
      let method ← lift (use (← lift (tokenOf i)).method)
      let (args, f) ← lift (f.popN method.callPops i.text)
      let result ← viaHost (host.call method args)
      return .next (if method.returnsValue then f.push (result.getD .null) else f)) := by
  rcases hop with h | h <;> simp only [instruction, h]

/-- A call takes its receiver and arguments and leaves the result when the
method returns one. -/
theorem instruction_call (hop : i.opcode = .call ∨ i.opcode = .callvirt) {resolver : Resolver m}
    (hg : l.Admits good) (hy : Host.Yields good host resolver) (hf : FrameOK l good ctx false f)
    {t : TokenRef} {method : MethodRef} (ht : tokenOf i = .ok t) (hmethod : t.method = .ok method)
    (hk : method.callPops ≤ f.stack.length) :
    Ensures (StepPost l good ctx (.replay i) method.callPops
      (if method.returnsValue then 1 else 0) f) (instruction host returns f i).run := by
  have hrest := hf.withStack (f.stack.drop method.callPops)
    fun v hv => hf.stack_good v (List.mem_of_mem_drop hv)
  have hlen : (f.stack.drop method.callPops).length + method.callPops = f.stack.length := by
    simp only [List.length_drop]
    omega
  rw [instruction_eq_of_call hop]
  simp only [ht, use, hmethod, Except.mapError, lift_ok_bind, Frame.popN_le hk]
  have hcall := (hy.call method ((f.stack.take method.callPops).reverse)).imp
    (q := fun r => ∀ a, r = .ok a → ∀ v, a = some v → good v)
    fun r hr a ha v hv => hr v (by rw [ha, hv])
  refine ensures_viaHost_bind hcall (fun result hresult => ?_)
    fun s => RunError.host_allowed s l good
  have hvalue : good (result.getD .null) := by
    cases result with
    | none => exact hg.plain _ (by simp)
    | some v => exact hresult v rfl
  cases hrv : method.returnsValue
  · exact Ensures.run_pure ⟨by simpa using hlen, by simpa using hrest⟩
  · refine Ensures.run_pure ⟨?_, by simpa using hrest.push hvalue⟩
    simp only [if_true, Frame.push, List.length_cons]
    omega

/-- The shape of `ldfld`, `box` and `unbox.any`: look the token up, take the top
value and leave what the host makes of it. -/
theorem ensures_token_pop_host {α : Type} (look : TokenRef → Except DecodeError α)
    (ask : α → Value → m (Except String Value))
    (hask : ∀ a v, Ensures (fun r => ∀ w, r = .ok w → good w) (ask a v))
    (hf : FrameOK l good ctx false f) (hk : 1 ≤ f.stack.length) :
    Ensures (StepPost l good ctx (.replay i) 1 1 f) (do
      let a ← lift (use (look (← lift (tokenOf i))))
      let (v, f) ← lift (f.pop i.text)
      return .next (f.push (← viaHost (ask a v))) : ExceptT RunError m Step).run := by
  obtain ⟨v, rest, hs⟩ := Frame.exists_cons hk
  refine ensures_token_bind (fun _ he => he.allowed l good) look fun a => ?_
  rw [Frame.pop_cons hs, lift_ok_bind]
  refine ensures_viaHost_bind (hask a v) (fun w hw => ?_)
    fun s => RunError.host_allowed s l good
  exact Ensures.run_pure ⟨by simp [Frame.push, hs], (hf.pop hs).push hw⟩

/-- `ldfld` replaces the instance with what the host reads from its field. -/
theorem instruction_ldfld (hop : i.opcode = .ldfld) {resolver : Resolver m}
    (hy : Host.Yields good host resolver) (hf : FrameOK l good ctx false f)
    (hk : 1 ≤ f.stack.length) :
    Ensures (StepPost l good ctx (.replay i) 1 1 f) (instruction host returns f i).run := by
  simp only [instruction, hop]
  exact ensures_token_pop_host TokenRef.field
    (fun fld target => host.loadField fld (some target)) (fun _ _ => hy.loadField _ _) hf hk

/-- `box` replaces the value with the box the host gives. -/
theorem instruction_box (hop : i.opcode = .box) {resolver : Resolver m}
    (hy : Host.Yields good host resolver) (hf : FrameOK l good ctx false f)
    (hk : 1 ≤ f.stack.length) :
    Ensures (StepPost l good ctx (.replay i) 1 1 f) (instruction host returns f i).run := by
  simp only [instruction, hop]
  exact ensures_token_pop_host TokenRef.typeRef host.box hy.box hf hk

/-- `unbox.any` replaces the box with the value the host takes out of it. -/
theorem instruction_unbox (hop : i.opcode = .unbox_any) {resolver : Resolver m}
    (hy : Host.Yields good host resolver) (hf : FrameOK l good ctx false f)
    (hk : 1 ≤ f.stack.length) :
    Ensures (StepPost l good ctx (.replay i) 1 1 f) (instruction host returns f i).run := by
  simp only [instruction, hop]
  exact ensures_token_pop_host TokenRef.typeRef host.unbox hy.unbox hf hk

/-- `ldsfld` pushes what the host reads from the static field. -/
theorem instruction_ldsfld (hop : i.opcode = .ldsfld) {resolver : Resolver m}
    (hy : Host.Yields good host resolver) (hf : FrameOK l good ctx false f) :
    Ensures (StepPost l good ctx (.replay i) 0 1 f) (instruction host returns f i).run := by
  simp only [instruction, hop]
  refine ensures_token_bind (fun _ he => he.allowed l good) TokenRef.field fun fld => ?_
  refine ensures_viaHost_bind (hy.loadField fld none) (fun w hw => ?_)
    fun s => RunError.host_allowed s l good
  exact Ensures.run_pure ⟨by simp [Frame.push], hf.push hw⟩

/-- `stfld` takes the instance and the value and hands them to the host. -/
theorem instruction_stfld (hop : i.opcode = .stfld) (hf : FrameOK l good ctx false f)
    (hk : 2 ≤ f.stack.length) :
    Ensures (StepPost l good ctx (.replay i) 2 0 f) (instruction host returns f i).run := by
  obtain ⟨v, rest, hs⟩ := Frame.exists_cons (Nat.le_trans (by omega) hk)
  obtain ⟨target, rest', hs'⟩ : ∃ target rest', rest = target :: rest' := by
    cases rest with
    | nil => simp [hs] at hk
    | cons target rest' => exact ⟨target, rest', rfl⟩
  subst hs'
  simp only [instruction, hop]
  refine ensures_token_bind (fun _ he => he.allowed l good) TokenRef.field fun fld => ?_
  rw [Frame.pop_cons hs, lift_ok_bind, Frame.pop_cons rfl, lift_ok_bind]
  refine ensures_viaHost_bind (P := fun _ => True) (Ensures.of_forall _ fun _ _ _ => trivial)
    (fun _ _ => ?_) fun s => RunError.host_allowed s l good
  exact Ensures.run_pure ⟨by simp [hs], (hf.pop hs).pop rfl⟩

/-- `stsfld` takes the value and hands it to the host. -/
theorem instruction_stsfld (hop : i.opcode = .stsfld) (hf : FrameOK l good ctx false f)
    (hk : 1 ≤ f.stack.length) :
    Ensures (StepPost l good ctx (.replay i) 1 0 f) (instruction host returns f i).run := by
  obtain ⟨v, rest, hs⟩ := Frame.exists_cons hk
  simp only [instruction, hop]
  refine ensures_token_bind (fun _ he => he.allowed l good) TokenRef.field fun fld => ?_
  rw [Frame.pop_cons hs, lift_ok_bind]
  refine ensures_viaHost_bind (P := fun _ => True) (Ensures.of_forall _ fun _ _ _ => trivial)
    (fun _ _ => ?_) fun s => RunError.host_allowed s l good
  exact Ensures.run_pure ⟨by simp [hs], hf.pop hs⟩

/-- A cast leaves null as it is, and otherwise what the host casts the value
to; `isinst` leaves null for a value of another type, `castclass` fails. -/
theorem instruction_cast (hop : i.opcode = .castclass ∨ i.opcode = .isinst) {resolver : Resolver m}
    (hg : l.Admits good) (hy : Host.Yields good host resolver) (hf : FrameOK l good ctx false f)
    (hk : 1 ≤ f.stack.length) :
    Ensures (StepPost l good ctx (.replay i) 1 1 f) (instruction host returns f i).run := by
  obtain ⟨v, rest, hs⟩ := Frame.exists_cons hk
  have hv : good v := hf.stack_good v (by simp [hs])
  have hrest := hf.pop hs
  have hdepth : (({ f with stack := rest } : Frame).push v).stack.length + 1 =
      f.stack.length + 1 := by
    simp [Frame.push, hs]
  -- Both casts run alike but for what they do with a value of another type.
  rcases hop with h | h <;> simp only [instruction, h]
  all_goals
    refine ensures_token_bind (fun _ he => he.allowed l good) TokenRef.typeRef fun ty => ?_
    rw [Frame.pop_cons hs, lift_ok_bind]
    split
    · exact Ensures.run_pure ⟨hdepth, hrest.push hv⟩
    · have hcast := (hy.cast ty v).imp (q := fun r => ∀ a, r = .ok a → ∀ w, a = some w → good w)
        fun r hr a ha w hw => hr w (by rw [ha, hw])
      refine ensures_viaHost_bind hcast (fun c hc => ?_)
        fun s => RunError.host_allowed s l good
      cases c with
      | some c => exact Ensures.run_pure ⟨by simp [Frame.push, hs], hrest.push (hc c rfl)⟩
      | none =>
        dsimp only
        split
        · exact Ensures.run_pure ⟨by simp [Frame.push, hs], hrest.push (hg.plain _ (by simp))⟩
        · exact Ensures.run_throw (RunError.Harmless.allowed (by simp [RunError.Harmless]) l good)

/-- The shape of the arithmetic that takes one value: leave a value computed
from it without the host. -/
theorem ensures_pop_compute {α : Type} (g : Value → Except RunError α) (out : α → Value)
    (hplain : ∀ v a, g v = .ok a → ∀ j, out a ≠ .argAddr j)
    (hharmless : ∀ v e, g v = .error e → e.Harmless) (hg : l.Admits good)
    (hf : FrameOK l good ctx false f) (hk : 1 ≤ f.stack.length) (here : String) :
    Ensures (StepPost l good ctx (.replay i) 1 1 f) (do
      let (v, f) ← lift (f.pop here)
      return .next (f.push (out (← lift (g v)))) : ExceptT RunError m Step).run := by
  obtain ⟨v, rest, hs⟩ := Frame.exists_cons hk
  rw [Frame.pop_cons hs, lift_ok_bind]
  refine ensures_lift_bind (fun a ha => ?_) fun e he => (hharmless v e he).allowed l good
  exact Ensures.run_pure ⟨by simp [Frame.push, hs], (hf.pop hs).push (hg.plain _ (hplain v a ha))⟩

/-- The shape of the arithmetic that takes two values. -/
theorem ensures_pop_pop_compute {α : Type} (g : Value → Value → Except RunError α)
    (out : α → Value) (hplain : ∀ a b r, g a b = .ok r → ∀ j, out r ≠ .argAddr j)
    (hharmless : ∀ a b e, g a b = .error e → e.Harmless) (hg : l.Admits good)
    (hf : FrameOK l good ctx false f) (hk : 2 ≤ f.stack.length) (here : String) :
    Ensures (StepPost l good ctx (.replay i) 2 1 f) (do
      let (b, f) ← lift (f.pop here)
      let (a, f) ← lift (f.pop here)
      return .next (f.push (out (← lift (g a b)))) : ExceptT RunError m Step).run := by
  obtain ⟨b, rest, hs⟩ := Frame.exists_cons (Nat.le_trans (by omega) hk)
  obtain ⟨a, rest', rfl⟩ : ∃ a rest', rest = a :: rest' := by
    cases rest with
    | nil => simp [hs] at hk
    | cons a rest' => exact ⟨a, rest', rfl⟩
  rw [Frame.pop_cons hs, lift_ok_bind]
  dsimp only
  rw [Frame.pop_cons rfl, lift_ok_bind]
  refine ensures_lift_bind (fun r hr => ?_) fun e he => (hharmless a b e he).allowed l good
  exact Ensures.run_pure
    ⟨by simp [Frame.push, hs], ((hf.pop hs).pop rfl).push (hg.plain _ (hplain a b r hr))⟩

omit [LawfulMonad m] in
/-- The two-operand arithmetic takes the right operand from the top, then the left. -/
theorem instruction_eq_of_binary (hop : i.opcode ∈ OpCode.binaryOps) :
    instruction host returns f i = (do
      let (b, f) ← lift (f.pop i.text)
      let (a, f) ← lift (f.pop i.text)
      return .next (f.push (← lift (Arith.binary i.opcode a b)))) := by
  simp only [OpCode.binaryOps, List.mem_cons, List.not_mem_nil, or_false] at hop
  rcases hop with h | h | h | h | h | h | h | h | h | h | h <;> simp only [instruction, h]

/-- Binary arithmetic replaces its two operands with a number. -/
theorem instruction_binary (hop : i.opcode ∈ OpCode.binaryOps) (hg : l.Admits good)
    (hf : FrameOK l good ctx false f) (hk : 2 ≤ f.stack.length) :
    Ensures (StepPost l good ctx (.replay i) 2 1 f) (instruction host returns f i).run := by
  rw [instruction_eq_of_binary hop]
  exact ensures_pop_pop_compute (m := m) (i := i) (Arith.binary i.opcode) id
    (fun _ _ _ h => Arith.binary_plain h) (fun _ _ _ h => Arith.binary_harmless h) hg hf hk i.text

omit [LawfulMonad m] in
/-- `neg` and `not` replace the top value by what the arithmetic makes of it. -/
theorem instruction_eq_of_unary (hop : i.opcode = .neg ∨ i.opcode = .not) :
    instruction host returns f i = (do
      let (v, f) ← lift (f.pop i.text)
      return .next (f.push (← lift (Arith.unary i.opcode v)))) := by
  rcases hop with h | h <;> simp only [instruction, h]

/-- Negation and complement replace their operand with a number. -/
theorem instruction_unary (hop : i.opcode = .neg ∨ i.opcode = .not) (hg : l.Admits good)
    (hf : FrameOK l good ctx false f) (hk : 1 ≤ f.stack.length) :
    Ensures (StepPost l good ctx (.replay i) 1 1 f) (instruction host returns f i).run := by
  rw [instruction_eq_of_unary hop]
  exact ensures_pop_compute (m := m) (i := i) (Arith.unary i.opcode) id
    (fun _ _ h => Arith.unary_plain h) (fun _ _ h => Arith.unary_harmless h) hg hf hk i.text

omit [LawfulMonad m] in
/-- A comparison takes its operands as the arithmetic does and pushes its verdict. -/
theorem instruction_eq_of_compare (hop : i.opcode ∈ OpCode.comparisons) :
    instruction host returns f i = (do
      let (b, f) ← lift (f.pop i.text)
      let (a, f) ← lift (f.pop i.text)
      return .next (f.push (Value.ofBool (← lift (Arith.compare i.opcode a b))))) := by
  simp only [OpCode.comparisons, List.mem_cons, List.not_mem_nil, or_false] at hop
  rcases hop with h | h | h | h | h <;> simp only [instruction, h]

/-- A comparison replaces its two operands with its verdict. -/
theorem instruction_compare (hop : i.opcode ∈ OpCode.comparisons) (hg : l.Admits good)
    (hf : FrameOK l good ctx false f) (hk : 2 ≤ f.stack.length) :
    Ensures (StepPost l good ctx (.replay i) 2 1 f) (instruction host returns f i).run := by
  rw [instruction_eq_of_compare hop]
  exact ensures_pop_pop_compute (m := m) (i := i) (Arith.compare i.opcode) Value.ofBool
    (fun _ _ _ _ => by simp [Value.ofBool]) (fun _ _ _ h => Arith.compare_harmless h) hg hf hk i.text

omit [LawfulMonad m] in
/-- A conversion replaces the top value by its converted form. -/
theorem instruction_eq_of_convert (hop : i.opcode ∈ OpCode.conversions) :
    instruction host returns f i = (do
      let (v, f) ← lift (f.pop i.text)
      return .next (f.push (← lift (Arith.convert i.opcode v)))) := by
  simp only [OpCode.conversions, List.mem_cons, List.not_mem_nil, or_false] at hop
  rcases hop with h | h | h | h | h | h | h | h | h | h | h | h <;> simp only [instruction, h]

/-- A conversion replaces its operand with a number. -/
theorem instruction_convert (hop : i.opcode ∈ OpCode.conversions) (hg : l.Admits good)
    (hf : FrameOK l good ctx false f) (hk : 1 ≤ f.stack.length) :
    Ensures (StepPost l good ctx (.replay i) 1 1 f) (instruction host returns f i).run := by
  rw [instruction_eq_of_convert hop]
  exact ensures_pop_compute (m := m) (i := i) (Arith.convert i.opcode) id
    (fun _ _ h => Arith.convert_plain h) (fun _ _ h => Arith.convert_harmless h) hg hf hk i.text

/-- `ret` ends the run, with the top value when the method returns one. -/
theorem instruction_ret (hop : i.opcode = .ret) (hk : (if returns.isVoid then 0 else 1) ≤ f.stack.length) :
    Ensures (FinalPost l good) (instruction host returns f i).run := by
  simp only [instruction, hop]
  split
  · exact Ensures.run_pure trivial
  · rename_i hvoid
    rw [if_neg hvoid] at hk
    obtain ⟨v, rest, hs⟩ := Frame.exists_cons hk
    rw [Frame.pop_cons hs, lift_ok_bind]
    exact Ensures.run_pure trivial

omit [LawfulMonad m] in
/-- An opcode the interpreter does not run is refused as it is. -/
theorem instruction_eq_of_uninterpreted (hop : i.opcode ∉ OpCode.interpreted) :
    instruction host returns f i = throw (.unsupported i.opcode) := by
  unfold instruction
  dsimp only
  generalize i.opcode = op at hop ⊢
  cases op <;> first | exact absurd (by decide) hop | rfl

/-- An opcode the interpreter does not run fails as unsupported. -/
theorem instruction_other (hop : i.opcode ∉ OpCode.interpreted) (pops pushes : Nat) :
    Ensures (StepPost l good ctx (.replay i) pops pushes f) (instruction host returns f i).run := by
  rw [instruction_eq_of_uninterpreted hop]
  exact Ensures.run_throw (unsupported_allowed _)

/-- The interpreter keeps to the opcode table: an instruction left in a
routine, run on a frame that holds the values the table says it takes, fails
only for another reason than a stack fault, and otherwise ends the run at a
`ret` or leaves the values the table says it leaves. -/
theorem instruction_spec {resolver : Resolver m} (hg : l.Admits good)
    (hy : Host.Yields good host resolver) (hf : FrameOK l good ctx false f) {pops pushes : Nat}
    (hpops : i.stackPops (!returns.isVoid) = .ok pops) (hpushes : i.stackPushes = .ok pushes)
    (hk : pops ≤ f.stack.length) (hidx : i.argIndex? = none) :
    Ensures (StepPost l good ctx (.replay i) pops pushes f) (instruction host returns f i).run := by
  -- For an opcode with fixed counts, the counts are the table's.
  have fixed : ∀ {a b : Nat}, i.opcode.info.pop = .fixed a ∧ i.opcode.info.push = .fixed b →
      (a ≤ f.stack.length →
        Ensures (StepPost l good ctx (.replay i) a b f) (instruction host returns f i).run) →
      Ensures (StepPost l good ctx (.replay i) pops pushes f) (instruction host returns f i).run := by
    intro a b hinfo h
    obtain ⟨rfl, rfl⟩ := Instruction.counts_of_fixed hinfo hpops hpushes
    exact h hk
  by_cases hnop : i.opcode = .nop
  · exact fixed (by rw [hnop]; exact ⟨rfl, rfl⟩) fun _ => instruction_nop hnop hf
  by_cases hconst : i.opcode ∈ OpCode.constantLoads
  · exact fixed (OpCode.constantLoads_counts _ hconst) fun _ => instruction_constant hconst hg hf
  by_cases hstr : i.opcode = .ldstr
  · exact fixed (by rw [hstr]; exact ⟨rfl, rfl⟩) fun _ => instruction_ldstr hstr hg hf
  by_cases harg : i.opcode ∈ OpCode.argumentLoads
  · exact instruction_argumentLoad harg hidx pops pushes
  by_cases hstarg : i.opcode = .starg_s ∨ i.opcode = .starg
  · refine fixed (by rcases hstarg with h | h <;> rw [h] <;> exact ⟨rfl, rfl⟩) fun hk =>
      instruction_argumentStore hstarg hidx hk 1 0
  by_cases hldloc : i.opcode ∈ OpCode.localLoads
  · exact fixed (OpCode.localLoads_counts _ hldloc) fun _ => instruction_localLoad hldloc hf
  by_cases hldloca : i.opcode = .ldloca_s ∨ i.opcode = .ldloca
  · refine fixed (by rcases hldloca with h | h <;> rw [h] <;> exact ⟨rfl, rfl⟩) fun _ =>
      instruction_localAddress hldloca hg hf
  by_cases hstloc : i.opcode ∈ OpCode.localStores
  · exact fixed (OpCode.localStores_counts _ hstloc) (instruction_localStore hstloc hf)
  by_cases hdup : i.opcode = .dup
  · exact fixed (by rw [hdup]; exact ⟨rfl, rfl⟩) (instruction_dup hdup hf)
  by_cases hpop : i.opcode = .pop
  · exact fixed (by rw [hpop]; exact ⟨rfl, rfl⟩) (instruction_pop hpop hf)
  by_cases hinit : i.opcode = .initobj
  · exact fixed (by rw [hinit]; exact ⟨rfl, rfl⟩) (instruction_initobj hinit hy hf)
  by_cases hnew : i.opcode = .newobj
  · obtain ⟨t, ctor, ht, hctor, rfl, rfl⟩ := Instruction.newobj_counts hnew hpops hpushes
    exact instruction_newobj hnew hg hy hf ht hctor hk
  by_cases hcall : i.opcode = .call ∨ i.opcode = .callvirt
  · obtain ⟨t, method, ht, hmethod, rfl, rfl⟩ := Instruction.call_counts hcall hpops hpushes
    exact instruction_call hcall hg hy hf ht hmethod hk
  by_cases hldfld : i.opcode = .ldfld
  · exact fixed (by rw [hldfld]; exact ⟨rfl, rfl⟩) (instruction_ldfld hldfld hy hf)
  by_cases hldsfld : i.opcode = .ldsfld
  · exact fixed (by rw [hldsfld]; exact ⟨rfl, rfl⟩) fun _ => instruction_ldsfld hldsfld hy hf
  by_cases hstfld : i.opcode = .stfld
  · exact fixed (by rw [hstfld]; exact ⟨rfl, rfl⟩) (instruction_stfld hstfld hf)
  by_cases hstsfld : i.opcode = .stsfld
  · exact fixed (by rw [hstsfld]; exact ⟨rfl, rfl⟩) (instruction_stsfld hstsfld hf)
  by_cases hbox : i.opcode = .box
  · exact fixed (by rw [hbox]; exact ⟨rfl, rfl⟩) (instruction_box hbox hy hf)
  by_cases hunbox : i.opcode = .unbox_any
  · exact fixed (by rw [hunbox]; exact ⟨rfl, rfl⟩) (instruction_unbox hunbox hy hf)
  by_cases hcast : i.opcode = .castclass ∨ i.opcode = .isinst
  · refine fixed (by rcases hcast with h | h <;> rw [h] <;> exact ⟨rfl, rfl⟩)
      (instruction_cast hcast hg hy hf)
  by_cases hbin : i.opcode ∈ OpCode.binaryOps
  · exact fixed (OpCode.binaryOps_counts _ hbin) (instruction_binary hbin hg hf)
  by_cases hun : i.opcode = .neg ∨ i.opcode = .not
  · refine fixed (by rcases hun with h | h <;> rw [h] <;> exact ⟨rfl, rfl⟩)
      (instruction_unary hun hg hf)
  by_cases hcmp : i.opcode ∈ OpCode.comparisons
  · exact fixed (OpCode.comparisons_counts _ hcmp) (instruction_compare hcmp hg hf)
  by_cases hconv : i.opcode ∈ OpCode.conversions
  · exact fixed (OpCode.conversions_counts _ hconv) (instruction_convert hconv hg hf)
  by_cases hret : i.opcode = .ret
  · have hk' : (if returns.isVoid then 0 else 1) ≤ f.stack.length := by
      rw [Instruction.ret_pops hret hpops] at hk
      revert hk
      cases returns.isVoid <;> simp
    exact (instruction_ret hret hk').imp fun _ => FinalPost.stepPost hret
  -- Every other opcode is outside the interpreted set.
  refine instruction_other ?_ pops pushes
  simp only [OpCode.interpreted, List.mem_append, List.mem_cons, List.not_mem_nil, or_false]
  tauto

end Families

/-! ### One operation -/

section Operations

variable {m : Type → Type} [Monad m] [LawfulMonad m] {host : Host m} {resolver : Resolver m}
  {r : Routine} {good : Value → Prop} {ctx : Value} {f : Frame}

/-- Loading an argument other than the context pushes its `good` value. -/
theorem operation_loadArg {n : Nat} (hw : (RoutineOp.loadArg n).Within r.layout)
    (hf : FrameOK r.layout good ctx false f) :
    Ensures (StepPost r.layout good ctx (.loadArg n) 0 1 f)
      (operation host resolver r f (.loadArg n)).run := by
  obtain ⟨hlt, hne, -⟩ := hw
  have hn : n < f.args.length := hf.args_length ▸ hlt
  rw [operation, Frame.arg_lt hn, lift_ok_bind]
  exact Ensures.run_pure ⟨by simp [Frame.push], hf.push (hf.args n _ hne (by simp [hn]))⟩

/-- Loading the address of an argument other than the context pushes a pointer
`good` admits. -/
theorem operation_loadArgAddr {n : Nat} (hg : r.layout.Admits good)
    (hw : (RoutineOp.loadArgAddr n).Within r.layout) (hf : FrameOK r.layout good ctx false f) :
    Ensures (StepPost r.layout good ctx (.loadArgAddr n) 0 1 f)
      (operation host resolver r f (.loadArgAddr n)).run := by
  obtain ⟨hlt, hne, h16⟩ := hw
  rw [operation]
  exact Ensures.run_pure ⟨by simp [Frame.push], hf.push (hg.argAddr n hlt hne h16)⟩

/-- Storing into an argument other than the context moves the top value there. -/
theorem operation_storeArg {n : Nat} (hw : (RoutineOp.storeArg n).Within r.layout)
    (hf : FrameOK r.layout good ctx false f) (hk : 1 ≤ f.stack.length) :
    Ensures (StepPost r.layout good ctx (.storeArg n) 1 0 f)
      (operation host resolver r f (.storeArg n)).run := by
  obtain ⟨hlt, hne, -⟩ := hw
  obtain ⟨v, rest, hs⟩ := Frame.exists_cons hk
  have hv : good v := hf.stack_good v (by simp [hs])
  have hn : n < ({ f with stack := rest } : Frame).args.length := hf.args_length ▸ hlt
  rw [operation, Frame.pop_cons hs, lift_ok_bind]
  dsimp only
  rw [Frame.setArg_lt hn, lift_ok_bind]
  exact Ensures.run_pure ⟨by simp [hs], (hf.pop hs).setArg hv fun _ => hne⟩

/-- Loading the context puts it on top of the stack, pending its resolution. -/
theorem operation_loadContext (hf : FrameOK r.layout good ctx false f) :
    Ensures (StepPost r.layout good ctx .loadContext 0 1 f)
      (operation host resolver r f .loadContext).run := by
  have hn : r.layout.contextIndex < f.args.length := hf.args_length ▸ r.layout.contextIndex_lt
  rw [operation, Frame.arg_lt hn, lift_ok_bind]
  refine Ensures.run_pure ⟨by simp [Frame.push], ?_⟩
  -- The context is on top, where `good` is not asked of it.
  exact ⟨hf.args_length, by simpa [Frame.push] using hf.stack, hf.locals, hf.args, hf.context⟩

/-- A resolution takes the top value, the context when one is pending, and
leaves what the resolver gives for it. -/
theorem operation_resolve {ty : TypeRef} {pending : Bool} (hy : Host.Yields good host resolver)
    (hf : FrameOK r.layout good ctx pending f) (hk : 1 ≤ f.stack.length) :
    Ensures (StepPost r.layout good ctx (.resolve ty) 1 1 f)
      (operation host resolver r f (.resolve ty)).run := by
  obtain ⟨v, rest, hs⟩ := Frame.exists_cons hk
  rw [operation, Frame.pop_cons hs, lift_ok_bind]
  dsimp only
  refine ensures_exceptLift_bind (hy.resolve ty v) fun res hres => ?_
  rcases res with reason | _ | w
  · exact Ensures.run_throw (RunError.Harmless.allowed (by simp [RunError.Harmless]) _ good)
  · exact Ensures.run_throw (RunError.Harmless.allowed (by simp [RunError.Harmless]) _ good)
  · exact Ensures.run_pure ⟨by simp [Frame.push, hs], (hf.pop hs).push (hres w rfl)⟩

/-- Unboxing a resolved value replaces it with what the host takes out of it. -/
theorem operation_unbox {ty : TypeRef} (hy : Host.Yields good host resolver)
    (hf : FrameOK r.layout good ctx false f) (hk : 1 ≤ f.stack.length) :
    Ensures (StepPost r.layout good ctx (.unbox ty) 1 1 f)
      (operation host resolver r f (.unbox ty)).run := by
  obtain ⟨v, rest, hs⟩ := Frame.exists_cons hk
  rw [operation, Frame.pop_cons hs, lift_ok_bind]
  refine ensures_viaHost_bind (hy.unbox ty v) (fun w hw => ?_)
    fun s => RunError.host_allowed s _ good
  exact Ensures.run_pure ⟨by simp [Frame.push, hs], (hf.pop hs).push hw⟩

/-- Every operation of a routine keeps to its `effect`: run on a frame holding at
least the values it takes, it fails only for another reason than a stack fault,
and otherwise ends the run at a replayed `ret` or leaves a frame whose stack has
lost what it takes and gained what it leaves. A pending context is taken only by
the resolution that follows its load. -/
theorem operation_spec {op : RoutineOp} (hg : r.layout.Admits good)
    (hy : Host.Yields good host resolver) {pending : Bool} (hf : FrameOK r.layout good ctx pending f)
    (hpending : pending = true → op.isResolve = true) (hw : op.Within r.layout)
    {pops pushes : Nat} (heff : op.effect (!r.returns.isVoid) = .ok (pops, pushes))
    (hk : pops ≤ f.stack.length) :
    Ensures (StepPost r.layout good ctx op pops pushes f) (operation host resolver r f op).run := by
  -- Only a resolution may find the context pending.
  have settle : op.isResolve = false → FrameOK r.layout good ctx false f := fun hne =>
    hf.settled fun hp => by
      rw [hpending hp] at hne
      cases hne
  cases op with
  | replay i =>
    obtain ⟨hpops, hpushes⟩ := RoutineOp.effect_replay.mp heff
    exact instruction_spec hg hy (settle rfl) hpops hpushes hk hw
  | loadArg n =>
    simp only [RoutineOp.effect, Except.ok.injEq, Prod.mk.injEq] at heff
    obtain ⟨rfl, rfl⟩ := heff
    exact operation_loadArg hw (settle rfl)
  | loadArgAddr n =>
    simp only [RoutineOp.effect, Except.ok.injEq, Prod.mk.injEq] at heff
    obtain ⟨rfl, rfl⟩ := heff
    exact operation_loadArgAddr hg hw (settle rfl)
  | storeArg n =>
    simp only [RoutineOp.effect, Except.ok.injEq, Prod.mk.injEq] at heff
    obtain ⟨rfl, rfl⟩ := heff
    exact operation_storeArg hw (settle rfl) hk
  | loadContext =>
    simp only [RoutineOp.effect, Except.ok.injEq, Prod.mk.injEq] at heff
    obtain ⟨rfl, rfl⟩ := heff
    exact operation_loadContext (settle rfl)
  | resolve ty =>
    simp only [RoutineOp.effect, Except.ok.injEq, Prod.mk.injEq] at heff
    obtain ⟨rfl, rfl⟩ := heff
    exact operation_resolve hy hf hk
  | unbox ty =>
    simp only [RoutineOp.effect, Except.ok.injEq, Prod.mk.injEq] at heff
    obtain ⟨rfl, rfl⟩ := heff
    exact operation_unbox hy (settle rfl) hk

end Operations

end Run

end CilBind
