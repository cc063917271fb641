import CilBind.Proofs.InterpreterStep

/-!
# `CilBind.Proofs.RoutineRun`: a checked routine runs without stack faults

A routine can be checked without running it (`Routine.Checked`). Counting from an
empty stack with the opcode table's effects (`RoutineOp.Checks`), every operation
finds the values it takes, and a loaded context is taken by the very next
operation, a resolution. Every argument an operation names is one of the
routine's, other than the context. The last operation is a replayed `ret`.

A run of a checked routine never fails with a stack fault, and when `good`
confines argument pointers it never misses an argument slot (`invoke_allowed`).
Every point a run reaches (`Run.Reaches`) keeps the invariant `Run.Inv`: its
frame is `FrameOK`, and the operations left pass the check from the frame's
stack depth and still end with a replayed `ret`. So the operations never run
out, and the run can end only at a replayed `ret`.

## How the proof goes

`operation_step` is the step lemma: from a point where `Run.Inv` holds, one
operation ends the run at a replayed `ret`, fails with an allowed error, or
reaches a point where `Run.Inv` holds again. Away from the last operation this is
`operation_spec` with the check's counts; the last operation is a `ret`, which
never hands on a frame. `operations_allowed` and `Reaches.inv` are the run
lemmas, by induction on the operations left and on the steps taken.
-/

set_option autoImplicit false

namespace CilBind

namespace RoutineOp

/-- One operation of the static check, on the stack depth and on whether a
loaded context waits for its resolution: `none` when `op` would find fewer
values than it takes, or a waiting context that it does not resolve. -/
def check (rv : Bool) (s : Nat × Bool) (op : RoutineOp) : Option (Nat × Bool) :=
  match op.effect rv with
  | .ok (pops, pushes) =>
    if pops ≤ s.1 ∧ (s.2 = true → op.isResolve = true) then
      some (s.1 - pops + pushes, op.isLoadContext)
    else none
  | .error _ => none

/-- The operations pass the static check from a stack of `depth` values, with a
loaded context waiting when `pending`. -/
def Checks (rv : Bool) (depth : Nat) (pending : Bool) (ops : List RoutineOp) : Prop :=
  (ops.foldlM (check rv) (depth, pending)).isSome

/-- The static check passes an operation exactly when its counts are known, the
depth holds what it pops, and a pending context goes to a resolution. -/
theorem check_eq_some {rv : Bool} {s s' : Nat × Bool} {op : RoutineOp} :
    op.check rv s = some s' ↔ ∃ pops pushes, op.effect rv = .ok (pops, pushes) ∧
      pops ≤ s.1 ∧ (s.2 = true → op.isResolve = true) ∧
      s' = (s.1 - pops + pushes, op.isLoadContext) := by
  unfold check
  split
  · next pops pushes heff =>
    constructor
    · intro h
      split at h
      · next hc => exact ⟨pops, pushes, heff, hc.1, hc.2, (Option.some.inj h).symm⟩
      · cases h
    · rintro ⟨a, b, hab, ha, hres, rfl⟩
      rw [heff] at hab
      obtain ⟨rfl, rfl⟩ := Prod.mk.inj (Except.ok.inj hab)
      rw [if_pos ⟨ha, hres⟩]
  · next e heff =>
    refine ⟨nofun, fun ⟨a, b, hab, _⟩ => ?_⟩
    rw [heff] at hab
    cases hab

/-- The check of a list is the check of its first operation, then of the rest. -/
theorem checks_cons {rv : Bool} {depth : Nat} {pending : Bool} {op : RoutineOp}
    {rest : List RoutineOp} :
    Checks rv depth pending (op :: rest) ↔ ∃ pops pushes, op.effect rv = .ok (pops, pushes) ∧
      pops ≤ depth ∧ (pending = true → op.isResolve = true) ∧
      Checks rv (depth - pops + pushes) op.isLoadContext rest := by
  unfold Checks
  rw [List.foldlM_cons]
  cases h : op.check rv (depth, pending) with
  | none =>
    simp only [Option.bind_eq_bind, Option.bind_none, Option.isSome_none, Bool.false_eq_true,
      false_iff, not_exists, not_and]
    intro pops pushes heff hk hres
    have hc : op.check rv (depth, pending) = some (depth - pops + pushes, op.isLoadContext) :=
      check_eq_some.mpr ⟨pops, pushes, heff, hk, hres, rfl⟩
    rw [h] at hc
    cases hc
  | some s' =>
    obtain ⟨pops, pushes, heff, hk, hres, rfl⟩ := check_eq_some.mp h
    simp only [Option.bind_eq_bind, Option.bind_some]
    constructor
    · intro hrest
      exact ⟨pops, pushes, heff, hk, hres, hrest⟩
    · rintro ⟨a, b, hab, -, -, hrest⟩
      rw [heff] at hab
      obtain ⟨rfl, rfl⟩ := Prod.mk.inj (Except.ok.inj hab)
      exact hrest

end RoutineOp

/-- What a run of a routine relies on, checked without running it: from an empty
stack every operation finds the values it takes and a loaded context is resolved
next; every operation names only the routine's own arguments, never the
context; and the last operation is a replayed `ret`. -/
structure Routine.Checked (r : Routine) : Prop where
  stack : RoutineOp.Checks (!r.returns.isVoid) 0 false r.ops
  within : ∀ op ∈ r.ops, op.Within r.layout
  last : ∃ i, r.ops.getLast? = some (.replay i) ∧ i.opcode = .ret

/-! ### Two choices of `good` -/

section Good

variable {m : Type → Type} [Monad m] [LawfulMonad m] {host : Host m} {resolver : Resolver m}

/-- For the stack discipline alone, every value is good. -/
theorem Layout.admits_true (l : Layout) : l.Admits fun _ => True :=
  ⟨fun _ _ => trivial, fun _ _ _ _ => trivial⟩

/-- Every host and resolver yield values of the trivial property. -/
theorem Host.yields_true (host : Host m) (resolver : Resolver m) :
    Host.Yields (fun _ => True) host resolver where
  construct _ _ := Ensures.of_forall _ fun _ _ _ => trivial
  call _ _ := Ensures.of_forall _ fun _ _ _ => trivial
  loadField _ _ := Ensures.of_forall _ fun _ _ _ => trivial
  defaultValue _ := Ensures.of_forall _ fun _ _ _ => trivial
  box _ _ := Ensures.of_forall _ fun _ _ _ => trivial
  unbox _ _ := Ensures.of_forall _ fun _ _ _ => trivial
  cast _ _ := Ensures.of_forall _ fun _ _ _ => trivial
  resolve _ _ := Ensures.of_forall _ fun _ _ _ => trivial

/-- A host that yields values of a property yields values of every weaker one. -/
theorem Host.Yields.mono {p q : Value → Prop} (hy : Host.Yields p host resolver)
    (hpq : ∀ v, p v → q v) : Host.Yields q host resolver where
  construct c vs := (hy.construct c vs).imp fun _ hr v hv => hpq v (hr v hv)
  call c vs := (hy.call c vs).imp fun _ hr v hv => hpq v (hr v hv)
  loadField fld t := (hy.loadField fld t).imp fun _ hr v hv => hpq v (hr v hv)
  defaultValue ty := (hy.defaultValue ty).imp fun _ hr v hv => hpq v (hr v hv)
  box ty v := (hy.box ty v).imp fun _ hr w hw => hpq w (hr w hw)
  unbox ty v := (hy.unbox ty v).imp fun _ hr w hw => hpq w (hr w hw)
  cast ty v := (hy.cast ty v).imp fun _ hr w hw => hpq w (hr w hw)
  resolve ty v := (hy.resolve ty v).imp fun _ hr w hw => hpq w (hr w hw)

end Good

/-- A value that is no managed pointer points to no argument. -/
theorem Value.argSafe_of_not_isAddress {l : Layout} {v : Value} (h : ¬ v.IsAddress) :
    v.ArgSafe l := by
  rintro j rfl
  exact absurd trivial h

/-- Argument safety holds of every value a routine makes itself. -/
theorem Layout.admits_argSafe (l : Layout) : l.Admits (Value.ArgSafe l) where
  plain v hv j hj := absurd hj (hv j)
  argAddr n hn hne h16 j hj := by
    cases hj
    have hj : n.toUInt16.toNat = n := by
      simp only [Nat.toUInt16_eq, UInt16.toNat_ofNat']
      omega
    rw [hj]
    exact ⟨hn, hne⟩

/-- Safe values confine argument pointers. -/
theorem Layout.confines_argSafe (l : Layout) : l.Confines (Value.ArgSafe l) :=
  fun j hj => hj j rfl

namespace Run

section Reaching

variable {m : Type → Type} [Monad m]

/-- The points a run of `r` reaches from frame `f` with the operations `ops`
left: each step is an operation that may hand on the next frame. -/
inductive Reaches (host : Host m) (resolver : Resolver m) (r : Routine) :
    Frame → List RoutineOp → Frame → List RoutineOp → Prop
  | refl (f : Frame) (ops : List RoutineOp) : Reaches host resolver r f ops f ops
  | step {f f' g : Frame} {op : RoutineOp} {rest ops : List RoutineOp} :
    Possible (operation host resolver r f op).run (.ok (.next f')) →
    Reaches host resolver r f' rest g ops → Reaches host resolver r f (op :: rest) g ops

end Reaching

/-- What holds at every point of a run of `r`: the frame keeps `FrameOK`, with
`pending` when a loaded context waits on its stack; the operations left pass the
static check from the frame's depth, name only the routine's arguments, and end
with a replayed `ret`. -/
structure Inv (r : Routine) (good : Value → Prop) (ctx : Value) (pending : Bool) (f : Frame)
    (ops : List RoutineOp) : Prop where
  frame : FrameOK r.layout good ctx pending f
  checks : RoutineOp.Checks (!r.returns.isVoid) f.stack.length pending ops
  within : ∀ op ∈ ops, op.Within r.layout
  last : ∃ i, ops.getLast? = some (.replay i) ∧ i.opcode = .ret

/-- What operation `op`, followed by `rest`, may end with from a point of the
run: the routine's result at a replayed `ret`, an allowed failure, or the next
point, where `Inv` holds. -/
def After (r : Routine) (good : Value → Prop) (ctx : Value) (op : RoutineOp)
    (rest : List RoutineOp) : Except RunError Step → Prop
  | .ok (.done _) => ∃ i, op = .replay i ∧ i.opcode = .ret
  | .ok (.next f') => Inv r good ctx op.isLoadContext f' rest
  | .error e => e.Allowed r.layout good

section Steps

variable {m : Type → Type} [Monad m] [LawfulMonad m] {host : Host m} {resolver : Resolver m}
  {r : Routine} {good : Value → Prop} {ctx : Value}

/-- The step lemma: one operation from a point where `Inv` holds. -/
theorem operation_step (hg : r.layout.Admits good) (hy : Host.Yields good host resolver)
    {pending : Bool} {f : Frame} {op : RoutineOp} {rest : List RoutineOp}
    (hinv : Inv r good ctx pending f (op :: rest)) :
    Ensures (After r good ctx op rest) (operation host resolver r f op).run := by
  obtain ⟨pops, pushes, heff, hk, hres, hchecks⟩ := RoutineOp.checks_cons.mp hinv.checks
  have hw : op.Within r.layout := hinv.within op List.mem_cons_self
  cases rest with
  | nil =>
    -- The last operation is a `ret`, which ends the run whatever it finds.
    obtain ⟨i, hi, hret⟩ := hinv.last
    cases hi
    obtain ⟨hpops, -⟩ := RoutineOp.effect_replay.mp heff
    have hk' : (if r.returns.isVoid then 0 else 1) ≤ f.stack.length := by
      rw [Instruction.ret_pops hret hpops] at hk
      revert hk
      cases r.returns.isVoid <;> simp
    have hfin : Ensures (FinalPost r.layout good) (operation host resolver r f (.replay i)).run :=
      instruction_ret hret hk'
    refine hfin.imp fun res hres => ?_
    rcases res with e | v | f'
    · exact hres
    · exact ⟨i, rfl, hret⟩
    · exact hres.elim
  | cons next rest =>
    refine (operation_spec hg hy hinv.frame hres hw heff hk).imp fun res hres => ?_
    rcases res with e | v | f'
    · exact hres
    · exact hres
    · obtain ⟨hdepth, hframe⟩ := hres
      have hlen : f'.stack.length = f.stack.length - pops + pushes := by omega
      refine ⟨hframe, hlen ▸ hchecks, fun op' hop' => hinv.within op' (List.mem_cons_of_mem _ hop'),
        ?_⟩
      rw [← List.getLast?_cons_cons]
      exact hinv.last

/-- A run from a point where `Inv` holds fails, if it fails, with an allowed
error: never a stack fault, in particular never by running out of operations. -/
theorem operations_allowed (hg : r.layout.Admits good) (hy : Host.Yields good host resolver)
    (ops : List RoutineOp) {pending : Bool} {f : Frame} (hinv : Inv r good ctx pending f ops) :
    Ensures (fun res => ∀ e, res = .error e → e.Allowed r.layout good)
      (operations host resolver r ops f).run := by
  induction ops generalizing pending f with
  | nil =>
    obtain ⟨i, hi, -⟩ := hinv.last
    cases hi
  | cons op rest ih =>
    rw [operations]
    refine Ensures.run_bind (operation_step hg hy hinv) (fun s hs => ?_) fun e he e' h => ?_
    · cases s with
      | done v => exact Ensures.run_pure fun _ h => by cases h
      | next f' => exact ih hs
    · cases h
      exact he

/-- The run lemma for reached points: every point a run reaches from a point
where `Inv` holds is one where `Inv` holds. -/
theorem Reaches.inv (hg : r.layout.Admits good) (hy : Host.Yields good host resolver)
    {f g : Frame} {ops ops' : List RoutineOp} (hreach : Reaches host resolver r f ops g ops') :
    ∀ {pending : Bool}, Inv r good ctx pending f ops → ∃ pending', Inv r good ctx pending' g ops' := by
  induction hreach with
  | refl f ops => exact fun hinv => ⟨_, hinv⟩
  | step hposs _ ih =>
    intro pending hinv
    exact ih ((operation_step hg hy hinv).of_possible hposs)

/-- A point where `Inv` holds has an operation left, and its stack holds at
least the values that operation takes. -/
theorem Inv.next_op {pending : Bool} {g : Frame} {ops : List RoutineOp}
    (hinv : Inv r good ctx pending g ops) :
    ∃ op rest pops pushes, ops = op :: rest ∧ op.effect (!r.returns.isVoid) = .ok (pops, pushes) ∧
      pops ≤ g.stack.length := by
  cases ops with
  | nil =>
    obtain ⟨i, hi, -⟩ := hinv.last
    cases hi
  | cons op rest =>
    obtain ⟨pops, pushes, heff, hk, -⟩ := RoutineOp.checks_cons.mp hinv.checks
    exact ⟨op, rest, pops, pushes, rfl, heff, hk⟩

/-- A run of a checked routine starts at a point where `Inv` holds: a frame
with the routine's arguments, the context at its slot, every other argument and
every local `good`, and an empty stack. -/
theorem Inv.start (hr : r.Checked) {f : Frame} (hlen : f.args.length = r.layout.argCount)
    (hctx : f.args[r.layout.contextIndex]? = some ctx)
    (hargs : ∀ j v, j ≠ r.layout.contextIndex → f.args[j]? = some v → good v)
    (hlocals : ∀ v ∈ f.locals, good v) (hstack : f.stack = []) :
    Inv r good ctx false f r.ops := by
  refine ⟨⟨hlen, by simp [hstack], hlocals, hargs, fun _ => hctx⟩, ?_, hr.within, hr.last⟩
  rw [hstack]
  exact hr.stack

/-- The locals a run starts with are `good`, as the host's defaults are, and the
host's refusal to give one is a harmless failure. -/
theorem freshLocals_good (hy : Host.Yields good host resolver) (tys : List TypeRef) :
    Ensures (fun res => match res with
      | .ok locals => ∀ v ∈ locals, good v
      | .error e => e.Harmless) (freshLocals host tys).run := by
  induction tys with
  | nil =>
    rw [freshLocals]
    exact Ensures.run_pure (by simp)
  | cons ty rest ih =>
    rw [freshLocals]
    refine ensures_viaHost_bind (hy.defaultValue ty) (fun v hv => ?_) fun s => by
      simp [RunError.Harmless]
    refine Ensures.run_bind ih (fun locals hlocals => Ensures.run_pure ?_) fun e he => he
    intro w hw
    rcases List.mem_cons.mp hw with rfl | hw
    · exact hv
    · exact hlocals w hw

/-- An argument list with the context at position `front.length`: every
argument but the context comes from `front` or from `args`. -/
theorem mem_of_getElem?_ne {front args : List Value} {ctx v : Value} {j : Nat}
    (hj : j ≠ front.length) (hv : (front ++ ctx :: args)[j]? = some v) : v ∈ front ∨ v ∈ args := by
  rcases Nat.lt_or_ge j front.length with hlt | hge
  · rw [List.getElem?_append_left hlt] at hv
    exact Or.inl (List.mem_of_getElem? hv)
  · rw [List.getElem?_append_right hge] at hv
    obtain ⟨k, hk⟩ : ∃ k, j - front.length = k + 1 := ⟨j - front.length - 1, by omega⟩
    rw [hk, List.getElem?_cons_succ] at hv
    exact Or.inr (List.mem_of_getElem? hv)

/-- A run of a checked routine, started by `invoke` on `good` arguments and
target, fails, if it fails, with an allowed error: a wrong number of arguments,
a refusal of the host or the resolver, or an operation the interpreter does not
run, but never a stack fault. -/
theorem invoke_allowed (hr : r.Checked) (hg : r.layout.Admits good)
    (hy : Host.Yields good host resolver) {target : Option Value} {context : Value}
    {args : List Value} (htarget : ∀ v, target = some v → good v) (hargs : ∀ v ∈ args, good v) :
    Ensures (fun res => ∀ e, res = .error e → e.Allowed r.layout good)
      (invoke host resolver r target context args).run := by
  unfold invoke routine Layout.invokeArgs
  dsimp only
  by_cases harity : args.length = r.layout.params.length
  · rw [if_neg (not_not.mpr harity)]
    -- The target goes first when there is one, then the context, then the arguments.
    have hfront : (if r.layout.hasThis then [target.getD .null] else []).length =
        r.layout.contextIndex := by
      unfold Layout.contextIndex
      split <;> rfl
    have hfront_good : ∀ v ∈ (if r.layout.hasThis then [target.getD .null] else []), good v := by
      split
      · intro v hv
        rw [List.mem_singleton] at hv
        subst hv
        cases target with
        | none => exact hg.plain _ (by simp)
        | some w => exact htarget w rfl
      · simp
    generalize (if r.layout.hasThis then [target.getD .null] else []) = front at hfront hfront_good ⊢
    have hlen : (front ++ context :: args).length = r.layout.argCount := by
      rw [List.length_append, List.length_cons, hfront, harity]
      unfold Layout.argCount Layout.contextIndex
      omega
    rw [if_neg (not_not.mpr hlen)]
    refine Ensures.run_bind (freshLocals_good hy r.locals) (fun locals hlocals => ?_)
      fun e he e' h => ?_
    · have hctx : (front ++ context :: args)[r.layout.contextIndex]? = some context := by
        rw [← hfront]
        simp
      have hrest : ∀ j v, j ≠ r.layout.contextIndex → (front ++ context :: args)[j]? = some v →
          good v := by
        intro j v hj hv
        rcases mem_of_getElem?_ne (hfront ▸ hj) hv with hv | hv
        · exact hfront_good v hv
        · exact hargs v hv
      have hstart : Inv r good context false ⟨front ++ context :: args, locals, []⟩ r.ops :=
        Inv.start hr hlen hctx hrest hlocals rfl
      exact operations_allowed hg hy r.ops hstart
    · cases h
      exact he.allowed _ _
  · rw [if_pos harity]
    exact ensures_throw_bind fun e h => by
      cases h
      exact RunError.Harmless.allowed (by simp [RunError.Harmless]) _ _

end Steps

end Run

/-- What a run of routine `r` guarantees, with host `host` and resolver
`resolver`. -/
structure Routine.RunsSafely {m : Type → Type} [Monad m] (r : Routine) (host : Host m)
    (resolver : Resolver m) : Prop where
  /-- Started by `invoke`, a run never fails with a stack fault: neither an
  underflow nor running out of operations. -/
  noStackFault : ∀ target context args,
    Ensures (fun res => ∀ e, res = .error e → ¬ e.IsStackFault)
      (Run.invoke host resolver r target context args).run
  /-- The last operation is a replayed `ret`. -/
  tail : ∃ i, r.ops.getLast? = some (.replay i) ∧ i.opcode = .ret
  /-- From a frame with the routine's arguments and an empty stack, every point
  a run reaches has an operation left, the stack holds at least the values that
  operation takes, and the run can end there only at a replayed `ret`. -/
  reached : ∀ f g ops, f.args.length = r.layout.argCount → f.stack = [] →
    Run.Reaches host resolver r f r.ops g ops →
    ∃ op rest pops pushes, ops = op :: rest ∧
      op.effect (!r.returns.isVoid) = .ok (pops, pushes) ∧ pops ≤ g.stack.length ∧
      ∀ v, Possible (Run.operation host resolver r g op).run (.ok (.done v)) →
        ∃ i, op = .replay i ∧ i.opcode = .ret
  /-- When the host and the resolver give no managed pointer, a run started by
  `invoke` on a target and arguments that are none never misses an argument
  slot. -/
  noSlotMiss : Host.Yields (fun v => ¬ v.IsAddress) host resolver →
    ∀ target context args, (∀ v, target = some v → ¬ v.IsAddress) →
      (∀ v ∈ args, ¬ v.IsAddress) →
      Ensures (fun res => ∀ e, res = .error e → ¬ e.IsArgumentSlot)
        (Run.invoke host resolver r target context args).run
  /-- When the host and the resolver give no managed pointer, every frame a run
  reaches from a frame whose locals and arguments other than the context are
  none holds the context it started with. -/
  contextKept : Host.Yields (fun v => ¬ v.IsAddress) host resolver →
    ∀ f g ops, f.args.length = r.layout.argCount → f.stack = [] →
      (∀ j v, j ≠ r.layout.contextIndex → f.args[j]? = some v → ¬ v.IsAddress) →
      (∀ v ∈ f.locals, ¬ v.IsAddress) →
      Run.Reaches host resolver r f r.ops g ops →
      g.args[r.layout.contextIndex]? = f.args[r.layout.contextIndex]?

section Safely

variable {m : Type → Type} [Monad m] [LawfulMonad m] {r : Routine}

/-- The context's slot holds a value in a frame with all the arguments. -/
theorem exists_context {f : Frame} (hlen : f.args.length = r.layout.argCount) :
    ∃ ctx, f.args[r.layout.contextIndex]? = some ctx :=
  ⟨_, List.getElem?_eq_getElem (hlen ▸ r.layout.contextIndex_lt)⟩

/-- A checked routine runs safely: with every value good for the stack, and
with argument safety when no managed pointer comes in. -/
theorem Routine.Checked.runsSafely (hr : r.Checked) (host : Host m) (resolver : Resolver m) :
    r.RunsSafely host resolver := by
  -- For the stack alone, every value is good.
  have hg := Layout.admits_true r.layout
  have hy := Host.yields_true host resolver
  -- Without managed pointers, every value of a run is safe for the arguments.
  have hgS := Layout.admits_argSafe r.layout
  have hyS : Host.Yields (fun v => ¬ v.IsAddress) host resolver →
      Host.Yields (Value.ArgSafe r.layout) host resolver :=
    fun hyA => hyA.mono fun v hv => Value.argSafe_of_not_isAddress hv
  constructor
  case noStackFault =>
    intro target context args
    refine (Run.invoke_allowed hr hg hy (fun _ _ => trivial) fun _ _ => trivial).imp ?_
    exact fun res hres e he => (hres e he).1
  case tail => exact hr.last
  case reached =>
    intro f g ops hlen hstack hreach
    obtain ⟨ctx, hc⟩ := exists_context hlen
    have hstart := Run.Inv.start hr hlen hc (fun _ _ _ _ => trivial) (fun _ _ => trivial) hstack
    obtain ⟨pending, hinv⟩ := hreach.inv hg hy hstart
    obtain ⟨op, rest, pops, pushes, rfl, heff, hk⟩ := hinv.next_op
    exact ⟨op, rest, pops, pushes, rfl, heff, hk, fun v hv =>
      (Run.operation_step hg hy hinv).of_possible hv⟩
  case noSlotMiss =>
    intro hyA target context args htarget hargs
    refine (Run.invoke_allowed hr hgS (hyS hyA)
      (fun v hv => Value.argSafe_of_not_isAddress (htarget v hv))
      fun v hv => Value.argSafe_of_not_isAddress (hargs v hv)).imp ?_
    exact fun res hres e he => (hres e he).2 (Layout.confines_argSafe _)
  case contextKept =>
    intro hyA f g ops hlen hstack hargs hlocals hreach
    obtain ⟨ctx, hc⟩ := exists_context hlen
    have hstart : Run.Inv r (Value.ArgSafe r.layout) ctx false f r.ops := Run.Inv.start hr hlen hc
      (fun j v hj hv => Value.argSafe_of_not_isAddress (hargs j v hj hv))
      (fun v hv => Value.argSafe_of_not_isAddress (hlocals v hv)) hstack
    obtain ⟨pending, hinv⟩ := hreach.inv hgS (hyS hyA) hstart
    rw [hc]
    exact hinv.frame.context (Layout.confines_argSafe _)

end Safely

end CilBind
