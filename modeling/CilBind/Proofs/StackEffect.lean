import CilBind.Proofs.InterpreterStep
import CilBind.Run.Scripted

/-!
# `CilBind.Proofs.StackEffect`: the interpreter takes and leaves what the opcode table says

The opcode table, `Instruction.stackPops` and `Instruction.stackPushes` (which
look a call's method or call site up for the variable counts) and the
interpreter's own pops are three descriptions of one behaviour. The tree builder
reads the first two; the interpreter runs the third. This module shows that they
agree, on every frame, without asking it to hold enough values.

`operation_stack_effect`: run on a frame with stack `s`, an operation whose
counts are `pops` and `pushes` ends in one of three ways (`KeepsCounts`):

* with a next frame whose stack is `s` without its top `pops` values and with
  `pushes` new values on top of the rest;
* with the routine's result, at a `ret`, which took what it takes and leaves
  nothing;
* with a failure, which is a stack underflow only when `s` holds fewer than
  `pops` values.

A replayed instruction has the counts of the table, with `ret` taking a value
exactly when the routine returns one. An instruction whose counts cannot be
worked out (its token names no method) fails before it touches the stack. `dup`
needs its one value and leaves it in place under a copy: the table's pop one,
push two. Of the synthesized operations, `loadArg`, `loadArgAddr` and
`loadContext` each push one value, `storeArg` pops one, and `resolve` and
`unbox` each pop one and push one.

## How the proof goes

Every opcode family runs the same few steps: look a token up, pop values one at
a time or all at once, ask the host, push. Each step has an `Ensures` lemma that
moves the count across it (`ensures_pop_bind`, `ensures_popN_bind`), so the
family lemmas only assemble them. The frame writes (`Frame.setArg`,
`Frame.setLocal`, `Frame.storeIndirect`) leave the stack alone.
-/

set_option autoImplicit false

namespace CilBind

/-- What an operation that takes `pops` values and leaves `pushes` may end with,
run on a frame whose stack is `s`: a next frame whose stack is `s` less its top
`pops` values with `pushes` new ones on top; the routine's result, at an
operation that leaves nothing; or a failure that is a stack fault only when `s`
holds fewer than `pops` values. -/
def KeepsCounts (s : List Value) (pops pushes : Nat) : Except RunError Step → Prop
  | .ok (.next f) =>
    pops ≤ s.length ∧ ∃ out : List Value, out.length = pushes ∧ f.stack = out ++ s.drop pops
  | .ok (.done _) => pops ≤ s.length ∧ pushes = 0
  | .error e => e.IsStackFault → s.length < pops

/-- A failure that is no stack fault; an operation that ends so never got as far
as the stack. -/
def FailsNotOnStack : Except RunError Step → Prop
  | .ok _ => False
  | .error e => ¬ e.IsStackFault

namespace KeepsCounts

variable {s : List Value} {pops pushes : Nat}

/-- A failure that is no stack fault keeps every count. -/
theorem of_not_fault {e : RunError} (h : ¬ e.IsStackFault) : KeepsCounts s pops pushes (.error e) :=
  fun hf => absurd hf h

/-- A harmless failure keeps every count. -/
theorem harmless {e : RunError} (h : e.Harmless) : KeepsCounts s pops pushes (.error e) :=
  of_not_fault h.1

/-- A refusal of the host keeps every count. -/
theorem hostFailure (reason : String) : KeepsCounts s pops pushes (.error (.host reason)) :=
  of_not_fault (by simp)

/-- An underflow on a stack that holds fewer than `pops` values keeps the counts. -/
theorem underflow {at_ : String} (h : s.length < pops) :
    KeepsCounts s pops pushes (.error (.stackUnderflow at_)) :=
  fun _ => h

/-- A next frame with one value on top of `s`. -/
theorem push {f : Frame} {v : Value} (h : f.stack = v :: s) : KeepsCounts s 0 1 (.ok (.next f)) :=
  ⟨Nat.zero_le _, [v], rfl, by simp [h]⟩

/-- A next frame with the stack `s` as it was. -/
theorem keep {f : Frame} (h : f.stack = s) : KeepsCounts s 0 0 (.ok (.next f)) :=
  ⟨Nat.zero_le _, [], rfl, by simp [h]⟩

/-- Counting the value an operation took off the top first. -/
theorem cons {v : Value} {res : Except RunError Step} (h : KeepsCounts s pops pushes res) :
    KeepsCounts (v :: s) (pops + 1) pushes res := by
  rcases res with e | w | f
  · exact fun hf => Nat.succ_lt_succ (h hf)
  · exact ⟨Nat.succ_le_succ h.1, h.2⟩
  · obtain ⟨hk, out, hout, hs⟩ := h
    exact ⟨Nat.succ_le_succ hk, out, hout, by simpa using hs⟩

/-- Counting the `n` values an operation took off the top at once. -/
theorem drop {n : Nat} {res : Except RunError Step} (hn : n ≤ s.length)
    (h : KeepsCounts (s.drop n) 0 pushes res) : KeepsCounts s n pushes res := by
  rcases res with e | w | f
  · exact fun hf => absurd (h hf) (Nat.not_lt_zero _)
  · exact ⟨hn, h.2⟩
  · obtain ⟨-, out, hout, hs⟩ := h
    exact ⟨hn, out, hout, by simpa using hs⟩

end KeepsCounts

/-! ### The frame writes leave the stack alone -/

namespace Frame

variable {f f' : Frame} {j : Nat} {v : Value} {e : RunError}

/-- Popping an empty stack underflows, naming the operation. -/
theorem pop_nil (h : f.stack = []) (s : String) :
    f.pop s = .error (.stackUnderflow s.trimAscii.toString) := by
  simp [pop, h]

/-- Popping more values than the stack holds underflows, naming the operation. -/
theorem popN_gt {n : Nat} (h : f.stack.length < n) (s : String) :
    f.popN n s = .error (.stackUnderflow s.trimAscii.toString) := by
  simp [popN, h]

/-- Reading a missing argument is no stack fault. -/
theorem arg_not_fault (h : f.arg j = .error e) : ¬ e.IsStackFault := by
  unfold arg at h
  split at h <;> cases h
  simp

/-- Reading a missing local is no stack fault. -/
theorem local_not_fault (h : f.local_ j = .error e) : ¬ e.IsStackFault := by
  unfold local_ at h
  split at h <;> cases h
  simp

/-- Writing an argument leaves the stack alone. -/
theorem stack_of_setArg (h : f.setArg j v = .ok f') : f'.stack = f.stack := by
  unfold setArg at h
  split at h <;> cases h
  rfl

/-- Writing a local leaves the stack alone. -/
theorem stack_of_setLocal (h : f.setLocal j v = .ok f') : f'.stack = f.stack := by
  unfold setLocal at h
  split at h <;> cases h
  rfl

/-- Writing a missing argument is no stack fault. -/
theorem setArg_not_fault (h : f.setArg j v = .error e) : ¬ e.IsStackFault := by
  rw [(setArg_eq_error h).2]
  simp

/-- Writing a missing local is no stack fault. -/
theorem setLocal_not_fault (h : f.setLocal j v = .error e) : ¬ e.IsStackFault := by
  unfold setLocal at h
  split at h <;> cases h
  simp

/-- A store through an address leaves the stack alone. -/
theorem stack_of_storeIndirect {op : OpCode} {addr : Value} (h : f.storeIndirect op addr v = .ok f') :
    f'.stack = f.stack := by
  unfold storeIndirect at h
  split at h
  · exact stack_of_setLocal h
  · exact stack_of_setArg h
  · cases h

/-- A store through an address that fails is no stack fault. -/
theorem storeIndirect_not_fault {op : OpCode} {addr : Value}
    (h : f.storeIndirect op addr v = .error e) : ¬ e.IsStackFault := by
  unfold storeIndirect at h
  split at h
  · exact setLocal_not_fault h
  · exact setArg_not_fault h
  · cases h
    simp

end Frame

/-- The table's argument loads take nothing and leave one value. -/
theorem OpCode.argumentLoads_counts :
    ∀ op ∈ OpCode.argumentLoads, op.info.pop = .fixed 0 ∧ op.info.push = .fixed 1 := by
  decide

/-! ### When the counts cannot be worked out -/

/-- The interpreter finds an instruction's token exactly when it has one. -/
theorem Run.tokenOf_eq_ok {i : Instruction} {t : TokenRef} : Run.tokenOf i = .ok t ↔ i.token? = some t := by
  unfold Run.tokenOf
  split <;> simp_all

namespace Instruction

variable {i : Instruction} {rv : Bool}

/-- Only constructions and calls look their counts up. -/
theorem counts_ok_of_fixed (hop : i.opcode ∉ [.newobj, .call, .callvirt, .calli]) :
    (∃ n, i.stackPops rv = .ok n) ∧ ∃ n, i.stackPushes = .ok n := by
  simp only [List.mem_cons, List.not_mem_nil, or_false, not_or] at hop
  constructor
  · unfold stackPops
    split
    · exact ⟨_, rfl⟩
    · split <;> simp_all
  · unfold stackPushes
    split
    · exact ⟨_, rfl⟩
    · split <;> simp_all

/-- A construction or call whose token names a method has its counts. -/
theorem counts_ok_of_method (hop : i.opcode = .newobj ∨ i.opcode = .call ∨ i.opcode = .callvirt)
    {t : TokenRef} {c : MethodRef} (ht : i.token? = some t) (hc : t.method = .ok c) :
    (∃ n, i.stackPops rv = .ok n) ∧ ∃ n, i.stackPushes = .ok n := by
  have htok : i.expectToken = .ok t := by simp [expectToken, ht]
  have hpop : i.opcode.info.pop = .var := by rcases hop with h | h | h <;> rw [h] <;> rfl
  constructor
  · rw [stackPops, hpop]
    rcases hop with h | h | h <;> simp [h, htok, hc]
  · rcases hop with h | h | h
    · have hpush : i.opcode.info.push = .fixed 1 := by rw [h]; rfl
      exact ⟨1, by rw [stackPushes, hpush]⟩
    all_goals
      have hpush : i.opcode.info.push = .var := by rw [h]; rfl
      rw [stackPushes, hpush]
      simp [h, htok, hc]

/-- The counts fail only at a `calli`, or at a construction or call whose token
names no method. -/
theorem counts_error {e : DecodeError} (h : i.stackPops rv = .error e ∨ i.stackPushes = .error e) :
    i.opcode = .calli ∨ ((i.opcode = .newobj ∨ i.opcode = .call ∨ i.opcode = .callvirt) ∧
      ∀ t, Run.tokenOf i = .ok t → ∃ d, t.method = .error d) := by
  by_cases hcalli : i.opcode = .calli
  · exact Or.inl hcalli
  by_cases hvar : i.opcode = .newobj ∨ i.opcode = .call ∨ i.opcode = .callvirt
  · refine Or.inr ⟨hvar, fun t ht => ?_⟩
    cases hc : t.method with
    | error d => exact ⟨d, rfl⟩
    | ok c =>
      obtain ⟨⟨n, hn⟩, n', hn'⟩ : (∃ n, i.stackPops rv = .ok n) ∧ ∃ n, i.stackPushes = .ok n :=
        counts_ok_of_method hvar (Run.tokenOf_eq_ok.mp ht) hc
      rcases h with h | h <;> simp_all
  · obtain ⟨⟨n, hn⟩, n', hn'⟩ : (∃ n, i.stackPops rv = .ok n) ∧ ∃ n, i.stackPushes = .ok n :=
      counts_ok_of_fixed (by simp; tauto)
    rcases h with h | h <;> simp_all

end Instruction

/-! ### Moving the counts across one step -/

namespace Run

section Steps

variable {m : Type → Type} [Monad m] [LawfulMonad m] {α : Type} {f : Frame} {here : String}
  {n k : Nat}

/-- Taking the top value: a stack underflow when there is none, and otherwise
whatever follows, counted against the rest. -/
theorem ensures_pop_bind {g : Value × Frame → ExceptT RunError m Step}
    (hok : ∀ v rest, f.stack = v :: rest →
      Ensures (KeepsCounts ({ f with stack := rest } : Frame).stack n k)
        (g (v, { f with stack := rest })).run) :
    Ensures (KeepsCounts f.stack (n + 1) k) (lift (f.pop here) >>= g).run := by
  cases hs : f.stack with
  | nil =>
    rw [Frame.pop_nil hs]
    exact ensures_lift_error_bind (KeepsCounts.underflow (by simp))
  | cons v rest =>
    rw [Frame.pop_cons hs, lift_ok_bind]
    exact (hok v rest hs).imp fun _ h => h.cons

/-- Taking `n` values at once: a stack underflow when there are fewer, and
otherwise whatever follows, counted against the rest. -/
theorem ensures_popN_bind {g : List Value × Frame → ExceptT RunError m Step}
    (hok : n ≤ f.stack.length → Ensures (KeepsCounts (f.stack.drop n) 0 k)
      (g ((f.stack.take n).reverse, { f with stack := f.stack.drop n })).run) :
    Ensures (KeepsCounts f.stack n k) (lift (f.popN n here) >>= g).run := by
  by_cases hn : n ≤ f.stack.length
  · rw [Frame.popN_le hn, lift_ok_bind]
    exact (hok hn).imp fun _ h => h.drop hn
  · rw [Frame.popN_gt (Nat.lt_of_not_le hn)]
    exact ensures_lift_error_bind (KeepsCounts.underflow (Nat.lt_of_not_le hn))

/-- A request to the host whatever it answers. -/
theorem ensures_viaHost_any {β : Type} {q : Except RunError β → Prop} {x : m (Except String α)}
    {g : α → ExceptT RunError m β} (hok : ∀ a, Ensures q (g a).run)
    (herr : ∀ reason, q (.error (.host reason))) : Ensures q (viaHost x >>= g).run :=
  ensures_viaHost_bind (P := fun _ => True) (Ensures.of_forall _ fun _ _ _ => trivial)
    (fun a _ => hok a) herr

/-- Reading a slot and pushing what it holds: a missing slot is no stack fault. -/
theorem ensures_load_push {x : Except RunError Value} (herr : ∀ e, x = .error e → ¬ e.IsStackFault) :
    Ensures (KeepsCounts f.stack 0 1)
      (do return Step.next (f.push (← lift x)) : ExceptT RunError m Step).run :=
  ensures_lift_bind (fun _ _ => Ensures.run_pure (.push rfl)) fun e he => .of_not_fault (herr e he)

/-- A write to the frame: the next frame keeps the stack, and a failed write is
no stack fault. -/
theorem ensures_write {s : List Value} {w : Except RunError Frame}
    (hok : ∀ f', w = .ok f' → f'.stack = s) (herr : ∀ e, w = .error e → ¬ e.IsStackFault) :
    Ensures (KeepsCounts s 0 0) (do return Step.next (← lift w) : ExceptT RunError m Step).run :=
  ensures_lift_bind (fun f' h => Ensures.run_pure (.keep (hok f' h)))
    fun e he => .of_not_fault (herr e he)

end Steps

/-! ### One instruction -/

section Families

variable {m : Type → Type} [Monad m] [LawfulMonad m] {host : Host m} {returns : TypeRef}
  {f : Frame} {i : Instruction}

/-- `nop` takes nothing and leaves nothing. -/
theorem instruction_nop_keeps (hop : i.opcode = .nop) :
    Ensures (KeepsCounts f.stack 0 0) (instruction host returns f i).run := by
  simp only [instruction, hop]
  exact Ensures.run_pure (.keep rfl)

/-- A constant load leaves its constant. -/
theorem instruction_constant_keeps (hop : i.opcode ∈ OpCode.constantLoads) :
    Ensures (KeepsCounts f.stack 0 1) (instruction host returns f i).run := by
  obtain ⟨v, -, heq⟩ := @instruction_eq_of_constant _ _ host returns f i hop
  rw [heq]
  exact Ensures.run_pure (.push rfl)

/-- `ldstr` leaves its string. -/
theorem instruction_ldstr_keeps (hop : i.opcode = .ldstr) :
    Ensures (KeepsCounts f.stack 0 1) (instruction host returns f i).run := by
  simp only [instruction, hop]
  exact ensures_token_bind (fun _ => .harmless) TokenRef.string fun _ =>
    Ensures.run_pure (.push rfl)

/-- An argument load reads the argument it names, which may be missing; an
address load cannot fail once its slot is known. -/
theorem instruction_argumentLoad_keeps (hop : i.opcode ∈ OpCode.argumentLoads) :
    Ensures (KeepsCounts f.stack 0 1) (instruction host returns f i).run := by
  simp only [OpCode.argumentLoads, List.mem_cons, List.not_mem_nil, or_false] at hop
  rcases hop with h | h | h | h | h | h | h | h <;> simp only [instruction, h] <;>
    refine ensures_lift_bind (fun n _ => ?_) fun _ he => .harmless (slotOf_harmless he)
  all_goals first
    | exact ensures_load_push fun _ => Frame.arg_not_fault
    | exact Ensures.run_pure (.push rfl)

/-- An argument store takes the value it writes. -/
theorem instruction_argumentStore_keeps (hop : i.opcode = .starg_s ∨ i.opcode = .starg) :
    Ensures (KeepsCounts f.stack 1 0) (instruction host returns f i).run := by
  rcases hop with h | h <;> simp only [instruction, h] <;>
    refine ensures_pop_bind fun v rest _ => ?_ <;>
    refine ensures_lift_bind (fun n _ => ?_) fun _ he => .harmless (slotOf_harmless he) <;>
    exact ensures_write (fun _ => Frame.stack_of_setArg) fun _ => Frame.setArg_not_fault

/-- A local load leaves the local's value. -/
theorem instruction_localLoad_keeps (hop : i.opcode ∈ OpCode.localLoads) :
    Ensures (KeepsCounts f.stack 0 1) (instruction host returns f i).run := by
  rw [instruction_eq_of_localLoad hop]
  refine ensures_lift_bind (fun n _ => ?_) fun _ he => .harmless (slotOf_harmless he)
  exact ensures_load_push fun _ => Frame.local_not_fault

/-- A local address load leaves the address. -/
theorem instruction_localAddress_keeps (hop : i.opcode = .ldloca_s ∨ i.opcode = .ldloca) :
    Ensures (KeepsCounts f.stack 0 1) (instruction host returns f i).run := by
  rw [instruction_eq_of_localAddress hop]
  exact ensures_lift_bind (fun _ _ => Ensures.run_pure (.push rfl))
    fun _ he => .harmless (slotOf_harmless he)

/-- A local store takes the value it writes. -/
theorem instruction_localStore_keeps (hop : i.opcode ∈ OpCode.localStores) :
    Ensures (KeepsCounts f.stack 1 0) (instruction host returns f i).run := by
  rw [instruction_eq_of_localStore hop]
  refine ensures_pop_bind fun v rest _ => ?_
  refine ensures_lift_bind (fun n _ => ?_) fun _ he => .harmless (slotOf_harmless he)
  exact ensures_write (fun _ => Frame.stack_of_setLocal) fun _ => Frame.setLocal_not_fault

/-- `dup` needs its one value and leaves it where it was, with a copy on top:
the table's one value taken and two left. -/
theorem instruction_dup_keeps (hop : i.opcode = .dup) :
    Ensures (fun res => KeepsCounts f.stack 1 2 res ∧
      ∀ f', res = .ok (.next f') → ∃ v, f.stack.head? = some v ∧ f'.stack = v :: f.stack)
      (instruction host returns f i).run := by
  simp only [instruction, hop]
  cases hs : f.stack with
  | nil => exact Ensures.run_throw ⟨KeepsCounts.underflow (by simp), fun _ h => by cases h⟩
  | cons v rest =>
    refine Ensures.run_pure ⟨⟨by simp, [v, v], rfl, by simp [Frame.push, hs]⟩, ?_⟩
    rintro f' ⟨⟩
    exact ⟨v, rfl, by simp [Frame.push, hs]⟩

/-- `pop` takes its value and leaves nothing. -/
theorem instruction_pop_keeps (hop : i.opcode = .pop) :
    Ensures (KeepsCounts f.stack 1 0) (instruction host returns f i).run := by
  simp only [instruction, hop]
  exact ensures_pop_bind fun _ _ _ => Ensures.run_pure (.keep rfl)

/-- `initobj` takes the address and writes the default through it, leaving the
rest of the stack. -/
theorem instruction_initobj_keeps (hop : i.opcode = .initobj) :
    Ensures (KeepsCounts f.stack 1 0) (instruction host returns f i).run := by
  simp only [instruction, hop]
  refine ensures_token_bind (fun _ => .harmless) TokenRef.typeRef fun ty =>
    ensures_pop_bind fun addr rest _ => ?_
  refine ensures_viaHost_any (fun zero => ?_) KeepsCounts.hostFailure
  exact ensures_write (fun _ => Frame.stack_of_storeIndirect) fun _ => Frame.storeIndirect_not_fault

/-- A construction takes the constructor's arguments and leaves the instance,
whether it builds a decimal itself or the host constructs it. -/
theorem instruction_newobj_keeps (hop : i.opcode = .newobj) {t : TokenRef} {ctor : MethodRef}
    (ht : tokenOf i = .ok t) (hctor : t.method = .ok ctor) :
    Ensures (KeepsCounts f.stack ctor.params.length 1) (instruction host returns f i).run := by
  simp only [instruction, hop, ht, use, hctor, Except.mapError, lift_ok_bind]
  refine ensures_popN_bind fun _ => ?_
  split
  · rw [pure_bind]
    exact Ensures.run_pure (.push rfl)
  · exact ensures_viaHost_any (fun _ => Ensures.run_pure (.push rfl)) KeepsCounts.hostFailure

/-- A call takes the receiver and the arguments and leaves the result when the
method returns one. -/
theorem instruction_call_keeps (hop : i.opcode = .call ∨ i.opcode = .callvirt) {t : TokenRef}
    {method : MethodRef} (ht : tokenOf i = .ok t) (hmethod : t.method = .ok method) :
    Ensures (KeepsCounts f.stack method.callPops (if method.returnsValue then 1 else 0))
      (instruction host returns f i).run := by
  rw [instruction_eq_of_call hop]
  simp only [ht, use, hmethod, Except.mapError, lift_ok_bind]
  refine ensures_popN_bind fun _ => ensures_viaHost_any (fun _ => ?_) KeepsCounts.hostFailure
  cases method.returnsValue
  · exact Ensures.run_pure (.keep rfl)
  · exact Ensures.run_pure (.push rfl)

/-- The shape of `ldfld`, `box` and `unbox.any`: look the token up, take the top
value and leave what the host makes of it. -/
theorem ensures_token_pop_host_keeps {α : Type} (look : TokenRef → Except DecodeError α)
    (ask : α → Value → m (Except String Value)) :
    Ensures (KeepsCounts f.stack 1 1) (do
      let a ← lift (use (look (← lift (tokenOf i))))
      let (v, f) ← lift (f.pop i.text)
      return .next (f.push (← viaHost (ask a v))) : ExceptT RunError m Step).run :=
  ensures_token_bind (fun _ => .harmless) look fun _ => ensures_pop_bind fun _ _ _ =>
    ensures_viaHost_any (fun _ => Ensures.run_pure (.push rfl)) KeepsCounts.hostFailure

/-- `ldfld` takes the instance and leaves the field's value. -/
theorem instruction_ldfld_keeps (hop : i.opcode = .ldfld) :
    Ensures (KeepsCounts f.stack 1 1) (instruction host returns f i).run := by
  simp only [instruction, hop]
  exact ensures_token_pop_host_keeps TokenRef.field fun fld target => host.loadField fld (some target)

/-- `box` takes a value and leaves its box. -/
theorem instruction_box_keeps (hop : i.opcode = .box) :
    Ensures (KeepsCounts f.stack 1 1) (instruction host returns f i).run := by
  simp only [instruction, hop]
  exact ensures_token_pop_host_keeps TokenRef.typeRef host.box

/-- `unbox.any` takes a box and leaves its value. -/
theorem instruction_unbox_keeps (hop : i.opcode = .unbox_any) :
    Ensures (KeepsCounts f.stack 1 1) (instruction host returns f i).run := by
  simp only [instruction, hop]
  exact ensures_token_pop_host_keeps TokenRef.typeRef host.unbox

/-- `ldsfld` leaves the static field's value. -/
theorem instruction_ldsfld_keeps (hop : i.opcode = .ldsfld) :
    Ensures (KeepsCounts f.stack 0 1) (instruction host returns f i).run := by
  simp only [instruction, hop]
  exact ensures_token_bind (fun _ => .harmless) TokenRef.field fun _ =>
    ensures_viaHost_any (fun _ => Ensures.run_pure (.push rfl)) KeepsCounts.hostFailure

/-- `stfld` takes the value, then the target under it. -/
theorem instruction_stfld_keeps (hop : i.opcode = .stfld) :
    Ensures (KeepsCounts f.stack 2 0) (instruction host returns f i).run := by
  simp only [instruction, hop]
  exact ensures_token_bind (fun _ => .harmless) TokenRef.field fun _ =>
    ensures_pop_bind fun _ _ _ =>
    ensures_pop_bind fun _ _ _ =>
    ensures_viaHost_any (fun _ => Ensures.run_pure (.keep rfl)) KeepsCounts.hostFailure

/-- `stsfld` takes the value it writes. -/
theorem instruction_stsfld_keeps (hop : i.opcode = .stsfld) :
    Ensures (KeepsCounts f.stack 1 0) (instruction host returns f i).run := by
  simp only [instruction, hop]
  exact ensures_token_bind (fun _ => .harmless) TokenRef.field fun _ =>
    ensures_pop_bind fun _ _ _ =>
    ensures_viaHost_any (fun _ => Ensures.run_pure (.keep rfl)) KeepsCounts.hostFailure

/-- A cast leaves one value in place of the one it takes: null as it is, the
host's cast, null again for a failed `isinst`; a failed `castclass` is the
host's failure. -/
theorem instruction_cast_keeps (hop : i.opcode = .castclass ∨ i.opcode = .isinst) :
    Ensures (KeepsCounts f.stack 1 1) (instruction host returns f i).run := by
  rcases hop with h | h <;> simp only [instruction, h]
  all_goals
    refine ensures_token_bind (fun _ => .harmless) TokenRef.typeRef fun ty =>
      ensures_pop_bind fun v rest _ => ?_
    split
    · exact Ensures.run_pure (.push rfl)
    · refine ensures_viaHost_any (fun c => ?_) KeepsCounts.hostFailure
      rcases c with _ | c
      · dsimp only
        split
        · exact Ensures.run_pure (.push rfl)
        · exact Ensures.run_throw (KeepsCounts.hostFailure _)
      · exact Ensures.run_pure (.push rfl)

/-- The shape of the arithmetic on one value. -/
theorem ensures_pop_compute_keeps {α : Type} (g : Value → Except RunError α) (out : α → Value)
    (hharmless : ∀ v e, g v = .error e → e.Harmless) (here : String) :
    Ensures (KeepsCounts f.stack 1 1) (do
      let (v, f) ← lift (f.pop here)
      return .next (f.push (out (← lift (g v)))) : ExceptT RunError m Step).run :=
  ensures_pop_bind fun v _ _ => ensures_lift_bind (fun _ _ => Ensures.run_pure (.push rfl))
    fun e he => .harmless (hharmless v e he)

/-- The shape of the arithmetic on two values. -/
theorem ensures_pop_pop_compute_keeps {α : Type} (g : Value → Value → Except RunError α)
    (out : α → Value) (hharmless : ∀ a b e, g a b = .error e → e.Harmless) (here : String) :
    Ensures (KeepsCounts f.stack 2 1) (do
      let (b, f) ← lift (f.pop here)
      let (a, f) ← lift (f.pop here)
      return .next (f.push (out (← lift (g a b)))) : ExceptT RunError m Step).run :=
  ensures_pop_bind fun b _ _ => ensures_pop_bind fun a _ _ =>
    ensures_lift_bind (fun _ _ => Ensures.run_pure (.push rfl)) fun e he => .harmless (hharmless a b e he)

/-- An arithmetic or bitwise operation takes two operands and leaves the result. -/
theorem instruction_binary_keeps (hop : i.opcode ∈ OpCode.binaryOps) :
    Ensures (KeepsCounts f.stack 2 1) (instruction host returns f i).run := by
  rw [instruction_eq_of_binary hop]
  exact ensures_pop_pop_compute_keeps (Arith.binary i.opcode) id
    (fun _ _ _ h => Arith.binary_harmless h) i.text

/-- `neg` and `not` take an operand and leave the result. -/
theorem instruction_unary_keeps (hop : i.opcode = .neg ∨ i.opcode = .not) :
    Ensures (KeepsCounts f.stack 1 1) (instruction host returns f i).run := by
  rw [instruction_eq_of_unary hop]
  exact ensures_pop_compute_keeps (Arith.unary i.opcode) id (fun _ _ h => Arith.unary_harmless h) i.text

/-- A comparison takes two operands and leaves its verdict. -/
theorem instruction_compare_keeps (hop : i.opcode ∈ OpCode.comparisons) :
    Ensures (KeepsCounts f.stack 2 1) (instruction host returns f i).run := by
  rw [instruction_eq_of_compare hop]
  exact ensures_pop_pop_compute_keeps (Arith.compare i.opcode) Value.ofBool
    (fun _ _ _ h => Arith.compare_harmless h) i.text

/-- A conversion takes a value and leaves it converted. -/
theorem instruction_convert_keeps (hop : i.opcode ∈ OpCode.conversions) :
    Ensures (KeepsCounts f.stack 1 1) (instruction host returns f i).run := by
  rw [instruction_eq_of_convert hop]
  exact ensures_pop_compute_keeps (Arith.convert i.opcode) id
    (fun _ _ h => Arith.convert_harmless h) i.text

/-- `ret` takes the result when the routine returns one, and nothing otherwise. -/
theorem instruction_ret_keeps (hop : i.opcode = .ret) :
    Ensures (KeepsCounts f.stack (if !returns.isVoid then 1 else 0) 0)
      (instruction host returns f i).run := by
  simp only [instruction, hop]
  cases hvoid : returns.isVoid
  · -- The routine returns a value, and `ret` takes it.
    simp only [Bool.not_false, Bool.false_eq_true, reduceIte]
    exact ensures_pop_bind fun _ _ _ => Ensures.run_pure ⟨Nat.zero_le _, rfl⟩
  · simp only [Bool.not_true, Bool.false_eq_true, reduceIte]
    exact Ensures.run_pure ⟨Nat.zero_le _, rfl⟩

/-- An opcode the interpreter does not run fails before the stack, so it keeps
every count. -/
theorem instruction_other_keeps (hop : i.opcode ∉ OpCode.interpreted) (pops pushes : Nat) :
    Ensures (KeepsCounts f.stack pops pushes) (instruction host returns f i).run := by
  rw [instruction_eq_of_uninterpreted hop]
  exact Ensures.run_throw (.of_not_fault (by simp))

/-- A construction or call whose token names no method fails at the lookup. -/
theorem ensures_method_fails {g : MethodRef → ExceptT RunError m Step}
    (h : ∀ t, tokenOf i = .ok t → ∃ d, t.method = .error d) :
    Ensures FailsNotOnStack (do g (← lift (use (← lift (tokenOf i)).method))).run := by
  refine ensures_lift_bind (fun t ht => ensures_lift_bind (fun c hc => ?_)
    fun _ he => (use_harmless he).1) fun _ he => (tokenOf_harmless he).1
  obtain ⟨d, hd⟩ := h t ht
  simp [use, hd] at hc

/-- An instruction whose counts cannot be worked out fails before it touches the
stack. -/
theorem instruction_fails_of_counts_error {rv : Bool} {e : DecodeError}
    (h : i.stackPops rv = .error e ∨ i.stackPushes = .error e) :
    Ensures FailsNotOnStack (instruction host returns f i).run := by
  rcases Instruction.counts_error h with hcalli | ⟨hop, hmethod⟩
  · -- The interpreter runs no `calli`.
    rw [instruction_eq_of_uninterpreted (by rw [hcalli]; decide)]
    exact Ensures.run_throw (show ¬ RunError.IsStackFault _ by simp)
  · rcases hop with hnew | hcall
    · simp only [instruction, hnew]
      exact ensures_method_fails hmethod
    · rw [instruction_eq_of_call hcall]
      exact ensures_method_fails hmethod

/-- Every instruction keeps to the counts `stackPops` and `stackPushes` give it,
on any frame. -/
theorem instruction_keepsCounts {pops pushes : Nat}
    (hpops : i.stackPops (!returns.isVoid) = .ok pops) (hpushes : i.stackPushes = .ok pushes) :
    Ensures (KeepsCounts f.stack pops pushes) (instruction host returns f i).run := by
  -- For an opcode with fixed counts, the counts are the table's.
  have fixed : ∀ {a b : Nat}, i.opcode.info.pop = .fixed a ∧ i.opcode.info.push = .fixed b →
      Ensures (KeepsCounts f.stack a b) (instruction host returns f i).run →
      Ensures (KeepsCounts f.stack pops pushes) (instruction host returns f i).run := by
    intro a b hinfo h
    obtain ⟨rfl, rfl⟩ := Instruction.counts_of_fixed hinfo hpops hpushes
    exact h
  by_cases hnop : i.opcode = .nop
  · exact fixed (by rw [hnop]; exact ⟨rfl, rfl⟩) (instruction_nop_keeps hnop)
  by_cases hconst : i.opcode ∈ OpCode.constantLoads
  · exact fixed (OpCode.constantLoads_counts _ hconst) (instruction_constant_keeps hconst)
  by_cases hstr : i.opcode = .ldstr
  · exact fixed (by rw [hstr]; exact ⟨rfl, rfl⟩) (instruction_ldstr_keeps hstr)
  by_cases harg : i.opcode ∈ OpCode.argumentLoads
  · exact fixed (OpCode.argumentLoads_counts _ harg) (instruction_argumentLoad_keeps harg)
  by_cases hstarg : i.opcode = .starg_s ∨ i.opcode = .starg
  · exact fixed (by rcases hstarg with h | h <;> rw [h] <;> exact ⟨rfl, rfl⟩)
      (instruction_argumentStore_keeps hstarg)
  by_cases hldloc : i.opcode ∈ OpCode.localLoads
  · exact fixed (OpCode.localLoads_counts _ hldloc) (instruction_localLoad_keeps hldloc)
  by_cases hldloca : i.opcode = .ldloca_s ∨ i.opcode = .ldloca
  · exact fixed (by rcases hldloca with h | h <;> rw [h] <;> exact ⟨rfl, rfl⟩)
      (instruction_localAddress_keeps hldloca)
  by_cases hstloc : i.opcode ∈ OpCode.localStores
  · exact fixed (OpCode.localStores_counts _ hstloc) (instruction_localStore_keeps hstloc)
  by_cases hdup : i.opcode = .dup
  · exact fixed (by rw [hdup]; exact ⟨rfl, rfl⟩) ((instruction_dup_keeps hdup).imp fun _ h => h.1)
  by_cases hpop : i.opcode = .pop
  · exact fixed (by rw [hpop]; exact ⟨rfl, rfl⟩) (instruction_pop_keeps hpop)
  by_cases hinit : i.opcode = .initobj
  · exact fixed (by rw [hinit]; exact ⟨rfl, rfl⟩) (instruction_initobj_keeps hinit)
  by_cases hnew : i.opcode = .newobj
  · obtain ⟨t, ctor, ht, hctor, rfl, rfl⟩ := Instruction.newobj_counts hnew hpops hpushes
    exact instruction_newobj_keeps hnew ht hctor
  by_cases hcall : i.opcode = .call ∨ i.opcode = .callvirt
  · obtain ⟨t, method, ht, hmethod, rfl, rfl⟩ := Instruction.call_counts hcall hpops hpushes
    exact instruction_call_keeps hcall ht hmethod
  by_cases hldfld : i.opcode = .ldfld
  · exact fixed (by rw [hldfld]; exact ⟨rfl, rfl⟩) (instruction_ldfld_keeps hldfld)
  by_cases hldsfld : i.opcode = .ldsfld
  · exact fixed (by rw [hldsfld]; exact ⟨rfl, rfl⟩) (instruction_ldsfld_keeps hldsfld)
  by_cases hstfld : i.opcode = .stfld
  · exact fixed (by rw [hstfld]; exact ⟨rfl, rfl⟩) (instruction_stfld_keeps hstfld)
  by_cases hstsfld : i.opcode = .stsfld
  · exact fixed (by rw [hstsfld]; exact ⟨rfl, rfl⟩) (instruction_stsfld_keeps hstsfld)
  by_cases hbox : i.opcode = .box
  · exact fixed (by rw [hbox]; exact ⟨rfl, rfl⟩) (instruction_box_keeps hbox)
  by_cases hunbox : i.opcode = .unbox_any
  · exact fixed (by rw [hunbox]; exact ⟨rfl, rfl⟩) (instruction_unbox_keeps hunbox)
  by_cases hcast : i.opcode = .castclass ∨ i.opcode = .isinst
  · exact fixed (by rcases hcast with h | h <;> rw [h] <;> exact ⟨rfl, rfl⟩)
      (instruction_cast_keeps hcast)
  by_cases hbin : i.opcode ∈ OpCode.binaryOps
  · exact fixed (OpCode.binaryOps_counts _ hbin) (instruction_binary_keeps hbin)
  by_cases hun : i.opcode = .neg ∨ i.opcode = .not
  · exact fixed (by rcases hun with h | h <;> rw [h] <;> exact ⟨rfl, rfl⟩)
      (instruction_unary_keeps hun)
  by_cases hcmp : i.opcode ∈ OpCode.comparisons
  · exact fixed (OpCode.comparisons_counts _ hcmp) (instruction_compare_keeps hcmp)
  by_cases hconv : i.opcode ∈ OpCode.conversions
  · exact fixed (OpCode.conversions_counts _ hconv) (instruction_convert_keeps hconv)
  by_cases hret : i.opcode = .ret
  · -- `ret` leaves nothing and takes a value exactly when the routine returns one.
    have hpush : i.opcode.info.push = .fixed 0 := by rw [hret]; rfl
    simp only [Instruction.stackPushes, hpush, Except.ok.injEq] at hpushes
    subst hpushes
    rw [Instruction.ret_pops hret hpops]
    exact instruction_ret_keeps hret
  -- Every other opcode is outside the interpreted set.
  refine instruction_other_keeps ?_ pops pushes
  simp only [OpCode.interpreted, List.mem_append, List.mem_cons, List.not_mem_nil, or_false]
  tauto

end Families

/-! ### The synthesized operations -/

section Operations

variable {m : Type → Type} [Monad m] [LawfulMonad m] {host : Host m} {resolver : Resolver m}
  {r : Routine} {f : Frame}

/-- Loading a routine argument leaves its value. -/
theorem operation_loadArg_keeps (n : Nat) :
    Ensures (KeepsCounts f.stack 0 1) (operation host resolver r f (.loadArg n)).run := by
  rw [operation]
  exact ensures_load_push fun _ => Frame.arg_not_fault

/-- Loading an argument's address leaves the address. -/
theorem operation_loadArgAddr_keeps (n : Nat) :
    Ensures (KeepsCounts f.stack 0 1) (operation host resolver r f (.loadArgAddr n)).run := by
  rw [operation]
  exact Ensures.run_pure (.push rfl)

/-- Loading the context leaves it. -/
theorem operation_loadContext_keeps :
    Ensures (KeepsCounts f.stack 0 1) (operation host resolver r f .loadContext).run := by
  rw [operation]
  exact ensures_load_push fun _ => Frame.arg_not_fault

/-- Storing a routine argument takes the value it writes. -/
theorem operation_storeArg_keeps (n : Nat) :
    Ensures (KeepsCounts f.stack 1 0) (operation host resolver r f (.storeArg n)).run := by
  rw [operation]
  exact ensures_pop_bind fun _ _ _ =>
    ensures_write (fun _ => Frame.stack_of_setArg) fun _ => Frame.setArg_not_fault

/-- A resolution takes the context and leaves what the resolver gives; a refusal
or an empty answer is the resolver's failure. -/
theorem operation_resolve_keeps (ty : TypeRef) :
    Ensures (KeepsCounts f.stack 1 1) (operation host resolver r f (.resolve ty)).run := by
  rw [operation]
  refine ensures_pop_bind fun _ _ _ => ?_
  dsimp only
  refine ensures_exceptLift_bind (P := fun _ => True) (Ensures.of_forall _ fun _ => trivial)
    fun res _ => ?_
  rcases res with reason | _ | w
  · exact Ensures.run_throw (.of_not_fault (by simp))
  · exact Ensures.run_throw (.of_not_fault (by simp))
  · exact Ensures.run_pure (.push rfl)

/-- Unboxing a resolved value takes it and leaves its value. -/
theorem operation_unbox_keeps (ty : TypeRef) :
    Ensures (KeepsCounts f.stack 1 1) (operation host resolver r f (.unbox ty)).run := by
  rw [operation]
  exact ensures_pop_bind fun _ _ _ =>
    ensures_viaHost_any (fun _ => Ensures.run_pure (.push rfl)) KeepsCounts.hostFailure

end Operations

end Run

/-- **The interpreter's stack effects match the decoder's counts.** On any frame,
a replayed instruction takes the values `stackPops` says (with `ret` taking one
exactly when the routine returns a value) from the top of the stack and leaves
`stackPushes` new ones on the rest, or ends the run at a `ret`, or fails, and
fails for a stack underflow only when the stack holds fewer values than it
takes; an instruction whose counts cannot be worked out fails before it touches
the stack; `dup` needs its one value and leaves it in place under a copy. Of the
synthesized operations, `loadArg`, `loadArgAddr` and `loadContext` each push one
value, `storeArg` pops one, and `resolve` and `unbox` each pop one and push
one. -/
theorem operation_stack_effect {m : Type → Type} [Monad m] [LawfulMonad m] (host : Host m)
    (resolver : Resolver m) (r : Routine) (f : Frame) :
    (∀ (i : Instruction) (pops pushes : Nat), i.stackPops (!r.returns.isVoid) = .ok pops →
      i.stackPushes = .ok pushes →
      Ensures (KeepsCounts f.stack pops pushes) (Run.operation host resolver r f (.replay i)).run) ∧
    (∀ (i : Instruction) (e : DecodeError),
      i.stackPops (!r.returns.isVoid) = .error e ∨ i.stackPushes = .error e →
      Ensures FailsNotOnStack (Run.operation host resolver r f (.replay i)).run) ∧
    (∀ i : Instruction, i.opcode = .dup →
      Ensures (fun res => KeepsCounts f.stack 1 2 res ∧
        ∀ f', res = .ok (.next f') → ∃ v, f.stack.head? = some v ∧ f'.stack = v :: f.stack)
        (Run.operation host resolver r f (.replay i)).run) ∧
    (∀ n, Ensures (KeepsCounts f.stack 0 1) (Run.operation host resolver r f (.loadArg n)).run) ∧
    (∀ n, Ensures (KeepsCounts f.stack 0 1) (Run.operation host resolver r f (.loadArgAddr n)).run) ∧
    Ensures (KeepsCounts f.stack 0 1) (Run.operation host resolver r f .loadContext).run ∧
    (∀ n, Ensures (KeepsCounts f.stack 1 0) (Run.operation host resolver r f (.storeArg n)).run) ∧
    (∀ ty, Ensures (KeepsCounts f.stack 1 1) (Run.operation host resolver r f (.resolve ty)).run) ∧
    (∀ ty, Ensures (KeepsCounts f.stack 1 1) (Run.operation host resolver r f (.unbox ty)).run) :=
  ⟨fun _ _ _ hpops hpushes => Run.instruction_keepsCounts hpops hpushes,
    fun _ _ h => Run.instruction_fails_of_counts_error h,
    fun _ hdup => Run.instruction_dup_keeps hdup,
    Run.operation_loadArg_keeps, Run.operation_loadArgAddr_keeps, Run.operation_loadContext_keeps,
    Run.operation_storeArg_keeps, Run.operation_resolve_keeps, Run.operation_unbox_keeps⟩

/-- A routine returning an `int32`, with no arguments, locals or operations of
its own. -/
def int32Routine : Routine := ⟨⟨0, 0⟩, ⟨false, []⟩, [], [], .primitive .i4, []⟩

/-- An `add` on a stack of two `int32` values takes both and leaves one. -/
theorem add_keeps_counts :
    Ensures (KeepsCounts [.i4 2, .i4 3] 2 1)
      (Run.operation (HostScript.host ⟨[], [], true⟩) (ResolverScript.resolver ⟨[], []⟩) int32Routine
        ⟨[], [], [.i4 2, .i4 3]⟩ (.replay ⟨0, .add, .none⟩)).run :=
  (operation_stack_effect (HostScript.host ⟨[], [], true⟩) (ResolverScript.resolver ⟨[], []⟩)
    int32Routine ⟨[], [], [.i4 2, .i4 3]⟩).1 ⟨0, .add, .none⟩ 2 1 rfl rfl

end CilBind
