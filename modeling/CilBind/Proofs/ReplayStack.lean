import CilBind.Proofs.ForestNesting
import CilBind.Proofs.LiteralReplay
import CilBind.Proofs.StackEffect
import CilBind.Proofs.SynthesisSafety

/-!
# `CilBind.Proofs.ReplayStack`: a replay of a forest keeps its pending packets on the stack

The tree builder reads a body as stack operations on packet numbers; a routine
that replays every packet in order, as `Synthesis.verbatim` does, runs the same
stack operations on values. This module shows that the two stacks line up cell
by cell.

* `Forest.pending f k`: the value packets below `k` that no packet below `k`
  takes, top first. These are the packets whose values a replay of the packets
  below `k` leaves on the stack.
* `Forest.pending_succ` and `Forest.pending_split`: packet `k` takes its
  operands off the top of `pending k`, in the order they were pushed, and leaves
  its own value on top when it has one.
* `Synthesis.ReplaysForest r f`: routine `r` has one operation per packet of
  `f`, the packet's instruction moved to the routine's layout.
* `Synthesis.ReplaysForest.reaches`: at every point that a run of such a routine
  reaches from an empty stack, the stack matches `pending` at that packet
  (`List.Forall₂`), and a cell whose packet loads an integer literal holds that
  literal's value (`Forest.LiteralCell`).
* `Synthesis.ReplaysForest.replay_composite_reached`: the run lemma at a decimal
  composite. Every run that reaches its construction finds the five literal
  values on top of the stack. The construction then asks the host for the
  decimal exactly when one operand is an `ldc.i8` load, and otherwise pushes the
  recognized decimal.

## How the proof goes

`pending_succ` is `Synthesis.onStack_succ` read as a list. The operands of `k`
are the topmost entries of `pending k` (`Forest.TakesTopmost`). They are
increasing and `pending k` decreases, so they form its first entries, reversed
(`reverse_append_filter_of_top`). The step lemma `ReplaysForest.step` reads
the interpreter's stack effect of the packet's operation (`KeepsCounts`) against
that. A literal load pushes its value exactly (`Run.instruction_literal`) and a
`dup` copies its top. `ReplaysForest.reaches` is the induction over the steps
of `Run.Reaches`.
-/

set_option autoImplicit false

namespace CilBind

namespace Forest

/-! ### The pending packets, in stack order -/

/-- The value packets below `k` that no packet below `k` takes, top first: the
packets whose values a replay of the packets below `k` leaves on the stack. -/
def pending (f : Forest) (k : Nat) : List Nat :=
  (List.range k).reverse.filter (· ∈ Synthesis.onStack f ⟨[], [], []⟩ k)

/-- A descending list whose top entries are the ascending list `cs`, closed
upwards in it, is `cs` reversed followed by the rest. -/
theorem reverse_append_filter_of_top {l cs : List Nat} (hl : l.Pairwise (· > ·))
    (hcs : cs.Pairwise (· < ·)) (hsub : ∀ c ∈ cs, c ∈ l)
    (hup : ∀ x ∈ l, ∀ c ∈ cs, c < x → x ∈ cs) : l = cs.reverse ++ l.filter (· ∉ cs) := by
  induction l generalizing cs with
  | nil =>
    have hnil : cs = [] := List.eq_nil_iff_forall_not_mem.mpr fun c hc => by simpa using hsub c hc
    subst hnil
    rfl
  | cons x l ih =>
    rw [List.pairwise_cons] at hl
    rcases List.eq_nil_or_concat' cs with rfl | ⟨cs', y, rfl⟩
    · simp
    have hsplit := List.pairwise_append.mp hcs
    have hlt : ∀ c ∈ cs', c < y := fun c hc => hsplit.2.2 c hc y List.mem_cons_self
    -- The largest operand `y` is the top `x`: anything above it would be an operand too.
    have hyx : y = x := by
      rcases List.mem_cons.mp (hsub y (by simp)) with h | hy
      · exact h
      · have hx := hup x List.mem_cons_self y (by simp) (hl.1 y hy)
        rcases List.mem_append.mp hx with hx | hx
        · exact absurd (hlt x hx) (by have := hl.1 y hy; omega)
        · simp only [List.mem_singleton] at hx
          exact hx.symm
    subst hyx
    have hbelow : ∀ z ∈ l, z ≠ y := fun z hz hzy => by
      have := hl.1 z hz
      omega
    have hrest : l = cs'.reverse ++ l.filter (· ∉ cs') := by
      refine ih hl.2 hsplit.1 (fun c hc => ?_) (fun z hz c hc hcz => ?_)
      · rcases List.mem_cons.mp (hsub c (List.mem_append_left _ hc)) with h | h
        · exact absurd h (by have := hlt c hc; omega)
        · exact h
      · rcases List.mem_append.mp (hup z (List.mem_cons_of_mem _ hz) c (List.mem_append_left _ hc) hcz)
          with h | h
        · exact h
        · exact absurd (List.mem_singleton.mp h) (hbelow z hz)
    have hfilter : l.filter (· ∉ cs' ++ [y]) = l.filter (· ∉ cs') :=
      List.filter_congr fun z hz => by simp [hbelow z hz]
    rw [List.filter_cons_of_neg (by simp), hfilter, List.reverse_append, List.reverse_singleton,
      List.singleton_append, List.cons_append]
    exact congrArg (y :: ·) hrest

/-- The pending packets are the packets the empty plan has on the stack. -/
theorem mem_pending {f : Forest} {k q : Nat} :
    q ∈ f.pending k ↔ q ∈ Synthesis.onStack f ⟨[], [], []⟩ k := by
  simp only [pending, List.mem_filter, List.mem_reverse, List.mem_range, decide_eq_true_eq,
    and_iff_right_iff_imp]
  exact fun h => (Synthesis.mem_onStack.mp h).1

/-- The pending packets are in stack order: the most recent on top. -/
theorem pending_sorted (f : Forest) (k : Nat) : (f.pending k).Pairwise (· > ·) :=
  (List.pairwise_reverse.mpr List.pairwise_lt_range).filter _

/-- Before the first packet nothing is pending. -/
@[simp] theorem pending_zero (f : Forest) : f.pending 0 = [] := rfl

/-- The operands of a packet that is there are its children. -/
theorem childrenOf_of_get? {f : Forest} {k : Nat} {p : Packet} (hp : f.get? k = some p) :
    f.childrenOf k = p.children := by
  simp [childrenOf, hp]

/-- A packet that is there leaves a value as its flag says. -/
theorem isValue_of_get? {f : Forest} {k : Nat} {p : Packet} (hp : f.get? k = some p) :
    isValue f.packets k = p.hasValue := by
  simp only [isValue]
  rw [show f.packets[k]? = some p from hp]

section Counts

variable {f : Forest} {rv : Bool} {k : Nat} {i : Instruction} {p : Packet}
  (hpw : f.PacketWf rv k i p)
include hpw

/-- A `dup` packet holds its instruction as it is, takes nothing and leaves a value. -/
theorem PacketWf.of_dup (hdup : i.opcode = .dup) :
    p.instr = i ∧ p.children = [] ∧ p.hasValue = true := by
  have harity := hpw.arity
  have hval := hpw.value
  rw [if_pos hdup] at harity hval
  exact ⟨by rw [hpw.instr, Instruction.touchCounts_of_dup hdup], harity.1, hval⟩

/-- Any other packet's instruction pops the packet's operands and pushes at most
one value, which is there exactly when the packet leaves one. -/
theorem PacketWf.counts (hdup : i.opcode ≠ .dup) :
    p.instr.stackPops rv = .ok p.children.length ∧
      ∃ n, p.instr.stackPushes = .ok n ∧ n ≤ 1 ∧ p.hasValue = decide (0 < n) := by
  have harity := hpw.arity
  have hval := hpw.value
  rw [if_neg hdup] at harity hval
  obtain ⟨n, hn, hv⟩ := hval
  refine ⟨?_, n, ?_, Instruction.stackPushes_le_one hdup hn, hv⟩
  · rw [hpw.instr, Instruction.stackPops_touchCounts]
    exact harity.1
  · rw [hpw.instr, Instruction.stackPushes_touchCounts]
    exact hn

end Counts

section Shape

variable {f : Forest} {rv : Bool} {is : List Instruction} (hw : f.Wf rv is)
include hw

/-- Packet `k` takes its operands out of the pending packets and leaves itself on
top when it has a value. -/
theorem pending_succ (k : Nat) :
    f.pending (k + 1) =
      (if isValue f.packets k = true then [k] else []) ++ (f.pending k).filter (· ∉ f.childrenOf k) := by
  have hsucc := Synthesis.onStack_succ hw ⟨[], [], []⟩ k
  have hemit : ∀ q, Synthesis.Emitted ⟨[], [], []⟩ q := fun q => Or.inr List.not_mem_nil
  -- Below `k`, a packet stays pending exactly when it was pending and `k` does not take it.
  have hbelow : ∀ q ∈ (List.range k).reverse,
      decide (q ∈ Synthesis.onStack f ⟨[], [], []⟩ (k + 1)) =
        (decide (q ∉ f.childrenOf k) && decide (q ∈ Synthesis.onStack f ⟨[], [], []⟩ k)) := by
    intro q hq
    have hqk : q ≠ k := by
      have := List.mem_range.mp (List.mem_reverse.mp hq)
      omega
    rw [hsucc]
    by_cases hv : isValue f.packets k = true
    · simp [hv, hemit, hqk, and_comm]
    · simp [hv, and_comm]
  have htop : (k ∈ Synthesis.onStack f ⟨[], [], []⟩ (k + 1)) ↔ isValue f.packets k = true := by
    rw [hsucc]
    have hnot : k ∉ Synthesis.onStack f ⟨[], [], []⟩ k := fun h => by
      have := (Synthesis.mem_onStack.mp h).1
      omega
    by_cases hv : isValue f.packets k = true <;> simp [hv, hemit, hnot]
  unfold pending
  rw [List.range_succ, List.reverse_append, List.reverse_singleton, List.singleton_append,
    List.filter_cons, List.filter_filter, List.filter_congr hbelow]
  by_cases hv : isValue f.packets k = true
  · simp [htop.mpr hv, hv]
  · simp [show ¬ k ∈ Synthesis.onStack f ⟨[], [], []⟩ (k + 1) from fun h => hv (htop.mp h), hv]

/-- An operand of `k` is pending at `k`: no earlier packet took it. -/
theorem mem_pending_of_child {k c : Nat} (hc : c ∈ f.childrenOf k) : c ∈ f.pending k :=
  mem_pending.mpr (Synthesis.mem_onStack.mpr ⟨(hw.child_lt hc).1, (hw.child_lt hc).2,
    fun ⟨r, hr, hcr⟩ => by
      have := hw.parent_unique hcr hc
      omega,
    Or.inr List.not_mem_nil⟩)

/-- The operands of `k` are the top entries of `pending k`, in push order, when
every packet took the topmost values. -/
theorem pending_split (ht : f.TakesTopmost) (k : Nat) :
    f.pending k = (f.childrenOf k).reverse ++ (f.pending k).filter (· ∉ f.childrenOf k) := by
  refine reverse_append_filter_of_top (pending_sorted f k) (hw.childrenOf_sorted k)
    (fun c hc => mem_pending_of_child hw hc) fun x hx c hc hcx => ?_
  obtain ⟨hxk, hxv, hxfree, -⟩ := Synthesis.mem_onStack.mp (mem_pending.mp hx)
  exact ht k c x hc hcx hxk hxv hxfree

/-- One packet's step on the pending packets: its operands come off the top, and
it goes on when it has a value. -/
theorem pending_succ_eq_drop (ht : f.TakesTopmost) (k : Nat) :
    f.pending (k + 1) =
      (if isValue f.packets k = true then [k] else []) ++ (f.pending k).drop (f.childrenOf k).length := by
  have hsplit := pending_split hw ht k
  have hdrop : (f.pending k).drop (f.childrenOf k).length = (f.pending k).filter (· ∉ f.childrenOf k) := by
    conv_lhs => rw [hsplit]
    simp
  rw [pending_succ hw k, hdrop]

end Shape

/-! ### What the stack holds -/

/-- A stack cell holding packet `q`'s value: when `q` loads an integer literal,
the cell holds that literal's value. -/
def LiteralCell (f : Forest) (v : Value) (q : Nat) : Prop :=
  ∀ p n, f.get? q = some p → p.instr.intLiteral? = some n → v = Run.literalValue p.instr

/-- Any value can stand for a packet that loads no integer literal. -/
theorem literalCell_of_none {f : Forest} {q : Nat} {p : Packet} (hp : f.get? q = some p)
    (hn : p.instr.intLiteral? = none) (v : Value) : f.LiteralCell v q := by
  intro p' n hp' hn'
  rw [hp] at hp'
  cases hp'
  rw [hn] at hn'
  cases hn'

/-- Cells for packets that all load literals hold exactly the literals' values. -/
theorem eq_operandValues {f : Forest} {vs : List Value} {cs : List Nat}
    (h : List.Forall₂ f.LiteralCell vs cs)
    (hlit : ∀ c ∈ cs, ∃ p n, f.get? c = some p ∧ p.instr.intLiteral? = some n) :
    vs = f.operandValues cs := by
  induction h with
  | nil => rfl
  | @cons v c vs cs hvc _ ih =>
    obtain ⟨p, n, hp, hn⟩ := hlit c List.mem_cons_self
    rw [ih fun c' hc' => hlit c' (List.mem_cons_of_mem _ hc'), hvc p n hp hn]
    simp [operandValues, hp]

/-- When every operand of packet `k` loads a literal, a stack that matches the
pending packets at `k` has the operands' values on top, in push order. -/
theorem stack_eq_operandValues {f : Forest} {rv : Bool} {is : List Instruction} (hw : f.Wf rv is)
    (ht : f.TakesTopmost) {k : Nat} {p : Packet} {s : List Value} (hp : f.get? k = some p)
    (hinv : List.Forall₂ f.LiteralCell s (f.pending k))
    (hlit : ∀ c ∈ p.children, ∃ q n, f.get? c = some q ∧ q.instr.intLiteral? = some n) :
    s = (f.operandValues p.children).reverse ++ s.drop p.children.length := by
  -- The operands are the top entries of `pending k`, so the top cells are theirs.
  have hsplit := pending_split hw ht k
  rw [childrenOf_of_get? hp] at hsplit
  have htop := List.forall₂_take p.children.length hinv
  rw [hsplit, List.take_left' (by simp)] at htop
  have hvals : s.take p.children.length = (f.operandValues p.children).reverse := by
    rw [eq_operandValues htop fun c hc => hlit c (List.mem_reverse.mp hc), operandValues,
      List.filterMap_reverse]
    rfl
  rw [← hvals, List.take_append_drop]

end Forest

namespace Instruction

/-- An integer literal load names no argument. -/
theorem argIndex?_of_intLiteral? {i : Instruction} {n : Int} (h : i.intLiteral? = some n) :
    i.argIndex? = none := by
  unfold intLiteral? at h
  unfold argIndex?
  split at h <;> simp_all

end Instruction

namespace Synthesis

/-! ### A routine that replays a forest -/

/-- Routine `r` replays forest `f`: one operation per packet, in order, each the
packet's instruction moved to the routine's layout. -/
structure ReplaysForest (r : Routine) (f : Forest) : Prop where
  length : r.ops.length = f.packets.size
  op : ∀ k p, f.get? k = some p → ∃ op, r.ops[k]? = some op ∧ remap r.layout p.instr = .ok op

section Replay

variable {m : Type → Type} [Monad m] [LawfulMonad m] {host : Host m} {resolver : Resolver m}
  {r : Routine} {g : Frame}

/-- A moved instruction takes and leaves what the instruction does. -/
theorem remap_keepsCounts {i : Instruction} {op : RoutineOp} {pops pushes : Nat}
    (hrem : remap r.layout i = .ok op) (hpops : i.stackPops (!r.returns.isVoid) = .ok pops)
    (hpushes : i.stackPushes = .ok pushes) :
    Ensures (KeepsCounts g.stack pops pushes) (Run.operation host resolver r g op).run := by
  have heff := remap_effect hrem (!r.returns.isVoid)
  rw [show (RoutineOp.replay i).effect (!r.returns.isVoid) = .ok (pops, pushes) from
    RoutineOp.effect_replay.mpr ⟨hpops, hpushes⟩] at heff
  -- Each kind of operation a move can give, with the counts its effect names.
  cases op with
  | replay j =>
    obtain ⟨hpops', hpushes'⟩ := RoutineOp.effect_replay.mp heff
    exact Run.instruction_keepsCounts hpops' hpushes'
  | loadArg n =>
    cases heff
    exact Run.operation_loadArg_keeps n
  | loadArgAddr n =>
    cases heff
    exact Run.operation_loadArgAddr_keeps n
  | storeArg n =>
    cases heff
    exact Run.operation_storeArg_keeps n
  | loadContext => exact absurd (remap_isLoadContext hrem) (by decide)
  | resolve ty =>
    cases heff
    exact Run.operation_resolve_keeps ty
  | unbox ty =>
    cases heff
    exact Run.operation_unbox_keeps ty

/-- A possible result of a computation that ends with `a` is `a`. -/
theorem possible_pure_eq {α : Type} {a b : α} (h : Possible (pure a : m α) b) : b = a :=
  (Ensures.pure (p := (· = a)) rfl).of_possible h

/-- A literal load's operation pushes the literal's value and does nothing else. -/
theorem replay_literal_next {i : Instruction} {n : Int} (hlit : i.intLiteral? = some n) {g' : Frame}
    (hposs : Possible (Run.operation host resolver r g (.replay i)).run (.ok (.next g'))) :
    g' = g.push (Run.literalValue i) := by
  have heq : (Run.operation host resolver r g (.replay i)).run =
      pure (.ok (.next (g.push (Run.literalValue i)))) := by
    show (Run.instruction host r.returns g i).run = _
    rw [Run.instruction_literal host r.returns g i hlit, ExceptT.run_pure]
  rw [heq] at hposs
  simpa using possible_pure_eq hposs

variable {f : Forest} {kept : List Instruction}

/-- The packet behind the operation for `k`: its instruction, moved to the
routine's layout, is that operation. -/
theorem ReplaysForest.packet_of_op (hrep : ReplaysForest r f) (hw : f.Wf (!r.returns.isVoid) kept)
    {k : Nat} {op : RoutineOp} (hop : r.ops[k]? = some op) :
    ∃ i p, f.get? k = some p ∧ f.PacketWf (!r.returns.isVoid) k i p ∧
      remap r.layout p.instr = .ok op := by
  have hk : k < kept.length := by
    have := (List.getElem?_eq_some_iff.mp hop).1
    rwa [hrep.length, hw.size] at this
  obtain ⟨p, hp, hpw⟩ := hw.packet k kept[k] (List.getElem?_eq_getElem hk)
  obtain ⟨op', hop', hrem⟩ := hrep.op k p hp
  rw [hop] at hop'
  cases hop'
  exact ⟨kept[k], p, hp, hpw, hrem⟩

/-- The step lemma: the operation for packet `k`, run on a stack that matches the
pending packets at `k`, leaves one that matches them at `k + 1`. -/
theorem ReplaysForest.step (hrep : ReplaysForest r f) (hw : f.Wf (!r.returns.isVoid) kept)
    (ht : f.TakesTopmost) {k : Nat} {op : RoutineOp} (hop : r.ops[k]? = some op) {g' : Frame}
    (hinv : List.Forall₂ f.LiteralCell g.stack (f.pending k))
    (hposs : Possible (Run.operation host resolver r g op).run (.ok (.next g'))) :
    List.Forall₂ f.LiteralCell g'.stack (f.pending (k + 1)) := by
  obtain ⟨i, p, hp, hpw, hrem⟩ := hrep.packet_of_op hw hop
  rw [Forest.pending_succ_eq_drop hw ht k, Forest.childrenOf_of_get? hp, Forest.isValue_of_get? hp]
  by_cases hdup : i.opcode = .dup
  · -- A `dup` copies its top in place: everything pending stays, and it joins them.
    obtain ⟨hpi, hnil, hval⟩ := hpw.of_dup hdup
    rw [hpi, remap_of_argIndex? (by simp [Instruction.argIndex?, hdup])] at hrem
    cases hrem
    have hposs' : Possible (Run.instruction host r.returns g i).run (.ok (.next g')) := hposs
    obtain ⟨-, hnext⟩ := (Run.instruction_dup_keeps hdup).of_possible hposs'
    obtain ⟨v, -, hstack⟩ := hnext g' rfl
    rw [hstack, hnil, hval]
    exact .cons (Forest.literalCell_of_none hp (by simp [hpi, Instruction.intLiteral?, hdup]) v) hinv
  obtain ⟨hpops, n, hpushes, hle, hval⟩ := hpw.counts hdup
  obtain ⟨hfit, out, hout, hstack⟩ := (remap_keepsCounts hrem hpops hpushes).of_possible hposs
  rw [hval]
  cases hlit : p.instr.intLiteral? with
  | some lit =>
    -- A literal load pushes exactly its value, and takes nothing.
    rw [remap_of_argIndex? (Instruction.argIndex?_of_intLiteral? hlit)] at hrem
    cases hrem
    have hg' := replay_literal_next hlit hposs
    rw [hg', Frame.push] at hstack
    have hcount : p.children.length = 0 ∧ n = 1 := by
      have := congrArg List.length hstack
      simp only [List.length_cons, List.length_append, List.length_drop, hout] at this
      omega
    obtain ⟨hc0, rfl⟩ := hcount
    rw [hc0, hg']
    simp only [decide_true, zero_lt_one, if_true, List.drop_zero,
      List.singleton_append, Frame.push]
    exact .cons (fun p' n' hp' _ => by rw [hp] at hp'; cases hp'; rfl) hinv
  | none =>
    -- Any other operation takes its operands off the top and leaves at most one value.
    rw [hstack]
    have hdrop := List.forall₂_drop p.children.length hinv
    rcases (by omega : n = 0 ∨ n = 1) with rfl | rfl
    · rw [List.length_eq_zero_iff.mp hout]
      simpa using hdrop
    · obtain ⟨v, rfl⟩ := List.length_eq_one_iff.mp hout
      simpa using List.Forall₂.cons (Forest.literalCell_of_none hp hlit v) hdrop

/-- The run lemma: at every point that a run reaches from a stack matching the
pending packets at `k`, with the operations for the packets from `k` on left, the
stack matches the pending packets at the packet it has come to. -/
theorem ReplaysForest.reaches (hrep : ReplaysForest r f) (hw : f.Wf (!r.returns.isVoid) kept)
    (ht : f.TakesTopmost) {k : Nat} {g' : Frame} {ops' : List RoutineOp}
    (hinv : List.Forall₂ f.LiteralCell g.stack (f.pending k)) (hk : k ≤ r.ops.length)
    (hreach : Run.Reaches host resolver r g (r.ops.drop k) g' ops') :
    ∃ k', k' ≤ r.ops.length ∧ ops' = r.ops.drop k' ∧ List.Forall₂ f.LiteralCell g'.stack (f.pending k') := by
  generalize hd : r.ops.drop k = ops at hreach
  induction hreach generalizing k with
  | refl => exact ⟨k, hk, hd.symm, hinv⟩
  | @step g₁ g₂ g₃ op rest ops hposs _ ih =>
    -- The operation taken is the one for packet `k`, and the rest are those after it.
    have hlt : k < r.ops.length := by
      by_contra hge
      rw [List.drop_eq_nil_of_le (by omega)] at hd
      cases hd
    rw [List.drop_eq_getElem_cons hlt] at hd
    obtain ⟨rfl, rfl⟩ := List.cons.inj hd
    exact ih (hrep.step hw ht (List.getElem?_eq_getElem hlt) hinv hposs) (by omega) rfl

/-- The run lemma from the start: a run from an empty stack that has come to the
operation for packet `a` holds the pending packets at `a`. -/
theorem ReplaysForest.reaches_drop (hrep : ReplaysForest r f) (hw : f.Wf (!r.returns.isVoid) kept)
    (ht : f.TakesTopmost) {a : Nat} (ha : a ≤ r.ops.length) {g₀ : Frame} (h₀ : g₀.stack = [])
    (hreach : Run.Reaches host resolver r g₀ r.ops g (r.ops.drop a)) :
    List.Forall₂ f.LiteralCell g.stack (f.pending a) := by
  obtain ⟨k, hk, hdrop, hinv⟩ := hrep.reaches (g := g₀) hw ht (k := 0) (by simp [h₀]) (Nat.zero_le _)
    (by simpa using hreach)
  -- Both suffixes of the operations are the same, so the run stopped at packet `a`.
  have hka : k = a := by
    have := congrArg List.length hdrop
    simp only [List.length_drop] at this
    omega
  rwa [← hka]

/-- A composite's operands are literal loads. -/
theorem literal_of_composite_child {c : Nat} {p : Packet} {lo mid hi sign scale : Int}
    (hlit : p.children.map (fun c => (f.get? c).bind (·.instr.intLiteral?)) =
      [some lo, some mid, some hi, some sign, some scale]) (hc : c ∈ p.children) :
    ∃ q n, f.get? c = some q ∧ q.instr.intLiteral? = some n := by
  have hsome : (f.get? c).bind (·.instr.intLiteral?) ∈
      [some lo, some mid, some hi, some sign, some scale] := by
    rw [← hlit]
    exact List.mem_map_of_mem hc
  obtain ⟨n, hn⟩ : ∃ n, (f.get? c).bind (·.instr.intLiteral?) = some n := by
    simp only [List.mem_cons, List.not_mem_nil, or_false] at hsome
    rcases hsome with h | h | h | h | h <;> exact ⟨_, h⟩
  obtain ⟨q, hq, hn⟩ := Option.bind_eq_some_iff.mp hn
  exact ⟨q, n, hq, hn⟩

/-- **A replayed decimal composite, in a run.** Every run of a routine that
replays a forest, from an empty stack to the construction of a decimal
composite, finds the values of its five literal operands on top of the stack,
in the order they were pushed. The construction then asks the host to build the
decimal on them exactly when one operand is an `ldc.i8` load, and otherwise
pushes the decimal the composite spells. -/
theorem ReplaysForest.replay_composite_reached (hrep : ReplaysForest r f)
    (hw : f.Wf (!r.returns.isVoid) kept) (ht : f.TakesTopmost) {a : Nat} {dec : Decimal}
    (hd : f.composite a = .ok (some dec)) {g₀ : Frame} (h₀ : g₀.stack = [])
    (hreach : Run.Reaches host resolver r g₀ r.ops g (r.ops.drop a)) :
    ∃ p ctor rest, f.get? a = some p ∧ r.ops[a]? = some (.replay p.instr) ∧
      (∃ t, p.instr.token? = some t ∧ t.method = .ok ctor) ∧ ctor.declaring = .decimal ∧
      g.stack = (f.operandValues p.children).reverse ++ rest ∧
      Run.operation host resolver r g (.replay p.instr) =
        if p.children.any f.isWideLoad then
          (fun v => Step.next ({ g with stack := rest }.push v)) <$>
            Run.viaHost (host.construct ctor (f.operandValues p.children))
        else pure (.next ({ g with stack := rest }.push (.decimal dec))) := by
  obtain ⟨p, t, ctor, lo, mid, hi, sign, scale, hp, hop, htok, hctor, hdec, -, hlit, -⟩ :=
    Forest.composite_eq_some hd
  have ha : a < r.ops.length := by
    rw [hrep.length]
    exact (Array.getElem?_eq_some_iff.mp hp).1
  -- The run has come to packet `a`, with the pending packets at `a` on its stack.
  have hinv := hrep.reaches_drop hw ht ha.le h₀ hreach
  -- The construction is replayed as it is.
  obtain ⟨op, hop', hrem⟩ := hrep.op a p hp
  rw [remap_of_argIndex? (by simp [Instruction.argIndex?, hop])] at hrem
  cases hrem
  -- Its operands are literal loads, whose values are on top of the stack.
  have hstack := Forest.stack_eq_operandValues hw ht hp hinv fun c hc =>
    literal_of_composite_child hlit hc
  obtain ⟨t', ctor', ht', hctor', hstep⟩ :=
    Forest.replay_composite hd hp host r.returns { g with stack := g.stack.drop p.children.length }
  rw [htok] at ht'
  cases ht'
  rw [hctor] at hctor'
  cases hctor'
  have hg : ({ { g with stack := g.stack.drop p.children.length } with
      stack := (f.operandValues p.children).reverse ++ g.stack.drop p.children.length } : Frame) = g := by
    cases g
    simp only at hstack ⊢
    rw [← hstack]
  rw [hg] at hstep
  refine ⟨p, ctor, g.stack.drop p.children.length, hp, hop', ⟨t, htok, hctor⟩, ?_, hstack, hstep⟩
  revert hdec
  cases ctor.declaring <;> simp [TypeRef.isDecimal]

end Replay

end Synthesis

end CilBind
