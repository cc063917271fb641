import CilBind.Proofs.ForestShape
import CilBind.Proofs.SynthesisSafety

/-!
# `CilBind.Proofs.BuilderDepth`: the builder runs the abstract stack machine

The builder never counts the depth of its stack: it searches the stack for value
packets, skipping statements, and takes the topmost ones an instruction pops.
This module shows that it nevertheless succeeds and fails exactly as the
abstract stack machine does, the machine that only tracks a depth.

An instruction's counts (`Instruction.counts`) are what it pops and pushes, a
`dup` popping the value it copies and pushing it twice. The depth a run of
instructions leaves is the sum of their net effects (`depth`), and an
instruction runs at a depth `d` (`Forest.Runs`) when it is no switch or
indirect call, its counts are known and `d` is at least what it pops.

* `build_tracks_depth`: the builder succeeds exactly when every instruction
  runs at the depth the instructions before it leave; otherwise it fails at
  the first one that does not, with the error that instruction's first failed
  check gives (`offence`): disallowed, the counts' decoding error, or a stack
  underflow naming what it pops and the depth as what is available. On success
  the roots hold as many value packets as the whole body's depth.

## How the proof goes

The depth is the number of value packets on the builder's stack
(`valueCount`). One step (`step_depth`) keeps that: a step fails with
`offence` exactly when the instruction does not run at that depth, since
`takeValues` takes as many value packets as are asked for and there are
(`takeValues_fst_length_eq`), and otherwise the new stack has the values not
taken and the new packet, a value packet exactly when the instruction pushes
one. The run lemmas `foldlM_step_runs`, `foldlM_step_ok` and
`foldlM_step_error` carry the step through the body, with the shape
`Forest.Wf` alongside for the packet numbers on the stack.
-/

set_option autoImplicit false

namespace CilBind

namespace Instruction

/-- What an instruction pops and pushes, as the abstract stack machine counts
them; a `dup` pops the value it copies and pushes it back twice. -/
def counts (i : Instruction) (rv : Bool) : Except DecodeError (Nat × Nat) := do
  return (← i.stackPops rv, ← i.stackPushes)

/-- The change an instruction makes to the depth of the stack: what it pushes
less what it pops. Zero when its counts are unknown, where the machine stops. -/
def netEffect (i : Instruction) (rv : Bool) : Int :=
  match i.counts rv with
  | .ok (pops, pushes) => (pushes : Int) - pops
  | .error _ => 0

/-- An instruction with known counts changes the depth by what it pushes less
what it pops. -/
theorem netEffect_of_counts {i : Instruction} {rv : Bool} {pops pushes : Nat}
    (h : i.counts rv = .ok (pops, pushes)) : i.netEffect rv = (pushes : Int) - pops := by
  simp [netEffect, h]

/-- A `dup` pops one value and pushes two. -/
theorem counts_dup {i : Instruction} (h : i.opcode = .dup) (rv : Bool) : i.counts rv = .ok (1, 2) := by
  have hpop : i.opcode.info.pop = .fixed 1 := by rw [h]; rfl
  have hpush : i.opcode.info.push = .fixed 2 := by rw [h]; rfl
  simp [counts, stackPops, stackPushes, hpop, hpush, bind, Except.bind, pure, Except.pure]

/-- Only calls leave a number of values that depends on their operand. -/
theorem push_var_cases {op : OpCode} (h : op.info.push = .var) :
    op = .call ∨ op = .callvirt ∨ op = .calli := by
  revert h
  cases op <;> decide

/-- What an instruction other than an indirect call pushes is known as soon as
what it pops is: a call looks up the same method for both. -/
theorem stackPushes_ok_of_stackPops {i : Instruction} {rv : Bool} {n : Nat}
    (hcalli : i.opcode ≠ .calli) (h : i.stackPops rv = .ok n) : ∃ q, i.stackPushes = .ok q := by
  unfold stackPushes
  split
  · exact ⟨_, rfl⟩
  · rename_i hpush
    have hop : i.opcode = .call ∨ i.opcode = .callvirt := by
      rcases push_var_cases hpush with hop | hop | hop
      · exact .inl hop
      · exact .inr hop
      · exact absurd hop hcalli
    have hpop : i.opcode.info.pop = .var := by rcases hop with hop | hop <;> rw [hop] <;> rfl
    rw [stackPops, hpop] at h
    have h' : (do pure (← (← i.expectToken).method).callPops) = Except.ok (ε := DecodeError) n := by
      rcases hop with hop | hop <;> simpa only [hop] using h
    obtain ⟨t, ht, h'⟩ := Except.bind_eq_ok.mp h'
    obtain ⟨m, hm, -⟩ := Except.bind_eq_ok.mp h'
    rcases hop with hop | hop <;>
      exact ⟨if m.returnsValue then 1 else 0, by simp [hop, ht, hm, bind, Except.bind, pure, Except.pure]⟩

/-- The counts of an instruction other than an indirect call fail exactly when
its pops do, and with the same error. -/
theorem counts_eq {i : Instruction} {rv : Bool} (hcalli : i.opcode ≠ .calli) :
    i.counts rv = match i.stackPops rv with
      | .ok n => .ok (n, (i.stackPushes.toOption.getD 0))
      | .error e => .error e := by
  cases hpops : i.stackPops rv with
  | error e => simp [counts, hpops, bind, Except.bind]
  | ok n =>
    obtain ⟨q, hq⟩ := stackPushes_ok_of_stackPops hcalli hpops
    simp [counts, hpops, hq, bind, Except.bind, pure, Except.pure, Except.toOption]

end Instruction

namespace Forest

/-! ### The abstract stack machine -/

/-- The depth of the stack after a run of instructions from an empty stack:
their net effects, summed. Before instruction `k` of a body it is the depth
after the first `k`. -/
def depth (rv : Bool) (l : List Instruction) : Int := (l.map (·.netEffect rv)).sum

/-- No instructions leave the stack empty. -/
@[simp] theorem depth_nil (rv : Bool) : depth rv [] = 0 := rfl

/-- The depth after a run is the first instruction's effect plus the rest's. -/
@[simp] theorem depth_cons (rv : Bool) (i : Instruction) (l : List Instruction) :
    depth rv (i :: l) = i.netEffect rv + depth rv l := by
  simp [depth]

/-- Instruction `i` runs at depth `d`: it is no switch or indirect call, its
counts are known, and the stack holds at least what it pops. -/
def Runs (rv : Bool) (d : Int) (i : Instruction) : Prop :=
  i.opcode.isTreeDisallowed = false ∧ ∃ pops pushes, i.counts rv = .ok (pops, pushes) ∧ (pops : Int) ≤ d

/-- Whether an instruction runs at a depth can be computed. -/
instance (rv : Bool) (d : Int) (i : Instruction) : Decidable (Runs rv d i) :=
  match h : i.counts rv with
  | .ok (pops, _) =>
    decidable_of_iff (i.opcode.isTreeDisallowed = false ∧ (pops : Int) ≤ d) (by simp [Runs, h])
  | .error _ => isFalse (by simp [Runs, h])

/-- The failure of an instruction that does not run at depth `d`, by the first
check it fails: a switch or indirect call, then counts that cannot be worked
out, then too shallow a stack, which reports what the instruction pops and the
depth as what is available. -/
def offence (rv : Bool) (d : Int) (i : Instruction) : TreeError :=
  if i.opcode.isTreeDisallowed then .disallowed i.offset i.opcode
  else match i.counts rv with
    | .error e => .decode e
    | .ok (pops, _) => .stackUnderflow i.offset i.opcode pops d.toNat

/-- Every instruction of a body runs at the depth the ones before it leave,
starting from depth `d`. -/
def RunsFrom (rv : Bool) : Int → List Instruction → Prop
  | _, [] => True
  | d, i :: l => Runs rv d i ∧ RunsFrom rv (d + i.netEffect rv) l

/-- Whether a body runs from a depth can be computed. -/
instance decRunsFrom (rv : Bool) : (d : Int) → (l : List Instruction) → Decidable (RunsFrom rv d l)
  | _, [] => isTrue trivial
  | d, i :: l => @instDecidableAnd _ _ inferInstance (decRunsFrom rv (d + i.netEffect rv) l)

/-- `RunsFrom` in the words of prefix sums: each instruction runs at the start
depth plus the depth of the instructions before it. -/
theorem runsFrom_iff {rv : Bool} : ∀ {d : Int} {l : List Instruction},
    RunsFrom rv d l ↔ ∀ pre i post, l = pre ++ i :: post → Runs rv (d + depth rv pre) i
  | d, [] => by simp [RunsFrom]
  | d, j :: l => by
    rw [RunsFrom, runsFrom_iff]
    constructor
    · rintro ⟨hj, hl⟩ pre i post h
      cases pre with
      | nil =>
        obtain ⟨rfl, -⟩ := List.cons.inj h
        simpa using hj
      | cons k pre =>
        simp only [List.cons_append, List.cons.injEq] at h
        obtain ⟨rfl, h⟩ := h
        simpa [Int.add_assoc] using hl pre i post h
    · intro h
      refine ⟨by simpa using h [] j l rfl, fun pre i post hl => ?_⟩
      simpa [Int.add_assoc] using h (j :: pre) i post (by rw [hl, List.cons_append])

/-! ### Value packets on the stack -/

/-- The value packets on a stack. -/
def valueCount (packets : Array Packet) (stack : List Nat) : Nat :=
  (stack.filter (isValue packets)).length

section TakeValues

variable (g : Nat → Bool)

/-- `takeValues` takes as many value packets as are asked for and there are. -/
theorem takeValues_fst_length_eq (n : Nat) (s : List Nat) :
    (takeValues g n s).1.length = min n (s.filter g).length := by
  fun_induction takeValues g n s with
  | case1 s => simp
  | case2 n => simp
  | case3 n x s hx t r heq ih =>
    rw [heq] at ih
    simp only [List.length_cons, List.filter_cons, hx, if_true] at ih ⊢
    omega
  | case4 n x s hx t r heq ih =>
    rw [heq] at ih
    simp only [List.filter_cons, hx] at ih ⊢
    exact ih

/-- The value packets left are those of the stack less those taken. -/
theorem takeValues_snd_count (n : Nat) (s : List Nat) :
    ((takeValues g n s).2.filter g).length = (s.filter g).length - (takeValues g n s).1.length := by
  fun_induction takeValues g n s with
  | case1 s => simp
  | case2 n => simp
  | case3 n x s hx t r heq ih =>
    rw [heq] at ih
    simp only [List.length_cons, List.filter_cons, hx, if_true] at ih ⊢
    omega
  | case4 n x s hx t r heq ih =>
    rw [heq] at ih
    simp only [List.filter_cons, hx] at ih ⊢
    exact ih

end TakeValues

/-- A new packet on top of a stack of older packets adds one value when it has a
value; the older packets keep theirs. -/
theorem valueCount_push {packets : Array Packet} {rest : List Nat} (pk : Packet)
    (hlt : ∀ x ∈ rest, x < packets.size) :
    valueCount (packets.push pk) (packets.size :: rest) =
      (if pk.hasValue then 1 else 0) + valueCount packets rest := by
  have hagree := AgreeBelow.push ⟨packets, []⟩ pk []
  have htop : isValue (packets.push pk) packets.size = pk.hasValue := by
    simp [isValue]
  have hrest : rest.filter (isValue (packets.push pk)) = rest.filter (isValue packets) :=
    List.filter_congr fun x hx => (hagree.isValue_eq (hlt x hx)).symm
  unfold valueCount
  rw [List.filter_cons, htop, hrest]
  cases pk.hasValue <;> simp [Nat.add_comm]

/-- The first value packet on a stack is found exactly when there is one. -/
theorem find?_isValue_eq_none {packets : Array Packet} {stack : List Nat} :
    stack.find? (isValue packets) = none ↔ valueCount packets stack = 0 := by
  simp [valueCount, List.find?_eq_none, List.filter_eq_nil_iff]

/-! ### One step -/

variable {rv : Bool} {pre : List Instruction} {packets : Array Packet} {stack : List Nat}
  {i : Instruction}

/-- A `dup` needs one value packet on the stack, which it copies: one value more. -/
theorem step_dup_depth (hw : (⟨packets, stack.reverse⟩ : Forest).Wf rv pre)
    (hdup : i.opcode = .dup) :
    if Runs rv (valueCount packets stack) i then
      ∃ acc', step rv (packets, stack) i = .ok acc' ∧
        (valueCount acc'.1 acc'.2 : Int) = valueCount packets stack + i.netEffect rv
    else step rv (packets, stack) i = .error (offence rv (valueCount packets stack) i) := by
  have hlt := hw.stack_lt
  have hdis : i.opcode.isTreeDisallowed = false := by simp [hdup, OpCode.isTreeDisallowed]
  have hcounts := Instruction.counts_dup hdup rv
  cases hfind : stack.find? (isValue packets) with
  | none =>
    have h0 := find?_isValue_eq_none.mp hfind
    rw [if_neg (by simp [Runs, hcounts, h0])]
    simp [step, hdup, hfind, offence, hcounts, h0, throw, throwThe, MonadExceptOf.throw,
      OpCode.isTreeDisallowed]
  | some top =>
    have hpos : valueCount packets stack ≠ 0 := fun h0 => by
      rw [← find?_isValue_eq_none] at h0
      rw [h0] at hfind
      cases hfind
    rw [if_pos ⟨hdis, 1, 2, hcounts, by omega⟩]
    refine ⟨(packets.push ⟨i, [], some top, true⟩, packets.size :: stack),
      by simp [step, hdup, hfind, pure, Except.pure, OpCode.isTreeDisallowed], ?_⟩
    rw [valueCount_push _ hlt, Instruction.netEffect_of_counts hcounts]
    simp
    omega

/-- Any other allowed instruction whose counts are known takes the topmost value
packets it pops, and underflows when there are fewer; the new packet is a value
packet exactly when the instruction pushes one. -/
theorem step_take_depth (hw : (⟨packets, stack.reverse⟩ : Forest).Wf rv pre)
    (hdis : i.opcode.isTreeDisallowed = false) (hdup : i.opcode ≠ .dup) {n : Nat}
    (hpops : i.stackPops rv = .ok n) :
    if Runs rv (valueCount packets stack) i then
      ∃ acc', step rv (packets, stack) i = .ok acc' ∧
        (valueCount acc'.1 acc'.2 : Int) = valueCount packets stack + i.netEffect rv
    else step rv (packets, stack) i = .error (offence rv (valueCount packets stack) i) := by
  have hlt := hw.stack_lt
  have hcalli : i.opcode ≠ .calli := fun h => by simp [OpCode.isTreeDisallowed, h] at hdis
  obtain ⟨q, hq⟩ := Instruction.stackPushes_ok_of_stackPops hcalli hpops
  have hcounts : i.counts rv = .ok (n, q) := by
    simp [Instruction.counts_eq hcalli, hpops, hq, Except.toOption]
  have htaken := takeValues_fst_length_eq (isValue packets) n stack
  rcases htake : takeValues (isValue packets) n stack with ⟨taken, rest⟩
  rw [htake] at htaken
  dsimp only at htaken
  have hvc : valueCount packets stack = (stack.filter (isValue packets)).length := rfl
  by_cases hunder : valueCount packets stack < n
  · rw [if_neg (by simp [Runs, hcounts]; omega)]
    have hlen : taken.length = valueCount packets stack := by omega
    simp [step, hdis, hdup, hpops, htake, offence, hcounts, hlen, hunder, Except.mapError,
      bind, Except.bind, throw, throwThe, MonadExceptOf.throw]
  · rw [if_pos ⟨hdis, n, q, hcounts, by omega⟩]
    have hlen : taken.length = n := by omega
    refine ⟨(packets.push ⟨i.touchCounts, taken.reverse, none, decide (0 < q)⟩,
      packets.size :: rest), by simp [step, hdis, hdup, hpops, htake, hq, hlen, Except.mapError,
      bind, Except.bind, pure, Except.pure], ?_⟩
    -- The values left are those not taken, and the new packet has one when it pushes one.
    have hrest := takeValues_snd_count (isValue packets) n stack
    rw [htake] at hrest
    have hsub : rest.Sublist stack := by
      simpa only [htake] using takeValues_snd_sublist (isValue packets) n stack
    have hq1 := Instruction.stackPushes_le_one hdup hq
    rw [valueCount_push _ fun x hx => hlt x (hsub.subset hx), Instruction.netEffect_of_counts hcounts]
    simp only [valueCount] at hrest hunder ⊢
    rw [hrest, hlen]
    rcases (by omega : q = 0 ∨ q = 1) with rfl | rfl <;> simp <;> omega

/-- One step of the builder, on a stack of the shape the builder keeps: it fails
with `offence` exactly when the instruction does not run at the depth given by
the value packets on the stack, and otherwise changes that depth by the
instruction's net effect. -/
theorem step_depth (hw : (⟨packets, stack.reverse⟩ : Forest).Wf rv pre) :
    if Runs rv (valueCount packets stack) i then
      ∃ acc', step rv (packets, stack) i = .ok acc' ∧
        (valueCount acc'.1 acc'.2 : Int) = valueCount packets stack + i.netEffect rv
    else step rv (packets, stack) i = .error (offence rv (valueCount packets stack) i) := by
  by_cases hdis : i.opcode.isTreeDisallowed
  · rw [if_neg (by simp [Runs, hdis])]
    simp [step, hdis, offence, throw, throwThe, MonadExceptOf.throw, bind, Except.bind]
  by_cases hdup : i.opcode = .dup
  · exact step_dup_depth hw hdup
  cases hpops : i.stackPops rv with
  | error e =>
    -- Counts that cannot be worked out fail the step with their decoding error.
    have hcalli : i.opcode ≠ .calli := fun h => by simp [OpCode.isTreeDisallowed, h] at hdis
    have hcounts : i.counts rv = .error e := by
      simp [Instruction.counts_eq hcalli, hpops]
    rw [if_neg (by simp [Runs, hcounts])]
    simp [step, hdis, hdup, hpops, offence, hcounts, Except.mapError, bind, Except.bind]
  | ok n => exact step_take_depth hw (by simpa using hdis) hdup hpops

/-! ### A whole run -/

/-- A run of the builder from a stack of its shape succeeds on `l` only when
every instruction runs at the depth the ones before it leave, starting from the
value packets on the stack. -/
theorem foldlM_step_runs : ∀ {l done : List Instruction} {packets : Array Packet}
    {stack : List Nat} {acc' : Array Packet × List Nat},
    (⟨packets, stack.reverse⟩ : Forest).Wf rv done →
    l.foldlM (step rv) (packets, stack) = .ok acc' → RunsFrom rv (valueCount packets stack) l
  | [], _, _, _, _, _, _ => trivial
  | i :: l, _, packets, stack, _, hw, h => by
    rw [List.foldlM_cons] at h
    obtain ⟨⟨packets₁, stack₁⟩, hstep, hrest⟩ := Except.bind_eq_ok.mp h
    have hs := step_depth (i := i) hw
    split at hs
    · rename_i hruns
      obtain ⟨acc₁, hacc, hcount⟩ := hs
      rw [hacc, Except.ok.injEq] at hstep
      subst hstep
      refine ⟨hruns, ?_⟩
      rw [← hcount]
      exact foldlM_step_runs (step_wf hw hacc) hrest
    · rw [hs] at hstep
      cases hstep

/-- When every instruction runs, the builder's run succeeds, and the value
packets on its stack grow by the depth of the body. -/
theorem foldlM_step_ok : ∀ {l done : List Instruction} {packets : Array Packet} {stack : List Nat},
    (⟨packets, stack.reverse⟩ : Forest).Wf rv done → RunsFrom rv (valueCount packets stack) l →
    ∃ acc', l.foldlM (step rv) (packets, stack) = .ok acc' ∧
      (valueCount acc'.1 acc'.2 : Int) = valueCount packets stack + depth rv l
  | [], _, _, _, _, _ => ⟨_, rfl, by simp⟩
  | i :: l, _, packets, stack, hw, ⟨hruns, hrest⟩ => by
    have hs := step_depth (i := i) hw
    rw [if_pos hruns] at hs
    obtain ⟨⟨packets₁, stack₁⟩, hacc, hcount⟩ := hs
    rw [← hcount] at hrest
    obtain ⟨acc', hfold, hcount'⟩ := foldlM_step_ok (step_wf hw hacc) hrest
    refine ⟨acc', by rw [List.foldlM_cons, hacc]; exact hfold, ?_⟩
    rw [hcount', hcount, depth_cons]
    omega

/-- At the first instruction that does not run, the builder's run fails with
that instruction's `offence`. -/
theorem foldlM_step_error {i : Instruction} {post : List Instruction} :
    ∀ {pre done : List Instruction} {packets : Array Packet} {stack : List Nat},
    (⟨packets, stack.reverse⟩ : Forest).Wf rv done → RunsFrom rv (valueCount packets stack) pre →
    ¬ Runs rv (valueCount packets stack + depth rv pre) i →
    (pre ++ i :: post).foldlM (step rv) (packets, stack) =
      .error (offence rv (valueCount packets stack + depth rv pre) i)
  | [], _, packets, stack, hw, _, hnot => by
    have hs := step_depth (i := i) hw
    rw [if_neg (by simpa using hnot)] at hs
    simp [List.foldlM_cons, hs, bind, Except.bind]
  | j :: pre, _, packets, stack, hw, ⟨hj, hrest⟩, hnot => by
    have hs := step_depth (i := j) hw
    rw [if_pos hj] at hs
    obtain ⟨⟨packets₁, stack₁⟩, hacc, hcount⟩ := hs
    -- The depth after `j` is the depth the rest starts from.
    have hstart : (valueCount packets stack : Int) + depth rv (j :: pre) =
        valueCount packets₁ stack₁ + depth rv pre := by
      rw [hcount, depth_cons]
      omega
    rw [← hcount] at hrest
    rw [hstart] at hnot ⊢
    rw [List.cons_append, List.foldlM_cons, hacc]
    exact foldlM_step_error (step_wf hw hacc) hrest hnot

/-- The builder starts from no packets and an empty stack, with no value on it. -/
theorem wf_start (rv : Bool) : (⟨#[], ([] : List Nat).reverse⟩ : Forest).Wf rv [] := wf_empty rv

/-- An empty stack holds no values. -/
@[simp] theorem valueCount_nil (packets : Array Packet) : valueCount packets [] = 0 := rfl

/-- The builder succeeds exactly on the bodies the abstract machine runs from an
empty stack. -/
theorem build_ok_iff {l : List Instruction} : (∃ f, build rv l = .ok f) ↔ RunsFrom rv 0 l := by
  constructor
  · rintro ⟨f, hf⟩
    obtain ⟨acc', hfold, -⟩ := Except.bind_eq_ok.mp hf
    simpa using foldlM_step_runs (wf_start rv) hfold
  · intro h
    have h' : RunsFrom rv (valueCount #[] []) l := by simpa using h
    obtain ⟨acc', hfold, -⟩ := foldlM_step_ok (wf_start rv) h'
    exact ⟨⟨acc'.1, acc'.2.reverse⟩, by simp [build, hfold, bind, Except.bind, pure, Except.pure]⟩

/-- The depth at any point of a body whose instructions run so far is never
negative: it counts the value packets on the builder's stack. -/
theorem depth_nonneg {pre : List Instruction} (h : RunsFrom rv 0 pre) : 0 ≤ depth rv pre := by
  have h' : RunsFrom rv (valueCount #[] []) pre := by simpa using h
  obtain ⟨acc', -, hcount⟩ := foldlM_step_ok (wf_start rv) h'
  simp only [valueCount_nil, Nat.cast_zero, Int.zero_add] at hcount
  omega

/-- At the first instruction that does not run, the builder fails with its
`offence`. -/
theorem build_error {pre post : List Instruction} {i : Instruction} (h : RunsFrom rv 0 pre)
    (hnot : ¬ Runs rv (depth rv pre) i) :
    build rv (pre ++ i :: post) = .error (offence rv (depth rv pre) i) := by
  have h' : RunsFrom rv (valueCount #[] []) pre := by simpa using h
  have hnot' : ¬ Runs rv (valueCount #[] [] + depth rv pre) i := by simpa using hnot
  have hfold : (pre ++ i :: post).foldlM (step rv) (#[], []) =
      .error (offence rv (valueCount #[] [] + depth rv pre) i) :=
    foldlM_step_error (wf_start rv) h' hnot'
  simp only [valueCount_nil, Nat.cast_zero, Int.zero_add] at hfold
  simp [build, hfold, bind, Except.bind]

/-- On success the roots hold as many value packets as the body's depth. -/
theorem build_valueRoots {l : List Instruction} {f : Forest} (h : build rv l = .ok f) :
    ((f.roots.filter (isValue f.packets)).length : Int) = depth rv l := by
  have h' : RunsFrom rv (valueCount #[] []) l := by simpa using build_ok_iff.mp ⟨f, h⟩
  obtain ⟨⟨packets, stack⟩, hfold, hcount⟩ := foldlM_step_ok (wf_start rv) h'
  simp only [valueCount_nil, Nat.cast_zero, Int.zero_add] at hcount
  have hf : f = ⟨packets, stack.reverse⟩ := by
    simpa [build, hfold, bind, Except.bind, pure, Except.pure, eq_comm] using h
  subst hf
  rw [← hcount, valueCount, List.filter_reverse, List.length_reverse]

/-- From an empty stack, each instruction runs at the depth of the ones before it. -/
theorem runsFrom_zero_iff {l : List Instruction} :
    RunsFrom rv 0 l ↔ ∀ pre i post, l = pre ++ i :: post → Runs rv (depth rv pre) i := by
  rw [runsFrom_iff]
  simp only [Int.zero_add]

/-- **The builder runs the abstract stack machine.** It succeeds exactly when
every instruction runs at the depth the instructions before it leave. At the
first instruction that does not, it fails with that instruction's `offence`,
the depth there being a count of values. On success the roots hold as many value
packets as the depth of the whole body. -/
theorem build_tracks_depth (rv : Bool) (l : List Instruction) :
    ((∃ f, build rv l = .ok f) ↔
      ∀ pre i post, l = pre ++ i :: post → Runs rv (depth rv pre) i) ∧
    (∀ pre i post, l = pre ++ i :: post →
      (∀ pre' i' post', pre = pre' ++ i' :: post' → Runs rv (depth rv pre') i') →
      ¬ Runs rv (depth rv pre) i →
      0 ≤ depth rv pre ∧ build rv l = .error (offence rv (depth rv pre) i)) ∧
    (∀ f, build rv l = .ok f →
      ((f.roots.filter (isValue f.packets)).length : Int) = depth rv l) := by
  refine ⟨build_ok_iff.trans runsFrom_zero_iff, ?_, fun _ hf => build_valueRoots hf⟩
  rintro pre i post rfl hpre hnot
  have hruns := runsFrom_zero_iff.mpr hpre
  exact ⟨depth_nonneg hruns, build_error hruns hnot⟩

/-- `ldarg.0; add; ret`: the addition finds one value where it pops two. -/
def shortAddBody : List Instruction :=
  [⟨0, .ldarg_0, .none⟩, ⟨1, .add, .none⟩, ⟨2, .ret, .none⟩]

/-- The builder refuses `shortAddBody` at the addition, with the depth before it. -/
theorem build_shortAdd_underflow :
    0 ≤ depth true [⟨0, .ldarg_0, .none⟩] ∧ build true shortAddBody =
      .error (offence true (depth true [⟨0, .ldarg_0, .none⟩]) ⟨1, .add, .none⟩) :=
  (build_tracks_depth true shortAddBody).2.1 [⟨0, .ldarg_0, .none⟩] ⟨1, .add, .none⟩
    [⟨2, .ret, .none⟩] rfl (runsFrom_zero_iff.mp (by decide)) (by decide)

example : offence true (depth true [⟨0, .ldarg_0, .none⟩]) ⟨1, .add, .none⟩ =
    .stackUnderflow 1 .add 2 1 := by
  rfl

end Forest

end CilBind
