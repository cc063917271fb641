import CilBind.Proofs.LiteralReplay
import CilBind.Proofs.ForestSubtree
import CilBind.Proofs.BodyCodec
import CilBind.Default.Recognize
import CilBind.Run.Scripted

/-!
# `CilBind.Proofs.DefaultVerdicts`: the recognizer's verdicts against the interpreter

The recognizer decides from the shape of a packet whether a constructor argument
is its declared default; the interpreter, replaying the same packets, computes
the value. This module shows what a verdict tells about that replay. The replay
of a packet is the run of its subtree, operands first (`Forest.subtreeInstrs`,
run by `Run.replayAll`), and `Forest.Pushes` says that the run pushes one value
and does nothing else, whatever the monad, the host and the frame: no host
request, no argument or local access.

* `isDefault_agrees_with_replay`: take a forest built from decoded instructions,
  every operand of the shape its opcode's row gives (`Instruction.Fits`). An
  integer verdict never fails, and it is true exactly when the packet loads an
  integer constant or widens one with `conv.i8`, `conv.u8`, `conv.i` or
  `conv.u` (`Forest.IntConstant`), and the replayed value reads as the default
  at the default's width. A true float verdict means a float constant whose
  64-bit reading is the default, or not a number like it, and whose replay
  pushes it (`Forest.FloatConstant`); a true boolean verdict means a load that
  replays to the `int32` one or zero; a true null verdict for a reference type
  means `ldnull`, which replays to null.
* `composite_subtree_replay`: the replay of a recognized decimal composite
  pushes the recognized decimal without asking the host only when none of its
  operands is an `ldc.i8` load; with one, the interpreter hands the five values
  to the host's constructor, since it builds a decimal itself only from five
  `int32` values. Over literal operands a composite is malformed exactly when
  its sign is not 0 or 1, which is reported first, or its scale is above 28.

The float case is stated at 64 bits, as the recognizer compares. For `ldc.r4`
the interpreter narrows the 64-bit reading of the literal back to a single;
that this gives the single back is IEEE arithmetic, which Lean's float types do
not expose to proofs.

## How the proof goes

A built forest (`Forest.Wf`) gives each packet as many operands as its
instruction pops, so a constant load is a leaf and a widening has one operand.
The replay of a leaf is its one instruction, and a constant load pushes its
constant (`Run.instruction_constantValue`); a widening of a literal load
replays the load and then the conversion (`Wf.pushes_widening`). The integer
verdict is read off in two cases, widening or not (`isInt_of_widening`,
`isInt_of_not_widening`), and `isInt_of_built` matches each with the value its
replay pushes. The integer read back by the recognizer is the integer replayed
because an operand that fits its opcode is in the range of the value its load
pushes (`Instruction.intLiteral?_range`).

The operands of a composite are literal loads, hence leaves, so its replay
pushes their five values and then runs the constructor on them
(`Wf.composite_replays`); whether the interpreter builds the decimal itself
from those values is `ofConstruction_operandValues`.
-/

set_option autoImplicit false

namespace CilBind

namespace OpCode

/-- The loads of an integer constant. -/
def intLoads : List OpCode :=
  [.ldc_i4_m1, .ldc_i4_0, .ldc_i4_1, .ldc_i4_2, .ldc_i4_3, .ldc_i4_4, .ldc_i4_5, .ldc_i4_6,
    .ldc_i4_7, .ldc_i4_8, .ldc_i4_s, .ldc_i4, .ldc_i8]

/-- The conversions a compiler puts around a constant for a 64-bit or
native-size integer parameter. -/
def widenings : List OpCode := [.conv_i8, .conv_u8, .conv_i, .conv_u]

/-- The widenings that read a 32-bit constant as unsigned. -/
def zeroExtends (op : OpCode) : Bool := op == .conv_u8 || op == .conv_u

/-- Every integer load is a constant load. -/
theorem intLoads_constant : ∀ op ∈ intLoads, op ∈ constantLoads := by
  decide

/-- The widenings are conversions, neither `dup` nor an integer load. -/
theorem widenings_conversion :
    ∀ op ∈ widenings, op ∈ conversions ∧ op ≠ .dup ∧ op ∉ intLoads := by
  decide

end OpCode

namespace Instruction

/-- Marking the token resolved keeps an operand of the opcode's shape. -/
theorem touchCounts_fits {i : Instruction} (h : i.Fits) : i.touchCounts.Fits := by
  unfold touchCounts
  split
  · split
    · rename_i t ht
      simp only [Fits, ht] at h ⊢
      cases hk : i.opcode.operand <;> simp_all [Operand.Fits]
    · exact h
  · exact h

/-- Only an integer load has an integer literal. -/
theorem intLoad_of_intLiteral? {i : Instruction} (h : i.intLiteral?.isSome) :
    i.opcode ∈ OpCode.intLoads := by
  unfold intLiteral? at h
  split at h <;> simp_all [OpCode.intLoads]

/-- With an operand of the opcode's shape, exactly the integer constant loads
have a literal. -/
theorem intLiteral?_isSome_iff {i : Instruction} (h : i.Fits) :
    i.intLiteral?.isSome ↔ i.opcode ∈ OpCode.intLoads := by
  refine ⟨intLoad_of_intLiteral?, ?_⟩
  obtain ⟨offset, op, o⟩ := i
  simp only [Fits] at h
  simp only [OpCode.intLoads, List.mem_cons, List.not_mem_nil, or_false]
  -- Three of the loads read their operand, and the operand that fits is the one they read.
  rintro (rfl | rfl | rfl | rfl | rfl | rfl | rfl | rfl | rfl | rfl | rfl | rfl | rfl) <;>
    cases o <;> simp_all [intLiteral?, Operand.Fits, OpCode.operand, OpCode.info]

/-- A literal whose operand fits its opcode is in the range of what its load
pushes: 64 bits for `ldc.i8`, 32 bits for the others. -/
theorem intLiteral?_range {i : Instruction} (h : i.Fits) {n : Int} (hn : i.intLiteral? = some n) :
    (i.opcode = .ldc_i8 → -2 ^ 63 ≤ n ∧ n < 2 ^ 63) ∧
      (i.opcode ≠ .ldc_i8 → -2 ^ 31 ≤ n ∧ n < 2 ^ 31) := by
  have hop := intLoad_of_intLiteral? (i := i) (by simp [hn])
  obtain ⟨offset, op, o⟩ := i
  simp only [Fits] at h
  simp only [OpCode.intLoads, List.mem_cons, List.not_mem_nil, or_false] at hop
  rcases hop with rfl | rfl | rfl | rfl | rfl | rfl | rfl | rfl | rfl | rfl | rfl | rfl | rfl <;>
    cases o <;> simp [Operand.Fits, OpCode.operand, OpCode.info] at h <;>
    simp only [intLiteral?, Option.some.injEq] at hn <;> subst hn <;> simp
  -- What is left are the loads of `int8`, `int32` and `int64` operands.
  all_goals
    rename_i v
    have h₁ := v.le_toInt
    have h₂ := v.toInt_lt
    omega

end Instruction

namespace IntWidth

/-- At the unsigned 32-bit width an integer is taken modulo `2 ^ 32`. -/
theorem u32_normalize (n : Int) : IntWidth.u32.normalize n = Int.emod n (2 ^ 32 : Nat) := rfl

end IntWidth

namespace Run

variable {m : Type → Type} [Monad m]

/-- Replays instructions one after another until one returns: the step of the
one that returns, or the frame after the last. -/
def replayAll (host : Host m) (returns : TypeRef) :
    List Instruction → Frame → ExceptT RunError m Step
  | [], f => pure (.next f)
  | i :: is, f => do
    match ← instruction host returns f i with
    | .next f' => replayAll host returns is f'
    | .done v => pure (.done v)

/-- The value a load of a constant pushes: null, an integer literal, or a
float literal, a single one narrowed back to 32 bits. -/
def constantValue? (i : Instruction) : Option Value :=
  match i.opcode with
  | .ldnull => some .null
  | .ldc_r4 => some (.r4 (i.floatLiteral?.getD 0).toFloat32)
  | .ldc_r8 => some (.r8 (i.floatLiteral?.getD 0))
  | _ => i.intLiteral?.map fun _ => literalValue i

/-- An integer literal load pushes its literal's value. -/
theorem constantValue?_literal {i : Instruction} {n : Int} (hn : i.intLiteral? = some n) :
    constantValue? i = some (literalValue i) := by
  have hop := Instruction.intLoad_of_intLiteral? (i := i) (by simp [hn])
  unfold constantValue?
  split <;> simp_all [OpCode.intLoads]

/-- Only a constant load has a constant value. -/
theorem constantValue?_opcode {i : Instruction} {x : Value} (h : constantValue? i = some x) :
    i.opcode ∈ OpCode.constantLoads := by
  unfold constantValue? at h
  split at h
  case h_4 =>
    obtain ⟨n, hn, -⟩ := Option.map_eq_some_iff.mp h
    exact OpCode.intLoads_constant _ (Instruction.intLoad_of_intLiteral? (by simp [hn]))
  all_goals
    rename_i hop
    simp [hop, OpCode.constantLoads]

/-- A constant load pushes its constant and does nothing else. -/
theorem instruction_constantValue (host : Host m) (returns : TypeRef) (f : Frame) {i : Instruction}
    {x : Value} (h : constantValue? i = some x) :
    instruction host returns f i = pure (.next (f.push x)) := by
  unfold constantValue? at h
  split at h
  case h_4 =>
    obtain ⟨n, hn, rfl⟩ := Option.map_eq_some_iff.mp h
    exact instruction_literal host returns f i hn
  all_goals
    rename_i hop
    cases h
    simp [instruction, hop]

/-- The integer a fitting literal load pushes reads back as the literal. -/
theorem asInt_literalValue {i : Instruction} (hfit : i.Fits) {n : Int}
    (hn : i.intLiteral? = some n) : (literalValue i).asInt? = some n := by
  have hr := Instruction.intLiteral?_range hfit hn
  by_cases h8 : i.opcode = .ldc_i8
  · obtain ⟨h₁, h₂⟩ := hr.1 h8
    simp [literalValue, h8, hn, Value.asInt?, Int64.toInt_ofInt_of_le h₁ h₂]
  · obtain ⟨h₁, h₂⟩ := hr.2 h8
    simp [literalValue, h8, hn, Value.asInt?, Int32.toInt_ofInt_of_le h₁ h₂]

section Lawful

variable [LawfulMonad m] (host : Host m) (returns : TypeRef)

omit [LawfulMonad m] in
/-- Replaying nothing keeps the frame. -/
@[simp] theorem replayAll_nil (f : Frame) : replayAll host returns [] f = pure (.next f) := rfl

/-- A first instruction that steps on without touching the host lets the rest
replay from its frame. -/
theorem replayAll_cons_of_next {i : Instruction} {f f' : Frame} (is : List Instruction)
    (h : instruction host returns f i = pure (.next f')) :
    replayAll host returns (i :: is) f = replayAll host returns is f' := by
  simp [replayAll, h]

/-- Replaying one instruction is running it. -/
theorem replayAll_singleton (i : Instruction) (f : Frame) :
    replayAll host returns [i] f = instruction host returns f i := by
  simp only [replayAll]
  conv_rhs => rw [← bind_pure (instruction host returns f i)]
  congr 1
  funext s
  cases s <;> rfl

/-- Integer literal loads replayed one after another push their values, the
last on top. -/
theorem replayAll_literals (lits rest : List Instruction) (f : Frame)
    (h : ∀ i ∈ lits, i.intLiteral?.isSome) :
    replayAll host returns (lits ++ rest) f =
      replayAll host returns rest { f with stack := (lits.map literalValue).reverse ++ f.stack } := by
  induction lits generalizing f with
  | nil => rfl
  | cons i lits ih =>
    obtain ⟨v, hv⟩ := Option.isSome_iff_exists.mp (h i (by simp))
    rw [List.cons_append,
      replayAll_cons_of_next host returns _ (instruction_literal host returns f i hv),
      ih _ (fun j hj => h j (by simp [hj]))]
    simp [Frame.push]

/-- A conversion replaces the top of the stack by its converted value. -/
theorem instruction_conversion (f : Frame) {i : Instruction} (hop : i.opcode ∈ OpCode.conversions)
    {v x : Value} (hx : Arith.convert i.opcode v = .ok x) :
    instruction host returns (f.push v) i = pure (.next (f.push x)) := by
  simp only [OpCode.conversions, List.mem_cons, List.not_mem_nil, or_false] at hop
  rcases hop with h | h | h | h | h | h | h | h | h | h | h | h <;> rw [h] at hx <;>
    simp [instruction, h, hx, Frame.pop, Frame.push, map_eq_bind_pure_comp]

/-- A `newobj` of a five-argument decimal constructor on values pushed in order:
the decimal built in place when the values allow it, and otherwise the host's
construction on them. -/
theorem instruction_newobj_decimal (f : Frame) {i : Instruction} {t : TokenRef} {ctor : MethodRef}
    (hop : i.opcode = .newobj) (ht : i.token? = some t) (hctor : t.method = .ok ctor)
    (hdec : ctor.declaring.isDecimal = true) {args : List Value}
    (hlen : args.length = ctor.params.length) :
    instruction host returns { f with stack := args.reverse ++ f.stack } i =
      match Decimal.ofConstruction? args with
      | some d => pure (.next (f.push (.decimal d)))
      | none => (fun v => .next (f.push v)) <$> viaHost (host.construct ctor args) := by
  have hpop := Frame.popN_append f args i.text
  rw [hlen] at hpop
  simp only [instruction, hop, tokenOf, ht, use, hctor, lift_ok_bind, Except.mapError, hdec, if_true,
    hpop]
  cases Decimal.ofConstruction? args <;> simp [bind_pure_comp]

end Lawful

end Run

namespace Arith

/-- A widening of a fitting integer literal gives an `int64` holding the
literal, read unsigned from 32 bits under `conv.u8` and `conv.u` unless it was
loaded by `ldc.i8`. -/
theorem convert_widening {op : OpCode} (hop : op ∈ OpCode.widenings) {i : Instruction}
    (hfit : i.Fits) {n : Int} (hn : i.intLiteral? = some n) :
    ∃ x, convert op (Run.literalValue i) = .ok x ∧
      x.asInt? = some (if op.zeroExtends && i.opcode != .ldc_i8 then
        Int.emod n (2 ^ 32 : Nat) else n) := by
  have hr := Instruction.intLiteral?_range hfit hn
  simp only [OpCode.widenings, List.mem_cons, List.not_mem_nil, or_false] at hop
  by_cases h8 : i.opcode = .ldc_i8
  · obtain ⟨h₁, h₂⟩ := hr.1 h8
    have hv : Run.literalValue i = .i8 (Int64.ofInt n) := by simp [Run.literalValue, h8, hn]
    rcases hop with rfl | rfl | rfl | rfl <;>
      simp [hv, convert, h8, Value.asInt?, Int64.toInt_ofInt_of_le h₁ h₂]
  · obtain ⟨h₁, h₂⟩ := hr.2 h8
    have hv : Run.literalValue i = .i4 (Int32.ofInt n) := by simp [Run.literalValue, h8, hn]
    -- The unsigned reading of 32 bits is below `2^32`, so it too fits in 64 bits.
    have hm : 0 ≤ Int.emod n (2 ^ 32 : Nat) ∧ Int.emod n (2 ^ 32 : Nat) < (2 ^ 32 : Nat) :=
      ⟨Int.emod_nonneg _ (by norm_num), Int.emod_lt_of_pos _ (by norm_num)⟩
    have h64 : (Int64.ofInt n).toInt = n := Int64.toInt_ofInt_of_le (by omega) (by omega)
    have h64' : (Int64.ofInt (Int.emod n (2 ^ 32 : Nat))).toInt = Int.emod n (2 ^ 32 : Nat) :=
      Int64.toInt_ofInt_of_le (by omega) (by omega)
    rcases hop with rfl | rfl | rfl | rfl <;>
      simp [hv, convert, h8, Value.asInt?, OpCode.zeroExtends, Int32.toInt_ofInt_of_le h₁ h₂,
        IntWidth.u32_normalize, -Int64.toInt_ofInt, h64] <;>
      simpa using h64'

end Arith

namespace Forest

/-- The instructions of the subtree of `id`, operands before their consumer:
the order that computes its value. -/
def subtreeInstrs (f : Forest) (id : Nat) : List Instruction :=
  (f.postOrder id).filterMap fun q => (f.get? q).map (·.instr)

/-- Replaying the subtree of `id` pushes `x` and does nothing else: no host
request, no argument or local access, whatever the monad, the host, the frame
and the routine's return type. -/
def Pushes (f : Forest) (id : Nat) (x : Value) : Prop :=
  ∀ (m : Type → Type) [Monad m] [LawfulMonad m] (host : Host m) (returns : TypeRef) (fr : Frame),
    Run.replayAll host returns (f.subtreeInstrs id) fr = pure (.next (fr.push x))

/-- A subtree pushes one value only. -/
theorem Pushes.unique {f : Forest} {id : Nat} {x y : Value} (hx : f.Pushes id x)
    (hy : f.Pushes id y) : x = y := by
  have h := (hx Scripted (HostScript.host ⟨[], [], true⟩) .void ⟨[], [], []⟩).symm.trans
    (hy Scripted (HostScript.host ⟨[], [], true⟩) .void ⟨[], [], []⟩)
  have h' := congrArg (fun c => Id.run ((ExceptT.run c).run' ⟨[], [], 0⟩)) h
  simpa [Frame.push] using h'

/-- Packet `id` loads an integer constant, or widens one with `conv.i8`,
`conv.u8`, `conv.i` or `conv.u`. -/
def IntConstant (f : Forest) (id : Nat) : Prop :=
  ∃ p, f.get? id = some p ∧ (p.instr.opcode ∈ OpCode.intLoads ∨
    p.instr.opcode ∈ OpCode.widenings ∧
      ∃ c q, p.children = [c] ∧ f.get? c = some q ∧ q.instr.opcode ∈ OpCode.intLoads)

/-- Packet `id` loads a float constant that reads, at 64 bits, as `d`, or as not
a number like `d`; replaying it pushes that constant, for `ldc.r4` narrowed
back to 32 bits. -/
def FloatConstant (f : Forest) (id : Nat) (d : Float) : Prop :=
  ∃ p lit, f.get? id = some p ∧ p.instr.floatLiteral? = some lit ∧
    (lit == d || (lit.isNaN && d.isNaN)) = true ∧
    (p.instr.opcode = .ldc_r8 ∧ f.Pushes id (.r8 lit) ∨
      p.instr.opcode = .ldc_r4 ∧ f.Pushes id (.r4 lit.toFloat32))

variable {f : Forest} {rv : Bool} {l : List Instruction}

/-- A packet that is there has a number below the forest's size. -/
theorem lt_size_of_get? {id : Nat} {p : Packet} (hp : f.get? id = some p) : id < f.packets.size := by
  by_contra hge
  simp [get?, Array.getElem?_eq_none (Nat.le_of_not_lt hge)] at hp

/-- The subtree of a packet whose operands are leaves: their instructions, then
its own. -/
theorem subtreeInstrs_of_leaves {id : Nat} {p : Packet} (hp : f.get? id = some p)
    (hleaf : ∀ c ∈ p.children, f.childrenOf c = []) :
    f.subtreeInstrs id = p.children.filterMap (fun c => (f.get? c).map (·.instr)) ++ [p.instr] := by
  obtain ⟨k, hk⟩ := Nat.exists_eq_add_of_lt (lt_size_of_get? hp)
  -- Each operand is a leaf, so its own subtree is just itself.
  have hflat : p.children.flatMap (f.postOrderFuel f.packets.size) = p.children := by
    rw [List.flatMap_congr (g := fun c => [c]), List.flatMap_singleton']
    intro c hc
    rw [hk, postOrderFuel, hleaf c hc, List.flatMap_nil, List.nil_append]
  simp [subtreeInstrs, postOrder, postOrderFuel, childrenOf, hp, hflat]

/-- A packet of a built forest was made from an instruction of the body: it
holds that instruction, its token marked resolved, and unless it is a `dup` it
has as many operands as the instruction pops. -/
theorem Wf.source (hw : f.Wf rv l) {id : Nat} {p : Packet} (hp : f.get? id = some p) :
    ∃ i ∈ l, p.instr = i.touchCounts ∧
      (i.opcode ≠ .dup → i.stackPops rv = .ok p.children.length) := by
  have hid : id < l.length := hw.size ▸ lt_size_of_get? hp
  obtain ⟨pk, hpk, hwf⟩ := hw.packet id l[id] (List.getElem?_eq_getElem hid)
  rw [hp, Option.some_inj] at hpk
  subst hpk
  refine ⟨l[id], List.getElem_mem hid, hwf.instr, fun hne => ?_⟩
  have harity := hwf.arity
  rw [if_neg hne] at harity
  exact harity.1

/-- The packets of a forest built from fitting instructions hold fitting
instructions. -/
theorem Wf.fits (hw : f.Wf rv l) (hfit : ∀ i ∈ l, i.Fits) {id : Nat} {p : Packet}
    (hp : f.get? id = some p) : p.instr.Fits := by
  obtain ⟨i, hi, hinstr, -⟩ := hw.source hp
  rw [hinstr]
  exact Instruction.touchCounts_fits (hfit i hi)

/-- A packet other than a `dup` whose opcode pops a fixed number has that many
operands. -/
theorem Wf.children_length (hw : f.Wf rv l) {id n : Nat} {p : Packet} (hp : f.get? id = some p)
    (hn : p.instr.opcode.info.pop = .fixed n) (hne : p.instr.opcode ≠ .dup) :
    p.children.length = n := by
  obtain ⟨i, -, hinstr, hpops⟩ := hw.source hp
  rw [hinstr, Instruction.touchCounts_opcode] at hn hne
  have h := hpops hne
  simp only [Instruction.stackPops, hn, Except.ok.injEq] at h
  exact h.symm

/-- Every operand of a packet is a packet of the forest. -/
theorem Wf.exists_child_packet (hw : f.Wf rv l) {id c : Nat} {p : Packet}
    (hp : f.get? id = some p) (hc : c ∈ p.children) : ∃ q, f.get? c = some q := by
  have hmem : c ∈ f.childrenOf id := by simp [childrenOf, hp, hc]
  have hlt := (hw.child_lt hmem).1
  have hsize := lt_size_of_get? hp
  exact ⟨_, Array.getElem?_eq_getElem (by omega)⟩

/-- A constant load takes no operands. -/
theorem Wf.leaf_of_constant (hw : f.Wf rv l) {id : Nat} {p : Packet} (hp : f.get? id = some p)
    {x : Value} (hx : Run.constantValue? p.instr = some x) : p.children = [] := by
  have hop := Run.constantValue?_opcode hx
  have hdup : p.instr.opcode ≠ .dup := by
    intro h
    rw [h] at hop
    revert hop
    decide
  exact List.eq_nil_of_length_eq_zero
    (hw.children_length hp (OpCode.constantLoads_counts _ hop).1 hdup)

/-- The replay of a constant load pushes its constant. -/
theorem Wf.pushes_constant (hw : f.Wf rv l) {id : Nat} {p : Packet} (hp : f.get? id = some p)
    {x : Value} (hx : Run.constantValue? p.instr = some x) : f.Pushes id x := by
  have hleaf := hw.leaf_of_constant hp hx
  intro m _ _ host returns fr
  rw [subtreeInstrs_of_leaves hp (by simp [hleaf]), hleaf, List.filterMap_nil, List.nil_append,
    Run.replayAll_singleton, Run.instruction_constantValue host returns fr hx]

/-- The replay of a widened literal load pushes the converted literal. -/
theorem Wf.pushes_widening (hw : f.Wf rv l) {id c : Nat} {p q : Packet} (hp : f.get? id = some p)
    (hop : p.instr.opcode ∈ OpCode.widenings) (hc : p.children = [c]) (hq : f.get? c = some q)
    {n : Int} (hn : q.instr.intLiteral? = some n) {x : Value}
    (hx : Arith.convert p.instr.opcode (Run.literalValue q.instr) = .ok x) : f.Pushes id x := by
  have hleaf := hw.leaf_of_constant hq (Run.constantValue?_literal hn)
  have hsub : f.subtreeInstrs id = [q.instr, p.instr] := by
    rw [subtreeInstrs_of_leaves hp (by simp [hc, childrenOf, hq, hleaf]), hc]
    simp [hq]
  intro m _ _ host returns fr
  rw [hsub, Run.replayAll_cons_of_next host returns _ (Run.instruction_literal host returns fr _ hn),
    Run.replayAll_singleton,
    Run.instruction_conversion host returns fr (OpCode.widenings_conversion _ hop).1 hx]

/-! ### Decimal composites -/

/-- The operands of a composite are packets with an integer literal. -/
theorem literal_operands {p : Packet} {lo mid hi sign scale : Int}
    (hlit : p.children.map (fun c => (f.get? c).bind (·.instr.intLiteral?)) =
      [some lo, some mid, some hi, some sign, some scale]) :
    ∀ c ∈ p.children, ∃ q n, f.get? c = some q ∧ q.instr.intLiteral? = some n := by
  intro c hc
  have hmem := List.mem_map_of_mem (f := fun c => (f.get? c).bind (·.instr.intLiteral?)) hc
  rw [hlit] at hmem
  obtain ⟨n, hn⟩ : ∃ n, (f.get? c).bind (·.instr.intLiteral?) = some n := by
    simp only [List.mem_cons, List.not_mem_nil, or_false] at hmem
    rcases hmem with h | h | h | h | h <;> exact ⟨_, h⟩
  obtain ⟨q, hq, hqn⟩ := Option.bind_eq_some_iff.mp hn
  exact ⟨q, n, hq, hqn⟩

/-- The interpreter builds the decimal of a composite from its operands' values
exactly when none of them is an `ldc.i8` load, and then it is the decimal the
classifier read. -/
theorem ofConstruction_operandValues {id : Nat} {d : Decimal} {p : Packet}
    (hd : f.composite id = .ok (some d)) (hp : f.get? id = some p) :
    Decimal.ofConstruction? (f.operandValues p.children) =
      if p.children.any f.isWideLoad then none else some d := by
  obtain ⟨p', t, ctor, lo, mid, hi, sign, scale, hp', hop, ht, hctor, hdec, hlen, hlit, hlits⟩ :=
    composite_eq_some hd
  rw [hp] at hp'
  cases hp'
  obtain ⟨hs, hc, rfl⟩ := Decimal.ofLiterals_eq_ok hlits
  simp only [List.map_eq_cons_iff, List.map_eq_nil_iff, Option.bind_eq_some_iff] at hlit
  obtain ⟨c1, _, hcs, ⟨q1, hq1, hv1⟩, c2, _, rfl, ⟨q2, hq2, hv2⟩, c3, _, rfl, ⟨q3, hq3, hv3⟩,
    c4, _, rfl, ⟨q4, hq4, hv4⟩, c5, _, rfl, ⟨q5, hq5, hv5⟩, rfl⟩ := hlit
  have hvals : f.operandValues p.children = [Run.literalValue q1.instr, Run.literalValue q2.instr,
      Run.literalValue q3.instr, Run.literalValue q4.instr, Run.literalValue q5.instr] := by
    simp [operandValues, hcs, hq1, hq2, hq3, hq4, hq5]
  have hwide : f.isWideLoad c1 = (q1.instr.opcode == .ldc_i8) ∧
      f.isWideLoad c2 = (q2.instr.opcode == .ldc_i8) ∧ f.isWideLoad c3 = (q3.instr.opcode == .ldc_i8) ∧
      f.isWideLoad c4 = (q4.instr.opcode == .ldc_i8) ∧ f.isWideLoad c5 = (q5.instr.opcode == .ldc_i8) := by
    simp [isWideLoad, hq1, hq2, hq3, hq4, hq5]
  obtain ⟨hw1, hw2, hw3, hw4, hw5⟩ := hwide
  rw [hvals, hcs]
  simp only [List.any_cons, List.any_nil, Bool.or_false, hw1, hw2, hw3, hw4, hw5]
  by_cases h8 : q1.instr.opcode = .ldc_i8 ∨ q2.instr.opcode = .ldc_i8 ∨ q3.instr.opcode = .ldc_i8 ∨
      q4.instr.opcode = .ldc_i8 ∨ q5.instr.opcode = .ldc_i8
  · -- An `int64` among the values: the interpreter leaves the construction to the host.
    rw [if_pos (by simpa using h8)]
    apply Decimal.ofConstruction_eq_none
    rcases h8 with h | h | h | h | h <;> simp [Run.literalValue, h]
  · -- Five `int32` values: the decimal is built in place.
    simp only [not_or] at h8
    obtain ⟨h1, h2, h3, h4, h5⟩ := h8
    rw [if_neg (by simp [h1, h2, h3, h4, h5])]
    simp only [Run.literalValue, h1, h2, h3, h4, h5, if_false, hv1, hv2, hv3, hv4, hv5,
      Option.getD_some]
    exact Decimal.ofConstruction_int32 hs hc

/-- A construction of a five-argument decimal constructor over literals is
whatever the literals spell. -/
theorem composite_eq_ofLiterals {id : Nat} {p : Packet} {t : TokenRef} {ctor : MethodRef}
    {lo mid hi sign scale : Int} (hp : f.get? id = some p) (hop : p.instr.opcode = .newobj)
    (ht : p.instr.token? = some t) (hctor : t.method = .ok ctor)
    (hdec : ctor.declaring.isDecimal = true) (hlen : ctor.params.length = 5)
    (hlit : p.children.map (fun c => (f.get? c).bind (·.instr.intLiteral?)) =
      [some lo, some mid, some hi, some sign, some scale]) :
    f.composite id = some <$> Decimal.ofLiterals lo mid hi sign scale := by
  simp [composite, hp, hop, ht, hctor, hdec, hlen, hlit, Except.mapError, bind, Except.bind]

/-- In a built forest the replay of a recognized composite pushes the recognized
decimal, without the host, when no operand is an `ldc.i8` load, and otherwise
asks the host to construct it from the operands' values. -/
theorem Wf.composite_replays (hw : f.Wf rv l) {id : Nat} {d : Decimal}
    (hd : f.composite id = .ok (some d)) :
    ∃ p t ctor, f.get? id = some p ∧ p.instr.token? = some t ∧ t.method = .ok ctor ∧
      ∀ (m : Type → Type) [Monad m] [LawfulMonad m] (host : Host m) (returns : TypeRef)
        (fr : Frame),
        Run.replayAll host returns (f.subtreeInstrs id) fr =
          if p.children.any f.isWideLoad then
            (fun v => Step.next (fr.push v)) <$>
              Run.viaHost (host.construct ctor (f.operandValues p.children))
          else pure (.next (fr.push (.decimal d))) := by
  obtain ⟨p, t, ctor, lo, mid, hi, sign, scale, hp, hop, ht, hctor, hdec, hlen, hlit, -⟩ :=
    composite_eq_some hd
  have hops := literal_operands hlit
  -- The operands are literal loads, so leaves, replayed in order before the constructor.
  have hleaf : ∀ c ∈ p.children, f.childrenOf c = [] := by
    intro c hc
    obtain ⟨q, n, hq, hn⟩ := hops c hc
    simp [childrenOf, hq, hw.leaf_of_constant hq (Run.constantValue?_literal hn)]
  have hsome : ∀ c ∈ p.children, ((f.get? c).map (·.instr)).isSome := by
    intro c hc
    obtain ⟨q, n, hq, -⟩ := hops c hc
    simp [hq]
  have hlits : ∀ i ∈ p.children.filterMap (fun c => (f.get? c).map (·.instr)),
      i.intLiteral?.isSome := by
    intro i hi
    obtain ⟨c, hc, hci⟩ := List.mem_filterMap.mp hi
    obtain ⟨q, n, hq, hn⟩ := hops c hc
    simp only [hq, Option.map_some, Option.some.injEq] at hci
    simp [← hci, hn]
  have hvals : (p.children.filterMap (fun c => (f.get? c).map (·.instr))).map Run.literalValue =
      f.operandValues p.children := by
    simp [operandValues, List.map_filterMap, Function.comp_def]
  -- Every operand has a packet, so the constructor finds its five values.
  have hcount : (f.operandValues p.children).length = ctor.params.length := by
    have h5 := congrArg List.length hlit
    simp only [List.length_map, List.length_cons, List.length_nil] at h5
    rw [hlen, ← hvals, List.length_map, List.filterMap_length_eq_length.mpr hsome, h5]
  refine ⟨p, t, ctor, hp, ht, hctor, fun m _ _ host returns fr => ?_⟩
  rw [subtreeInstrs_of_leaves hp hleaf, Run.replayAll_literals host returns _ _ fr hlits, hvals,
    Run.replayAll_singleton, Run.instruction_newobj_decimal host returns fr hop ht hctor hdec hcount,
    ofConstruction_operandValues hd hp]
  by_cases hwide : p.children.any f.isWideLoad <;> simp [hwide]

/-- Over literal operands a decimal construction is a malformed composite
exactly when its sign is not 0 or 1, which is checked first, or its scale is
above 28. -/
theorem composite_eq_error_iff {id : Nat} {p : Packet} {t : TokenRef} {ctor : MethodRef}
    {lo mid hi sign scale : Int} (hp : f.get? id = some p) (hop : p.instr.opcode = .newobj)
    (ht : p.instr.token? = some t) (hctor : t.method = .ok ctor)
    (hdec : ctor.declaring.isDecimal = true) (hlen : ctor.params.length = 5)
    (hlit : p.children.map (fun c => (f.get? c).bind (·.instr.intLiteral?)) =
      [some lo, some mid, some hi, some sign, some scale]) (e : ClassifyError) :
    f.composite id = .error e ↔
      (¬(0 ≤ sign ∧ sign ≤ 1) ∧ e = .malformedComposite "sign" sign) ∨
      ((0 ≤ sign ∧ sign ≤ 1) ∧ ¬(0 ≤ scale ∧ scale ≤ 28) ∧
        e = .malformedComposite "scale" scale) := by
  rw [composite_eq_ofLiterals hp hop ht hctor hdec hlen hlit]
  unfold Decimal.ofLiterals
  by_cases hs : 0 ≤ sign ∧ sign ≤ 1
  · by_cases hc : 0 ≤ scale ∧ scale ≤ 28
    · simp [hs, hc]
    · simp [hs, hc, eq_comm]
  · simp [hs, eq_comm]

/-- Replaying a recognized decimal composite: the recognized decimal, built
without the host, when no operand is an `ldc.i8` load, and otherwise the host's
construction on the operands' values. Over literal operands, a composite is
malformed exactly when its sign is not 0 or 1, reported first, or its scale is
above 28. -/
theorem composite_subtree_replay (hb : build rv l = .ok f) (id : Nat) :
    (∀ d, f.composite id = .ok (some d) →
      ∃ p t ctor, f.get? id = some p ∧ p.instr.token? = some t ∧ t.method = .ok ctor ∧
        ∀ (m : Type → Type) [Monad m] [LawfulMonad m] (host : Host m) (returns : TypeRef)
          (fr : Frame),
          Run.replayAll host returns (f.subtreeInstrs id) fr =
            if p.children.any f.isWideLoad then
              (fun v => Step.next (fr.push v)) <$>
                Run.viaHost (host.construct ctor (f.operandValues p.children))
            else pure (.next (fr.push (.decimal d)))) ∧
    (∀ p t ctor lo mid hi sign scale, f.get? id = some p → p.instr.opcode = .newobj →
      p.instr.token? = some t → t.method = .ok ctor → ctor.declaring.isDecimal = true →
      ctor.params.length = 5 →
      p.children.map (fun c => (f.get? c).bind (·.instr.intLiteral?)) =
        [some lo, some mid, some hi, some sign, some scale] →
      ∀ e, f.composite id = .error e ↔
        (¬(0 ≤ sign ∧ sign ≤ 1) ∧ e = .malformedComposite "sign" sign) ∨
        ((0 ≤ sign ∧ sign ≤ 1) ∧ ¬(0 ≤ scale ∧ scale ≤ 28) ∧
          e = .malformedComposite "scale" scale)) :=
  ⟨fun _ hd => (build_wf hb).composite_replays hd,
    fun _ _ _ _ _ _ _ _ hp hop ht hctor hdec hlen hlit => composite_eq_error_iff hp hop ht hctor hdec hlen hlit⟩

/-- `ldc.i8 0; ldc.i4.0; ldc.i4.0; ldc.i4.0; ldc.i4.0; newobj Decimal(...); ret`. -/
def wideZeroBody : List Instruction :=
  [⟨0, .ldc_i8, .int64 0⟩, ⟨9, .ldc_i4_0, .none⟩, ⟨10, .ldc_i4_0, .none⟩, ⟨11, .ldc_i4_0, .none⟩,
    ⟨12, .ldc_i4_0, .none⟩, ⟨13, .newobj, .token ⟨0x0A000002, .ok (.method decimalParts), false⟩⟩,
    ⟨18, .ret, .none⟩]

/-- The zero of `wideZeroBody` is recognized as a composite, and its replay asks
the host to construct it. -/
theorem wideZeroBody_asks_host :
    ∃ f, build true wideZeroBody = .ok f ∧ f.composite 5 = .ok (some ⟨0, 0, 0, false, 0⟩) ∧
      ∃ ctor, ∀ (m : Type → Type) [Monad m] [LawfulMonad m] (host : Host m)
        (returns : TypeRef) (fr : Frame),
        Run.replayAll host returns (f.subtreeInstrs 5) fr =
          (fun v => Step.next (fr.push v)) <$>
            Run.viaHost (host.construct ctor [.i8 0, .i4 0, .i4 0, .i4 0, .i4 0]) := by
  have hb : build true wideZeroBody = .ok _ := rfl
  obtain ⟨p, t, ctor, hp, -, -, hrun⟩ :=
    (composite_subtree_replay hb 5).1 ⟨0, 0, 0, false, 0⟩ (by rfl)
  have hp' : some p = some ⟨⟨13, .newobj, .token ⟨0x0A000002, .ok (.method decimalParts), true⟩⟩,
      [0, 1, 2, 3, 4], none, true⟩ := hp.symm.trans rfl
  cases hp'
  refine ⟨_, hb, by rfl, ctor, fun m _ _ host returns fr => ?_⟩
  -- The low word is loaded by `ldc.i8`, so the decimal goes to the host.
  rw [hrun m host returns fr]
  rfl

end Forest

namespace Recognizer

/-- The short forms of the integer loads read the same literal as the instruction. -/
theorem shortConstant_or (i : Instruction) :
    (shortConstant? i.opcode).or i.intLiteral? = i.intLiteral? := by
  unfold shortConstant?
  split <;> simp_all [Instruction.intLiteral?]

/-- Outside the widenings the recognizer reads a packet's own literal. -/
theorem isInt_of_not_widening (r : Recognizer) {p : Packet} (hop : p.instr.opcode ∉ OpCode.widenings)
    (v : Int) (w : IntWidth) : r.isInt p v w = p.instr.intLiteral?.any (w.normalize · == v) := by
  unfold isInt
  split
  rename_i inner zext heq
  split at heq <;> simp_all [OpCode.widenings]
  obtain ⟨rfl, rfl⟩ := heq
  simp only [shortConstant_or]
  cases p.instr.intLiteral? <;> rfl

/-- Under a widening of one operand the recognizer reads the operand's literal,
unsigned from 32 bits for `conv.u8` and `conv.u` unless it is loaded by
`ldc.i8`. -/
theorem isInt_of_widening (r : Recognizer) {p : Packet} (hop : p.instr.opcode ∈ OpCode.widenings)
    {c : Nat} (hc : p.children = [c]) (v : Int) (w : IntWidth) :
    r.isInt p v w = (r.forest.get? c).any fun q => q.instr.intLiteral?.any fun raw =>
      w.normalize (if p.instr.opcode.zeroExtends && q.instr.opcode != .ldc_i8 then
        Int.emod raw (2 ^ 32 : Nat) else raw) == v := by
  simp only [OpCode.widenings, List.mem_cons, List.not_mem_nil, or_false] at hop
  unfold isInt
  rcases hop with h | h | h | h <;> simp only [h, hc] <;> cases r.forest.get? c <;>
    simp only [Option.map_none, Option.map_some, Option.any_none, Option.any_some, shortConstant_or,
      OpCode.zeroExtends] <;> split <;> simp_all

section Verdicts

variable (r : Recognizer) {id : Nat} (ty : TypeRef)

/-- No packet is no default. -/
theorem isDefault_of_get_none (h : r.forest.get? id = none) (d : DefaultValue) :
    r.isDefault id ty d = pure false := by
  simp [isDefault, h]

variable {p : Packet}

/-- An integer default is judged by `isInt`. -/
theorem isDefault_int (hp : r.forest.get? id = some p) (v : Int) (w : IntWidth) :
    r.isDefault id ty (.int v w) = pure (r.isInt p v w) := by
  simp [isDefault, hp]

/-- A single-precision default is judged at 64 bits. -/
theorem isDefault_f32 (hp : r.forest.get? id = some p) (d : Float32) :
    r.isDefault id ty (.f32 d) = pure (floatMatches p.instr d.toFloat) := by
  simp [isDefault, hp]

/-- A double-precision default is judged by `floatMatches`. -/
theorem isDefault_f64 (hp : r.forest.get? id = some p) (d : Float) :
    r.isDefault id ty (.f64 d) = pure (floatMatches p.instr d) := by
  simp [isDefault, hp]

/-- A boolean default is `ldc.i4.1` or `ldc.i4.0`. -/
theorem isDefault_bool (hp : r.forest.get? id = some p) (b : Bool) :
    r.isDefault id ty (.bool b) = pure (p.instr.opcode == if b then .ldc_i4_1 else .ldc_i4_0) := by
  simp [isDefault, hp]

/-- A null default of a reference type is `ldnull`. -/
theorem isDefault_null (hp : r.forest.get? id = some p) (hty : ty.isValueType = false) :
    r.isDefault id ty .null = pure (p.instr.opcode == .ldnull) := by
  simp [isDefault, hp, hty]

end Verdicts

variable {f : Forest} {rv : Bool} {l : List Instruction}

/-- The integer verdict on a packet of a built forest: an integer constant
shape replays to a value whose integer the verdict compares with the default;
any other packet is never an integer default. -/
theorem isInt_of_built (hw : f.Wf rv l) (hfit : ∀ i ∈ l, i.Fits) {id : Nat} {p : Packet}
    (hp : f.get? id = some p) (sd : Bool) :
    (f.IntConstant id → ∃ x n, f.Pushes id x ∧ x.asInt? = some n ∧
      ∀ v w, ((ofForest f sd).isInt p v w = true ↔ w.normalize n = v)) ∧
    (¬ f.IntConstant id → ∀ v w, (ofForest f sd).isInt p v w = false) := by
  by_cases hop : p.instr.opcode ∈ OpCode.widenings
  · -- A widening pops one operand; the recognizer reads the literal below it.
    obtain ⟨hconv, hdup, hnot⟩ := OpCode.widenings_conversion _ hop
    have hlen := hw.children_length hp (OpCode.conversions_counts _ hconv).1 hdup
    obtain ⟨c, hc⟩ := List.length_eq_one_iff.mp hlen
    obtain ⟨q, hq⟩ := hw.exists_child_packet hp (c := c) (by simp [hc])
    have hconst : f.IntConstant id ↔ q.instr.opcode ∈ OpCode.intLoads := by
      simp [Forest.IntConstant, hp, hnot, hop, hc, hq]
    have hint := isInt_of_widening (ofForest f sd) hop hc
    simp only [ofForest, hq, Option.any_some] at hint
    refine ⟨fun h => ?_, fun h v w => ?_⟩
    · obtain ⟨n, hn⟩ := Option.isSome_iff_exists.mp
        ((Instruction.intLiteral?_isSome_iff (hw.fits hfit hq)).mpr (hconst.mp h))
      obtain ⟨x, hx, hxn⟩ := Arith.convert_widening hop (hw.fits hfit hq) hn
      exact ⟨x, _, hw.pushes_widening hp hop hc hq hn hx, hxn,
        fun v w => by simp [ofForest, hint, hn]⟩
    · have hn : q.instr.intLiteral? = none := by
        rw [← Option.not_isSome_iff_eq_none]
        exact fun hs => h (hconst.mpr (Instruction.intLoad_of_intLiteral? hs))
      simp [ofForest, hint, hn]
  · -- Anything else is read as a literal load itself.
    have hconst : f.IntConstant id ↔ p.instr.opcode ∈ OpCode.intLoads := by
      simp [Forest.IntConstant, hp, hop]
    have hint := isInt_of_not_widening (ofForest f sd) hop
    refine ⟨fun h => ?_, fun h v w => ?_⟩
    · obtain ⟨n, hn⟩ := Option.isSome_iff_exists.mp
        ((Instruction.intLiteral?_isSome_iff (hw.fits hfit hp)).mpr (hconst.mp h))
      exact ⟨_, n, hw.pushes_constant hp (Run.constantValue?_literal hn),
        Run.asInt_literalValue (hw.fits hfit hp) hn, fun v w => by simp [hint, hn]⟩
    · have hn : p.instr.intLiteral? = none := by
        rw [← Option.not_isSome_iff_eq_none]
        exact fun hs => h (hconst.mpr (Instruction.intLoad_of_intLiteral? hs))
      simp [hint, hn]

/-- The integer verdict on a packet of a built forest holds exactly for an
integer constant shape whose replay reads as the default at its width. -/
theorem isInt_iff (hw : f.Wf rv l) (hfit : ∀ i ∈ l, i.Fits) {id : Nat} {p : Packet}
    (hp : f.get? id = some p) (sd : Bool) (v : Int) (w : IntWidth) :
    (ofForest f sd).isInt p v w = true ↔
      f.IntConstant id ∧ ∃ x n, f.Pushes id x ∧ x.asInt? = some n ∧ w.normalize n = v := by
  obtain ⟨hyes, hno⟩ := isInt_of_built hw hfit hp sd
  constructor
  · intro htrue
    have hc : f.IntConstant id := by
      by_contra hc
      rw [hno hc v w] at htrue
      cases htrue
    obtain ⟨x, n, hx, hxn, hiff⟩ := hyes hc
    exact ⟨hc, x, n, hx, hxn, (hiff v w).mp htrue⟩
  · rintro ⟨hc, x', n', hx', hxn', hv⟩
    obtain ⟨x, n, hx, hxn, hiff⟩ := hyes hc
    -- The subtree pushes one value only, so the integer compared is the one replayed.
    rw [hx.unique hx', hxn'] at hxn
    cases hxn
    exact (hiff v w).mpr hv

/-- A float constant that the recognizer matches with `d`. -/
theorem floatConstant_of_matches (hw : f.Wf rv l) {id : Nat} {p : Packet}
    (hp : f.get? id = some p) {d : Float} (h : floatMatches p.instr d = true) :
    f.FloatConstant id d := by
  unfold floatMatches at h
  split at h
  · rename_i lit hlit
    refine ⟨p, lit, hp, hlit, h, ?_⟩
    -- Only the two float loads have a float literal.
    have hop : p.instr.opcode = .ldc_r4 ∨ p.instr.opcode = .ldc_r8 := by
      unfold Instruction.floatLiteral? at hlit
      split at hlit <;> simp_all
    rcases hop with hop | hop
    · exact .inr ⟨hop, hw.pushes_constant hp (by simp [Run.constantValue?, hop, hlit])⟩
    · exact .inl ⟨hop, hw.pushes_constant hp (by simp [Run.constantValue?, hop, hlit])⟩
  · cases h

/-- The recognizer's verdicts on a forest built from decoded instructions, read
against the replay of the packet. An integer verdict never fails, and it holds
exactly for an integer constant load, or a widening of one, whose replayed
value reads as the default at its width. A true float verdict is a float
constant equal to the default at 64 bits, or not a number like it; a true
boolean verdict is a load replaying to the `int32` one or zero; a true null
verdict for a reference type is a load replaying to null. -/
theorem isDefault_agrees_with_replay {f : Forest} (hb : Forest.build rv l = .ok f)
    (hfit : ∀ i ∈ l, i.Fits) (sd : Bool) (id : Nat) (ty : TypeRef) :
    (∀ v w, ∃ b, (ofForest f sd).isDefault id ty (.int v w) = .ok b ∧
      (b = true ↔ f.IntConstant id ∧
        ∃ x n, f.Pushes id x ∧ x.asInt? = some n ∧ w.normalize n = v)) ∧
    (∀ d : Float32, (ofForest f sd).isDefault id ty (.f32 d) = .ok true →
      f.FloatConstant id d.toFloat) ∧
    (∀ d : Float, (ofForest f sd).isDefault id ty (.f64 d) = .ok true → f.FloatConstant id d) ∧
    (∀ b, (ofForest f sd).isDefault id ty (.bool b) = .ok true → f.Pushes id (.ofBool b)) ∧
    (ty.isValueType = false → (ofForest f sd).isDefault id ty .null = .ok true →
      f.Pushes id .null) := by
  have hw := Forest.build_wf hb
  rcases hp : f.get? id with _ | p
  · -- No packet: every verdict is false.
    have hnone := isDefault_of_get_none (ofForest f sd) ty hp
    refine ⟨fun v w => ⟨false, hnone _, by simp [Forest.IntConstant, hp]⟩, ?_, ?_, ?_, ?_⟩ <;>
      simp [hnone]
  have hp' : (ofForest f sd).forest.get? id = some p := hp
  refine ⟨fun v w => ⟨_, isDefault_int _ ty hp' v w, isInt_iff hw hfit hp sd v w⟩,
    fun d h => ?_, fun d h => ?_, fun b h => ?_, fun hty h => ?_⟩
  · rw [isDefault_f32 _ ty hp'] at h
    exact floatConstant_of_matches hw hp (Except.ok.inj h)
  · rw [isDefault_f64 _ ty hp'] at h
    exact floatConstant_of_matches hw hp (Except.ok.inj h)
  · rw [isDefault_bool _ ty hp'] at h
    have hop : p.instr.opcode = if b then .ldc_i4_1 else .ldc_i4_0 := by
      simpa using Except.ok.inj h
    -- `ldc.i4.1` and `ldc.i4.0` push the `int32` one and zero.
    have hx : Run.constantValue? p.instr = some (.ofBool b) := by
      cases b <;> simp_all [Run.constantValue?, Instruction.intLiteral?, Run.literalValue,
        Value.ofBool]
    exact hw.pushes_constant hp hx
  · rw [isDefault_null _ ty hp' hty] at h
    have hop : p.instr.opcode = .ldnull := by simpa using Except.ok.inj h
    have hx : Run.constantValue? p.instr = some .null := by simp [Run.constantValue?, hop]
    exact hw.pushes_constant hp hx

/-- `ldc.i4.m1; conv.u8; ret`: the largest `uint`, as a compiler writes a
`ulong` parameter's default. -/
def widenedMinusOne : List Instruction :=
  [⟨0, .ldc_i4_m1, .none⟩, ⟨1, .conv_u8, .none⟩, ⟨2, .ret, .none⟩]

/-- The widened `-1` is recognized as the default `4294967295` of a `ulong`, and
its replay pushes a value that reads as that default. -/
theorem widenedMinusOne_replays :
    ∃ f, Forest.build true widenedMinusOne = .ok f ∧ (∀ i ∈ widenedMinusOne, i.Fits) ∧
      ∃ x n, f.Pushes 1 x ∧ x.asInt? = some n ∧ IntWidth.u64.normalize n = 4294967295 := by
  have hb : Forest.build true widenedMinusOne = .ok _ := rfl
  have hfit : ∀ i ∈ widenedMinusOne, i.Fits := by
    simp only [widenedMinusOne, List.mem_cons, List.not_mem_nil, or_false, forall_eq_or_imp,
      forall_eq, Instruction.Fits]
    exact ⟨trivial, trivial, trivial⟩
  obtain ⟨b, hd, hiff⟩ :=
    (isDefault_agrees_with_replay hb hfit true 1 (.primitive .u8)).1 4294967295 .u64
  have htrue : b = true := by
    have hd' : (Except.ok true : Except ClassifyError Bool) = .ok b := hd
    cases hd'
    rfl
  exact ⟨_, hb, hfit, (hiff.mp htrue).2⟩

end Recognizer

end CilBind
