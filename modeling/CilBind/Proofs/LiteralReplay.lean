import CilBind.Proofs.InterpreterStep
import CilBind.Default.Composite

/-!
# `CilBind.Proofs.LiteralReplay`: what replaying a recognized default costs

A constructor argument that the classifier takes for its declared default is
removed from the routine, and the resolver is asked instead. That keeps the
factory's meaning only if replaying the removed expression had no effect but its
value. For literal loads it has none: `instruction_literal` shows that a load of
an integer literal pushes its value and does nothing else.

A decimal default is recognized as a composite, a five-argument `Decimal`
construction over integer literals (`Forest.composite`). The classifier reads
any integer literal there, the 64-bit `ldc.i8` included, but the interpreter
builds the decimal itself only from five `int32` values; anything else goes to
the host's constructor.

* `replay_composite`: replaying the construction of a recognized composite on
  the values its operands pushed asks the host to construct it exactly when one
  of its operands is an `ldc.i8` load, and otherwise pushes the very decimal the
  classifier recognized. `CilBind.Proofs.Substitution` carries this to every
  run of the routine that keeps the composite.
-/

set_option autoImplicit false

namespace CilBind

namespace Run

variable {m : Type → Type} [Monad m]

/-- The value a load of an integer literal pushes: an `int64` for `ldc.i8`, an
`int32` for the other loads. -/
def literalValue (i : Instruction) : Value :=
  if i.opcode = .ldc_i8 then .i8 (Int64.ofInt (i.intLiteral?.getD 0))
  else .i4 (Int32.ofInt (i.intLiteral?.getD 0))

/-- A load of an integer literal pushes its value and touches nothing else. -/
theorem instruction_literal (host : Host m) (returns : TypeRef) (f : Frame) (i : Instruction)
    {v : Int} (h : i.intLiteral? = some v) :
    instruction host returns f i = pure (.next (f.push (literalValue i))) := by
  unfold Instruction.intLiteral? at h
  -- One goal per literal opcode; each replays to a single push.
  split at h <;> simp_all [instruction, literalValue, Instruction.intLiteral?]

end Run

namespace Frame

/-- Popping as many values as were pushed on top hands them back in push order. -/
theorem popN_append (f : Frame) (xs : List Value) (at_ : String) :
    ({ f with stack := xs.reverse ++ f.stack } : Frame).popN xs.length at_ = .ok (xs, f) := by
  simp [popN]

end Frame

namespace Forest

/-- Everything a recognized composite is made of: a `newobj` of a five-argument
decimal constructor whose operands are five integer literals, with a sign of 0
or 1 and a scale of at most 28. -/
theorem composite_eq_some {f : Forest} {id : Nat} {d : Decimal}
    (h : f.composite id = .ok (some d)) :
    ∃ p t ctor lo mid hi sign scale, f.get? id = some p ∧ p.instr.opcode = .newobj ∧
      p.instr.token? = some t ∧ t.method = .ok ctor ∧ ctor.declaring.isDecimal = true ∧
      ctor.params.length = 5 ∧
      p.children.map (fun c => (f.get? c).bind (·.instr.intLiteral?)) =
        [some lo, some mid, some hi, some sign, some scale] ∧
      Decimal.ofLiterals lo mid hi sign scale = .ok d := by
  unfold composite at h
  rcases hp : f.get? id with _ | p
  · simp [hp] at h
  rcases ht : p.instr.token? with _ | t
  · simp [hp, ht] at h
  by_cases hop : p.instr.opcode = .newobj
  · simp only [hp, hop, ht, ne_eq, not_true_eq_false, if_false, Except.bind_eq_ok,
      Except.mapError_eq_ok] at h
    obtain ⟨ctor, hctor, h⟩ := h
    by_cases hk : ctor.declaring.isDecimal = true ∧ ctor.params.length = 5
    · obtain ⟨hdec, hlen⟩ := hk
      rw [if_neg (by simp [hdec, hlen])] at h
      split at h
      · rename_i lo mid hi sign scale hlit
        obtain ⟨d', hd', hdd⟩ := Except.map_eq_ok.mp h
        cases hdd
        exact ⟨p, t, ctor, lo, mid, hi, sign, scale, rfl, hop, ht, hctor, hdec, hlen, hlit, hd'⟩
      · simp at h
    · rw [if_pos (by simpa [Decidable.or_iff_not_imp_left] using hk)] at h
      simp at h
  · simp [hp, hop] at h

/-- The values the operand packets `cs` push when they are literal loads, in order. -/
def operandValues (f : Forest) (cs : List Nat) : List Value :=
  cs.filterMap fun c => (f.get? c).map fun pc => Run.literalValue pc.instr

/-- Whether packet `c` is a load of a 64-bit literal. -/
def isWideLoad (f : Forest) (c : Nat) : Bool :=
  match f.get? c with
  | some pc => pc.instr.opcode == .ldc_i8
  | none => false

end Forest

namespace Decimal

/-- The parts a composite with a sign of 0 or 1 and a scale of at most 28 spells. -/
theorem ofLiterals_eq_ok {lo mid hi sign scale : Int} {d : Decimal}
    (h : ofLiterals lo mid hi sign scale = .ok d) :
    (0 ≤ sign ∧ sign ≤ 1) ∧ (0 ≤ scale ∧ scale ≤ 28) ∧
      d = ⟨UInt32.ofInt lo, UInt32.ofInt mid, UInt32.ofInt hi, sign = 1, UInt8.ofInt scale⟩ := by
  unfold ofLiterals at h
  split at h
  · simp at h
  split at h
  · simp at h
  · rename_i hsign hscale
    simp only [Except.ok.injEq] at h
    exact ⟨not_not.mp hsign, not_not.mp hscale, h.symm⟩

/-- The low 32 bits of an integer read the same through `Int32` as directly. -/
theorem toUInt32_int32_ofInt (n : Int) : (Int32.ofInt n).toUInt32 = UInt32.ofInt n := by
  apply UInt32.toBitVec_inj.mp
  simp only [Int32.toBitVec_toUInt32, Int32.toBitVec_ofInt, UInt32.ofInt]
  apply BitVec.eq_of_toNat_eq
  simp [BitVec.toNat_ofInt]
  omega

/-- Narrowing to a byte through 32 bits keeps the low byte. -/
theorem toUInt8_uint32_ofInt (n : Int) : (UInt32.ofInt n).toUInt8 = UInt8.ofInt n := by
  apply UInt8.toNat_inj.mp
  simp [UInt32.ofInt, UInt8.ofInt]
  omega

/-- Five `int32` literals with an in-range sign and scale construct in place, to
the parts the classifier reads from them. -/
theorem ofConstruction_int32 {lo mid hi sign scale : Int} (hs : 0 ≤ sign ∧ sign ≤ 1)
    (hc : 0 ≤ scale ∧ scale ≤ 28) :
    ofConstruction? [.i4 (Int32.ofInt lo), .i4 (Int32.ofInt mid), .i4 (Int32.ofInt hi),
        .i4 (Int32.ofInt sign), .i4 (Int32.ofInt scale)] =
      some ⟨UInt32.ofInt lo, UInt32.ofInt mid, UInt32.ofInt hi, sign = 1, UInt8.ofInt scale⟩ := by
  have hscale : (Int32.ofInt scale).toInt = scale :=
    Int32.toInt_ofInt_of_le (by omega) (by omega)
  have hsign : (Int32.ofInt sign != 0) = decide (sign = 1) := by
    rcases (by omega : sign = 0 ∨ sign = 1) with rfl | rfl <;> decide
  simp only [ofConstruction?, hscale, hc, and_self, if_true, toUInt32_int32_ofInt, hsign,
    toUInt8_uint32_ofInt]

/-- A value other than an `int32` among the arguments sends the construction to
the host. -/
theorem ofConstruction_eq_none {args : List Value} (h : ∃ v ∈ args, ∀ x, v ≠ .i4 x) :
    ofConstruction? args = none := by
  obtain ⟨v, hv, hne⟩ := h
  unfold ofConstruction?
  split
  · simp only [List.mem_cons, List.not_mem_nil, or_false] at hv
    rcases hv with rfl | rfl | rfl | rfl | rfl <;> exact absurd rfl (hne _)
  · rfl

end Decimal

namespace Forest

variable {m : Type → Type} [Monad m] [LawfulMonad m]

/-- Replaying the constructor of a recognized decimal composite, on the values
its five operand loads pushed: a host construction on those values when one of
the operands is an `ldc.i8` load, and otherwise a push of the very decimal the
classifier recognized, with no request to the host. -/
theorem replay_composite {f : Forest} {id : Nat} {d : Decimal} {p : Packet}
    (hd : f.composite id = .ok (some d)) (hp : f.get? id = some p)
    (host : Host m) (returns : TypeRef) (fr : Frame) :
    ∃ t ctor, p.instr.token? = some t ∧ t.method = .ok ctor ∧
      Run.instruction host returns
          { fr with stack := (f.operandValues p.children).reverse ++ fr.stack } p.instr =
        if p.children.any f.isWideLoad then
          (fun v => Step.next (fr.push v)) <$>
            Run.viaHost (host.construct ctor (f.operandValues p.children))
        else pure (.next (fr.push (.decimal d))) := by
  obtain ⟨p', t, ctor, lo, mid, hi, sign, scale, hp', hop, ht, hctor, hdec, hlen, hlit, hlits⟩ :=
    composite_eq_some hd
  rw [hp] at hp'
  cases hp'
  obtain ⟨hs, hc, rfl⟩ := Decimal.ofLiterals_eq_ok hlits
  refine ⟨t, ctor, ht, hctor, ?_⟩
  simp only [List.map_eq_cons_iff, List.map_eq_nil_iff, Option.bind_eq_some_iff] at hlit
  obtain ⟨c1, _, hcs, ⟨q1, hq1, hv1⟩, c2, _, rfl, ⟨q2, hq2, hv2⟩, c3, _, rfl, ⟨q3, hq3, hv3⟩,
    c4, _, rfl, ⟨q4, hq4, hv4⟩, c5, _, rfl, ⟨q5, hq5, hv5⟩, rfl⟩ := hlit
  have hvals : f.operandValues p.children = [Run.literalValue q1.instr, Run.literalValue q2.instr,
      Run.literalValue q3.instr, Run.literalValue q4.instr, Run.literalValue q5.instr] := by
    simp [operandValues, hcs, hq1, hq2, hq3, hq4, hq5]
  have hpop := Frame.popN_append fr (f.operandValues p.children) p.instr.text
  rw [hvals] at hpop ⊢
  simp only [List.length_cons, List.length_nil] at hpop
  simp only [Run.instruction, hop, Run.tokenOf, ht, Run.use, hctor, Run.lift_ok_bind,
    Except.mapError, hlen, hdec, if_true, hpop]
  have hwide : ∀ c q, f.get? c = some q → f.isWideLoad c = (q.instr.opcode == .ldc_i8) := by
    intro c q hq
    simp [isWideLoad, hq]
  by_cases hw : p.children.any f.isWideLoad
  · -- Some operand is a 64-bit load: its value is an `int64`, and the host constructs.
    have hnone : Decimal.ofConstruction? [Run.literalValue q1.instr, Run.literalValue q2.instr,
        Run.literalValue q3.instr, Run.literalValue q4.instr, Run.literalValue q5.instr] = none := by
      apply Decimal.ofConstruction_eq_none
      simp only [hcs, List.any_cons, List.any_nil, Bool.or_false, Bool.or_eq_true,
        hwide c1 q1 hq1, hwide c2 q2 hq2, hwide c3 q3 hq3, hwide c4 q4 hq4, hwide c5 q5 hq5,
        beq_iff_eq] at hw
      rcases hw with h | h | h | h | h <;> simp [Run.literalValue, h]
    simp only [hnone, hw, if_true, bind_pure_comp]
  · -- Every operand is a 32-bit load: the decimal is built in place.
    have hnarrow : ∀ c q, f.get? c = some q → c ∈ p.children → {v : Int} →
        q.instr.intLiteral? = some v → Run.literalValue q.instr = .i4 (Int32.ofInt v) := by
      intro c q hq hc v hv
      have hc' : f.isWideLoad c = false := by
        simpa using (List.any_eq_false.mp (by simpa using hw)) c hc
      rw [hwide c q hq] at hc'
      simp_all [Run.literalValue]
    rw [hnarrow c1 q1 hq1 (by simp [hcs]) hv1, hnarrow c2 q2 hq2 (by simp [hcs]) hv2,
      hnarrow c3 q3 hq3 (by simp [hcs]) hv3, hnarrow c4 q4 hq4 (by simp [hcs]) hv4,
      hnarrow c5 q5 hq5 (by simp [hcs]) hv5, Decimal.ofConstruction_int32 hs hc]
    simp only [hw, if_false, Bool.false_eq_true, pure_bind]

/-- `Decimal(int lo, int mid, int hi, bool isNegative, byte scale)`. -/
def decimalParts : MethodRef :=
  ⟨MethodRef.ctorName, .decimal,
    [⟨"lo", .primitive .i4, none⟩, ⟨"mid", .primitive .i4, none⟩, ⟨"hi", .primitive .i4, none⟩,
      ⟨"isNegative", .primitive .bool, none⟩, ⟨"scale", .primitive .u1, none⟩],
    .void, true⟩

end Forest

end CilBind
