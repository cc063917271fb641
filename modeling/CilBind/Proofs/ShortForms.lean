import CilBind.Proofs.BodyCodec

/-!
# `CilBind.Proofs.ShortForms`: the writer's shortest forms decode back

The writer has a shortest-form helper for an `int32` constant and one for each
kind of slot access: argument loads, local loads, local stores and local
address loads. Each picks among three encodings by the range of its operand.
`shortForms_decode` says that the bytes of every helper decode to exactly one
instruction that gives the operand back.

* A constant `v` comes back as the value the instruction loads
  (`Instruction.intLiteral?`), in one byte for `-1` to `8`, in two for the rest
  of the signed byte range and in five otherwise.
* A slot `n` comes back as the slot the instruction touches
  (`Instruction.argIndex?`, `Instruction.localIndex?`), through an opcode of the
  helper's own kind, and in a form no other instruction of that kind beats: no
  instruction of those opcodes with an operand of its opcode's shape reaches
  slot `n` in fewer bytes (`Instruction.ShortestIn`).

## How the proof goes

Every helper writes `Encode.instruction` of one instruction, so the body codec
(`decodeBody_encode`) decodes it back. The four slot helpers are one definition,
`Encode.slot`, over a list of fixed-slot opcodes, a one-byte form and a long
form; `SlotForms` names what the decoder's slot accessor does with each, and
`SlotForms.decodes` is proved once for every such family.
-/

set_option autoImplicit false

namespace CilBind

namespace Instruction

/-- No instruction of the opcodes `ops` whose operand has its opcode's shape
reaches the slot of `i` through `slotOf` in fewer bytes than `i`. -/
def ShortestIn (ops : List OpCode) (slotOf : Instruction → Option Nat) (i : Instruction) : Prop :=
  ∀ j : Instruction, j.opcode ∈ ops → j.Fits → slotOf j = slotOf i → i.size ≤ j.size

/-- A fitting instruction of a one-byte slot form holds a one-byte slot number. -/
theorem operand_eq_shortVar_of_fits {j : Instruction} (hj : j.Fits)
    (hk : j.opcode.operand = .shortInlineVar) : ∃ b, j.operand = .shortVar b := by
  unfold Fits at hj
  rw [hk] at hj
  cases ho : j.operand <;> simp_all [Operand.Fits]

/-- A fitting instruction of a long slot form holds a two-byte slot number. -/
theorem operand_eq_var_of_fits {j : Instruction} (hj : j.Fits)
    (hk : j.opcode.operand = .inlineVar) : ∃ v, j.operand = .var v := by
  unfold Fits at hj
  rw [hk] at hj
  cases ho : j.operand <;> simp_all [Operand.Fits]

end Instruction

/-- The bytes of one instruction decode to that instruction alone, at offset `0`,
with its token looked up again. -/
theorem decodeBody_instruction (tbl : TokenTable) {i : Instruction} (hfit : i.Fits) :
    decodeBody tbl (Encode.instruction i) = .ok [{ i.retable tbl with offset := 0 }] := by
  have h : decodeBody tbl ([i].flatMap Encode.instruction) =
      .ok (Instruction.layout 0 ([i].map (Instruction.retable tbl))) :=
    decodeBody_encode (by simpa using hfit)
  simpa [Instruction.layout] using h

/-- An instruction at offset `0` without a token decodes to itself. -/
theorem decodeBody_plain (tbl : TokenTable) {i : Instruction} (hfit : i.Fits) (hoff : i.offset = 0)
    (hplain : i.operand.retable tbl = i.operand) : decodeBody tbl (Encode.instruction i) = .ok [i] := by
  rw [decodeBody_instruction tbl hfit]
  obtain ⟨offset, op, o⟩ := i
  simp_all [Instruction.retable]

/-- An opcode without operand, written alone, decodes to itself. -/
theorem decodeBody_opcode (tbl : TokenTable) {op : OpCode} (hk : op.operand = .inlineNone) :
    decodeBody tbl (Encode.opcode op) = .ok [⟨0, op, .none⟩] :=
  decodeBody_plain tbl (i := ⟨0, op, .none⟩) (by simp [Instruction.Fits, hk, Operand.Fits]) rfl rfl

/-! ### Constants -/

/-- An `int32` in the signed byte range is its own low byte. -/
theorem Int32.toInt_toInt8_of_le {v : Int32} (h₁ : -128 ≤ v.toInt) (h₂ : v.toInt ≤ 127) :
    v.toInt8.toInt = v.toInt := by
  rw [Int32.toInt_toInt8]
  exact Int.bmod_eq_of_le (by omega) (by omega)

/-- The bytes of the shortest load of `v` decode to one instruction that loads
`v`: the `ldc.i4.m1` to `ldc.i4.8` form of its own, `ldc.i4.s` or `ldc.i4`. -/
theorem ldcI4_decodes (tbl : TokenTable) (v : Int32) :
    ∃ i, decodeBody tbl (Encode.ldcI4 v) = .ok [i] ∧ i.intLiteral? = some v.toInt ∧
      i.size = if -1 ≤ v.toInt ∧ v.toInt ≤ 8 then 1
        else if -128 ≤ v.toInt ∧ v.toInt ≤ 127 then 2 else 5 := by
  unfold Encode.ldcI4
  split
  -- The ten constants with an opcode of their own, one byte long.
  any_goals
    rename_i hv
    refine ⟨_, decodeBody_opcode tbl rfl, by simp [Instruction.intLiteral?, hv], ?_⟩
    rw [hv]
    decide
  -- Any other value: one signed byte if it fits, else four.
  rename_i hm1 h0 h1 h2 h3 h4 h5 h6 h7 h8
  have hsmall : ¬ (-1 ≤ v.toInt ∧ v.toInt ≤ 8) := by
    simp only [imp_false] at hm1 h0 h1 h2 h3 h4 h5 h6 h7 h8
    omega
  split
  · rename_i hbyte
    refine ⟨⟨0, .ldc_i4_s, .int8 v.toInt8⟩,
      decodeBody_plain tbl (i := ⟨0, .ldc_i4_s, .int8 v.toInt8⟩) trivial rfl rfl, ?_, ?_⟩
    · simp [Instruction.intLiteral?, Int32.toInt_toInt8_of_le hbyte.1 hbyte.2]
    · show OpCode.ldc_i4_s.encodedLength + 1 = 2
      decide
  · rename_i hwide
    refine ⟨⟨0, .ldc_i4, .int32 v⟩,
      decodeBody_plain tbl (i := ⟨0, .ldc_i4, .int32 v⟩) trivial rfl rfl, ?_, ?_⟩
    · simp [Instruction.intLiteral?]
    · show OpCode.ldc_i4.encodedLength + 4 = 5
      decide

/-! ### Slots -/

/-- What the decoder's slot accessor `slotOf` does with a family of slot
accesses: the fixed-slot opcodes `short`, one byte long and without operand,
touch their own position in the list; the one-byte form `byteForm` and the long
form `longForm` touch the slot their operand names. -/
structure SlotForms (short : List OpCode) (byteForm longForm : OpCode)
    (slotOf : Instruction → Option Nat) : Prop where
  short_operand : ∀ op ∈ short, op.operand = .inlineNone ∧ op.isTwoByte = false
  short_slot : ∀ k (hk : k < short.length) (j : Instruction), j.opcode = short[k] → slotOf j = some k
  byte_operand : byteForm.operand = .shortInlineVar ∧ byteForm.isTwoByte = false
  byte_slot : ∀ j : Instruction, j.opcode = byteForm → slotOf j = j.varOperand?
  long_operand : longForm.operand = .inlineVar
  long_slot : ∀ j : Instruction, j.opcode = longForm → slotOf j = j.varOperand?

/-- The bytes `bytes` decode to one instruction of the opcodes `ops` that
touches slot `n`, in a shortest form. -/
def DecodesToSlot (tbl : TokenTable) (ops : List OpCode) (slotOf : Instruction → Option Nat)
    (bytes : List UInt8) (n : Nat) : Prop :=
  ∃ i, decodeBody tbl bytes = .ok [i] ∧ i.opcode ∈ ops ∧ slotOf i = some n ∧ i.ShortestIn ops slotOf

namespace SlotForms

variable {short : List OpCode} {byteForm longForm : OpCode} {slotOf : Instruction → Option Nat}

/-- A fixed-slot opcode touches a slot below the number of fixed slots. -/
theorem slot_of_short (hf : SlotForms short byteForm longForm slotOf) {j : Instruction}
    (hj : j.opcode ∈ short) : ∃ k < short.length, slotOf j = some k := by
  obtain ⟨k, hk, hjk⟩ := List.getElem_of_mem hj
  exact ⟨k, hk, hf.short_slot k hk j hjk.symm⟩

/-- A one-byte form with an operand of its shape touches a slot below `256`, in
two bytes. -/
theorem byteForm_fits (hf : SlotForms short byteForm longForm slotOf) {j : Instruction}
    (hop : j.opcode = byteForm) (hj : j.Fits) :
    ∃ n < 256, slotOf j = some n ∧ j.size = 2 := by
  obtain ⟨b, hb⟩ := Instruction.operand_eq_shortVar_of_fits hj (hop ▸ hf.byte_operand.1)
  refine ⟨b.toNat, b.toNat_lt, by simp [hf.byte_slot j hop, Instruction.varOperand?, hb], ?_⟩
  simp [Instruction.size, hop, hb, OpCode.encodedLength, hf.byte_operand.2, Operand.size]

/-- A long form with an operand of its shape takes its opcode and two bytes. -/
theorem longForm_size (hf : SlotForms short byteForm longForm slotOf) {j : Instruction}
    (hop : j.opcode = longForm) (hj : j.Fits) : j.size = longForm.encodedLength + 2 := by
  obtain ⟨v, hv⟩ := Instruction.operand_eq_var_of_fits hj (hop ▸ hf.long_operand)
  simp [Instruction.size, hop, hv, Operand.size]

/-- Past the fixed slots, an access of the family that reaches slot `n` is a
one-byte form, two bytes long, with `n` below `256`, or a long form. -/
theorem size_of_slot (hf : SlotForms short byteForm longForm slotOf) {j : Instruction}
    (hj : j.opcode ∈ short ++ [byteForm, longForm]) (hjfit : j.Fits) {n : Nat}
    (hn : short.length ≤ n) (hjslot : slotOf j = some n) :
    (n < 256 ∧ j.size = 2) ∨ j.size = longForm.encodedLength + 2 := by
  rcases List.mem_append.mp hj with hj | hj
  · -- A fixed-slot opcode reaches only a slot below their number.
    obtain ⟨k, hk, hjk⟩ := hf.slot_of_short hj
    rw [hjk, Option.some.injEq] at hjslot
    omega
  · simp only [List.mem_cons, List.not_mem_nil, or_false] at hj
    rcases hj with hj | hj
    · obtain ⟨k, hk, hjk, hsize⟩ := hf.byteForm_fits hj hjfit
      rw [hjk, Option.some.injEq] at hjslot
      exact Or.inl ⟨hjslot ▸ hk, hsize⟩
    · exact Or.inr (hf.longForm_size hj hjfit)

/-- The shortest access of a slot decodes to one access of that slot, and no
access of the same family reaches that slot in fewer bytes. -/
theorem decodes (hf : SlotForms short byteForm longForm slotOf) (tbl : TokenTable)
    (index : UInt16) :
    DecodesToSlot tbl (short ++ [byteForm, longForm]) slotOf
      (Encode.slot short byteForm longForm index) index.toNat := by
  unfold Encode.slot
  split
  · -- A fixed-slot opcode: one byte, as short as any instruction.
    next op hshort =>
    obtain ⟨hlt, hop⟩ := List.getElem?_eq_some_iff.mp hshort
    have hmem : op ∈ short := hop ▸ List.getElem_mem hlt
    obtain ⟨hnone, hone⟩ := hf.short_operand op hmem
    refine ⟨⟨0, op, .none⟩, decodeBody_opcode tbl hnone, by simp [hmem],
      hf.short_slot _ hlt _ hop.symm, fun j _ _ _ => ?_⟩
    have hsize : (⟨0, op, .none⟩ : Instruction).size = 1 := by
      simp [Instruction.size, OpCode.encodedLength, hone, Operand.size]
    rw [hsize]
    exact Instruction.size_pos j
  · next hshort =>
    have hge : short.length ≤ index.toNat := List.getElem?_eq_none_iff.mp hshort
    split
    · -- The one-byte form, two bytes long.
      rename_i hbyte
      have hlt : index.toNat < 256 := by
        have : index.toNat ≤ 255 := by simpa [UInt16.le_iff_toNat_le] using hbyte
        omega
      have hfit : (⟨0, byteForm, .shortVar index.toUInt8⟩ : Instruction).Fits := by
        simp [Instruction.Fits, hf.byte_operand.1, Operand.Fits]
      have hslot : slotOf ⟨0, byteForm, .shortVar index.toUInt8⟩ = some index.toNat := by
        rw [hf.byte_slot _ rfl]
        simp [Instruction.varOperand?]
        omega
      obtain ⟨-, -, -, hsize⟩ := hf.byteForm_fits (j := ⟨0, byteForm, .shortVar index.toUInt8⟩) rfl hfit
      refine ⟨_, decodeBody_plain tbl hfit rfl rfl, by simp, hslot, fun j hj hjfit hjslot => ?_⟩
      rw [hslot] at hjslot
      rw [hsize]
      rcases hf.size_of_slot hj hjfit hge hjslot with ⟨-, hjsize⟩ | hjsize <;> omega
    · -- The long form, past every one-byte slot.
      rename_i hwide
      have hge256 : 256 ≤ index.toNat := by
        have : ¬ index.toNat ≤ 255 := by simpa [UInt16.le_iff_toNat_le] using hwide
        omega
      have hfit : (⟨0, longForm, .var index⟩ : Instruction).Fits := by
        simp [Instruction.Fits, hf.long_operand, Operand.Fits]
      have hslot : slotOf ⟨0, longForm, .var index⟩ = some index.toNat := by
        rw [hf.long_slot _ rfl]
        rfl
      refine ⟨_, decodeBody_plain tbl hfit rfl rfl, by simp, hslot, fun j hj hjfit hjslot => ?_⟩
      rw [hslot] at hjslot
      rw [hf.longForm_size (j := ⟨0, longForm, .var index⟩) rfl hfit]
      -- A one-byte form cannot name a slot this large.
      rcases hf.size_of_slot hj hjfit hge hjslot with ⟨hsmall, -⟩ | hjsize
      · omega
      · rw [hjsize]

end SlotForms

/-- The argument loads are a slot family: `ldarg.0` to `ldarg.3`, `ldarg.s`, `ldarg`. -/
theorem argLoad_forms :
    SlotForms [.ldarg_0, .ldarg_1, .ldarg_2, .ldarg_3] .ldarg_s .ldarg Instruction.argIndex? where
  short_operand := by decide
  short_slot k hk j hj := by
    simp only [List.length_cons, List.length_nil] at hk
    interval_cases k <;> simp_all [Instruction.argIndex?]
  byte_operand := by decide
  byte_slot j hj := by simp [Instruction.argIndex?, hj]
  long_operand := by decide
  long_slot j hj := by simp [Instruction.argIndex?, hj]

/-- The local loads are a slot family: `ldloc.0` to `ldloc.3`, `ldloc.s`, `ldloc`. -/
theorem localLoad_forms :
    SlotForms [.ldloc_0, .ldloc_1, .ldloc_2, .ldloc_3] .ldloc_s .ldloc Instruction.localIndex? where
  short_operand := by decide
  short_slot k hk j hj := by
    simp only [List.length_cons, List.length_nil] at hk
    interval_cases k <;> simp_all [Instruction.localIndex?]
  byte_operand := by decide
  byte_slot j hj := by simp [Instruction.localIndex?, hj]
  long_operand := by decide
  long_slot j hj := by simp [Instruction.localIndex?, hj]

/-- The local stores are a slot family: `stloc.0` to `stloc.3`, `stloc.s`, `stloc`. -/
theorem localStore_forms :
    SlotForms [.stloc_0, .stloc_1, .stloc_2, .stloc_3] .stloc_s .stloc Instruction.localIndex? where
  short_operand := by decide
  short_slot k hk j hj := by
    simp only [List.length_cons, List.length_nil] at hk
    interval_cases k <;> simp_all [Instruction.localIndex?]
  byte_operand := by decide
  byte_slot j hj := by simp [Instruction.localIndex?, hj]
  long_operand := by decide
  long_slot j hj := by simp [Instruction.localIndex?, hj]

/-- The local address loads are a slot family with no fixed-slot forms. -/
theorem localAddress_forms : SlotForms [] .ldloca_s .ldloca Instruction.localIndex? where
  short_operand := by decide
  short_slot k hk := by simp at hk
  byte_operand := by decide
  byte_slot j hj := by simp [Instruction.localIndex?, hj]
  long_operand := by decide
  long_slot j hj := by simp [Instruction.localIndex?, hj]

/-- **The writer's shortest forms decode back.** The shortest load of an `int32`
constant decodes to one instruction that loads that constant, one byte long for
`-1` to `8`, two for the rest of the signed byte range and five otherwise; and
the shortest argument load, local load, local store and local address load of a
slot decode to one instruction of that kind that touches that slot, in a form no
instruction of that kind beats. -/
theorem shortForms_decode :
    (∀ (tbl : TokenTable) (v : Int32), ∃ i, decodeBody tbl (Encode.ldcI4 v) = .ok [i] ∧
      i.intLiteral? = some v.toInt ∧
      i.size = if -1 ≤ v.toInt ∧ v.toInt ≤ 8 then 1
        else if -128 ≤ v.toInt ∧ v.toInt ≤ 127 then 2 else 5) ∧
    (∀ (tbl : TokenTable) (index : UInt16),
      DecodesToSlot tbl [.ldarg_0, .ldarg_1, .ldarg_2, .ldarg_3, .ldarg_s, .ldarg]
        Instruction.argIndex? (Encode.ldarg index) index.toNat) ∧
    (∀ (tbl : TokenTable) (index : UInt16),
      DecodesToSlot tbl [.ldloc_0, .ldloc_1, .ldloc_2, .ldloc_3, .ldloc_s, .ldloc]
        Instruction.localIndex? (Encode.ldloc index) index.toNat) ∧
    (∀ (tbl : TokenTable) (index : UInt16),
      DecodesToSlot tbl [.stloc_0, .stloc_1, .stloc_2, .stloc_3, .stloc_s, .stloc]
        Instruction.localIndex? (Encode.stloc index) index.toNat) ∧
    (∀ (tbl : TokenTable) (index : UInt16),
      DecodesToSlot tbl [.ldloca_s, .ldloca] Instruction.localIndex? (Encode.ldloca index)
        index.toNat) :=
  ⟨ldcI4_decodes, argLoad_forms.decodes, localLoad_forms.decodes, localStore_forms.decodes,
    localAddress_forms.decodes⟩

end CilBind
