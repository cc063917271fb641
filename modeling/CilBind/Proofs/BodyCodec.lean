import CilBind.Proofs.Outcome
import CilBind.Code.Decoder
import CilBind.Code.Writer

/-!
# `CilBind.Proofs.BodyCodec`: decoding a method body and writing it back are inverse

`decodeBody` reads a body one instruction after another; `Encode.instruction`
writes an instruction with the operand shape it was read with. This module
proves that the two undo each other over the whole format
(`decodeBody_roundTrip`):

* a body that decodes is tiled by its instructions (`Instruction.Tiles`): the
  first starts at offset 0, each next one where the one before it ends, and the
  last ends at the end of the body, so the final length check never fails; and
  writing the instructions back gives the body byte for byte, float bits and
  switch tables included;
* instructions whose operands have the shape of their opcodes
  (`Instruction.Fits`) decode back from the bytes written for them, with their
  offsets the running sums of their sizes (`Instruction.layout`) and their
  tokens looked up again in the decoder's table (`Instruction.retable`).

## How the proof goes

Each reader gets two lemmas that say which bytes it consumes, stated with the
writer's own byte lists: `*_eq_ok` reads a successful run back as
`bytes.drop pos = written ++ bytes.drop next`, and `*_of_drop` runs the reader
on bytes that start with what the writer wrote. Little-endian numbers are the
only arithmetic (`le_leNat`, `leNat_le`); the opcode tables enter through
`OpCode.ofByte?_eq_some` and `OpCode.ofByte?_code`. The run over a whole body
is then one induction each way (`decodeFrom_eq_ok`, `decodeFrom_of_drop`).
A separate pass over the readers shows that they fail only for a short body or
an unknown opcode (`Decode.FailsOnRead`), never with a length mismatch.
-/

set_option autoImplicit false

namespace CilBind

/-! ### Little-endian numbers -/

namespace Encode

/-- The writer spells a number in exactly as many bytes as it is asked for. -/
@[simp] theorem le_length (n v : Nat) : (le n v).length = n := by
  simp [le]

/-- Little-endian: the low byte comes first, then the rest of the number. -/
theorem le_succ (n v : Nat) : le (n + 1) v = (v % 256).toUInt8 :: le n (v / 256) := by
  simp only [le, List.range_succ_eq_map, List.map_cons, List.map_map]
  congr 1
  · simp
  · apply List.map_congr_left
    intro k _
    -- The `k + 1`-th byte of `v` is the `k`-th byte of `v / 256`.
    have : v / 256 ^ (k + 1) = v / 256 / 256 ^ k := by
      rw [Nat.div_div_eq_div_mul, Nat.pow_succ']
    simp [this]

end Encode

namespace Decode

/-- Reading little-endian bytes: the first is the lowest. -/
theorem leNat_cons (b : UInt8) (bs : List UInt8) : leNat (b :: bs) = b.toNat + 256 * leNat bs :=
  rfl

/-- `n` bytes spell a number below `256 ^ n`. -/
theorem leNat_lt (bs : List UInt8) : leNat bs < 256 ^ bs.length := by
  induction bs with
  | nil => simp [leNat]
  | cons b bs ih =>
    rw [leNat_cons, List.length_cons, Nat.pow_succ']
    have hb := b.toNat_lt
    omega

/-- Reading what the writer wrote gives the number back, cut to its width. -/
theorem leNat_le (n v : Nat) : leNat (Encode.le n v) = v % 256 ^ n := by
  induction n generalizing v with
  | zero => simp [Encode.le, leNat, Nat.mod_one]
  | succ n ih =>
    rw [Encode.le_succ, leNat_cons, ih, Nat.pow_succ', Nat.mod_mul]
    simp

/-- Writing a number read from `n` bytes gives the bytes back. -/
theorem le_leNat (bs : List UInt8) : Encode.le bs.length (leNat bs) = bs := by
  induction bs with
  | nil => rfl
  | cons b bs ih =>
    have hb := b.toNat_lt
    have hlow : (b.toNat + 256 * leNat bs) % 256 = b.toNat := by omega
    have hhigh : (b.toNat + 256 * leNat bs) / 256 = leNat bs := by omega
    rw [List.length_cons, Encode.le_succ, leNat_cons, hlow, hhigh, ih]
    simp

/-- `le_leNat` at a width given apart from the bytes. -/
theorem le_leNat_of_length {bs : List UInt8} {n : Nat} (h : bs.length = n) :
    Encode.le n (leNat bs) = bs :=
  h ▸ le_leNat bs

end Decode

/-! ### Operands and their shapes -/

namespace Operand

/-- The operand has the shape its opcode's row gives: the constructor that
holds that shape and, for a switch, no more targets than its four-byte count
can number. -/
def Fits : OperandKind → Operand → Prop
  | .inlineNone, .none => True
  | .shortInlineBrTarget, .shortBranch _ => True
  | .inlineBrTarget, .branch _ => True
  | .shortInlineI, .int8 _ => True
  | .inlineI, .int32 _ => True
  | .inlineI8, .int64 _ => True
  | .shortInlineR, .float32 _ => True
  | .inlineR, .float64 _ => True
  | .shortInlineVar, .shortVar _ => True
  | .inlineVar, .var _ => True
  | .inlineString, .token _ | .inlineSig, .token _ | .inlineMethod, .token _
  | .inlineField, .token _ | .inlineType, .token _ | .inlineTok, .token _ => True
  | .inlineSwitch, .switch ds => ds.length < 2 ^ 32
  | _, _ => False

/-- The operand as a decoder reading its bytes with the table `tbl` gives it
back: a token is looked up again, any other operand is kept. -/
def retable (tbl : TokenTable) : Operand → Operand
  | .token t => .token (TokenRef.ofTable tbl t.token)
  | o => o

/-- Looking a token up again changes no operand's size. -/
@[simp] theorem size_retable (tbl : TokenTable) (o : Operand) : (o.retable tbl).size = o.size := by
  cases o <;> rfl

end Operand

namespace OpCode

/-- Only `switch` takes a switch table. -/
theorem eq_switch_of_operand {op : OpCode} (h : op.operand = .inlineSwitch) : op = .switch := by
  revert h
  cases op <;> decide

/-- The prefix byte is no one-byte opcode. -/
theorem ofByte?_prefix : ofByte? false 0xFE = none := by decide

/-- A one-byte opcode's value is not the prefix byte. -/
theorem code_ne_prefix {op : OpCode} (h : op.isTwoByte = false) : op.code.toUInt8 ≠ 0xFE := by
  intro hfe
  have hcode := ofByte?_code op
  rw [h, hfe, ofByte?_prefix] at hcode
  cases hcode

set_option maxRecDepth 4000 in
/-- After the prefix, a byte `b` stands for the value `0xFE00 + b`. -/
theorem prefixed_value : ∀ n, n < 256 →
    (((0xFE00 : UInt16) ||| n.toUInt8.toUInt16) >>> 8 = 0xFE) ∧
      ((0xFE00 : UInt16) ||| n.toUInt8.toUInt16).toUInt8 = n.toUInt8 := by
  decide

/-- A byte found in a table names an opcode of that table whose value ends in
that byte. -/
theorem ofByte?_eq_some {extended : Bool} {b : UInt8} {op : OpCode}
    (h : ofByte? extended b = some op) : op.isTwoByte = extended ∧ op.code.toUInt8 = b := by
  have hcode := ofByte?_some h
  have hb := b.toNat_lt
  cases extended with
  | false =>
    simp only [Bool.false_eq_true, if_false] at hcode
    refine ⟨?_, by simp [hcode]⟩
    -- A single byte shifted right by eight is zero, not the prefix.
    have hshift : (b.toUInt16 >>> 8).toNat = 0 := by
      simp [UInt16.toNat_shiftRight]
      omega
    simp only [isTwoByte, hcode, decide_eq_false_iff_not]
    intro he
    rw [he] at hshift
    cases hshift
  | true =>
    simp only [if_true] at hcode
    obtain ⟨hhigh, hlow⟩ := prefixed_value b.toNat hb
    simp only [Nat.toUInt8_eq, UInt8.ofNat_toNat] at hhigh hlow
    exact ⟨by simp [isTwoByte, hcode, hhigh], by rw [hcode, hlow]⟩

end OpCode

/-! ### Instructions laid end to end -/

namespace Encode

/-- The bytes of an operand, as the writer lays them after the opcode. -/
def operand : Operand → List UInt8
  | .none => []
  | .int8 v | .shortBranch v => [v.toUInt8]
  | .shortVar v => [v.toInt8.toUInt8]
  | .int32 v | .branch v => le 4 v.toUInt32.toNat
  | .int64 v => le 8 v.toUInt64.toNat
  | .float32 b => le 4 b.toNat
  | .float64 b => le 8 b.toNat
  | .var v => le 2 v.toNat
  | .token t => le 4 t.token.toNat
  | .switch ds => le 4 ds.length ++ ds.flatMap (fun d => le 4 d.toUInt32.toNat)

/-- An opcode is written in its encoded length: one byte, or two after the prefix. -/
@[simp] theorem opcode_length (op : OpCode) : (opcode op).length = op.encodedLength := by
  unfold opcode OpCode.encodedLength
  split <;> rfl

/-- An operand is written in its size. -/
@[simp] theorem operand_length (o : Operand) : (operand o).length = o.size := by
  cases o <;> simp [operand, Operand.size, Nat.mul_comm]

/-- An instruction is written as its opcode and then its operand; a switch
table is written after the `switch` opcode whatever the instruction's opcode,
so the shape must fit. -/
theorem instruction_eq {i : Instruction} (h : i.operand.Fits i.opcode.operand) :
    instruction i = opcode i.opcode ++ operand i.operand := by
  obtain ⟨offset, op, o⟩ := i
  cases o with
  | switch ds =>
    have hop : op.operand = .inlineSwitch := by
      cases hk : op.operand <;> simp_all [Operand.Fits]
    simp [instruction, switch, operand, OpCode.eq_switch_of_operand hop]
  | _ => simp [instruction, operand, opI1, opI4, opI8, opR4, opR8, opVar, opToken]

end Encode

namespace Instruction

/-- The operand has the shape of the opcode. -/
def Fits (i : Instruction) : Prop := i.operand.Fits i.opcode.operand

/-- The instruction as a decoder reading its bytes with the table `tbl` gives it
back, offset apart. -/
def retable (tbl : TokenTable) (i : Instruction) : Instruction :=
  { i with operand := i.operand.retable tbl }

/-- The instructions laid end to end from `start`: each one's offset is the sum
of the sizes before it. -/
def layout : Nat → List Instruction → List Instruction
  | _, [] => []
  | start, i :: is => { i with offset := start } :: layout (start + i.size) is

/-- The instructions `l` lie end to end from offset `start` to offset `stop`:
the first starts at `start`, each next one where the one before it ends, and
the last ends at `stop`. -/
inductive Tiles : Nat → List Instruction → Nat → Prop
  | nil (stop : Nat) : Tiles stop [] stop
  | cons {i : Instruction} {l : List Instruction} {stop : Nat} :
      Tiles i.next l stop → Tiles i.offset (i :: l) stop

/-- Every instruction takes a byte at least, its opcode. -/
theorem size_pos (i : Instruction) : 0 < i.size := by
  unfold size OpCode.encodedLength
  split <;> omega

/-- An instruction that fits its opcode is written in its size. -/
theorem length_instruction {i : Instruction} (h : i.Fits) : (Encode.instruction i).length = i.size := by
  rw [Encode.instruction_eq h, List.length_append, Encode.opcode_length, Encode.operand_length]
  rfl

/-- A tiling is at least one byte per instruction long. -/
theorem Tiles.length_le {start stop : Nat} {l : List Instruction} (h : Tiles start l stop) :
    start + l.length ≤ stop := by
  induction h with
  | nil => simp
  | @cons i l stop _ ih =>
    have := size_pos i
    simp only [next, List.length_cons] at ih ⊢
    omega

end Instruction

/-! ### What each reader consumes -/

namespace Decode

section Readers

variable {bytes : List UInt8} {pos next : Nat}

/-- Taking `n` bytes gives the `n` bytes at the position and moves past them. -/
theorem take_eq_ok {n : Nat} {bs : List UInt8} (h : take bytes n pos = .ok bs next) :
    bs.length = n ∧ next = pos + n ∧ bytes.drop pos = bs ++ bytes.drop next := by
  unfold take at h
  split at h
  · cases h
  · rename_i hlen
    cases h
    refine ⟨by simp; omega, rfl, ?_⟩
    rw [← List.drop_drop]
    exact (List.take_append_drop n (bytes.drop pos)).symm

/-- Bytes that are there are read; `bs` is not empty, so the position is inside
the body. -/
theorem take_of_drop {bs rest : List UInt8} (hn : 0 < bs.length) (h : bytes.drop pos = bs ++ rest) :
    take bytes bs.length pos = .ok bs (pos + bs.length) := by
  have hlen : pos + bs.length ≤ bytes.length := by
    have := congrArg List.length h
    simp only [List.length_drop, List.length_append] at this
    omega
  unfold take
  rw [if_neg (by omega), h, List.take_left' rfl]

/-- A byte read is the byte at the position, and the position moves past it. -/
theorem byte_eq_ok {b : UInt8} (h : byte bytes pos = .ok b next) :
    next = pos + 1 ∧ bytes.drop pos = b :: bytes.drop next := by
  simp only [byte, EStateM.bind_apply_eq_ok] at h
  obtain ⟨bs, s₁, htake, h⟩ := h
  obtain ⟨hlen, rfl, hdrop⟩ := take_eq_ok htake
  obtain ⟨b', rfl⟩ := List.length_eq_one_iff.mp hlen
  simp only [EStateM.pure_apply, EStateM.Result.ok.injEq] at h
  obtain ⟨rfl, rfl⟩ := h
  exact ⟨rfl, hdrop⟩

/-- A byte that is there is read. -/
theorem byte_of_drop {b : UInt8} {rest : List UInt8} (h : bytes.drop pos = b :: rest) :
    byte bytes pos = .ok b (pos + 1) := by
  have h' : bytes.drop pos = [b] ++ rest := h
  have htake : take bytes 1 pos = .ok [b] (pos + 1) := take_of_drop (by simp) h'
  simp only [byte]
  rw [EStateM.bind_apply_of_ok htake]
  rfl

/-- A four-byte integer read is the four bytes the writer writes for it. -/
theorem int32_eq_ok {v : Int32} (h : int32 bytes pos = .ok v next) :
    next = pos + 4 ∧ bytes.drop pos = Encode.le 4 v.toUInt32.toNat ++ bytes.drop next := by
  simp only [int32, EStateM.bind_apply_eq_ok, EStateM.pure_apply, EStateM.Result.ok.injEq] at h
  obtain ⟨bs, s₁, htake, rfl, rfl⟩ := h
  obtain ⟨hlen, rfl, hdrop⟩ := take_eq_ok htake
  have hlt : leNat bs < 2 ^ 32 := by simpa [hlen] using leNat_lt bs
  -- Four bytes read as a signed number have the same bits as the bytes.
  have hbits : (leNat bs).toUInt32.toInt32.toUInt32.toNat = leNat bs := by
    simp
    omega
  refine ⟨rfl, ?_⟩
  rw [hbits, le_leNat_of_length hlen]
  exact hdrop

/-- Four bytes the writer wrote for an integer are read back as it. -/
theorem int32_of_drop {v : Int32} {rest : List UInt8}
    (h : bytes.drop pos = Encode.le 4 v.toUInt32.toNat ++ rest) :
    int32 bytes pos = .ok v (pos + 4) := by
  have htake := take_of_drop (by simp) h
  simp only [Encode.le_length] at htake
  simp only [int32]
  rw [EStateM.bind_apply_of_ok htake, leNat_le]
  simp

/-- Reading `n` deltas consumes their four bytes each. -/
theorem int32s_eq_ok : ∀ {n pos next : Nat} {ds : List Int32}, int32s bytes n pos = .ok ds next →
    ds.length = n ∧ next = pos + 4 * n ∧
      bytes.drop pos = ds.flatMap (fun d => Encode.le 4 d.toUInt32.toNat) ++ bytes.drop next
  | 0, pos, next, ds, h => by
    simp only [int32s, EStateM.pure_apply, EStateM.Result.ok.injEq] at h
    obtain ⟨rfl, rfl⟩ := h
    simp
  | n + 1, pos, next, ds, h => by
    simp only [int32s, EStateM.bind_apply_eq_ok, EStateM.pure_apply,
      EStateM.Result.ok.injEq] at h
    obtain ⟨d, s₁, hd, ds', s₂, hds, rfl, rfl⟩ := h
    obtain ⟨rfl, hdrop⟩ := int32_eq_ok hd
    obtain ⟨hlen, rfl, hdrop'⟩ := int32s_eq_ok hds
    refine ⟨by simp [hlen], by omega, ?_⟩
    rw [hdrop, hdrop', List.flatMap_cons, List.append_assoc]

/-- The branch deltas of a switch that the writer wrote are read back, four bytes
each. -/
theorem int32s_of_drop : ∀ {ds : List Int32} {pos : Nat} {rest : List UInt8},
    bytes.drop pos = ds.flatMap (fun d => Encode.le 4 d.toUInt32.toNat) ++ rest →
    int32s bytes ds.length pos = .ok ds (pos + 4 * ds.length)
  | [], pos, rest, _ => rfl
  | d :: ds, pos, rest, h => by
    rw [List.flatMap_cons, List.append_assoc] at h
    have hd := int32_of_drop h
    -- The rest starts four bytes on.
    have hrest : bytes.drop (pos + 4) = ds.flatMap (fun d => Encode.le 4 d.toUInt32.toNat) ++ rest := by
      rw [← List.drop_drop, h, List.drop_left' (Encode.le_length 4 _)]
    simp only [List.length_cons, int32s]
    rw [EStateM.bind_apply_of_ok hd, EStateM.bind_apply_of_ok (int32s_of_drop hrest)]
    simp only [EStateM.pure_apply, EStateM.Result.ok.injEq, true_and]
    omega

/-- Four bytes read as an unsigned number have the number's bits. -/
theorem toUInt32_leNat {bs : List UInt8} (h : bs.length = 4) :
    (leNat bs).toUInt32.toNat = leNat bs := by
  have := leNat_lt bs
  rw [h] at this
  simp
  omega

/-- Eight bytes read as an unsigned number have the number's bits. -/
theorem toUInt64_leNat {bs : List UInt8} (h : bs.length = 8) :
    (leNat bs).toUInt64.toNat = leNat bs := by
  have := leNat_lt bs
  rw [h] at this
  simp
  omega

/-- Two bytes read as an unsigned number have the number's bits. -/
theorem toUInt16_leNat {bs : List UInt8} (h : bs.length = 2) :
    (leNat bs).toUInt16.toNat = leNat bs := by
  have := leNat_lt bs
  rw [h] at this
  simp
  omega

/-- An opcode read is the bytes the writer writes for it, one or two. -/
theorem opcode_eq_ok {op : OpCode} (h : opcode bytes pos = .ok op next) :
    next = pos + op.encodedLength ∧ bytes.drop pos = Encode.opcode op ++ bytes.drop next := by
  simp only [opcode, EStateM.bind_apply_eq_ok, EStateM.get_apply, EStateM.Result.ok.injEq] at h
  obtain ⟨_, _, ⟨rfl, rfl⟩, first, s₁, hfirst, h⟩ := h
  obtain ⟨rfl, hd₁⟩ := byte_eq_ok hfirst
  split at h
  · -- A one-byte opcode.
    cases hop : OpCode.ofByte? false first with
    | none => simp [hop] at h
    | some op' =>
      simp only [hop, EStateM.pure_apply, EStateM.Result.ok.injEq] at h
      obtain ⟨rfl, rfl⟩ := h
      obtain ⟨htwo, hcode⟩ := OpCode.ofByte?_eq_some hop
      simp [Encode.opcode, OpCode.encodedLength, htwo, hcode, hd₁]
  · -- The prefix, then the opcode's own byte.
    rename_i hfe
    have hfirst : first = 0xFE := by simpa using hfe
    simp only [EStateM.bind_apply_eq_ok] at h
    obtain ⟨second, s₂, hsecond, h⟩ := h
    obtain ⟨rfl, hd₂⟩ := byte_eq_ok hsecond
    cases hop : OpCode.ofByte? true second with
    | none => simp [hop] at h
    | some op' =>
      simp only [hop, EStateM.pure_apply, EStateM.Result.ok.injEq] at h
      obtain ⟨rfl, rfl⟩ := h
      obtain ⟨htwo, hcode⟩ := OpCode.ofByte?_eq_some hop
      simp [Encode.opcode, OpCode.encodedLength, htwo, hcode, hd₁, hd₂, hfirst]

/-- The bytes the writer wrote for an opcode are read back as it. -/
theorem opcode_of_drop {op : OpCode} {rest : List UInt8}
    (h : bytes.drop pos = Encode.opcode op ++ rest) :
    opcode bytes pos = .ok op (pos + op.encodedLength) := by
  have hcode := OpCode.ofByte?_code op
  unfold Encode.opcode at h
  unfold OpCode.encodedLength
  simp only [opcode]
  rw [EStateM.bind_apply_of_ok EStateM.get_apply]
  cases htwo : op.isTwoByte with
  | false =>
    rw [htwo] at hcode h
    simp only [Bool.false_eq_true, if_false, List.singleton_append] at h ⊢
    rw [EStateM.bind_apply_of_ok (byte_of_drop h), if_pos (OpCode.code_ne_prefix htwo), hcode]
    rfl
  | true =>
    rw [htwo] at hcode h
    simp only [if_true, List.cons_append] at h ⊢
    -- The opcode's own byte follows the prefix.
    have h₂ : bytes.drop (pos + 1) = op.code.toUInt8 :: rest := by
      rw [← List.drop_drop, h]
      rfl
    rw [EStateM.bind_apply_of_ok (byte_of_drop h), if_neg (by simp),
      EStateM.bind_apply_of_ok (byte_of_drop h₂), hcode]
    rfl

/-- A result read back from the first step of a read that only wraps it. -/
theorem bind_pure_eq_ok {α β : Type} {x : Decode α} {g : α → β} {b : β}
    (h : (x >>= fun a => pure (g a)) pos = .ok b next) : ∃ a, x pos = .ok a next ∧ g a = b := by
  simp only [EStateM.bind_apply_eq_ok, EStateM.pure_apply, EStateM.Result.ok.injEq] at h
  obtain ⟨a, s₁, hx, rfl, rfl⟩ := h
  exact ⟨a, hx, rfl⟩

/-- The deltas of a switch take four bytes each. -/
theorem flatMap_le_length (ds : List Int32) :
    (ds.flatMap fun d => Encode.le 4 d.toUInt32.toNat).length = 4 * ds.length := by
  induction ds with
  | nil => rfl
  | cons d ds ih =>
    rw [List.flatMap_cons, List.length_append, ih, Encode.le_length, List.length_cons]
    omega

/-- An operand read fits the kind it was read as, and is the bytes the writer
writes for it. -/
theorem operand_eq_ok {tbl : TokenTable} {k : OperandKind} {o : Operand}
    (h : operand tbl bytes k pos = .ok o next) :
    o.Fits k ∧ next = pos + o.size ∧ bytes.drop pos = Encode.operand o ++ bytes.drop next := by
  cases k
  case inlineNone =>
    simp only [operand, EStateM.pure_apply, EStateM.Result.ok.injEq] at h
    obtain ⟨rfl, rfl⟩ := h
    exact ⟨trivial, rfl, rfl⟩
  case shortInlineBrTarget | shortInlineI | shortInlineVar =>
    obtain ⟨b, hb, rfl⟩ := bind_pure_eq_ok h
    obtain ⟨rfl, hd⟩ := byte_eq_ok hb
    exact ⟨trivial, rfl, by simpa [Encode.operand] using hd⟩
  case inlineBrTarget | inlineI =>
    obtain ⟨v, hv, rfl⟩ := bind_pure_eq_ok h
    obtain ⟨rfl, hd⟩ := int32_eq_ok hv
    exact ⟨trivial, rfl, hd⟩
  case inlineI8 | inlineR =>
    obtain ⟨bs, hbs, rfl⟩ := bind_pure_eq_ok h
    obtain ⟨hlen, rfl, hd⟩ := take_eq_ok hbs
    refine ⟨trivial, rfl, ?_⟩
    simpa [Encode.operand, toUInt64_leNat hlen, le_leNat_of_length hlen] using hd
  case shortInlineR | inlineString | inlineSig | inlineMethod | inlineField | inlineType
      | inlineTok =>
    obtain ⟨bs, hbs, rfl⟩ := bind_pure_eq_ok h
    obtain ⟨hlen, rfl, hd⟩ := take_eq_ok hbs
    refine ⟨trivial, rfl, ?_⟩
    simpa [Encode.operand, TokenRef.ofTable, toUInt32_leNat hlen, le_leNat_of_length hlen]
      using hd
  case inlineVar =>
    obtain ⟨bs, hbs, rfl⟩ := bind_pure_eq_ok h
    obtain ⟨hlen, rfl, hd⟩ := take_eq_ok hbs
    refine ⟨trivial, rfl, ?_⟩
    simpa [Encode.operand, toUInt16_leNat hlen, le_leNat_of_length hlen] using hd
  case inlineSwitch =>
    simp only [operand, EStateM.bind_apply_eq_ok, EStateM.get_apply,
      EStateM.Result.ok.injEq] at h
    obtain ⟨bs, s₁, hbs, _, _, ⟨rfl, rfl⟩, h⟩ := h
    obtain ⟨hlen, rfl, hd₁⟩ := take_eq_ok hbs
    split at h
    · simp at h
    · obtain ⟨ds, hds, rfl⟩ := bind_pure_eq_ok h
      obtain ⟨hcount, rfl, hd₂⟩ := int32s_eq_ok hds
      -- The count is read from four bytes, so it fits them.
      have hlt : ds.length < 2 ^ 32 := by simpa [hcount, hlen] using leNat_lt bs
      refine ⟨hlt, by simp [Operand.size, hcount]; omega, ?_⟩
      rw [hd₁, hd₂, Encode.operand, hcount, le_leNat_of_length hlen, List.append_assoc]

section Wrapped

variable {rest : List UInt8}

/-- A one-byte operand that is there is read. -/
theorem byte_bind_of_drop {g : UInt8 → Operand} {b : UInt8} (h : bytes.drop pos = b :: rest) :
    (byte bytes >>= fun x => pure (g x)) pos = .ok (g b) (pos + 1) := by
  rw [EStateM.bind_apply_of_ok (byte_of_drop h)]
  rfl

/-- A four-byte operand that the writer wrote is read back. -/
theorem int32_bind_of_drop {g : Int32 → Operand} {v : Int32}
    (h : bytes.drop pos = Encode.le 4 v.toUInt32.toNat ++ rest) :
    (int32 bytes >>= fun x => pure (g x)) pos = .ok (g v) (pos + 4) := by
  rw [EStateM.bind_apply_of_ok (int32_of_drop h)]
  rfl

/-- An operand of `n` bytes that the writer wrote is read back. -/
theorem take_bind_of_drop {g : List UInt8 → Operand} {n v : Nat} (hn : 0 < n)
    (h : bytes.drop pos = Encode.le n v ++ rest) :
    (take bytes n >>= fun x => pure (g x)) pos = .ok (g (Encode.le n v)) (pos + n) := by
  have htake := take_of_drop (by simpa using hn) h
  rw [Encode.le_length] at htake
  rw [EStateM.bind_apply_of_ok htake]
  rfl

end Wrapped

/-- The bytes the writer wrote for an operand that fits its kind are read back as
it, its token looked up in the table. -/
theorem operand_of_drop {tbl : TokenTable} {k : OperandKind} {o : Operand} {rest : List UInt8}
    (hfit : o.Fits k) (h : bytes.drop pos = Encode.operand o ++ rest) :
    operand tbl bytes k pos = .ok (o.retable tbl) (pos + o.size) := by
  unfold Operand.Fits at hfit
  split at hfit
  · -- No operand.
    rfl
  · -- One byte: a short branch, a small constant or a short variable number.
    simp only [operand, byte_bind_of_drop h]
    simp [Operand.retable, Operand.size]
  · simp only [operand, int32_bind_of_drop h]
    rfl
  · simp only [operand, byte_bind_of_drop h]
    simp [Operand.retable, Operand.size]
  · simp only [operand, int32_bind_of_drop h]
    rfl
  · -- Eight or four bytes of a number or of float bits.
    simp only [operand, take_bind_of_drop (by decide) h, leNat_le]
    simp [Operand.retable, Operand.size]
  · simp only [operand, take_bind_of_drop (by decide) h, leNat_le]
    simp [Operand.retable, Operand.size]
  · simp only [operand, take_bind_of_drop (by decide) h, leNat_le]
    simp [Operand.retable, Operand.size]
  · simp only [operand, byte_bind_of_drop h]
    simp [Operand.retable, Operand.size]
  · simp only [operand, take_bind_of_drop (by decide) h, leNat_le]
    simp [Operand.retable, Operand.size]
  case h_11 | h_12 | h_13 | h_14 | h_15 | h_16 =>
    -- A token of any of the six kinds: four bytes, looked up in `tbl`.
    simp only [operand, take_bind_of_drop (by decide) h, leNat_le]
    simp [Operand.retable, Operand.size]
  · -- A switch: the count, then the deltas, which the body has room for.
    rename_i ds
    rw [Encode.operand, List.append_assoc] at h
    have hcount := take_of_drop (by simp) h
    rw [Encode.le_length] at hcount
    have hrest : bytes.drop (pos + 4) =
        ds.flatMap (fun d => Encode.le 4 d.toUInt32.toNat) ++ rest := by
      rw [← List.drop_drop, h, List.drop_left' (Encode.le_length 4 _)]
    have hcnt : leNat (Encode.le 4 ds.length) = ds.length := by
      rw [leNat_le]
      exact Nat.mod_eq_of_lt (by simpa using hfit)
    have havail : ¬ ds.length > (bytes.length - (pos + 4)) / 4 := by
      have := congrArg List.length hrest
      simp only [List.length_drop, List.length_append, flatMap_le_length] at this
      omega
    simp only [operand]
    rw [EStateM.bind_apply_of_ok hcount, EStateM.bind_apply_of_ok EStateM.get_apply]
    simp only [hcnt, if_neg havail]
    rw [EStateM.bind_apply_of_ok (int32s_of_drop hrest)]
    simp only [EStateM.pure_apply, Operand.retable, Operand.size, EStateM.Result.ok.injEq, true_and]
    omega
  · exact hfit.elim
/-- One instruction read back: it fits its opcode, starts at the position and
ends inside the body, and the bytes it took are the ones the writer writes
for it. -/
theorem instruction_eq_ok {tbl : TokenTable} {i : Instruction}
    (h : instruction tbl bytes pos = .ok i next) :
    i.Fits ∧ i.offset = pos ∧ next = i.next ∧ next ≤ bytes.length ∧
      bytes.drop pos = Encode.instruction i ++ bytes.drop next := by
  simp only [instruction, EStateM.bind_apply_eq_ok, EStateM.get_apply, EStateM.pure_apply,
    EStateM.Result.ok.injEq] at h
  obtain ⟨_, _, ⟨rfl, rfl⟩, op, s₁, hop, o, s₂, ho, rfl, rfl⟩ := h
  obtain ⟨rfl, hd₁⟩ := opcode_eq_ok hop
  obtain ⟨hfit, rfl, hd₂⟩ := operand_eq_ok ho
  have hdrop : bytes.drop pos = Encode.instruction ⟨pos, op, o⟩ ++
      bytes.drop (pos + op.encodedLength + o.size) := by
    rw [Encode.instruction_eq hfit, hd₁, hd₂, List.append_assoc]
  -- The instruction's bytes are all in the body, so it ends inside it.
  have hin : pos + op.encodedLength + o.size ≤ bytes.length := by
    have hlen := congrArg List.length hdrop
    have hsize : (Encode.instruction ⟨pos, op, o⟩).length = op.encodedLength + o.size :=
      Instruction.length_instruction hfit
    have hpos : 0 < op.encodedLength + o.size := Instruction.size_pos ⟨pos, op, o⟩
    simp only [List.length_drop, List.length_append, hsize] at hlen
    omega
  refine ⟨hfit, rfl, ?_, hin, hdrop⟩
  simp only [Instruction.next, Instruction.size]
  omega

/-- The bytes the writer wrote for an instruction that fits its opcode are read
back as it, at the position it is read from. -/
theorem instruction_of_drop {tbl : TokenTable} {i : Instruction} {rest : List UInt8}
    (hfit : i.Fits) (h : bytes.drop pos = Encode.instruction i ++ rest) :
    instruction tbl bytes pos = .ok { i.retable tbl with offset := pos } (pos + i.size) := by
  rw [Encode.instruction_eq hfit, List.append_assoc] at h
  have hop := opcode_of_drop h
  have hrest : bytes.drop (pos + i.opcode.encodedLength) = Encode.operand i.operand ++ rest := by
    rw [← List.drop_drop, h, List.drop_left' (Encode.opcode_length _)]
  simp only [instruction]
  rw [EStateM.bind_apply_of_ok EStateM.get_apply, EStateM.bind_apply_of_ok hop,
    EStateM.bind_apply_of_ok (operand_of_drop hfit hrest)]
  simp only [EStateM.pure_apply, Instruction.retable, Instruction.size, Nat.add_assoc]

/-- A run over a body, read back: the instructions read fit their opcodes and
tile the bytes they took, which are what the writer writes for them, and the run
stops at the end of the body or when its fuel runs out. -/
theorem decodeFrom_eq_ok {tbl : TokenTable} :
    ∀ {fuel pos stop : Nat} {l : List Instruction}, pos ≤ bytes.length →
      decodeFrom tbl bytes fuel pos = .ok l stop →
      (∀ i ∈ l, i.Fits) ∧ Instruction.Tiles pos l stop ∧ stop ≤ bytes.length ∧
        bytes.drop pos = l.flatMap Encode.instruction ++ bytes.drop stop ∧
        (bytes.length ≤ stop ∨ l.length = fuel)
  | 0, pos, stop, l, hpos, h => by
    simp only [decodeFrom, EStateM.pure_apply, EStateM.Result.ok.injEq] at h
    obtain ⟨rfl, rfl⟩ := h
    exact ⟨by simp, .nil _, hpos, by simp, Or.inr rfl⟩
  | fuel + 1, pos, stop, l, hpos, h => by
    simp only [decodeFrom, EStateM.bind_apply_eq_ok, EStateM.get_apply,
      EStateM.Result.ok.injEq] at h
    obtain ⟨_, _, ⟨rfl, rfl⟩, h⟩ := h
    split at h
    · -- The body has ended.
      rename_i hend
      simp only [EStateM.pure_apply, EStateM.Result.ok.injEq] at h
      obtain ⟨rfl, rfl⟩ := h
      exact ⟨by simp, .nil _, hpos, by simp, Or.inl hend⟩
    · simp only [EStateM.bind_apply_eq_ok, EStateM.pure_apply, EStateM.Result.ok.injEq] at h
      obtain ⟨i, s₁, hi, is, s₂, his, rfl, rfl⟩ := h
      obtain ⟨hfit, hoff, rfl, hin, hd₁⟩ := instruction_eq_ok hi
      obtain ⟨hfits, htiles, hstop, hd₂, hend⟩ := decodeFrom_eq_ok hin his
      refine ⟨List.forall_mem_cons.mpr ⟨hfit, hfits⟩, hoff ▸ .cons htiles, hstop, ?_, ?_⟩
      · rw [hd₁, hd₂, List.flatMap_cons, List.append_assoc]
      · simpa using hend

/-- A run over the bytes the writer wrote for instructions that fit their
opcodes gives them back, laid end to end from where it starts. -/
theorem decodeFrom_of_drop {tbl : TokenTable} :
    ∀ {is : List Instruction} {fuel pos : Nat}, (∀ i ∈ is, i.Fits) →
      bytes.drop pos = is.flatMap Encode.instruction → pos ≤ bytes.length → is.length ≤ fuel →
      decodeFrom tbl bytes fuel pos =
        .ok (Instruction.layout pos (is.map (Instruction.retable tbl))) bytes.length
  | [], fuel, pos, _, h, hpos, _ => by
    -- Nothing is left, so the run stops at once, at the end.
    have hend : pos = bytes.length := by
      have := congrArg List.length h
      simp only [List.length_drop, List.flatMap_nil, List.length_nil] at this
      omega
    subst hend
    cases fuel with
    | zero => rfl
    | succ fuel =>
      simp only [decodeFrom]
      rw [EStateM.bind_apply_of_ok EStateM.get_apply, if_pos (Nat.le_refl _)]
      rfl
  | i :: is, fuel, pos, hfit, h, hpos, hfuel => by
    obtain ⟨fuel, rfl⟩ : ∃ f, fuel = f + 1 := ⟨fuel - 1, by simp at hfuel; omega⟩
    have hfit₁ : i.Fits := hfit i (List.mem_cons_self ..)
    rw [List.flatMap_cons] at h
    have hsize := Instruction.length_instruction hfit₁
    -- The rest of the body starts where the instruction ends.
    have hrest : bytes.drop (pos + i.size) = is.flatMap Encode.instruction := by
      rw [← List.drop_drop, h, List.drop_left' hsize]
    have hlen := congrArg List.length h
    simp only [List.length_drop, List.length_append, hsize] at hlen
    have hpos_lt : pos < bytes.length := by
      have := Instruction.size_pos i
      omega
    simp only [decodeFrom]
    rw [EStateM.bind_apply_of_ok EStateM.get_apply, if_neg (by omega),
      EStateM.bind_apply_of_ok (instruction_of_drop hfit₁ h),
      EStateM.bind_apply_of_ok (decodeFrom_of_drop (fun j hj => hfit j (List.mem_cons_of_mem _ hj))
        hrest (by omega) (by simpa using hfuel))]
    simp [Instruction.layout, Instruction.retable, Instruction.size]

end Readers

/-! ### How reads fail -/

/-- The causes for which a read stops: the body ends too soon, or holds no
opcode where one is due. -/
def IsReadFault : DecodeError → Prop
  | .truncated .. | .unknownOpcode .. => True
  | _ => False

/-- Every failure of the read `x` is a read fault. -/
def FailsOnRead {α : Type} (x : Decode α) : Prop :=
  ∀ pos e s, x pos = .error e s → IsReadFault e

namespace FailsOnRead

variable {α β : Type}

/-- A returned value never fails. -/
theorem pure (a : α) : FailsOnRead (Pure.pure a : Decode α) := by
  intro pos e s h
  simp at h

/-- Looking at the position never fails. -/
theorem get : FailsOnRead (MonadState.get : Decode Nat) := by
  intro pos e s h
  cases h

/-- Throwing a read fault fails on a read. -/
theorem throw {e : DecodeError} (he : IsReadFault e) : FailsOnRead (MonadExcept.throw e : Decode α) := by
  intro pos e' s h
  cases h
  exact he

/-- Reads that fail only on reads compose along a `do` block. -/
theorem bind {x : Decode α} {f : α → Decode β} (hx : FailsOnRead x)
    (hf : ∀ a, FailsOnRead (f a)) : FailsOnRead (x >>= f) := by
  intro pos e s h
  rcases EStateM.bind_apply_eq_error.mp h with h | ⟨a, s₁, -, h⟩
  · exact hx _ _ _ h
  · exact hf a _ _ _ h

/-- A test between two reads that fail only on reads is one. -/
theorem ite {c : Prop} [Decidable c] {x y : Decode α} (hx : FailsOnRead x) (hy : FailsOnRead y) :
    FailsOnRead (if c then x else y) := by
  split
  · exact hx
  · exact hy

end FailsOnRead

section Faults

variable (bytes : List UInt8)

/-- Taking bytes fails only when the body ends too soon. -/
theorem take_failsOnRead (n : Nat) : FailsOnRead (take bytes n) := by
  intro pos e s h
  unfold take at h
  split at h
  · cases h
    trivial
  · cases h

/-- A byte fails only when the body has ended. -/
theorem byte_failsOnRead : FailsOnRead (byte bytes) :=
  (take_failsOnRead bytes 1).bind fun bs => by
    split
    · exact .pure _
    · exact .pure _

/-- A four-byte integer fails only when the body ends too soon. -/
theorem int32_failsOnRead : FailsOnRead (int32 bytes) :=
  (take_failsOnRead bytes 4).bind fun _ => .pure _

/-- The deltas of a switch fail only when the body ends too soon. -/
theorem int32s_failsOnRead : ∀ n, FailsOnRead (int32s bytes n)
  | 0 => .pure _
  | n + 1 => (int32_failsOnRead bytes).bind fun _ => (int32s_failsOnRead n).bind fun _ => .pure _

/-- An opcode fails only when the body ends or holds no opcode there. -/
theorem opcode_failsOnRead : FailsOnRead (opcode bytes) := by
  refine FailsOnRead.get.bind fun start => (byte_failsOnRead bytes).bind fun first => ?_
  refine .ite ?_ ((byte_failsOnRead bytes).bind fun second => ?_)
  all_goals
    split
    · exact .pure _
    · exact .throw trivial

/-- An operand of any kind fails only when the body ends too soon. -/
theorem operand_failsOnRead (tbl : TokenTable) (k : OperandKind) :
    FailsOnRead (operand tbl bytes k) := by
  cases k
  case inlineNone => exact .pure _
  case shortInlineBrTarget | shortInlineI | shortInlineVar =>
    exact (byte_failsOnRead bytes).bind fun _ => .pure _
  case inlineBrTarget | inlineI => exact (int32_failsOnRead bytes).bind fun _ => .pure _
  case inlineSwitch =>
    refine (take_failsOnRead bytes 4).bind fun _ => FailsOnRead.get.bind fun _ => .ite ?_ ?_
    · exact (FailsOnRead.throw (by trivial)).bind fun _ =>
        (int32s_failsOnRead bytes _).bind fun _ => .pure _
    · exact (int32s_failsOnRead bytes _).bind fun _ => .pure _
  all_goals exact (take_failsOnRead bytes _).bind fun _ => .pure _

/-- An instruction fails only on its opcode or its operand. -/
theorem instruction_failsOnRead (tbl : TokenTable) : FailsOnRead (instruction tbl bytes) :=
  FailsOnRead.get.bind fun _ => (opcode_failsOnRead bytes).bind fun op =>
    (operand_failsOnRead bytes tbl op.operand).bind fun _ => .pure _

/-- A run over a body, on any fuel, fails only on a read. -/
theorem decodeFrom_failsOnRead (tbl : TokenTable) : ∀ fuel, FailsOnRead (decodeFrom tbl bytes fuel)
  | 0 => .pure _
  | fuel + 1 => FailsOnRead.get.bind fun _ => .ite (.pure _)
      ((instruction_failsOnRead bytes tbl).bind fun _ =>
        (decodeFrom_failsOnRead tbl fuel).bind fun _ => .pure _)

end Faults

end Decode

/-! ### Whole bodies -/

section Bodies

variable {tbl : TokenTable}

/-- A run over a whole body stops at its end: every instruction takes at least
one byte, so the fuel of one step per byte does not run out before. -/
theorem decodeFrom_stop {b : List UInt8} {l : List Instruction} {stop : Nat}
    (h : Decode.decodeFrom tbl b b.length 0 = .ok l stop) : stop = b.length := by
  obtain ⟨-, htiles, hstop, -, hend⟩ := Decode.decodeFrom_eq_ok (Nat.zero_le _) h
  have := htiles.length_le
  omega

/-- A decoded body is tiled by its instructions, and writing them gives the body back. -/
theorem decodeBody_eq_ok {b : List UInt8} {l : List Instruction} (h : decodeBody tbl b = .ok l) :
    Instruction.Tiles 0 l b.length ∧ l.flatMap Encode.instruction = b := by
  unfold decodeBody at h
  split at h
  · rename_i is stop hrun
    have hstop := decodeFrom_stop hrun
    rw [if_pos hstop] at h
    cases h
    obtain ⟨-, htiles, -, hdrop, -⟩ := Decode.decodeFrom_eq_ok (Nat.zero_le _) hrun
    rw [hstop] at htiles hdrop
    refine ⟨htiles, ?_⟩
    simpa using hdrop.symm
  · cases h

/-- Every instruction of a decoded body fits its opcode. -/
theorem decodeBody_fits {b : List UInt8} {l : List Instruction} (h : decodeBody tbl b = .ok l) :
    ∀ i ∈ l, i.Fits := by
  unfold decodeBody at h
  split at h
  · rename_i is stop hrun
    rw [if_pos (decodeFrom_stop hrun)] at h
    cases h
    exact (Decode.decodeFrom_eq_ok (Nat.zero_le _) hrun).1
  · cases h

/-- A body is never refused for a length mismatch: a read that runs to the end
stops at it exactly, and any other failure is a read fault. -/
theorem decodeBody_ne_lengthMismatch (b : List UInt8) (consumed len : Nat) :
    decodeBody tbl b ≠ .error (.lengthMismatch consumed len) := by
  unfold decodeBody
  split
  · rename_i is stop hrun
    rw [if_pos (decodeFrom_stop hrun)]
    simp
  · -- A failed read is a read fault, never a length mismatch.
    rename_i e s hrun
    intro h
    cases h
    exact Decode.decodeFrom_failsOnRead b tbl _ _ _ _ hrun

/-- Written instructions take a byte each at least, so a run of one step per byte
reads them all. -/
theorem length_le_flatMap_instruction {is : List Instruction} (hfit : ∀ i ∈ is, i.Fits) :
    is.length ≤ (is.flatMap Encode.instruction).length := by
  induction is with
  | nil => simp
  | cons i is ih =>
    have hsize := Instruction.length_instruction (hfit i (List.mem_cons_self ..))
    have hpos := Instruction.size_pos i
    have := ih fun j hj => hfit j (List.mem_cons_of_mem _ hj)
    simp only [List.flatMap_cons, List.length_append, List.length_cons, hsize]
    omega

/-- Decoding what the writer wrote for instructions that fit their opcodes gives
them back, laid end to end from `0` and their tokens looked up in the table. -/
theorem decodeBody_encode {is : List Instruction} (hfit : ∀ i ∈ is, i.Fits) :
    decodeBody tbl (is.flatMap Encode.instruction) =
      .ok (Instruction.layout 0 (is.map (Instruction.retable tbl))) := by
  unfold decodeBody
  rw [Decode.decodeFrom_of_drop hfit (by simp) (Nat.zero_le _) (length_le_flatMap_instruction hfit)]
  simp

end Bodies

/-- **Bodies round-trip.** A decoded body is tiled by its instructions and is what
the writer writes for them; no body is refused for a length mismatch; and the
writer's bytes for instructions that fit their opcodes decode to them. -/
theorem decodeBody_roundTrip :
    (∀ (tbl : TokenTable) (b : List UInt8) (l : List Instruction), decodeBody tbl b = .ok l →
      Instruction.Tiles 0 l b.length ∧ l.flatMap Encode.instruction = b) ∧
    (∀ (tbl : TokenTable) (b : List UInt8) (consumed len : Nat),
      decodeBody tbl b ≠ .error (.lengthMismatch consumed len)) ∧
    (∀ (tbl : TokenTable) (is : List Instruction), (∀ i ∈ is, i.Fits) →
      decodeBody tbl (is.flatMap Encode.instruction) =
        .ok (Instruction.layout 0 (is.map (Instruction.retable tbl)))) :=
  ⟨fun _ _ _ h => decodeBody_eq_ok h, fun _ b c n => decodeBody_ne_lengthMismatch b c n,
    fun _ _ h => decodeBody_encode h⟩

/-- A two-way switch, a `ldc.r4` of a NaN with a payload in its low bits, and
`ret`. -/
def switchNaNBody : List Instruction :=
  [⟨0, .switch, .switch [1, -1]⟩, ⟨13, .ldc_r4, .float32 0x7FC00001⟩, ⟨18, .ret, .none⟩]

/-- `switchNaNBody` round-trips: a switch table and a NaN payload survive the writer
and the decoder. -/
theorem switchNaNBody_roundTrip :
    (∀ i ∈ switchNaNBody, i.Fits) ∧
      decodeBody TokenTable.empty (switchNaNBody.flatMap Encode.instruction) = .ok switchNaNBody ∧
      Instruction.Tiles 0 switchNaNBody (switchNaNBody.flatMap Encode.instruction).length := by
  have hfit : ∀ i ∈ switchNaNBody, i.Fits := by
    simp [switchNaNBody, Instruction.Fits, Operand.Fits, OpCode.operand, OpCode.info]
  have hdecode := decodeBody_roundTrip.2.2 TokenTable.empty switchNaNBody hfit
  -- The offsets written in the list are already the running sums of the sizes.
  have hlaid : Instruction.layout 0 (switchNaNBody.map (Instruction.retable TokenTable.empty)) =
      switchNaNBody := rfl
  rw [hlaid] at hdecode
  exact ⟨hfit, hdecode, (decodeBody_roundTrip.1 _ _ _ hdecode).1⟩

end CilBind
