import CilBind.Code.Instruction

/-!
# `CilBind.Code.Decoder`: method bodies to instructions

A body is read from its first byte, one instruction after another. An opcode is
one byte, or the prefix `0xFE` and one byte; its operand follows in
little-endian order, as wide as the opcode's operand shape says. A switch operand
is a count and that many four-byte deltas; a count larger than the bytes left can
hold is refused before any delta is read.

A read that runs past the end fails at its own start, saying how many bytes were
missing, and moves nothing; an opcode byte that names no opcode fails after it
was read. Each read is a step of `Decode`, so a failure hands back the position
it left.
-/

set_option autoImplicit false

namespace CilBind

/-- A read from a method body: a value or an error, and the position after it. -/
abbrev Decode := EStateM DecodeError Nat

namespace Decode

/-- The number that `bs` spells in little-endian order. -/
def leNat (bs : List UInt8) : Nat := bs.foldr (fun b acc => b.toNat + 256 * acc) 0

/-- The next `n` bytes. -/
def take (bytes : List UInt8) (n : Nat) : Decode (List UInt8) := fun pos =>
  if pos + n > bytes.length then .error (.truncated pos (pos + n - bytes.length)) pos
  else .ok ((bytes.drop pos).take n) (pos + n)

/-- The next byte. -/
def byte (bytes : List UInt8) : Decode UInt8 := do
  match ← take bytes 1 with
  | [b] => pure b
  | _ => pure 0

/-- The next four bytes as a signed number. -/
def int32 (bytes : List UInt8) : Decode Int32 := do
  pure (leNat (← take bytes 4)).toUInt32.toInt32

/-- Reads `n` four-byte signed numbers. -/
def int32s (bytes : List UInt8) : Nat → Decode (List Int32)
  | 0 => pure []
  | n + 1 => do
    let d ← int32 bytes
    return d :: (← int32s bytes n)

/-- Reads an opcode; a byte that names none fails after it was read, at the
offset where the opcode starts. -/
def opcode (bytes : List UInt8) : Decode OpCode := do
  let start ← get
  let first ← byte bytes
  if first ≠ 0xFE then
    match OpCode.ofByte? false first with
    | some op => pure op
    | none => throw (.unknownOpcode start first false)
  else
    let second ← byte bytes
    match OpCode.ofByte? true second with
    | some op => pure op
    | none => throw (.unknownOpcode start second true)

/-- Reads an operand of shape `kind`, looking tokens up in `tbl`. -/
def operand (tbl : TokenTable) (bytes : List UInt8) : OperandKind → Decode Operand
  | .inlineNone => pure .none
  | .shortInlineBrTarget => do return .shortBranch (← byte bytes).toInt8
  | .inlineBrTarget => do return .branch (← int32 bytes)
  | .shortInlineI => do return .int8 (← byte bytes).toInt8
  | .inlineI => do return .int32 (← int32 bytes)
  | .inlineI8 => do return .int64 (leNat (← take bytes 8)).toUInt64.toInt64
  | .shortInlineR => do return .float32 (leNat (← take bytes 4)).toUInt32
  | .inlineR => do return .float64 (leNat (← take bytes 8)).toUInt64
  | .shortInlineVar => do return .shortVar (← byte bytes)
  | .inlineVar => do return .var (leNat (← take bytes 2)).toUInt16
  | .inlineString | .inlineSig | .inlineMethod | .inlineField | .inlineType | .inlineTok => do
    return .token (TokenRef.ofTable tbl (leNat (← take bytes 4)).toUInt32)
  | .inlineSwitch => do
    let count := leNat (← take bytes 4)
    let pos ← get
    let available := (bytes.length - pos) / 4
    if count > available then throw (.truncated pos ((count - available) * 4))
    return .switch (← int32s bytes count)

/-- Reads one instruction. -/
def instruction (tbl : TokenTable) (bytes : List UInt8) : Decode Instruction := do
  let offset ← get
  let op ← opcode bytes
  let arg ← operand tbl bytes op.operand
  return ⟨offset, op, arg⟩

/-- Reads instructions until the body ends or a read fails; `fuel` bounds their
number. -/
def decodeFrom (tbl : TokenTable) (bytes : List UInt8) : Nat → Decode (List Instruction)
  | 0 => pure []
  | fuel + 1 => do
    if (← get) ≥ bytes.length then return []
    let i ← instruction tbl bytes
    return i :: (← decodeFrom tbl bytes fuel)

end Decode

/-- Every instruction of a body, which must be read to its last byte. Each
instruction takes at least one byte, so one step per byte is enough. -/
def decodeBody (tbl : TokenTable) (bytes : List UInt8) : Except DecodeError (List Instruction) :=
  match Decode.decodeFrom tbl bytes bytes.length 0 with
  | .ok is pos => if pos = bytes.length then .ok is else .error (.lengthMismatch pos bytes.length)
  | .error e _ => .error e

/-- A forward pass over a body: the instructions read, then the error that stopped
it if one did, and the position where it stopped. -/
structure Pass where
  instructions : List Instruction
  failure : Option DecodeError
  consumed : Nat

/-- Reads a body one instruction at a time until it ends or a read fails. -/
def passFrom (tbl : TokenTable) (bytes : List UInt8) : Nat → Nat → Pass
  | 0, pos => ⟨[], none, pos⟩
  | fuel + 1, pos =>
    if pos ≥ bytes.length then ⟨[], none, pos⟩
    else
      match Decode.instruction tbl bytes pos with
      | .ok i next =>
        let rest := passFrom tbl bytes fuel next
        { rest with instructions := i :: rest.instructions }
      | .error e stop => ⟨[], some e, stop⟩

/-- A forward pass over a whole body. -/
def pass (tbl : TokenTable) (bytes : List UInt8) : Pass := passFrom tbl bytes bytes.length 0

end CilBind
