import CilBind.Code.Instruction
import CilBind.Signature.Compressed
import CilBind.Signature.ElementType

/-!
# `CilBind.Code.Writer`: instructions to bytes

The inverse of decoding: an opcode is written as its byte, after the prefix
`0xFE` for the two-byte opcodes, and its operand follows in little-endian order.
The shortest-form helpers choose the encoding a compiler would: `ldc.i4.m1` to
`ldc.i4.8` for the constants they name, `ldc.i4.s` for the rest of the signed
byte range and `ldc.i4` otherwise; the `.0` to `.3` forms of argument and local
access, then the one-byte `.s` forms up to 255, then the `0xFE` long forms.
-/

set_option autoImplicit false

namespace CilBind

namespace Encode

-- Powers are core's natural-number powers (literal exponents are written at type
-- `Nat`), also where another `Pow` instance is in scope.
attribute [local instance (high)] instPowNat

/-- The `n` low bytes of `v`, least significant first. -/
def le (n : Nat) (v : Nat) : List UInt8 :=
  (List.range n).map (fun k => (v / 256 ^ k % 256).toUInt8)

/-- The bytes of an opcode. -/
def opcode (op : OpCode) : List UInt8 :=
  if op.isTwoByte then [0xFE, op.code.toUInt8] else [op.code.toUInt8]

/-- An opcode with a one-byte operand. -/
def opI1 (op : OpCode) (v : Int8) : List UInt8 := opcode op ++ [v.toUInt8]

/-- An opcode with a four-byte operand. -/
def opI4 (op : OpCode) (v : Int32) : List UInt8 := opcode op ++ le 4 v.toUInt32.toNat

/-- An opcode with an eight-byte operand. -/
def opI8 (op : OpCode) (v : Int64) : List UInt8 := opcode op ++ le 8 v.toUInt64.toNat

/-- An opcode with the bits of a 32-bit float. -/
def opR4 (op : OpCode) (bits : UInt32) : List UInt8 := opcode op ++ le 4 bits.toNat

/-- An opcode with the bits of a 64-bit float. -/
def opR8 (op : OpCode) (bits : UInt64) : List UInt8 := opcode op ++ le 8 bits.toNat

/-- An opcode with a two-byte variable number. -/
def opVar (op : OpCode) (v : UInt16) : List UInt8 := opcode op ++ le 2 v.toNat

/-- An opcode with a token. -/
def opToken (op : OpCode) (token : UInt32) : List UInt8 := opcode op ++ le 4 token.toNat

/-- A switch with its table of deltas. -/
def switch (deltas : List Int32) : List UInt8 :=
  opcode .switch ++ le 4 deltas.length ++ deltas.flatMap (fun d => le 4 d.toUInt32.toNat)

/-- The shortest load of an `int32` constant. -/
def ldcI4 (v : Int32) : List UInt8 :=
  match v.toInt with
  | -1 => opcode .ldc_i4_m1
  | 0 => opcode .ldc_i4_0
  | 1 => opcode .ldc_i4_1
  | 2 => opcode .ldc_i4_2
  | 3 => opcode .ldc_i4_3
  | 4 => opcode .ldc_i4_4
  | 5 => opcode .ldc_i4_5
  | 6 => opcode .ldc_i4_6
  | 7 => opcode .ldc_i4_7
  | 8 => opcode .ldc_i4_8
  | n => if -128 ≤ n ∧ n ≤ 127 then opI1 .ldc_i4_s v.toInt8 else opI4 .ldc_i4 v

/-- The shortest access of slot `index` with the given four short forms, the
one-byte form and the long form. -/
def slot (short : List OpCode) (byteForm longForm : OpCode) (index : UInt16) : List UInt8 :=
  match short[index.toNat]? with
  | some op => opcode op
  | none =>
    if index ≤ 255 then opI1 byteForm index.toUInt8.toInt8 else opVar longForm index

/-- The shortest load of an argument. -/
def ldarg (index : UInt16) : List UInt8 :=
  slot [.ldarg_0, .ldarg_1, .ldarg_2, .ldarg_3] .ldarg_s .ldarg index

/-- The shortest load of a local. -/
def ldloc (index : UInt16) : List UInt8 :=
  slot [.ldloc_0, .ldloc_1, .ldloc_2, .ldloc_3] .ldloc_s .ldloc index

/-- The shortest store to a local. -/
def stloc (index : UInt16) : List UInt8 :=
  slot [.stloc_0, .stloc_1, .stloc_2, .stloc_3] .stloc_s .stloc index

/-- The shortest load of a local's address. -/
def ldloca (index : UInt16) : List UInt8 := slot [] .ldloca_s .ldloca index

/-- An instruction with the operand shape it was decoded with. -/
def instruction (i : Instruction) : List UInt8 :=
  match i.operand with
  | .none => opcode i.opcode
  | .int8 v | .shortBranch v => opI1 i.opcode v
  | .shortVar v => opI1 i.opcode v.toInt8
  | .int32 v | .branch v => opI4 i.opcode v
  | .int64 v => opI8 i.opcode v
  | .float32 b => opR4 i.opcode b
  | .float64 b => opR8 i.opcode b
  | .var v => opVar i.opcode v
  | .token t => opToken i.opcode t.token
  | .switch ds => switch ds

/-- A method signature over element type tags: the header (`HAS_THIS` or
nothing), the parameter count, the return tag and the parameter tags, each as a
compressed integer. -/
def primitiveMethodSig (hasThis : Bool) (ret : ElementType) (params : List ElementType) :
    Except SigError (List UInt8) :=
  Compressed.encode
    ((if hasThis then 0x20 else 0) :: params.length.toUInt32 :: ret.code :: params.map (·.code))

end Encode

end CilBind
