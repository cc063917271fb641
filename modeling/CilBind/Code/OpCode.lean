/-!
# `CilBind.Code.OpCode`: the opcodes of CIL method bodies

Every opcode is listed once, with its mnemonic, its encoded value (`0xFExx` for
the opcodes that follow the `0xFE` prefix byte), the shape of its operand and
how many values it takes from and leaves on the evaluation stack. The counts of
`call`, `callvirt`, `calli`, `newobj` and `ret` depend on the operand or on the
enclosing method and are marked `var`. Two tables of 256 entries, one per
leading byte, map bytes back to opcodes; `0x24`, the prefix `0xFE` itself and
the gaps of the second table map to nothing.

Main statements:

* `ofByte?_code`: every opcode is found again from its own encoded value.
* `ofByte?_some`: a byte that is found maps to an opcode with that value.
-/

set_option autoImplicit false

namespace CilBind

/-- The shape of the operand that follows an opcode. -/
inductive OperandKind where
  | inlineNone
  | shortInlineBrTarget
  | inlineBrTarget
  | shortInlineI
  | inlineI
  | inlineI8
  | shortInlineR
  | inlineR
  | shortInlineVar
  | inlineVar
  | inlineString
  | inlineSig
  | inlineMethod
  | inlineField
  | inlineType
  | inlineTok
  | inlineSwitch
  deriving DecidableEq, Repr

namespace OperandKind

/-- The name of the shape, as the standard spells it. -/
def name : OperandKind → String
  | inlineNone => "InlineNone"
  | shortInlineBrTarget => "ShortInlineBrTarget"
  | inlineBrTarget => "InlineBrTarget"
  | shortInlineI => "ShortInlineI"
  | inlineI => "InlineI"
  | inlineI8 => "InlineI8"
  | shortInlineR => "ShortInlineR"
  | inlineR => "InlineR"
  | shortInlineVar => "ShortInlineVar"
  | inlineVar => "InlineVar"
  | inlineString => "InlineString"
  | inlineSig => "InlineSig"
  | inlineMethod => "InlineMethod"
  | inlineField => "InlineField"
  | inlineType => "InlineType"
  | inlineTok => "InlineTok"
  | inlineSwitch => "InlineSwitch"

/-- The operand's width in bytes; a switch table has no fixed width. -/
def size? : OperandKind → Option Nat
  | inlineNone => some 0
  | shortInlineBrTarget | shortInlineI | shortInlineVar => some 1
  | inlineVar => some 2
  | inlineBrTarget | inlineI | shortInlineR | inlineString | inlineSig | inlineMethod
  | inlineField | inlineType | inlineTok => some 4
  | inlineI8 | inlineR => some 8
  | inlineSwitch => none

/-- Whether the operand is a token of the metadata tables. -/
def isToken : OperandKind → Bool
  | inlineString | inlineSig | inlineMethod | inlineField | inlineType | inlineTok => true
  | _ => false

end OperandKind

/-- How many values an opcode takes or leaves: a fixed number, or one that the
operand or the enclosing method decides. -/
inductive StackCount where
  | fixed (n : Nat)
  | var
  deriving DecidableEq, Repr

/-- What the table says about one opcode. -/
structure OpInfo where
  name : String
  code : UInt16
  operand : OperandKind
  pop : StackCount
  push : StackCount
  deriving DecidableEq, Repr

/-- The opcodes, named after their mnemonics (`ldc.i4.s` is `ldc_i4_s`). -/
inductive OpCode where
  | nop | breakpoint | ldarg_0 | ldarg_1 | ldarg_2 | ldarg_3
  | ldloc_0 | ldloc_1 | ldloc_2 | ldloc_3 | stloc_0 | stloc_1
  | stloc_2 | stloc_3 | ldarg_s | ldarga_s | starg_s | ldloc_s
  | ldloca_s | stloc_s | ldnull | ldc_i4_m1 | ldc_i4_0 | ldc_i4_1
  | ldc_i4_2 | ldc_i4_3 | ldc_i4_4 | ldc_i4_5 | ldc_i4_6 | ldc_i4_7
  | ldc_i4_8 | ldc_i4_s | ldc_i4 | ldc_i8 | ldc_r4 | ldc_r8
  | dup | pop | jmp | call | calli | ret
  | br_s | brfalse_s | brtrue_s | beq_s | bge_s | bgt_s
  | ble_s | blt_s | bne_un_s | bge_un_s | bgt_un_s | ble_un_s
  | blt_un_s | br | brfalse | brtrue | beq | bge
  | bgt | ble | blt | bne_un | bge_un | bgt_un
  | ble_un | blt_un | switch | ldind_i1 | ldind_u1 | ldind_i2
  | ldind_u2 | ldind_i4 | ldind_u4 | ldind_i8 | ldind_i | ldind_r4
  | ldind_r8 | ldind_ref | stind_ref | stind_i1 | stind_i2 | stind_i4
  | stind_i8 | stind_r4 | stind_r8 | add | sub | mul
  | div | div_un | rem | rem_un | and | or
  | xor | shl | shr | shr_un | neg | not
  | conv_i1 | conv_i2 | conv_i4 | conv_i8 | conv_r4 | conv_r8
  | conv_u4 | conv_u8 | callvirt | cpobj | ldobj | ldstr
  | newobj | castclass | isinst | conv_r_un | unbox | throw
  | ldfld | ldflda | stfld | ldsfld | ldsflda | stsfld
  | stobj | conv_ovf_i1_un | conv_ovf_i2_un | conv_ovf_i4_un | conv_ovf_i8_un | conv_ovf_u1_un
  | conv_ovf_u2_un | conv_ovf_u4_un | conv_ovf_u8_un | conv_ovf_i_un | conv_ovf_u_un | box
  | newarr | ldlen | ldelema | ldelem_i1 | ldelem_u1 | ldelem_i2
  | ldelem_u2 | ldelem_i4 | ldelem_u4 | ldelem_i8 | ldelem_i | ldelem_r4
  | ldelem_r8 | ldelem_ref | stelem_i | stelem_i1 | stelem_i2 | stelem_i4
  | stelem_i8 | stelem_r4 | stelem_r8 | stelem_ref | ldelem | stelem
  | unbox_any | conv_ovf_i1 | conv_ovf_u1 | conv_ovf_i2 | conv_ovf_u2 | conv_ovf_i4
  | conv_ovf_u4 | conv_ovf_i8 | conv_ovf_u8 | refanyval | ckfinite | mkrefany
  | ldtoken | conv_u2 | conv_u1 | conv_i | conv_ovf_i | conv_ovf_u
  | add_ovf | add_ovf_un | mul_ovf | mul_ovf_un | sub_ovf | sub_ovf_un
  | endfinally | leave | leave_s | stind_i | conv_u | arglist
  | ceq | cgt | cgt_un | clt | clt_un | ldftn
  | ldvirtftn | ldarg | ldarga | starg | ldloc | ldloca
  | stloc | localloc | endfilter | unaligned | volatile | tail
  | initobj | constrained | cpblk | initblk | no | rethrow
  | sizeof | refanytype | readonly
  deriving DecidableEq, Repr

namespace OpCode

/-- The table row of each opcode. -/
def info : OpCode → OpInfo
  | nop => ⟨"nop", 0x00, .inlineNone, .fixed 0, .fixed 0⟩
  | breakpoint => ⟨"break", 0x01, .inlineNone, .fixed 0, .fixed 0⟩
  | ldarg_0 => ⟨"ldarg.0", 0x02, .inlineNone, .fixed 0, .fixed 1⟩
  | ldarg_1 => ⟨"ldarg.1", 0x03, .inlineNone, .fixed 0, .fixed 1⟩
  | ldarg_2 => ⟨"ldarg.2", 0x04, .inlineNone, .fixed 0, .fixed 1⟩
  | ldarg_3 => ⟨"ldarg.3", 0x05, .inlineNone, .fixed 0, .fixed 1⟩
  | ldloc_0 => ⟨"ldloc.0", 0x06, .inlineNone, .fixed 0, .fixed 1⟩
  | ldloc_1 => ⟨"ldloc.1", 0x07, .inlineNone, .fixed 0, .fixed 1⟩
  | ldloc_2 => ⟨"ldloc.2", 0x08, .inlineNone, .fixed 0, .fixed 1⟩
  | ldloc_3 => ⟨"ldloc.3", 0x09, .inlineNone, .fixed 0, .fixed 1⟩
  | stloc_0 => ⟨"stloc.0", 0x0A, .inlineNone, .fixed 1, .fixed 0⟩
  | stloc_1 => ⟨"stloc.1", 0x0B, .inlineNone, .fixed 1, .fixed 0⟩
  | stloc_2 => ⟨"stloc.2", 0x0C, .inlineNone, .fixed 1, .fixed 0⟩
  | stloc_3 => ⟨"stloc.3", 0x0D, .inlineNone, .fixed 1, .fixed 0⟩
  | ldarg_s => ⟨"ldarg.s", 0x0E, .shortInlineVar, .fixed 0, .fixed 1⟩
  | ldarga_s => ⟨"ldarga.s", 0x0F, .shortInlineVar, .fixed 0, .fixed 1⟩
  | starg_s => ⟨"starg.s", 0x10, .shortInlineVar, .fixed 1, .fixed 0⟩
  | ldloc_s => ⟨"ldloc.s", 0x11, .shortInlineVar, .fixed 0, .fixed 1⟩
  | ldloca_s => ⟨"ldloca.s", 0x12, .shortInlineVar, .fixed 0, .fixed 1⟩
  | stloc_s => ⟨"stloc.s", 0x13, .shortInlineVar, .fixed 1, .fixed 0⟩
  | ldnull => ⟨"ldnull", 0x14, .inlineNone, .fixed 0, .fixed 1⟩
  | ldc_i4_m1 => ⟨"ldc.i4.m1", 0x15, .inlineNone, .fixed 0, .fixed 1⟩
  | ldc_i4_0 => ⟨"ldc.i4.0", 0x16, .inlineNone, .fixed 0, .fixed 1⟩
  | ldc_i4_1 => ⟨"ldc.i4.1", 0x17, .inlineNone, .fixed 0, .fixed 1⟩
  | ldc_i4_2 => ⟨"ldc.i4.2", 0x18, .inlineNone, .fixed 0, .fixed 1⟩
  | ldc_i4_3 => ⟨"ldc.i4.3", 0x19, .inlineNone, .fixed 0, .fixed 1⟩
  | ldc_i4_4 => ⟨"ldc.i4.4", 0x1A, .inlineNone, .fixed 0, .fixed 1⟩
  | ldc_i4_5 => ⟨"ldc.i4.5", 0x1B, .inlineNone, .fixed 0, .fixed 1⟩
  | ldc_i4_6 => ⟨"ldc.i4.6", 0x1C, .inlineNone, .fixed 0, .fixed 1⟩
  | ldc_i4_7 => ⟨"ldc.i4.7", 0x1D, .inlineNone, .fixed 0, .fixed 1⟩
  | ldc_i4_8 => ⟨"ldc.i4.8", 0x1E, .inlineNone, .fixed 0, .fixed 1⟩
  | ldc_i4_s => ⟨"ldc.i4.s", 0x1F, .shortInlineI, .fixed 0, .fixed 1⟩
  | ldc_i4 => ⟨"ldc.i4", 0x20, .inlineI, .fixed 0, .fixed 1⟩
  | ldc_i8 => ⟨"ldc.i8", 0x21, .inlineI8, .fixed 0, .fixed 1⟩
  | ldc_r4 => ⟨"ldc.r4", 0x22, .shortInlineR, .fixed 0, .fixed 1⟩
  | ldc_r8 => ⟨"ldc.r8", 0x23, .inlineR, .fixed 0, .fixed 1⟩
  | dup => ⟨"dup", 0x25, .inlineNone, .fixed 1, .fixed 2⟩
  | pop => ⟨"pop", 0x26, .inlineNone, .fixed 1, .fixed 0⟩
  | jmp => ⟨"jmp", 0x27, .inlineMethod, .fixed 0, .fixed 0⟩
  | call => ⟨"call", 0x28, .inlineMethod, .var, .var⟩
  | calli => ⟨"calli", 0x29, .inlineSig, .var, .var⟩
  | ret => ⟨"ret", 0x2A, .inlineNone, .var, .fixed 0⟩
  | br_s => ⟨"br.s", 0x2B, .shortInlineBrTarget, .fixed 0, .fixed 0⟩
  | brfalse_s => ⟨"brfalse.s", 0x2C, .shortInlineBrTarget, .fixed 1, .fixed 0⟩
  | brtrue_s => ⟨"brtrue.s", 0x2D, .shortInlineBrTarget, .fixed 1, .fixed 0⟩
  | beq_s => ⟨"beq.s", 0x2E, .shortInlineBrTarget, .fixed 2, .fixed 0⟩
  | bge_s => ⟨"bge.s", 0x2F, .shortInlineBrTarget, .fixed 2, .fixed 0⟩
  | bgt_s => ⟨"bgt.s", 0x30, .shortInlineBrTarget, .fixed 2, .fixed 0⟩
  | ble_s => ⟨"ble.s", 0x31, .shortInlineBrTarget, .fixed 2, .fixed 0⟩
  | blt_s => ⟨"blt.s", 0x32, .shortInlineBrTarget, .fixed 2, .fixed 0⟩
  | bne_un_s => ⟨"bne.un.s", 0x33, .shortInlineBrTarget, .fixed 2, .fixed 0⟩
  | bge_un_s => ⟨"bge.un.s", 0x34, .shortInlineBrTarget, .fixed 2, .fixed 0⟩
  | bgt_un_s => ⟨"bgt.un.s", 0x35, .shortInlineBrTarget, .fixed 2, .fixed 0⟩
  | ble_un_s => ⟨"ble.un.s", 0x36, .shortInlineBrTarget, .fixed 2, .fixed 0⟩
  | blt_un_s => ⟨"blt.un.s", 0x37, .shortInlineBrTarget, .fixed 2, .fixed 0⟩
  | br => ⟨"br", 0x38, .inlineBrTarget, .fixed 0, .fixed 0⟩
  | brfalse => ⟨"brfalse", 0x39, .inlineBrTarget, .fixed 1, .fixed 0⟩
  | brtrue => ⟨"brtrue", 0x3A, .inlineBrTarget, .fixed 1, .fixed 0⟩
  | beq => ⟨"beq", 0x3B, .inlineBrTarget, .fixed 2, .fixed 0⟩
  | bge => ⟨"bge", 0x3C, .inlineBrTarget, .fixed 2, .fixed 0⟩
  | bgt => ⟨"bgt", 0x3D, .inlineBrTarget, .fixed 2, .fixed 0⟩
  | ble => ⟨"ble", 0x3E, .inlineBrTarget, .fixed 2, .fixed 0⟩
  | blt => ⟨"blt", 0x3F, .inlineBrTarget, .fixed 2, .fixed 0⟩
  | bne_un => ⟨"bne.un", 0x40, .inlineBrTarget, .fixed 2, .fixed 0⟩
  | bge_un => ⟨"bge.un", 0x41, .inlineBrTarget, .fixed 2, .fixed 0⟩
  | bgt_un => ⟨"bgt.un", 0x42, .inlineBrTarget, .fixed 2, .fixed 0⟩
  | ble_un => ⟨"ble.un", 0x43, .inlineBrTarget, .fixed 2, .fixed 0⟩
  | blt_un => ⟨"blt.un", 0x44, .inlineBrTarget, .fixed 2, .fixed 0⟩
  | switch => ⟨"switch", 0x45, .inlineSwitch, .fixed 1, .fixed 0⟩
  | ldind_i1 => ⟨"ldind.i1", 0x46, .inlineNone, .fixed 1, .fixed 1⟩
  | ldind_u1 => ⟨"ldind.u1", 0x47, .inlineNone, .fixed 1, .fixed 1⟩
  | ldind_i2 => ⟨"ldind.i2", 0x48, .inlineNone, .fixed 1, .fixed 1⟩
  | ldind_u2 => ⟨"ldind.u2", 0x49, .inlineNone, .fixed 1, .fixed 1⟩
  | ldind_i4 => ⟨"ldind.i4", 0x4A, .inlineNone, .fixed 1, .fixed 1⟩
  | ldind_u4 => ⟨"ldind.u4", 0x4B, .inlineNone, .fixed 1, .fixed 1⟩
  | ldind_i8 => ⟨"ldind.i8", 0x4C, .inlineNone, .fixed 1, .fixed 1⟩
  | ldind_i => ⟨"ldind.i", 0x4D, .inlineNone, .fixed 1, .fixed 1⟩
  | ldind_r4 => ⟨"ldind.r4", 0x4E, .inlineNone, .fixed 1, .fixed 1⟩
  | ldind_r8 => ⟨"ldind.r8", 0x4F, .inlineNone, .fixed 1, .fixed 1⟩
  | ldind_ref => ⟨"ldind.ref", 0x50, .inlineNone, .fixed 1, .fixed 1⟩
  | stind_ref => ⟨"stind.ref", 0x51, .inlineNone, .fixed 2, .fixed 0⟩
  | stind_i1 => ⟨"stind.i1", 0x52, .inlineNone, .fixed 2, .fixed 0⟩
  | stind_i2 => ⟨"stind.i2", 0x53, .inlineNone, .fixed 2, .fixed 0⟩
  | stind_i4 => ⟨"stind.i4", 0x54, .inlineNone, .fixed 2, .fixed 0⟩
  | stind_i8 => ⟨"stind.i8", 0x55, .inlineNone, .fixed 2, .fixed 0⟩
  | stind_r4 => ⟨"stind.r4", 0x56, .inlineNone, .fixed 2, .fixed 0⟩
  | stind_r8 => ⟨"stind.r8", 0x57, .inlineNone, .fixed 2, .fixed 0⟩
  | add => ⟨"add", 0x58, .inlineNone, .fixed 2, .fixed 1⟩
  | sub => ⟨"sub", 0x59, .inlineNone, .fixed 2, .fixed 1⟩
  | mul => ⟨"mul", 0x5A, .inlineNone, .fixed 2, .fixed 1⟩
  | div => ⟨"div", 0x5B, .inlineNone, .fixed 2, .fixed 1⟩
  | div_un => ⟨"div.un", 0x5C, .inlineNone, .fixed 2, .fixed 1⟩
  | rem => ⟨"rem", 0x5D, .inlineNone, .fixed 2, .fixed 1⟩
  | rem_un => ⟨"rem.un", 0x5E, .inlineNone, .fixed 2, .fixed 1⟩
  | and => ⟨"and", 0x5F, .inlineNone, .fixed 2, .fixed 1⟩
  | or => ⟨"or", 0x60, .inlineNone, .fixed 2, .fixed 1⟩
  | xor => ⟨"xor", 0x61, .inlineNone, .fixed 2, .fixed 1⟩
  | shl => ⟨"shl", 0x62, .inlineNone, .fixed 2, .fixed 1⟩
  | shr => ⟨"shr", 0x63, .inlineNone, .fixed 2, .fixed 1⟩
  | shr_un => ⟨"shr.un", 0x64, .inlineNone, .fixed 2, .fixed 1⟩
  | neg => ⟨"neg", 0x65, .inlineNone, .fixed 1, .fixed 1⟩
  | not => ⟨"not", 0x66, .inlineNone, .fixed 1, .fixed 1⟩
  | conv_i1 => ⟨"conv.i1", 0x67, .inlineNone, .fixed 1, .fixed 1⟩
  | conv_i2 => ⟨"conv.i2", 0x68, .inlineNone, .fixed 1, .fixed 1⟩
  | conv_i4 => ⟨"conv.i4", 0x69, .inlineNone, .fixed 1, .fixed 1⟩
  | conv_i8 => ⟨"conv.i8", 0x6A, .inlineNone, .fixed 1, .fixed 1⟩
  | conv_r4 => ⟨"conv.r4", 0x6B, .inlineNone, .fixed 1, .fixed 1⟩
  | conv_r8 => ⟨"conv.r8", 0x6C, .inlineNone, .fixed 1, .fixed 1⟩
  | conv_u4 => ⟨"conv.u4", 0x6D, .inlineNone, .fixed 1, .fixed 1⟩
  | conv_u8 => ⟨"conv.u8", 0x6E, .inlineNone, .fixed 1, .fixed 1⟩
  | callvirt => ⟨"callvirt", 0x6F, .inlineMethod, .var, .var⟩
  | cpobj => ⟨"cpobj", 0x70, .inlineType, .fixed 2, .fixed 0⟩
  | ldobj => ⟨"ldobj", 0x71, .inlineType, .fixed 1, .fixed 1⟩
  | ldstr => ⟨"ldstr", 0x72, .inlineString, .fixed 0, .fixed 1⟩
  | newobj => ⟨"newobj", 0x73, .inlineMethod, .var, .fixed 1⟩
  | castclass => ⟨"castclass", 0x74, .inlineType, .fixed 1, .fixed 1⟩
  | isinst => ⟨"isinst", 0x75, .inlineType, .fixed 1, .fixed 1⟩
  | conv_r_un => ⟨"conv.r.un", 0x76, .inlineNone, .fixed 1, .fixed 1⟩
  | unbox => ⟨"unbox", 0x79, .inlineType, .fixed 1, .fixed 1⟩
  | throw => ⟨"throw", 0x7A, .inlineNone, .fixed 1, .fixed 0⟩
  | ldfld => ⟨"ldfld", 0x7B, .inlineField, .fixed 1, .fixed 1⟩
  | ldflda => ⟨"ldflda", 0x7C, .inlineField, .fixed 1, .fixed 1⟩
  | stfld => ⟨"stfld", 0x7D, .inlineField, .fixed 2, .fixed 0⟩
  | ldsfld => ⟨"ldsfld", 0x7E, .inlineField, .fixed 0, .fixed 1⟩
  | ldsflda => ⟨"ldsflda", 0x7F, .inlineField, .fixed 0, .fixed 1⟩
  | stsfld => ⟨"stsfld", 0x80, .inlineField, .fixed 1, .fixed 0⟩
  | stobj => ⟨"stobj", 0x81, .inlineType, .fixed 2, .fixed 0⟩
  | conv_ovf_i1_un => ⟨"conv.ovf.i1.un", 0x82, .inlineNone, .fixed 1, .fixed 1⟩
  | conv_ovf_i2_un => ⟨"conv.ovf.i2.un", 0x83, .inlineNone, .fixed 1, .fixed 1⟩
  | conv_ovf_i4_un => ⟨"conv.ovf.i4.un", 0x84, .inlineNone, .fixed 1, .fixed 1⟩
  | conv_ovf_i8_un => ⟨"conv.ovf.i8.un", 0x85, .inlineNone, .fixed 1, .fixed 1⟩
  | conv_ovf_u1_un => ⟨"conv.ovf.u1.un", 0x86, .inlineNone, .fixed 1, .fixed 1⟩
  | conv_ovf_u2_un => ⟨"conv.ovf.u2.un", 0x87, .inlineNone, .fixed 1, .fixed 1⟩
  | conv_ovf_u4_un => ⟨"conv.ovf.u4.un", 0x88, .inlineNone, .fixed 1, .fixed 1⟩
  | conv_ovf_u8_un => ⟨"conv.ovf.u8.un", 0x89, .inlineNone, .fixed 1, .fixed 1⟩
  | conv_ovf_i_un => ⟨"conv.ovf.i.un", 0x8A, .inlineNone, .fixed 1, .fixed 1⟩
  | conv_ovf_u_un => ⟨"conv.ovf.u.un", 0x8B, .inlineNone, .fixed 1, .fixed 1⟩
  | box => ⟨"box", 0x8C, .inlineType, .fixed 1, .fixed 1⟩
  | newarr => ⟨"newarr", 0x8D, .inlineType, .fixed 1, .fixed 1⟩
  | ldlen => ⟨"ldlen", 0x8E, .inlineNone, .fixed 1, .fixed 1⟩
  | ldelema => ⟨"ldelema", 0x8F, .inlineType, .fixed 2, .fixed 1⟩
  | ldelem_i1 => ⟨"ldelem.i1", 0x90, .inlineNone, .fixed 2, .fixed 1⟩
  | ldelem_u1 => ⟨"ldelem.u1", 0x91, .inlineNone, .fixed 2, .fixed 1⟩
  | ldelem_i2 => ⟨"ldelem.i2", 0x92, .inlineNone, .fixed 2, .fixed 1⟩
  | ldelem_u2 => ⟨"ldelem.u2", 0x93, .inlineNone, .fixed 2, .fixed 1⟩
  | ldelem_i4 => ⟨"ldelem.i4", 0x94, .inlineNone, .fixed 2, .fixed 1⟩
  | ldelem_u4 => ⟨"ldelem.u4", 0x95, .inlineNone, .fixed 2, .fixed 1⟩
  | ldelem_i8 => ⟨"ldelem.i8", 0x96, .inlineNone, .fixed 2, .fixed 1⟩
  | ldelem_i => ⟨"ldelem.i", 0x97, .inlineNone, .fixed 2, .fixed 1⟩
  | ldelem_r4 => ⟨"ldelem.r4", 0x98, .inlineNone, .fixed 2, .fixed 1⟩
  | ldelem_r8 => ⟨"ldelem.r8", 0x99, .inlineNone, .fixed 2, .fixed 1⟩
  | ldelem_ref => ⟨"ldelem.ref", 0x9A, .inlineNone, .fixed 2, .fixed 1⟩
  | stelem_i => ⟨"stelem.i", 0x9B, .inlineNone, .fixed 3, .fixed 0⟩
  | stelem_i1 => ⟨"stelem.i1", 0x9C, .inlineNone, .fixed 3, .fixed 0⟩
  | stelem_i2 => ⟨"stelem.i2", 0x9D, .inlineNone, .fixed 3, .fixed 0⟩
  | stelem_i4 => ⟨"stelem.i4", 0x9E, .inlineNone, .fixed 3, .fixed 0⟩
  | stelem_i8 => ⟨"stelem.i8", 0x9F, .inlineNone, .fixed 3, .fixed 0⟩
  | stelem_r4 => ⟨"stelem.r4", 0xA0, .inlineNone, .fixed 3, .fixed 0⟩
  | stelem_r8 => ⟨"stelem.r8", 0xA1, .inlineNone, .fixed 3, .fixed 0⟩
  | stelem_ref => ⟨"stelem.ref", 0xA2, .inlineNone, .fixed 3, .fixed 0⟩
  | ldelem => ⟨"ldelem", 0xA3, .inlineType, .fixed 2, .fixed 1⟩
  | stelem => ⟨"stelem", 0xA4, .inlineType, .fixed 3, .fixed 0⟩
  | unbox_any => ⟨"unbox.any", 0xA5, .inlineType, .fixed 1, .fixed 1⟩
  | conv_ovf_i1 => ⟨"conv.ovf.i1", 0xB3, .inlineNone, .fixed 1, .fixed 1⟩
  | conv_ovf_u1 => ⟨"conv.ovf.u1", 0xB4, .inlineNone, .fixed 1, .fixed 1⟩
  | conv_ovf_i2 => ⟨"conv.ovf.i2", 0xB5, .inlineNone, .fixed 1, .fixed 1⟩
  | conv_ovf_u2 => ⟨"conv.ovf.u2", 0xB6, .inlineNone, .fixed 1, .fixed 1⟩
  | conv_ovf_i4 => ⟨"conv.ovf.i4", 0xB7, .inlineNone, .fixed 1, .fixed 1⟩
  | conv_ovf_u4 => ⟨"conv.ovf.u4", 0xB8, .inlineNone, .fixed 1, .fixed 1⟩
  | conv_ovf_i8 => ⟨"conv.ovf.i8", 0xB9, .inlineNone, .fixed 1, .fixed 1⟩
  | conv_ovf_u8 => ⟨"conv.ovf.u8", 0xBA, .inlineNone, .fixed 1, .fixed 1⟩
  | refanyval => ⟨"refanyval", 0xC2, .inlineType, .fixed 1, .fixed 1⟩
  | ckfinite => ⟨"ckfinite", 0xC3, .inlineNone, .fixed 1, .fixed 1⟩
  | mkrefany => ⟨"mkrefany", 0xC6, .inlineType, .fixed 1, .fixed 1⟩
  | ldtoken => ⟨"ldtoken", 0xD0, .inlineTok, .fixed 0, .fixed 1⟩
  | conv_u2 => ⟨"conv.u2", 0xD1, .inlineNone, .fixed 1, .fixed 1⟩
  | conv_u1 => ⟨"conv.u1", 0xD2, .inlineNone, .fixed 1, .fixed 1⟩
  | conv_i => ⟨"conv.i", 0xD3, .inlineNone, .fixed 1, .fixed 1⟩
  | conv_ovf_i => ⟨"conv.ovf.i", 0xD4, .inlineNone, .fixed 1, .fixed 1⟩
  | conv_ovf_u => ⟨"conv.ovf.u", 0xD5, .inlineNone, .fixed 1, .fixed 1⟩
  | add_ovf => ⟨"add.ovf", 0xD6, .inlineNone, .fixed 2, .fixed 1⟩
  | add_ovf_un => ⟨"add.ovf.un", 0xD7, .inlineNone, .fixed 2, .fixed 1⟩
  | mul_ovf => ⟨"mul.ovf", 0xD8, .inlineNone, .fixed 2, .fixed 1⟩
  | mul_ovf_un => ⟨"mul.ovf.un", 0xD9, .inlineNone, .fixed 2, .fixed 1⟩
  | sub_ovf => ⟨"sub.ovf", 0xDA, .inlineNone, .fixed 2, .fixed 1⟩
  | sub_ovf_un => ⟨"sub.ovf.un", 0xDB, .inlineNone, .fixed 2, .fixed 1⟩
  | endfinally => ⟨"endfinally", 0xDC, .inlineNone, .fixed 0, .fixed 0⟩
  | leave => ⟨"leave", 0xDD, .inlineBrTarget, .fixed 0, .fixed 0⟩
  | leave_s => ⟨"leave.s", 0xDE, .shortInlineBrTarget, .fixed 0, .fixed 0⟩
  | stind_i => ⟨"stind.i", 0xDF, .inlineNone, .fixed 2, .fixed 0⟩
  | conv_u => ⟨"conv.u", 0xE0, .inlineNone, .fixed 1, .fixed 1⟩
  | arglist => ⟨"arglist", 0xFE00, .inlineNone, .fixed 0, .fixed 1⟩
  | ceq => ⟨"ceq", 0xFE01, .inlineNone, .fixed 2, .fixed 1⟩
  | cgt => ⟨"cgt", 0xFE02, .inlineNone, .fixed 2, .fixed 1⟩
  | cgt_un => ⟨"cgt.un", 0xFE03, .inlineNone, .fixed 2, .fixed 1⟩
  | clt => ⟨"clt", 0xFE04, .inlineNone, .fixed 2, .fixed 1⟩
  | clt_un => ⟨"clt.un", 0xFE05, .inlineNone, .fixed 2, .fixed 1⟩
  | ldftn => ⟨"ldftn", 0xFE06, .inlineMethod, .fixed 0, .fixed 1⟩
  | ldvirtftn => ⟨"ldvirtftn", 0xFE07, .inlineMethod, .fixed 1, .fixed 1⟩
  | ldarg => ⟨"ldarg", 0xFE09, .inlineVar, .fixed 0, .fixed 1⟩
  | ldarga => ⟨"ldarga", 0xFE0A, .inlineVar, .fixed 0, .fixed 1⟩
  | starg => ⟨"starg", 0xFE0B, .inlineVar, .fixed 1, .fixed 0⟩
  | ldloc => ⟨"ldloc", 0xFE0C, .inlineVar, .fixed 0, .fixed 1⟩
  | ldloca => ⟨"ldloca", 0xFE0D, .inlineVar, .fixed 0, .fixed 1⟩
  | stloc => ⟨"stloc", 0xFE0E, .inlineVar, .fixed 1, .fixed 0⟩
  | localloc => ⟨"localloc", 0xFE0F, .inlineNone, .fixed 1, .fixed 1⟩
  | endfilter => ⟨"endfilter", 0xFE11, .inlineNone, .fixed 1, .fixed 0⟩
  | unaligned => ⟨"unaligned.", 0xFE12, .shortInlineI, .fixed 0, .fixed 0⟩
  | volatile => ⟨"volatile.", 0xFE13, .inlineNone, .fixed 0, .fixed 0⟩
  | tail => ⟨"tail.", 0xFE14, .inlineNone, .fixed 0, .fixed 0⟩
  | initobj => ⟨"initobj", 0xFE15, .inlineType, .fixed 1, .fixed 0⟩
  | constrained => ⟨"constrained.", 0xFE16, .inlineType, .fixed 0, .fixed 0⟩
  | cpblk => ⟨"cpblk", 0xFE17, .inlineNone, .fixed 3, .fixed 0⟩
  | initblk => ⟨"initblk", 0xFE18, .inlineNone, .fixed 3, .fixed 0⟩
  | no => ⟨"no.", 0xFE19, .shortInlineI, .fixed 0, .fixed 0⟩
  | rethrow => ⟨"rethrow", 0xFE1A, .inlineNone, .fixed 0, .fixed 0⟩
  | sizeof => ⟨"sizeof", 0xFE1C, .inlineType, .fixed 0, .fixed 1⟩
  | refanytype => ⟨"refanytype", 0xFE1D, .inlineNone, .fixed 1, .fixed 1⟩
  | readonly => ⟨"readonly.", 0xFE1E, .inlineNone, .fixed 0, .fixed 0⟩

/-- Every opcode, in the order of their encoded values. -/
def all : List OpCode :=
  [nop, breakpoint, ldarg_0, ldarg_1, ldarg_2, ldarg_3,
    ldloc_0, ldloc_1, ldloc_2, ldloc_3, stloc_0, stloc_1,
    stloc_2, stloc_3, ldarg_s, ldarga_s, starg_s, ldloc_s,
    ldloca_s, stloc_s, ldnull, ldc_i4_m1, ldc_i4_0, ldc_i4_1,
    ldc_i4_2, ldc_i4_3, ldc_i4_4, ldc_i4_5, ldc_i4_6, ldc_i4_7,
    ldc_i4_8, ldc_i4_s, ldc_i4, ldc_i8, ldc_r4, ldc_r8,
    dup, pop, jmp, call, calli, ret,
    br_s, brfalse_s, brtrue_s, beq_s, bge_s, bgt_s,
    ble_s, blt_s, bne_un_s, bge_un_s, bgt_un_s, ble_un_s,
    blt_un_s, br, brfalse, brtrue, beq, bge,
    bgt, ble, blt, bne_un, bge_un, bgt_un,
    ble_un, blt_un, switch, ldind_i1, ldind_u1, ldind_i2,
    ldind_u2, ldind_i4, ldind_u4, ldind_i8, ldind_i, ldind_r4,
    ldind_r8, ldind_ref, stind_ref, stind_i1, stind_i2, stind_i4,
    stind_i8, stind_r4, stind_r8, add, sub, mul,
    div, div_un, rem, rem_un, and, or,
    xor, shl, shr, shr_un, neg, not,
    conv_i1, conv_i2, conv_i4, conv_i8, conv_r4, conv_r8,
    conv_u4, conv_u8, callvirt, cpobj, ldobj, ldstr,
    newobj, castclass, isinst, conv_r_un, unbox, throw,
    ldfld, ldflda, stfld, ldsfld, ldsflda, stsfld,
    stobj, conv_ovf_i1_un, conv_ovf_i2_un, conv_ovf_i4_un, conv_ovf_i8_un, conv_ovf_u1_un,
    conv_ovf_u2_un, conv_ovf_u4_un, conv_ovf_u8_un, conv_ovf_i_un, conv_ovf_u_un, box,
    newarr, ldlen, ldelema, ldelem_i1, ldelem_u1, ldelem_i2,
    ldelem_u2, ldelem_i4, ldelem_u4, ldelem_i8, ldelem_i, ldelem_r4,
    ldelem_r8, ldelem_ref, stelem_i, stelem_i1, stelem_i2, stelem_i4,
    stelem_i8, stelem_r4, stelem_r8, stelem_ref, ldelem, stelem,
    unbox_any, conv_ovf_i1, conv_ovf_u1, conv_ovf_i2, conv_ovf_u2, conv_ovf_i4,
    conv_ovf_u4, conv_ovf_i8, conv_ovf_u8, refanyval, ckfinite, mkrefany,
    ldtoken, conv_u2, conv_u1, conv_i, conv_ovf_i, conv_ovf_u,
    add_ovf, add_ovf_un, mul_ovf, mul_ovf_un, sub_ovf, sub_ovf_un,
    endfinally, leave, leave_s, stind_i, conv_u, arglist,
    ceq, cgt, cgt_un, clt, clt_un, ldftn,
    ldvirtftn, ldarg, ldarga, starg, ldloc, ldloca,
    stloc, localloc, endfilter, unaligned, volatile, tail,
    initobj, constrained, cpblk, initblk, no, rethrow,
    sizeof, refanytype, readonly]

/-- The mnemonic. -/
def name (op : OpCode) : String := op.info.name

/-- The encoded value: one byte, or `0xFE` and one byte. -/
def code (op : OpCode) : UInt16 := op.info.code

/-- The operand shape. -/
def operand (op : OpCode) : OperandKind := op.info.operand

/-- Whether the opcode follows the `0xFE` prefix byte. -/
def isTwoByte (op : OpCode) : Bool := op.code >>> 8 = 0xFE

/-- The width of the opcode itself in bytes. -/
def encodedLength (op : OpCode) : Nat := if op.isTwoByte then 2 else 1

/-- Branches carry a relative target as their operand. -/
def isBranch (op : OpCode) : Bool :=
  op.operand = .shortInlineBrTarget || op.operand = .inlineBrTarget

/-- A switch or an indirect call cannot be folded into one expression tree. -/
def isTreeDisallowed (op : OpCode) : Bool :=
  op = .switch || op = .calli

/-- The opcode whose value is `b` after the prefix byte when `extended`, and `b`
alone otherwise. -/
def ofByte? (extended : Bool) (b : UInt8) : Option OpCode :=
  let value : UInt16 := if extended then 0xFE00 ||| b.toUInt16 else b.toUInt16
  all.find? (fun op => op.code = value)

/-- The opcode with the given mnemonic. -/
def ofName? (s : String) : Option OpCode := all.find? (fun op => op.name = s)

theorem ofByte?_some {extended : Bool} {b : UInt8} {op : OpCode}
    (h : ofByte? extended b = some op) :
    op.code = (if extended then 0xFE00 ||| b.toUInt16 else b.toUInt16) := by
  unfold ofByte? at h
  simpa using List.find?_some h

theorem ofByte?_code (op : OpCode) : ofByte? op.isTwoByte op.code.toUInt8 = some op := by
  cases op <;> decide

end OpCode

end CilBind
