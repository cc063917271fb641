import CilBind.Code.OpCode
import CilBind.Code.Token
import CilBind.Code.Error
import CilBind.Signature.Reader
import CilBind.Float.Text
import CilBind.Text.Quoted

/-!
# `CilBind.Code.Instruction`: decoded instructions

An instruction is an offset, an opcode and an operand of the opcode's shape.
Branch and switch operands hold deltas from the next instruction; their targets
are taken modulo `2^32`. A token operand carries the token and what the token
table said about it when the body was decoded; it is *resolved* once some use of
it has looked it up successfully, and only then is it written as what it names.

How many values an instruction pops and pushes is the opcode's fixed count, or
for `ret` whether the method returns a value, for `newobj` the constructor's
parameters, for `call` and `callvirt` the parameters and `this`, and for `calli`
the call-site signature's count plus the function pointer.
-/

set_option autoImplicit false

namespace CilBind

/-- A token operand and what its table resolves it to. -/
structure TokenRef where
  token : UInt32
  /-- What the token table gave for the token: the entry, or the reason it has none. -/
  lookup : Except String Resolved
  /-- Whether a use has resolved the token. -/
  resolved : Bool

namespace TokenRef

/-- A token looked up in `tbl`, not yet resolved. -/
def ofTable (tbl : TokenTable) (token : UInt32) : TokenRef :=
  ⟨token, tbl.resolve token, false⟩

/-- What the token names, or why the table has nothing for it. -/
def resolve (t : TokenRef) : Except DecodeError Resolved :=
  match t.lookup with
  | .ok r => .ok r
  | .error reason => .error (.token t.token reason)

/-- The token after a use has tried to resolve it: resolved if the table has it. -/
def touch (t : TokenRef) : TokenRef :=
  match t.lookup with
  | .ok _ => { t with resolved := true }
  | .error _ => t

/-- The mismatch error for a use that needs `expected`. -/
def mismatch (t : TokenRef) (expected : String) (r : Resolved) : DecodeError :=
  .tokenKind t.token expected r.kindName

/-- The method the token names. -/
def method (t : TokenRef) : Except DecodeError MethodRef := do
  match ← t.resolve with
  | .method m | .member (.method m) => pure m
  | r => throw (t.mismatch "method" r)

/-- The field the token names. -/
def field (t : TokenRef) : Except DecodeError FieldRef := do
  match ← t.resolve with
  | .field f | .member (.field f) => pure f
  | r => throw (t.mismatch "field" r)

/-- The type the token names. -/
def typeRef (t : TokenRef) : Except DecodeError TypeRef := do
  match ← t.resolve with
  | .type ty | .member (.type ty) => pure ty
  | r => throw (t.mismatch "type" r)

/-- The string the token names. -/
def string (t : TokenRef) : Except DecodeError String := do
  match ← t.resolve with
  | .string s => pure s
  | r => throw (t.mismatch "string" r)

/-- The signature blob the token names. -/
def signature (t : TokenRef) : Except DecodeError (List UInt8) := do
  match ← t.resolve with
  | .signature b => pure b
  | r => throw (t.mismatch "signature" r)

/-- The token as written: what it names once resolved, else its number. -/
def text (t : TokenRef) : String :=
  let raw := Hex.padded 10 t.token.toNat
  if t.resolved then
    match t.lookup with
    | .ok (.method m) => m.text
    | .ok (.field f) => f.text
    | .ok (.type ty) => ty.name
    | .ok (.string s) => Quoted.quote s
    | _ => raw
  else raw

end TokenRef

/-- A decoded operand. -/
inductive Operand where
  | none
  | int8 (v : Int8)
  | int32 (v : Int32)
  | int64 (v : Int64)
  | float32 (bits : UInt32)
  | float64 (bits : UInt64)
  | shortBranch (delta : Int8)
  | branch (delta : Int32)
  | shortVar (v : UInt8)
  | var (v : UInt16)
  | token (t : TokenRef)
  | switch (deltas : List Int32)

/-- The operand's width in bytes. -/
def Operand.size : Operand → Nat
  | .none => 0
  | .int8 _ | .shortBranch _ | .shortVar _ => 1
  | .var _ => 2
  | .int32 _ | .float32 _ | .branch _ | .token _ => 4
  | .int64 _ | .float64 _ => 8
  | .switch ds => 4 + 4 * ds.length

/-- One decoded instruction. -/
structure Instruction where
  offset : Nat
  opcode : OpCode
  operand : Operand

namespace Instruction

-- Powers are core's natural-number powers (literal exponents are written at type
-- `Nat`), also where another `Pow` instance is in scope.
attribute [local instance (high)] instPowNat

/-- The encoded width, opcode and operand together. -/
def size (i : Instruction) : Nat := i.opcode.encodedLength + i.operand.size

/-- The offset of the instruction after this one. -/
def next (i : Instruction) : Nat := i.offset + i.size

/-- `next + delta`, modulo `2^32`. -/
def target (i : Instruction) (delta : Int) : Nat :=
  ((i.next + delta) % (2 ^ (32 : Nat) : Nat)).toNat

/-- The absolute target of a branch. -/
def branchTarget? (i : Instruction) : Option Nat :=
  match i.operand with
  | .shortBranch d => some (i.target d.toInt)
  | .branch d => some (i.target d.toInt)
  | _ => none

/-- The absolute targets of a switch. -/
def switchTargets? (i : Instruction) : Option (List Nat) :=
  match i.operand with
  | .switch ds => some (ds.map (fun d => i.target d.toInt))
  | _ => none

/-- The token operand. -/
def token? (i : Instruction) : Option TokenRef :=
  match i.operand with
  | .token t => some t
  | _ => none

/-- The variable number of a `.s` or long-form operand. -/
def varOperand? (i : Instruction) : Option Nat :=
  match i.operand with
  | .shortVar v => some v.toNat
  | .var v => some v.toNat
  | _ => none

/-- The local slot a load, store or address-of touches. -/
def localIndex? (i : Instruction) : Option Nat :=
  match i.opcode with
  | .ldloc_0 | .stloc_0 => some 0
  | .ldloc_1 | .stloc_1 => some 1
  | .ldloc_2 | .stloc_2 => some 2
  | .ldloc_3 | .stloc_3 => some 3
  | .ldloc_s | .ldloca_s | .stloc_s | .ldloc | .ldloca | .stloc => i.varOperand?
  | _ => none

/-- The argument slot a load, store or address-of touches. -/
def argIndex? (i : Instruction) : Option Nat :=
  match i.opcode with
  | .ldarg_0 => some 0
  | .ldarg_1 => some 1
  | .ldarg_2 => some 2
  | .ldarg_3 => some 3
  | .ldarg_s | .ldarga_s | .starg_s | .ldarg | .ldarga | .starg => i.varOperand?
  | _ => none

/-- The value an integer constant load pushes. -/
def intLiteral? (i : Instruction) : Option Int :=
  match i.opcode with
  | .ldc_i4_m1 => some (-1)
  | .ldc_i4_0 => some 0
  | .ldc_i4_1 => some 1
  | .ldc_i4_2 => some 2
  | .ldc_i4_3 => some 3
  | .ldc_i4_4 => some 4
  | .ldc_i4_5 => some 5
  | .ldc_i4_6 => some 6
  | .ldc_i4_7 => some 7
  | .ldc_i4_8 => some 8
  | .ldc_i4_s | .ldc_i4 | .ldc_i8 =>
    match i.operand with
    | .int8 v => some v.toInt
    | .int32 v => some v.toInt
    | .int64 v => some v.toInt
    | _ => none
  | _ => none

/-- The value a floating-point constant load pushes, widened to 64 bits. -/
def floatLiteral? (i : Instruction) : Option Float :=
  match i.opcode, i.operand with
  | .ldc_r4, .float32 b => some (Float32.ofBits b).toFloat
  | .ldc_r8, .float64 b => some (Float.ofBits b)
  | _, _ => none

/-- The error of a call that has no token operand. -/
def noToken : DecodeError := .tokenKind 0 "token operand" "inline operand"

/-- The token operand, or the error for its absence. -/
def expectToken (i : Instruction) : Except DecodeError TokenRef :=
  match i.token? with
  | some t => .ok t
  | none => .error noToken

/-- The method signature of a `calli` call site. -/
def callSite (t : TokenRef) : Except DecodeError MethodSig := do
  let blob ← t.signature
  match SigReader.readMethod (SigReader.ofBytes blob) with
  | .ok m _ => pure m
  | .error e _ => throw (.signature e)

/-- The values the instruction pops; `returnsValue` says whether the method it
belongs to returns one, which only `ret` needs. -/
def stackPops (i : Instruction) (returnsValue : Bool) : Except DecodeError Nat :=
  match i.opcode.info.pop with
  | .fixed n => .ok n
  | .var =>
    match i.opcode with
    | .ret => .ok (if returnsValue then 1 else 0)
    | .newobj => do pure (← (← i.expectToken).method).params.length
    | .call | .callvirt => do pure (← (← i.expectToken).method).callPops
    | .calli => do pure ((← callSite (← i.expectToken)).stackPops + 1)
    | _ => .ok 0

/-- The values the instruction pushes. -/
def stackPushes (i : Instruction) : Except DecodeError Nat :=
  match i.opcode.info.push with
  | .fixed n => .ok n
  | .var =>
    match i.opcode with
    | .call | .callvirt => do
      pure (if (← (← i.expectToken).method).returnsValue then 1 else 0)
    | .calli => do pure (if (← callSite (← i.expectToken)).returnsValue then 1 else 0)
    | _ => .ok 0

/-- Whether working out the stack counts looks the token up. -/
def countsTouchToken (i : Instruction) : Bool :=
  match i.opcode with
  | .newobj | .call | .callvirt | .calli => true
  | _ => false

/-- The instruction after its stack counts were worked out: a token they looked
up successfully is resolved. -/
def touchCounts (i : Instruction) : Instruction :=
  if i.countsTouchToken then
    match i.operand with
    | .token t => { i with operand := .token t.touch }
    | _ => i
  else i

/-- The instruction with its token, if any, looked up. -/
def touch (i : Instruction) : Instruction :=
  match i.operand with
  | .token t => { i with operand := .token t.touch }
  | _ => i

/-- `IL_` and at least four hex digits of an offset. -/
def label (n : Nat) : String := "IL_" ++ Hex.fixed 4 n

/-- The operand as written after the mnemonic. -/
def operandText (i : Instruction) : String :=
  match i.operand with
  | .none => ""
  | .int8 v => s!" {v.toInt}"
  | .int32 v => s!" {v.toInt}"
  | .int64 v => s!" {v.toInt}"
  | .float32 b => " " ++ Floating.text .binary32 b.toNat
  | .float64 b => " " ++ Floating.text .binary64 b.toNat
  | .shortBranch d => " " ++ label (i.target d.toInt)
  | .branch d => " " ++ label (i.target d.toInt)
  | .shortVar v => s!" {v.toNat}"
  | .var v => s!" {v.toNat}"
  | .token t => " " ++ t.text
  | .switch ds => " (" ++ ", ".intercalate (ds.map (fun d => label (i.target d.toInt))) ++ ")"

/-- `IL_0000: mnemonic operand`. -/
def text (i : Instruction) : String := label i.offset ++ ": " ++ i.opcode.name ++ i.operandText

end Instruction

end CilBind
