import CilBind.Tree.Packet

/-!
# `CilBind.Default.Composite`: decimal constants built from five literals

A compiler writes a decimal constant as a call of the five-argument `Decimal`
constructor on integer literals: the low, middle and high words, a sign and a
scale. Such a packet stands for the decimal with those parts, the words taken
modulo `2^32`; a sign other than 0 or 1, or a scale above 28, makes it
malformed. Any other packet is no composite.
-/

set_option autoImplicit false

namespace CilBind

/-- Why a packet is a malformed default. -/
inductive ClassifyError where
  /-- A decimal composite whose sign or scale literal is out of range. -/
  | malformedComposite (field : String) (value : Int)
  /-- Resolving the constructor failed. -/
  | decode (e : DecodeError)

namespace ClassifyError

/-- The name of the cause, as reports spell it. -/
def tag : ClassifyError → String
  | malformedComposite .. => "MalformedComposite"
  | decode _ => "Decode"

/-- The whole report; a decoding failure reports as itself. -/
def message : ClassifyError → String
  | malformedComposite f v => s!"decimal composite field `{f}` holds out-of-range literal {v}"
  | decode e => e.message

end ClassifyError

/-- The decimal of five literal parts, if sign and scale are in range. -/
def Decimal.ofLiterals (lo mid hi sign scale : Int) : Except ClassifyError Decimal :=
  if ¬(0 ≤ sign ∧ sign ≤ 1) then .error (.malformedComposite "sign" sign)
  else if ¬(0 ≤ scale ∧ scale ≤ 28) then .error (.malformedComposite "scale" scale)
  else .ok ⟨UInt32.ofInt lo, UInt32.ofInt mid, UInt32.ofInt hi, sign = 1, UInt8.ofInt scale⟩

namespace Forest

/-- The decimal a packet spells as a composite, `none` for any other shape. -/
def composite (f : Forest) (id : Nat) : Except ClassifyError (Option Decimal) := do
  let some p := f.get? id | return none
  if p.instr.opcode ≠ .newobj then return none
  let some t := p.instr.token? | return none
  let ctor ← t.method.mapError .decode
  if !ctor.declaring.isDecimal || ctor.params.length ≠ 5 then return none
  let literals := p.children.map (fun c => (f.get? c).bind (·.instr.intLiteral?))
  match literals with
  | [some lo, some mid, some hi, some sign, some scale] =>
    some <$> Decimal.ofLiterals lo mid hi sign scale
  | _ => return none

end Forest

end CilBind
