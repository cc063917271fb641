import CilBind.Tree.Builder
import CilBind.Default.Composite

/-!
# `CilBind.Routine.Error`: why a factory cannot be partially applied

One constructor per cause. A failure of decoding, of the local signature or of
a composite literal reports the sentence of this stage and then the one of the
cause; a failure to rebuild the tree reports this stage's sentence alone.
-/

set_option autoImplicit false

namespace CilBind

/-- The causes for which a factory cannot be partially applied. -/
inductive SynthesisError where
  /-- The factory has suspension points. -/
  | suspension
  /-- An instruction that straight-line replay cannot keep. -/
  | unsupportedOperation (offset : Nat) (opcode : OpCode)
  /-- The body does not return a single construction. -/
  | notSimpleConstruction
  /-- An argument access beyond the factory's arguments. -/
  | argumentOutOfRange (offset : Nat) (index : Nat)
  /-- A default argument whose composite literal is malformed. -/
  | malformedComposite (param : String) (e : ClassifyError)
  /-- The body, or a token it uses, cannot be decoded. -/
  | decode (e : DecodeError)
  /-- The local variable signature cannot be read. -/
  | signature (e : SigError)
  /-- The body cannot be rebuilt as expression trees. -/
  | tree (e : TreeError)

namespace SynthesisError

/-- A tree failure as a synthesis failure: an instruction that trees cannot
hold is an unsupported operation. -/
def ofTree : TreeError → SynthesisError
  | .disallowed o op => .unsupportedOperation o op
  | e => .tree e

/-- The name of the cause, as reports spell it. -/
def tag : SynthesisError → String
  | suspension => "Suspension"
  | unsupportedOperation .. => "UnsupportedOperation"
  | notSimpleConstruction => "NotSimpleConstruction"
  | argumentOutOfRange .. => "ArgumentOutOfRange"
  | malformedComposite .. => "MalformedComposite"
  | decode _ => "Decode"
  | signature _ => "Signature"
  | tree _ => "Tree"

/-- The whole report. -/
def message : SynthesisError → String
  | suspension => "factories cannot use suspension points"
  | unsupportedOperation o op =>
    s!"unsupported operation in factory function: {op.name} at offset {Hex.padded 6 o}"
  | notSimpleConstruction => "factory must be a simple expression that constructs the desired type"
  | argumentOutOfRange o i => s!"argument {i} at offset {Hex.padded 6 o} is not declared by the factory"
  | malformedComposite p e => s!"malformed composite literal for parameter `{p}`: {e.message}"
  | decode e => s!"failed to decode factory body: {e.message}"
  | signature e => s!"failed to read factory local signature: {e.message}"
  | tree _ => "failed to rebuild factory expression"

end SynthesisError

end CilBind
