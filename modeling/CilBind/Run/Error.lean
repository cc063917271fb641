import CilBind.Code.OpCode
import CilBind.Code.Error

/-!
# `CilBind.Run.Error`: why a routine run stops

One constructor per cause. The host's and the resolver's own reasons come after
the sentence that reports them, after `": "`; a decoding failure reports as
itself.
-/

set_option autoImplicit false

namespace CilBind

/-- The causes for which running a routine stops. -/
inductive RunError where
  /-- The resolver refused to give an instance of the type, saying why. -/
  | resolution (ty : String) (reason : String)
  /-- The resolver has nothing for the type. -/
  | notResolvable (ty : String)
  /-- The host refused an operation, saying why. -/
  | host (reason : String)
  /-- An operation found fewer values on the stack than it pops. -/
  | stackUnderflow (at_ : String)
  /-- An instruction the interpreter does not run. -/
  | unsupported (opcode : OpCode)
  /-- The routine was given the wrong number of arguments. -/
  | arity (expected : Nat) (found : Nat)
  /-- An instruction was given values of kinds it cannot work on. -/
  | typeMismatch (opcode : OpCode) (found : String)
  /-- An argument or local slot that the routine does not have. -/
  | slotOutOfRange (kind : String) (index : Nat)
  /-- The operations ran out before a `ret`. -/
  | noReturn
  /-- A token of an instruction could not be used. -/
  | decode (e : DecodeError)

namespace RunError

/-- The name of the cause, as reports spell it. -/
def tag : RunError → String
  | resolution .. => "Resolution"
  | notResolvable _ => "NotResolvable"
  | host _ => "Host"
  | stackUnderflow _ => "StackUnderflow"
  | unsupported _ => "Unsupported"
  | arity .. => "Arity"
  | typeMismatch .. => "TypeMismatch"
  | slotOutOfRange .. => "SlotOutOfRange"
  | noReturn => "NoReturn"
  | decode _ => "Decode"

/-- The whole report. -/
def message : RunError → String
  | resolution ty r => s!"failed to resolve {ty}: {r}"
  | notResolvable ty => s!"{ty} is not resolvable in this context"
  | host r => s!"host operation failed: {r}"
  | stackUnderflow a => s!"evaluation stack underflow at {a}"
  | unsupported op => s!"{op.name} is not supported by the routine interpreter"
  | arity e f => s!"routine expects {e} arguments, got {f}"
  | typeMismatch op f => s!"{op.name} cannot operate on {f}"
  | slotOutOfRange k i => s!"{k} {i} is out of range"
  | noReturn => "routine finished without returning a value"
  | decode e => e.message

end RunError

end CilBind
