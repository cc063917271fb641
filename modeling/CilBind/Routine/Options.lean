/-!
# `CilBind.Routine.Options`: how factories are partially applied

Three switches: whether a value-type local read twice, once for its
initialization and once as the argument, counts as the type's default; whether
a branch to the very next instruction, as unoptimized builds emit, may be
dropped; and whether packets are traced while trees are rebuilt, which changes
no result.
-/

set_option autoImplicit false

namespace CilBind

/-- The switches of partial application. -/
structure SynthesisOptions where
  recognizeStructDefaults : Bool := true
  allowFallthroughBranches : Bool := true
  tracePackets : Bool := false
  deriving DecidableEq, Repr

/-- Every switch at its default: struct defaults recognized, branches to the
next instruction dropped, no tracing. -/
def SynthesisOptions.standard : SynthesisOptions := {}

end CilBind
