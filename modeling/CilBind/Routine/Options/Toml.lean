import CilBind.Routine.Options
import CilBind.Toml.Value

/-!
# `CilBind.Routine.Options.Toml`: options from a TOML document

The options are the top-level keys `recognize_struct_defaults`,
`allow_fallthrough_branches` and `trace_packets` of a TOML document, each a
boolean; a key left out keeps its default, and any other key is passed over,
though every number in its value is still read. The keys are checked in the
order of their names, and the first one that holds something other than a
boolean, or a number that cannot be read, is reported at its value.

The TOML library is a parameter (`TomlLibrary`): reading a document, naming a
value in a type error and passing over an ignored value are its business, not
the options'. The modules under `CilBind.Toml` give one, which the driver
passes in.
-/

set_option autoImplicit false

namespace CilBind

/-- What reading options needs of a TOML library: the top-level entries of a
document, the name a type error gives a value, and the walk over a value that
is passed over, which still reads every number in it. -/
structure TomlLibrary where
  read : String → Except Toml.Error Toml.Entries
  unexpected : Toml.Value → Except String String
  passOver : Toml.Value → Toml.Span → Except Toml.Error Unit

namespace SynthesisOptions

variable (lib : TomlLibrary)

/-- The boolean a key holds, or the error that it holds something else. -/
def boolAt (v : Toml.Value) (span : Toml.Span) : Except Toml.Error Bool :=
  match v with
  | .boolean b => .ok b
  | v =>
    match lib.unexpected v with
    | .ok what => .error ⟨span, "invalid type: " ++ what ++ ", expected a boolean"⟩
    | .error message => .error ⟨span, message⟩

/-- The options after one top-level key. -/
def withKey (o : SynthesisOptions) (entry : String × Toml.Value × Toml.Span) :
    Except Toml.Error SynthesisOptions :=
  let (k, v, span) := entry
  match k with
  | "recognize_struct_defaults" => do pure { o with recognizeStructDefaults := ← boolAt lib v span }
  | "allow_fallthrough_branches" => do pure { o with allowFallthroughBranches := ← boolAt lib v span }
  | "trace_packets" => do pure { o with tracePackets := ← boolAt lib v span }
  | _ => do
    lib.passOver v span
    pure o

/-- The options a TOML document gives. -/
def ofToml (text : String) : Except Toml.Error SynthesisOptions := do
  (← lib.read text).foldlM (withKey lib) standard

end SynthesisOptions

end CilBind
