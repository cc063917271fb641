import CilBind.Signature.Error

/-!
# `CilBind.Code.Error`: why a method body cannot be decoded

One constructor per cause. A report is a sentence and then the sentences of the
causes behind it, each after `": "`: a failed token carries the table's own
message, and a malformed call-site signature carries the signature error.
Offsets are written `0x` and four hex digits, tokens `0x` and eight.
-/

set_option autoImplicit false

namespace CilBind

/-- The causes for which decoding a method body, or using one of its tokens,
stops. -/
inductive DecodeError where
  /-- The body ends `needed` bytes short of a value that starts at `offset`. -/
  | truncated (offset : Nat) (needed : Nat)
  /-- No opcode has this byte, in the one-byte table or after the prefix. -/
  | unknownOpcode (offset : Nat) (byte : UInt8) (extended : Bool)
  /-- The token table does not resolve the token; it says why. -/
  | token (token : UInt32) (reason : String)
  /-- The token resolved to something other than what its use needs. -/
  | tokenKind (token : UInt32) (expected : String) (found : String)
  /-- Decoding stopped before the end of the body. -/
  | lengthMismatch (consumed : Nat) (len : Nat)
  /-- A call-site signature cannot be read. -/
  | signature (e : SigError)
  deriving DecidableEq, Repr

namespace DecodeError

/-- The name of the cause, as reports spell it. -/
def tag : DecodeError → String
  | truncated .. => "Truncated"
  | unknownOpcode .. => "UnknownOpcode"
  | token .. => "Token"
  | tokenKind .. => "TokenKind"
  | lengthMismatch .. => "LengthMismatch"
  | signature _ => "Signature"

/-- The sentence that reports the cause itself. -/
def headline : DecodeError → String
  | truncated o n =>
    s!"instruction stream truncated at offset {Hex.padded 6 o} (needed {n} more bytes)"
  | unknownOpcode o b x =>
    s!"unknown opcode {Hex.padded 4 b.toNat} (two-byte table: {x}) at offset {Hex.padded 6 o}"
  | token t _ => s!"failed to resolve token {Hex.padded 10 t.toNat}"
  | tokenKind t e f => s!"token {Hex.padded 10 t.toNat} resolved to {f}, expected {e}"
  | lengthMismatch c l => s!"decoded {c} bytes but the buffer holds {l}"
  | signature _ => "malformed call-site signature"

/-- The sentences of the causes behind it, outermost first. -/
def causes : DecodeError → List String
  | token _ reason => [reason]
  | signature e => [e.message]
  | _ => []

/-- The whole report. -/
def message (e : DecodeError) : String := ": ".intercalate (e.headline :: e.causes)

end DecodeError

end CilBind
