import CilBind.Toml.Token

/-!
# `CilBind.Toml.Syntax`: the shape of a TOML document before its text is read

Parsing finds the structure of a document and leaves the text of its keys and
values for later: a key is a dotted list of parts, each a span and the way it
is written; a value is a scalar (a span and its way of writing), an array of
values, or an inline table of key/value pairs, each with the span from its
opening to its closing bracket. A document is a list of statements: key/value
pairs and the headers of tables and of arrays of tables.

Where a key or a value is missing, the parser puts an empty part or an empty
scalar in its place, so that reading its text later reports it.
-/

set_option autoImplicit false

namespace CilBind

namespace Toml

/-- How a key or a scalar value is written. -/
inductive Form where
  /-- Without quotes: a bare key, a number, a boolean, a date. -/
  | bare
  /-- In double quotes, with escapes. -/
  | basic
  /-- In single quotes, taken as it stands. -/
  | literal
  /-- In triple double quotes. -/
  | multiBasic
  /-- In triple single quotes. -/
  | multiLiteral
  deriving DecidableEq, Repr, Inhabited

/-- The form of a string token, bare for anything else. -/
def Form.ofKind : TokenKind → Form
  | .basic => .basic
  | .literal => .literal
  | .multiBasic => .multiBasic
  | .multiLiteral => .multiLiteral
  | _ => .bare

/-- One part of a dotted key. -/
structure KeyPart where
  span : Span
  form : Form
  deriving Repr, Inhabited

/-- A value as parsed. -/
inductive Node where
  | scalar (span : Span) (form : Form)
  | array (span : Span) (items : List Node)
  | inline (span : Span) (pairs : List (List KeyPart × Node))
  deriving Repr, Inhabited

/-- The span a value covers. -/
def Node.span : Node → Span
  | .scalar s _ => s
  | .array s _ => s
  | .inline s _ => s

/-- One statement of a document. -/
inductive Statement where
  /-- `key = value`. -/
  | pair (key : List KeyPart) (value : Node)
  /-- `[key]`, or `[[key]]` when `isArray`, over the span of the brackets. -/
  | header (key : List KeyPart) (span : Span) (isArray : Bool)
  deriving Repr, Inhabited

end Toml

end CilBind
