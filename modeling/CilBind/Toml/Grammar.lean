import CilBind.Toml.Syntax

/-!
# `CilBind.Toml.Grammar`: the structure of a TOML document

The tokens of a document are read into statements. A statement is a table
header `[key]` or `[[key]]`, or a pair `key = value`; what follows it on its
line may be blanks and a comment, nothing else. A key is a dotted list of parts
with blanks allowed around the dots. A value is a string, an array, an inline
table, or unquoted text: atoms and dots that touch, and the atoms that follow
single blanks, are one piece (`1979-05-27 07:32:00`, `1.5`), whose meaning is
read later. Arrays and inline tables may span lines and end in a comma, and
hold each other at most eighty deep.

The reading stops at the first fault of structure, and the error names what
was expected. Comments must hold only tabs and printable characters, and a
carriage return must end its line with a line feed; these faults are found in
document order with the others.

Not every gap is a fault of structure: a key part that is missing becomes an
empty part, and a value missing after `=` an empty scalar, so that reading
their text reports them. After a table header whose key ends in a missing part,
the rest of its line is passed over.

Each loop consumes a token before it repeats, so a fuel of twice the number of
tokens is never used up; running out reads as an unclosed bracket.
-/

set_option autoImplicit false

namespace CilBind

namespace Toml

/-- A step of parsing: an index into the tokens that moves on, or the first
fault of structure. -/
abbrev Parse := EStateM Error Nat

namespace Grammar

/-- The deepest nesting of arrays and inline tables. -/
def maxDepth : Nat := 80

/-- Fails with `what` at `span`, naming what was expected. -/
def fail {α : Type} (span : Span) (what : String) (expected : List Expected) : Parse α :=
  fun i => .error (Error.expecting span what expected) i

/-- Moves on one token. -/
def advance : Parse Unit := modify (· + 1)

section

variable (src : Array Char) (tokens : Array Token)

/-- The token `k` places ahead; past the end, the end mark. -/
def peekAt (k : Nat) : Parse Token :=
  fun i => .ok (tokens[i + k]?.getD ⟨.eof, Span.point src.size⟩) i

/-- The current token. -/
def peek : Parse Token := peekAt src tokens 0

/-- Where the last token read that is not a blank stops, or `floor` if there
is none. -/
def readStop (floor : Nat) : Parse Nat := fun i =>
  let last := (List.range i).reverse.find? (fun k => (tokens[k]?.map (·.kind != .blank)).getD false)
  .ok (((last.bind (fun k => tokens[k]?)).map (·.span.stop)).getD floor) i

/-- Whether a character may stand in a comment: a tab, a printable ASCII
character, or any character beyond ASCII. -/
def commentChar (c : Char) : Bool :=
  c = '\t' || (0x20 ≤ c.toNat && c.toNat ≤ 0x7E) || 0x80 ≤ c.toNat

/-- A comment holds only tabs and printable characters. -/
def checkComment (t : Token) : Parse Unit :=
  let offsets := List.range' t.span.start (t.span.stop - t.span.start)
  match offsets.find? (fun k => !commentChar (src[k]?.getD ' ')) with
  | some k => fail (Span.point k) "invalid comment character" [.description "printable characters"]
  | none => pure ()

/-- A line break is `\n` or `\r\n`; a `\r` alone is refused just after it. -/
def checkNewline (t : Token) : Parse Unit :=
  if t.span.stop = t.span.start + 1 && src[t.span.start]? == some '\r' then
    fail t.span.after "carriage return must be followed by newline" [.literal "\n"]
  else pure ()

/-- Blanks, at most `fuel` of them. -/
def blanksFuel : Nat → Parse Unit
  | 0 => pure ()
  | fuel + 1 => do
    let t ← peek src tokens
    if t.kind = .blank then
      advance
      blanksFuel fuel

/-- Any blanks. -/
def blanks : Parse Unit := blanksFuel src tokens tokens.size

/-- The rest of a line after a statement: blanks and a comment, then the line
break or the end. -/
def lineEndFuel : Nat → Parse Unit
  | 0 => pure ()
  | fuel + 1 => do
    let t ← peek src tokens
    match t.kind with
    | .blank => advance; lineEndFuel fuel
    | .comment => checkComment src t; advance; lineEndFuel fuel
    | .newline => checkNewline src t; advance
    | .eof => pure ()
    | _ => fail t.span.before "unexpected key or value" [.literal "\n", .literal "#"]

/-- The rest of a line after a statement. -/
def lineEnd : Parse Unit := lineEndFuel src tokens tokens.size

/-- The rest of a line passed over, its comment and its line break still
checked. -/
def skipLineFuel : Nat → Parse Unit
  | 0 => pure ()
  | fuel + 1 => do
    let t ← peek src tokens
    match t.kind with
    | .comment => checkComment src t; advance; skipLineFuel fuel
    | .newline => checkNewline src t; advance
    | .eof => pure ()
    | _ => advance; skipLineFuel fuel

/-- One part of a key at the current token, and whether it is really there:
a missing part is an empty bare part in front of the token. -/
def keyPart : Parse (KeyPart × Bool) := do
  let t ← peek src tokens
  match t.kind with
  | .atom | .basic | .literal | .multiBasic | .multiLiteral =>
    advance
    pure (⟨t.span, Form.ofKind t.kind⟩, true)
  | _ => pure (⟨t.span.before, .bare⟩, false)

/-- The parts of a key after `parts` (in reverse), each after a dot, and
whether the last part is there. -/
def keyRestFuel : Nat → List KeyPart → Bool → Parse (List KeyPart × Bool)
  | 0, parts, lastThere => pure (parts.reverse, lastThere)
  | fuel + 1, parts, lastThere => do
    blanks src tokens
    let t ← peek src tokens
    if t.kind = .dot then
      advance
      blanks src tokens
      let (p, there) ← keyPart src tokens
      keyRestFuel fuel (p :: parts) there
    else pure (parts.reverse, lastThere)

/-- A dotted key and whether its last part is there; the blanks after it are
passed over. -/
def key : Parse (List KeyPart × Bool) := do
  let (p, there) ← keyPart src tokens
  keyRestFuel src tokens tokens.size [p] there

/-- Unquoted text from `span` on: the atoms and dots that touch it, and each
atom after a single blank. -/
def scalarFuel : Nat → Span → Parse Span
  | 0, span => pure span
  | fuel + 1, span => do
    let t ← peek src tokens
    match t.kind with
    | .atom | .dot => advance; scalarFuel fuel (span.join t.span)
    | .blank =>
      let t2 ← peekAt src tokens 1
      if t2.kind = .atom then
        advance
        advance
        scalarFuel fuel (span.join t2.span)
      else pure span
    | _ => pure span

/-- Where an array or inline table stands in a parse: whether the next thing
must be a value, and where the last thing read stops. -/
structure Place where
  needsValue : Bool
  lastStop : Nat

/-- What an inline table waits for. -/
inductive Wait where
  | key
  | equals (key : List KeyPart)
  | value (key : List KeyPart)
  | comma
  deriving Inhabited

mutual

/-- A value at nesting `depth`, with a fuel for its loops. -/
def valueFuel (depth : Nat) : Nat → Parse Node
  | 0 => do
    let t ← peek src tokens
    pure (.scalar t.span.before .bare)
  | fuel + 1 => do
    let t ← peek src tokens
    match t.kind with
    | .eof | .newline | .comment | .comma | .blank => pure (.scalar t.span.before .bare)
    | .equals => fail t.span "extra `=`" []
    | .openCurly =>
      if depth ≥ maxDepth then
        (fun i => .error ⟨t.span, "cannot recurse further; max recursion depth met"⟩ i)
      else do
        advance
        inlineFuel (depth + 1) fuel t.span #[] .key t.span.stop
    | .closeCurly => fail t.span.before "missing inline table opening" [.literal "\x7b"]
    | .openSquare =>
      if depth ≥ maxDepth then
        (fun i => .error ⟨t.span, "cannot recurse further; max recursion depth met"⟩ i)
      else do
        advance
        arrayFuel (depth + 1) fuel t.span #[] ⟨true, t.span.stop⟩
    | .closeSquare => fail t.span.before "missing array opening" [.literal "["]
    | .basic | .literal | .multiBasic | .multiLiteral =>
      advance
      pure (.scalar t.span (Form.ofKind t.kind))
    | .atom | .dot =>
      advance
      let span ← scalarFuel src tokens tokens.size t.span
      pure (.scalar span .bare)

/-- The rest of an array opened over `opening`, after `items`. -/
def arrayFuel (depth : Nat) : Nat → Span → Array Node → Place → Parse Node
  | 0, _, _, place => fail (Span.point place.lastStop) "unclosed array" [.literal "]"]
  | fuel + 1, opening, items, place => do
    let t ← peek src tokens
    match t.kind with
    | .blank => advance; arrayFuel depth fuel opening items place
    | .newline =>
      checkNewline src t
      advance
      arrayFuel depth fuel opening items place
    | .comment =>
      checkComment src t
      advance
      arrayFuel depth fuel opening items place
    | .eof => fail (Span.point place.lastStop) "unclosed array" [.literal "]"]
    | .closeSquare =>
      advance
      pure (.array (opening.join t.span) items.toList)
    | .comma =>
      if place.needsValue then fail t.span "extra comma in array" [.description "value"]
      else do
        advance
        arrayFuel depth fuel opening items ⟨true, t.span.stop⟩
    | .equals => fail t.span "unexpected `=` in array" [.description "value", .literal "]"]
    | _ =>
      if place.needsValue then do
        let v ← valueFuel depth fuel
        arrayFuel depth fuel opening (items.push v) ⟨false, v.span.stop⟩
      else fail t.span.before "missing comma between array elements" [.literal ","]

/-- The rest of an inline table opened over `opening`, after `pairs`, waiting
for `wait`; `lastStop` is where the last thing read stops. -/
def inlineFuel (depth : Nat) : Nat → Span → Array (List KeyPart × Node) → Wait → Nat →
    Parse Node
  | 0, _, _, _, lastStop =>
    fail (Span.point lastStop) "unclosed inline table" [.literal "\x7d"]
  | fuel + 1, opening, pairs, wait, lastStop => do
    let t ← peek src tokens
    let close (pairs : Array (List KeyPart × Node)) : Parse Node := do
      advance
      pure (.inline (opening.join t.span) pairs.toList)
    match t.kind with
    | .blank => advance; inlineFuel depth fuel opening pairs wait lastStop
    | .newline =>
      checkNewline src t
      advance
      inlineFuel depth fuel opening pairs wait lastStop
    | .comment =>
      checkComment src t
      advance
      inlineFuel depth fuel opening pairs wait lastStop
    | .eof => fail (Span.point lastStop) "unclosed inline table" [.literal "\x7d"]
    | kind =>
      match wait with
      | .key =>
        match kind with
        | .closeCurly => close pairs
        | .comma => fail t.span "extra comma in inline table" [.description "key"]
        | .openSquare | .openCurly =>
          fail t.span "missing key for inline table element" [.description "key"]
        | .closeSquare => fail t.span "invalid inline table element" [.description "key"]
        | _ => do
          let (k, _) ← key src tokens
          inlineFuel depth fuel opening pairs (.equals k) (← readStop tokens lastStop)
      | .equals k =>
        match kind with
        | .equals => do
          advance
          inlineFuel depth fuel opening pairs (.value k) t.span.stop
        | .closeCurly => close (pairs.push (k, .scalar t.span.before .literal))
        | .comma => fail t.span "extra comma in inline table" [.literal "="]
        | .closeSquare => fail t.span "invalid inline table element" [.literal "="]
        | _ => fail t.span.before "missing assignment between key-value pairs" [.literal "="]
      | .value k =>
        match kind with
        | .equals =>
          fail t.span "extra assignment between key-value pairs" [.description "value"]
        | .comma => fail t.span "extra comma in inline table" [.description "value"]
        | .closeCurly => close (pairs.push (k, .scalar t.span.before .literal))
        | _ => do
          let v ← valueFuel depth fuel
          inlineFuel depth fuel opening (pairs.push (k, v)) .comma v.span.stop
      | .comma =>
        match kind with
        | .comma => do
          advance
          inlineFuel depth fuel opening pairs .key t.span.stop
        | .closeCurly => close pairs
        | .equals => fail t.span "extra assignment between key-value pairs" [.literal ","]
        | .openSquare | .openCurly =>
          fail t.span "missing key for inline table element" [.literal ","]
        | .closeSquare => fail t.span "invalid inline table element" [.literal ","]
        | _ => fail t.span.before "missing comma between key-value pairs" [.literal ","]

end

/-- The fuel for the loops of one statement. -/
def fuel : Nat := 2 * tokens.size + 2

/-- A pair `key = value` and the rest of its line. A line that starts with a
dot is taken for a key whose value is missing. -/
def pair : Parse Statement := do
  let first ← peek src tokens
  let (k, _) ← key src tokens
  let t ← peek src tokens
  if t.kind = .equals then
    advance
    blanks src tokens
    let v ← valueFuel src tokens 0 (fuel tokens)
    lineEnd src tokens
    pure (.pair k v)
  else if first.kind = .dot then fail t.span.before "missing value for key" [.literal "="]
  else fail t.span.before "key with no value" [.literal "="]

/-- A table header from its opening bracket, and the rest of its line. -/
def header : Parse Statement := do
  let opening ← peek src tokens
  advance
  let second ← peek src tokens
  let isArray := second.kind = .openSquare
  if isArray then advance
  blanks src tokens
  let (k, lastThere) ← key src tokens
  let close ← peek src tokens
  if close.kind = .closeSquare then
    advance
    if isArray then
      let close2 ← peek src tokens
      if close2.kind = .closeSquare then
        advance
        lineEnd src tokens
        pure (.header k (opening.span.join close2.span) true)
      else fail close.span.after "unclosed array table" [.literal "]"]
    else
      lineEnd src tokens
      pure (.header k (opening.span.join close.span) false)
  else if lastThere then
    let stop := (k.getLast?.map (·.span.stop)).getD opening.span.stop
    if isArray then fail (Span.point stop) "unclosed array table" [.literal "]]"]
    else fail (Span.point stop) "unclosed table" [.literal "]"]
  else
    skipLineFuel src tokens tokens.size
    pure (.header k opening.span isArray)

/-- The statements from the current token on, after `acc`. -/
def statementsFuel : Nat → Array Statement → Parse (Array Statement)
  | 0, acc => pure acc
  | fuel + 1, acc => do
    let t ← peek src tokens
    match t.kind with
    | .eof => pure acc
    | .blank => advance; statementsFuel fuel acc
    | .newline => checkNewline src t; advance; statementsFuel fuel acc
    | .comment => checkComment src t; advance; statementsFuel fuel acc
    | .openSquare => statementsFuel fuel (acc.push (← header src tokens))
    | .closeSquare => fail t.span.before "missing table open" [.literal "["]
    | .comma | .openCurly | .closeCurly =>
      fail t.span.before "invalid key-value pair" [.description "key"]
    | _ => statementsFuel fuel (acc.push (← pair src tokens))

end

/-- The statements of a document, or its first fault of structure. -/
def statements (src : Array Char) : Except Error (List Statement) :=
  let tokens := Token.scan src
  match statementsFuel src tokens (tokens.size + 1) #[] 0 with
  | .ok acc _ => .ok acc.toList
  | .error e _ => .error e

end Grammar

end Toml

end CilBind
