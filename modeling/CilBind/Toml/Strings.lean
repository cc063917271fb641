import CilBind.Text.Hex
import CilBind.Toml.Syntax

/-!
# `CilBind.Toml.Strings`: the text of TOML strings and keys

A string's text lies between its delimiters; one that was never closed is
reported at its end. The text of a basic string may hold tabs and any
character but a control, a double quote or a backslash; a backslash starts an
escape: `\b`, `\t`, `\n`, `\f`, `\r`, `\e`, `\"`, `\\`, or a code point in two
(`\x`), four (`\u`) or eight (`\U`) hexadecimal digits, which must name a
Unicode scalar value. A multi-line basic string may also hold line breaks and
double quotes, drops a line break right after its opening, and a backslash at
the end of a line (blanks after it allowed) drops the line break and the blanks
and breaks that follow. Literal strings have no escapes. A carriage return in a
multi-line string must be followed by a line feed.

A bare key is one or more letters, digits, `-` and `_`; a quoted key is read as
a one-line string of its kind.
-/

set_option autoImplicit false

namespace CilBind

namespace Toml

namespace Strings

section

variable (src : Array Char)

/-- Fails with `what` at the empty span at `i`. -/
def badAt {α : Type} (i : Nat) (what : String) (expected : List Expected) : Except Error α :=
  .error (Error.expecting (Span.point i) what expected)

/-- The character at `i`, a blank past the end. -/
def charAt (i : Nat) : Char := src[i]?.getD ' '

/-- Whether the characters from `i` on spell `s`. -/
def spells (i : Nat) (s : List Char) : Bool :=
  s.zipIdx.all (fun (c, k) => src[i + k]? == some c)

/-- What a backslash may be followed by. -/
def escapes : List Expected :=
  ["b", "e", "f", "n", "r", "\\", "\"", "x", "u", "U"].map .literal

/-- The value of the hexadecimal digits in `[i, i + n)`, or how they fall
short. -/
def codePoint (i n : Nat) : Except Error Char :=
  let ds := (List.range' i n).takeWhile (fun k => (Hex.digitValue? (charAt src k)).isSome)
  if ds.length < n then
    badAt (i + ds.length) "too few unicode value digits" [.description "unicode hexadecimal value"]
  else
    let v := ds.foldl (fun acc k => acc * 16 + ((Hex.digitValue? (charAt src k)).getD 0)) 0
    if v < 0xD800 || (0xE000 ≤ v && v ≤ 0x10FFFF) then .ok (Char.ofNat v)
    else badAt i "invalid value" [.description "unicode hexadecimal value"]

/-- The escape whose letter is at `i` (the backslash before it), up to `stop`:
the character it stands for and where the text goes on. -/
def escape (i stop : Nat) : Except Error (Char × Nat) := do
  if i ≥ stop then badAt i "missing escaped value" escapes
  match charAt src i with
  | 'b' => pure ('\x08', i + 1)
  | 't' => pure ('\t', i + 1)
  | 'n' => pure ('\n', i + 1)
  | 'f' => pure ('\x0c', i + 1)
  | 'r' => pure ('\r', i + 1)
  | 'e' => pure ('\x1b', i + 1)
  | '"' => pure ('"', i + 1)
  | '\\' => pure ('\\', i + 1)
  | 'x' => pure (← codePoint src (i + 1) 2, i + 3)
  | 'u' => pure (← codePoint src (i + 1) 4, i + 5)
  | 'U' => pure (← codePoint src (i + 1) 8, i + 9)
  | _ => badAt i "missing escaped value" escapes

/-- Whether a character may stand as it is in a one-line string, its quote
apart: a tab, a printable ASCII character, or any character beyond ASCII. -/
def plain (c : Char) : Bool :=
  c = '\t' || (0x20 ≤ c.toNat && c.toNat ≤ 0x7E) || 0x80 ≤ c.toNat

/-- The end of the run of characters from `i` on, up to `stop`, that `ok`
refuses: a fault in a basic string covers the whole run. -/
def runEnd (ok : Char → Bool) (stop : Nat) (i : Nat) : Nat :=
  if i < stop then
    if ok (charAt src i) then i else runEnd ok stop (i + 1)
  else i
termination_by stop - i

/-- The text of a basic string in `[i, stop)`, after `acc`. -/
def basicFrom (stop : Nat) (i : Nat) (acc : List Char) : Except Error String :=
  if h : i < stop then
    let c := charAt src i
    if c = '\\' then do
      let (d, j) ← escape src (i + 1) stop
      basicFrom stop (max j (i + 1)) (d :: acc)
    else if plain c && c ≠ '"' then basicFrom stop (i + 1) (c :: acc)
    else
      .error (Error.expecting ⟨i, runEnd src (fun c => plain c && c ≠ '"') stop i⟩
        "invalid basic string" [.description "non-double-quote visible characters", .literal "\\"])
  else .ok (String.ofList acc.reverse)
termination_by stop - i
decreasing_by all_goals omega

/-- The offset after the blanks from `i` on, up to `stop`. -/
def blanksEnd (stop : Nat) (i : Nat) : Nat :=
  if h : i < stop then
    if charAt src i = ' ' || charAt src i = '\t' then blanksEnd stop (i + 1) else i
  else i
termination_by stop - i

/-- The offset after the blanks and line breaks from `i` on, up to `stop`. -/
def gapEnd (stop : Nat) (i : Nat) : Nat :=
  if h : i < stop then
    let c := charAt src i
    if c = ' ' || c = '\t' || c = '\n' then gapEnd stop (i + 1)
    else if c = '\r' && charAt src (i + 1) = '\n' && i + 1 < stop then gapEnd stop (i + 2)
    else i
  else i
termination_by stop - i

/-- Whether a line break starts at `i`, before `stop`. -/
def breakAt (stop i : Nat) : Bool :=
  i < stop && (charAt src i = '\n' || (charAt src i = '\r' && charAt src (i + 1) = '\n' && i + 1 < stop))

/-- A carriage return at `i` ends a line only before a line feed. -/
def returnAt (stop i : Nat) : Except Error Unit :=
  if charAt src (i + 1) = '\n' && i + 1 < stop then .ok ()
  else badAt (i + 1) "carriage return must be followed by newline" [.literal "\n"]

/-- The text of a multi-line basic string in `[i, stop)`, after `acc`. -/
def multiBasicFrom (stop : Nat) (i : Nat) (acc : List Char) : Except Error String :=
  if h : i < stop then
    let c := charAt src i
    if c = '\\' then
      let k := blanksEnd src stop (i + 1)
      if breakAt src stop k then
        multiBasicFrom stop (max (gapEnd src stop k) (i + 1)) acc
      else if k < stop && charAt src k = '\r' then
        badAt (k + 1) "carriage return must be followed by newline" [.literal "\n"]
      else if k > i + 1 then
        badAt k "invalid multi-line basic string" [.literal "\n"]
      else do
        let (d, j) ← escape src (i + 1) stop
        multiBasicFrom stop (max j (i + 1)) (d :: acc)
    else if c = '\r' then do
      returnAt src stop i
      multiBasicFrom stop (i + 1) (c :: acc)
    else if plain c || c = '\n' then multiBasicFrom stop (i + 1) (c :: acc)
    else
      .error (Error.expecting ⟨i, runEnd src (fun c => plain c || c = '\n' || c = '\r') stop i⟩
        "invalid multi-line basic string" [.literal "\\", .description "characters"])
  else .ok (String.ofList acc.reverse)
termination_by stop - i
decreasing_by all_goals omega

/-- The text of a literal string in `[i, stop)`, unchanged but checked. -/
def literalIn (i stop : Nat) : Except Error String :=
  match (List.range' i (stop - i)).find? (fun k => !plain (charAt src k) || charAt src k = '\'') with
  | some k =>
    badAt k "invalid literal string" [.description "non-single-quote visible characters"]
  | none => .ok (String.ofList ((src.extract i stop).toList))

/-- The text of a multi-line literal string in `[i, stop)`. -/
def multiLiteralIn (i stop : Nat) : Except Error String := do
  for k in List.range' i (stop - i) do
    let c := charAt src k
    if c = '\r' then returnAt src stop k
    else if !(plain c || c = '\n') then
      badAt k "invalid multi-line literal string" [.description "non-single-quote characters"]
  .ok (String.ofList ((src.extract i stop).toList))

/-- Where the text of a multi-line string starts, a line break right after the
opening at `i` passed over. -/
def afterOpening (i stop : Nat) : Nat :=
  if charAt src i = '\n' && i < stop then i + 1
  else if charAt src i = '\r' && charAt src (i + 1) = '\n' && i + 1 < stop then i + 2
  else i

/-- The text of a string written over `span` in the form `form`. -/
def text (span : Span) (form : Form) : Except Error String :=
  let s := span.start
  let e := span.stop
  let closed (q : List Char) : Bool := e ≥ s + 2 * q.length && spells src (e - q.length) q
  match form with
  | .basic =>
    if closed ['"'] then basicFrom src (e - 1) (s + 1) []
    else badAt e "invalid basic string" [.literal "\""]
  | .literal =>
    if !spells src s ['\''] || e = s then badAt s "invalid literal string" [.literal "'"]
    else if closed ['\''] then literalIn src (s + 1) (e - 1)
    else badAt e "invalid literal string" [.literal "'"]
  | .multiBasic =>
    if closed ['"', '"', '"'] then
      multiBasicFrom src (e - 3) (afterOpening src (s + 3) (e - 3)) []
    else badAt e "invalid multi-line basic string" [.literal "\""]
  | .multiLiteral =>
    if closed ['\'', '\'', '\''] then
      multiLiteralIn src (afterOpening src (s + 3) (e - 3)) (e - 3)
    else badAt e "invalid multi-line literal string" [.literal "'"]
  | .bare => .ok (String.ofList ((src.extract s e).toList))

/-- Whether a character may stand in a bare key. -/
def bareKeyChar (c : Char) : Bool :=
  ('a' ≤ c && c ≤ 'z') || ('A' ≤ c && c ≤ 'Z') || c.isDigit || c = '-' || c = '_'

/-- What a bare key may be made of. -/
def bareKeyChars : List Expected :=
  [.description "letters", .description "numbers", .literal "-", .literal "_"]

/-- How a quoted key may be written. -/
def quotedKeys : List Expected := [.description "basic string", .description "literal string"]

/-- The name a key part gives; a key is never written as a multi-line string.
A bare key that holds characters it may not is reported over the first run of
them. -/
def keyName (p : KeyPart) : Except Error String :=
  match p.form with
  | .bare =>
    let cs := (src.extract p.span.start p.span.stop).toList
    if cs.isEmpty then .error (Error.expecting p.span "unquoted keys cannot be empty" bareKeyChars)
    else if cs.all bareKeyChar then .ok (String.ofList cs)
    else
      let good := (cs.takeWhile bareKeyChar).length
      let bad := ((cs.drop good).takeWhile (fun c => !bareKeyChar c)).length
      let start := p.span.start + good
      .error (Error.expecting ⟨start, start + bad⟩ "invalid unquoted key" bareKeyChars)
  | .multiBasic =>
    .error (Error.expecting p.span "keys cannot be multi-line basic strings" quotedKeys)
  | .multiLiteral =>
    .error (Error.expecting p.span "keys cannot be multi-line literal strings" quotedKeys)
  | form => text src p.span form

end

end Strings

end Toml

end CilBind
