import CilBind.Toml.Error

/-!
# `CilBind.Toml.Token`: the tokens of a TOML document

A document is cut into tokens before it is parsed. Seven characters stand for
themselves (`.`, `=`, `,` and the square and curly brackets); a run of spaces
and tabs is one blank; a comment runs from `#` to the end of its line; a line
ends at `\n`, at `\r\n`, or at a `\r` alone, which the parser refuses later.
Strings take their quotes from their first characters: `'''` and `"""` open
multi-line strings, `'` and `"` strings on one line. Anything else is an atom:
everything up to the next character that starts another token. Quotes do not
end an atom, so that a value whose opening quote is missing stays one piece.

A string that is never closed runs to the end of the document, or, on one line,
to the end of its line; the decoder of its text says what is missing. Inside a
basic string a backslash keeps the next backslash or double quote from ending
it. A leading byte order mark is no token.

Every token but the final end-of-document mark covers at least one character,
so the length of the text bounds the scan.
-/

set_option autoImplicit false

namespace CilBind

namespace Toml

/-- What a token is. -/
inductive TokenKind where
  | dot
  | equals
  | comma
  | openSquare
  | closeSquare
  | openCurly
  | closeCurly
  /-- Spaces and tabs. -/
  | blank
  /-- `#` and the rest of its line. -/
  | comment
  /-- `\n`, `\r\n`, or a `\r` alone. -/
  | newline
  /-- A string in single quotes. -/
  | literal
  /-- A string in double quotes. -/
  | basic
  /-- A string in triple single quotes. -/
  | multiLiteral
  /-- A string in triple double quotes. -/
  | multiBasic
  /-- Unquoted text: a bare key, a number, a date, a boolean. -/
  | atom
  /-- The end of the document. -/
  | eof
  deriving DecidableEq, Repr, Inhabited

/-- A token and the characters it covers. -/
structure Token where
  kind : TokenKind
  span : Span
  deriving Repr, Inhabited

namespace Token

section

variable (src : Array Char)

/-- Whether the character at `i` is `c`. -/
def charIs (i : Nat) (c : Char) : Bool := src[i]? == some c

/-- The first offset from `i` on whose character fails `p`, or the end. -/
def skipWhile (p : Char → Bool) (i : Nat) : Nat :=
  if h : i < src.size then
    if p src[i] then skipWhile p (i + 1) else i
  else i
termination_by src.size - i

/-- The characters that start a token other than an atom. -/
def startsToken (c : Char) : Bool := ".=,[]\x7b\x7d \t#\r\n".contains c

/-- Up to two more of the quote `q` after a closing delimiter at `i`. -/
def extraQuotes (q : Char) (i : Nat) : Nat :=
  if charIs src i q then (if charIs src (i + 1) q then i + 2 else i + 1) else i

/-- The end of a one-line literal string whose text starts at `i`: after the
closing quote, or at the end of the line. -/
def literalEnd (i : Nat) : Nat :=
  let j := skipWhile src (fun c => c ≠ '\'' && c ≠ '\n') i
  if charIs src j '\'' then j + 1 else j

/-- The end of a multi-line literal string whose text starts at `i`. -/
def multiLiteralEnd (i : Nat) : Nat :=
  if h : i < src.size then
    if charIs src i '\'' && charIs src (i + 1) '\'' && charIs src (i + 2) '\'' then
      extraQuotes src '\'' (i + 3)
    else multiLiteralEnd (i + 1)
  else i
termination_by src.size - i

/-- The end of a one-line basic string whose text starts at `i`: after the
closing quote, or at the end of the line. -/
def basicEnd (i : Nat) : Nat :=
  if h : i < src.size then
    match src[i] with
    | '"' => i + 1
    | '\n' => i
    | '\\' =>
      if charIs src (i + 1) '\\' || charIs src (i + 1) '"' then basicEnd (i + 2)
      else basicEnd (i + 1)
    | _ => basicEnd (i + 1)
  else i
termination_by src.size - i

/-- The end of a multi-line basic string whose text starts at `i`. -/
def multiBasicEnd (i : Nat) : Nat :=
  if h : i < src.size then
    if charIs src i '"' && charIs src (i + 1) '"' && charIs src (i + 2) '"' then
      extraQuotes src '"' (i + 3)
    else if src[i] = '\\' then
      if charIs src (i + 1) '\\' || charIs src (i + 1) '"' then multiBasicEnd (i + 2)
      else multiBasicEnd (i + 1)
    else multiBasicEnd (i + 1)
  else i
termination_by src.size - i

/-- The kind and the end of the token that starts at `i < src.size`. -/
def next (i : Nat) (c : Char) : TokenKind × Nat :=
  match c with
  | '.' => (.dot, i + 1)
  | '=' => (.equals, i + 1)
  | ',' => (.comma, i + 1)
  | '[' => (.openSquare, i + 1)
  | ']' => (.closeSquare, i + 1)
  | '\x7b' => (.openCurly, i + 1)
  | '\x7d' => (.closeCurly, i + 1)
  | ' ' | '\t' => (.blank, skipWhile src (fun c => c = ' ' || c = '\t') i)
  | '#' => (.comment, skipWhile src (fun c => c ≠ '\r' && c ≠ '\n') (i + 1))
  | '\r' => (.newline, if charIs src (i + 1) '\n' then i + 2 else i + 1)
  | '\n' => (.newline, i + 1)
  | '\'' =>
    if charIs src (i + 1) '\'' && charIs src (i + 2) '\'' then
      (.multiLiteral, multiLiteralEnd src (i + 3))
    else (.literal, literalEnd src (i + 1))
  | '"' =>
    if charIs src (i + 1) '"' && charIs src (i + 2) '"' then
      (.multiBasic, multiBasicEnd src (i + 3))
    else (.basic, basicEnd src (i + 1))
  | _ => (.atom, skipWhile src (fun c => !startsToken c) i)

/-- The tokens from offset `i` on, after `acc`, ending with the end mark. -/
def scanFrom (i : Nat) (acc : Array Token) : Array Token :=
  if h : i < src.size then
    let (kind, stop) := next src i src[i]
    let stop := max stop (i + 1)
    scanFrom stop (acc.push ⟨kind, ⟨i, stop⟩⟩)
  else acc.push ⟨.eof, Span.point src.size⟩
termination_by src.size - i
decreasing_by omega

end

/-- The tokens of a document, a leading byte order mark skipped. -/
def scan (src : Array Char) : Array Token :=
  scanFrom src (if charIs src 0 '\uFEFF' then 1 else 0) #[]

end Token

end Toml

end CilBind
