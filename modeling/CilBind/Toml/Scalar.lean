import CilBind.Toml.Error

/-!
# `CilBind.Toml.Scalar`: what unquoted text in a TOML value stands for

Unquoted text is a boolean (`true`, `false`), a float (with a point or an
exponent, or `inf` and `nan`), an integer (decimal, or hexadecimal, octal and
binary after `0x`, `0o`, `0b`), or a date-time (digits and then a `-` or a `:`).
Its first characters decide which it is meant to be, and it is then checked
against that grammar:

* a sign may come once, and never before a number with a radix;
* a decimal number has no leading zero, and an underscore stands only between
  two digits (hexadecimal digits count as digits here);
* a float has digits before its point, after its point, and in its exponent,
  and nothing after them;
* a radix is written in lowercase and only its own digits follow;
* words are written exactly, and text with a blank in it is an unquoted string
  unless it is meant to be a date-time; text ending in a quote is a string whose
  opening quote is missing.

The first fault is reported over the characters it concerns. Numbers keep their
text, underscores removed: reading them as numbers of a given width is left to
whoever asks for them. Date-times keep their text for the date reader.
-/

set_option autoImplicit false

namespace CilBind

namespace Toml

/-- What unquoted text stands for, as far as its form tells. -/
inductive Scalar where
  | boolean (b : Bool)
  /-- An integer: its digits (with a sign when decimal) and their radix. -/
  | integer (digits : String) (radix : Nat)
  /-- A float, as written without underscores. -/
  | float (text : String)
  /-- A date-time, as written. -/
  | datetime (text : String)
  deriving DecidableEq, Repr

namespace Scalar

/-- Whether a character is a hexadecimal digit. -/
def isHexDigit (c : Char) : Bool :=
  c.isDigit || ('a' ≤ c && c ≤ 'f') || ('A' ≤ c && c ≤ 'F')

/-- Whether a character is a digit of `radix`. -/
def isDigitOf (radix : Nat) (c : Char) : Bool :=
  match radix with
  | 16 => isHexDigit c
  | 8 => '0' ≤ c && c ≤ '7'
  | 2 => c = '0' || c = '1'
  | _ => c.isDigit

/-- How a number in `radix` that holds a wrong digit is described. -/
def radixFault (radix : Nat) : String :=
  match radix with
  | 16 => "invalid hexadecimal number"
  | 8 => "invalid octal number"
  | 2 => "invalid binary number"
  | _ => "invalid integer number"

section

variable (raw : Array Char) (base : Nat)

/-- Fails with `what` over the characters `[start, stop)` of the text. -/
def bad {α : Type} (start stop : Nat) (what : String) (expected : List Expected) :
    Except Error α :=
  .error (Error.expecting (Span.shift base ⟨start, stop⟩) what expected)

/-- The character at `j`, a blank past the end. -/
def charAt (j : Nat) : Char := raw[j]?.getD ' '

/-- The offsets `[start, stop)`. -/
def offsets (start stop : Nat) : List Nat := List.range' start (stop - start)

/-- Text written where a value must be quoted. Text that ends in a quote is
taken for a string whose opening quote is missing. -/
def unquoted {α : Type} : Except Error α :=
  match ["'''", "\"\"\"", "'", "\""].find? (fun q => q.toList.isSuffixOf raw.toList) with
  | some q => bad base 0 0 "missing opening quote" [.literal q]
  | none => bad base 0 raw.size "string values must be quoted" [.description "literal string"]

/-- Every underscore in `[start, stop)` has a digit (as `digit` tells) on each
side inside it. -/
def checkSeparators (digit : Char → Bool) (start stop : Nat) : Except Error Unit :=
  let misplaced (j : Nat) : Bool :=
    charAt raw j = '_' &&
      (j = start || j + 1 = stop || !digit (charAt raw (j - 1)) || !digit (charAt raw (j + 1)))
  match (offsets start stop).find? misplaced with
  | some j => bad base j (j + 1) "`_` may only go between digits" []
  | none => pure ()

/-- A number written over `[start, stop)` starts with a zero only if it is
that zero. -/
def checkLeadingZero (start stop : Nat) : Except Error Unit :=
  if charAt raw start = '0' && stop > start + 1 then
    bad base start (start + 1) "unexpected leading zero" []
  else pure ()

/-- The first offset in `[start, stop)` whose character passes `p`, or `stop`. -/
def findFrom (p : Char → Bool) (start stop : Nat) : Nat :=
  ((offsets start stop).find? (fun j => p (charAt raw j))).getD stop

/-- One part of a float from `start` on: a run of digits and underscores that
holds a digit. Gives the end of the run. -/
def floatPart (start : Nat) (what : String) : Except Error Nat := do
  let stop := findFrom raw (fun c => !(c.isDigit || c = '_')) start raw.size
  if !(offsets start stop).any (fun j => (charAt raw j).isDigit) then
    bad base start start what [.description "digits"]
  pure stop

/-- A float from `start` on: a mantissa, then an optional fraction after a
point, then an optional exponent after `e` or `E` and a sign, and nothing more;
only then are its underscores checked. A mantissa of two or more digits has no
leading zero; a lone zero followed by underscores is left to the check of
underscores. -/
def checkFloat (start : Nat) : Except Error Unit := do
  let i ← floatPart raw base start "invalid mantissa"
  if ((offsets start i).filter (fun j => (charAt raw j).isDigit)).length > 1 then
    checkLeadingZero raw base start i
  let i ← if i < raw.size && charAt raw i = '.' then floatPart raw base (i + 1) "invalid fraction"
    else pure i
  let i ← if i < raw.size && (charAt raw i = 'e' || charAt raw i = 'E') then
      let s := if charAt raw (i + 1) = '+' || charAt raw (i + 1) = '-' then i + 2 else i + 1
      floatPart raw base s "invalid exponent"
    else pure i
  if i < raw.size then bad base i raw.size "invalid float" []
  checkSeparators raw base Char.isDigit start raw.size

/-- A decimal integer from `start` on. -/
def checkInteger (start : Nat) : Except Error Unit := do
  checkLeadingZero raw base start raw.size
  checkSeparators raw base isHexDigit start raw.size

/-- The digits of a number in `radix` from `start` on. -/
def checkRadix (start : Nat) (radix : Nat) : Except Error Unit := do
  if charAt raw start = '+' || charAt raw start = '-' then
    bad base start (start + 1) "unexpected sign" []
  match (offsets start raw.size).find? (fun j => !isDigitOf radix (charAt raw j) && charAt raw j ≠ '_') with
  | some j => .error ⟨Span.shift base (Span.point j), radixFault radix⟩
  | none => checkSeparators raw base isHexDigit start raw.size

/-- The text from `start` on without its underscores. -/
def cleaned (start : Nat) : String :=
  String.ofList ((raw.toList.drop start).filter (· ≠ '_'))

/-- Whether the text holds a blank. -/
def hasBlank : Bool := raw.contains ' '

/-- Whether the text starts with digits followed by a `-` or a `:`, as a
date-time does. -/
def datetimeLike : Bool :=
  let rest := raw.toList.dropWhile Char.isDigit
  rest.length < raw.size && (rest.head? = some '-' || rest.head? = some ':')

/-- The text from `start` on. -/
def tail (start : Nat) : List Char := raw.toList.drop start

/-- A word that must be written exactly as `word`. -/
def word (w : String) (v : Scalar) (what : String) : Except Error Scalar :=
  if raw.toList = w.toList then pure v
  else bad base 0 raw.size what [.literal w]

/-- A word of a float after a sign at `start - 1`. -/
def signedWord (start : Nat) (w : String) : Except Error Scalar :=
  if tail raw start = w.toList then pure (.float (String.ofList raw.toList))
  else bad base start raw.size "invalid float" [.literal w]

/-- A number whose digits start at `start`: a date-time, a float or a
decimal integer, by what follows its first digits. -/
def numberFrom (start : Nat) : Except Error Scalar := do
  let digitsEnd := findFrom raw (fun c => !c.isDigit) start raw.size
  if digitsEnd = raw.size then
    checkInteger raw base start
    pure (.integer (cleaned raw 0) 10)
  else
    let rest := tail raw digitsEnd
    if rest.head? = some '-' || rest.head? = some ':' then
      pure (.datetime (String.ofList raw.toList))
    else if rest.any (fun c => c = '.' || c = 'e' || c = 'E') then
      checkFloat raw base start
      pure (.float (cleaned raw 0))
    else if rest.head? = some '_' then
      checkInteger raw base start
      pure (.integer (cleaned raw 0) 10)
    else unquoted raw base

/-- A number with a radix after the `0` at `start`, `mark` its lowercase prefix. -/
def radixFrom (start : Nat) (signed : Bool) (radix : Nat) (mark : String) :
    Except Error Scalar := do
  if signed then bad base 0 1 "integers with a radix cannot be signed" []
  if (charAt raw (start + 1)).isUpper then
    bad base start (start + 2) "radix must be lowercase" [.literal mark]
  checkRadix raw base (start + 2) radix
  pure (.integer (cleaned raw (start + 2)) radix)

/-- A number that starts with the `0` at `start`. -/
def zeroFrom (start : Nat) (signed : Bool) : Except Error Scalar := do
  if raw.size = start + 1 then pure (.integer (cleaned raw 0) 10)
  else
    match charAt raw (start + 1) with
    | 'x' | 'X' => radixFrom raw base start signed 16 "0x"
    | 'o' | 'O' => radixFrom raw base start signed 8 "0o"
    | 'b' | 'B' => radixFrom raw base start signed 2 "0b"
    | 'd' | 'D' =>
      if signed then bad base 0 1 "integers with a radix cannot be signed" []
      bad base start (start + 2) "redundant integer number prefix" []
    | _ => numberFrom raw base start

/-- A float that starts with a point, possibly after a sign. -/
def pointed : Except Error Scalar := do
  checkFloat raw base 0
  pure (.float (cleaned raw 0))

/-- What follows the sign at the start. -/
def afterSign : Except Error Scalar :=
  match raw[1]? with
  | none => unquoted raw base
  | some c =>
    if c = '+' || c = '-' then bad base 1 2 "redundant numeric sign" []
    else if c = '_' || ('1' ≤ c && c ≤ '9') then numberFrom raw base 1
    else if c = '0' then zeroFrom raw base 1 true
    else if c = '.' then pointed raw base
    else if c = 'i' || c = 'I' then signedWord raw base 1 "inf"
    else if c = 'n' || c = 'N' then signedWord raw base 1 "nan"
    else unquoted raw base

/-- What unquoted text stands for; `base` is where it starts in the document.
Text with a blank in it can only be a date-time. -/
def ofText : Except Error Scalar :=
  match raw[0]? with
  | none => unquoted raw base
  | some c =>
    if hasBlank raw && !datetimeLike raw then unquoted raw base
    else if c = '+' || c = '-' then afterSign raw base
    else if c = '_' || ('1' ≤ c && c ≤ '9') then numberFrom raw base 0
    else if c = '0' then zeroFrom raw base 0 false
    else if c = '.' then pointed raw base
    else if c = 't' || c = 'T' then word raw base "true" (.boolean true) "invalid boolean"
    else if c = 'f' || c = 'F' then word raw base "false" (.boolean false) "invalid boolean"
    else if c = 'i' || c = 'I' then word raw base "inf" (.float "inf") "invalid float"
    else if c = 'n' || c = 'N' then word raw base "nan" (.float "nan") "invalid float"
    else unquoted raw base

end

end Scalar

end Toml

end CilBind
