import CilBind.Float.Text
import CilBind.Text.Quoted
import CilBind.Toml.Grammar
import CilBind.Toml.Scalar
import CilBind.Toml.Strings
import CilBind.Toml.Value

/-!
# `CilBind.Toml.Document`: reading a TOML document into its tables

A document is read in two passes. The first finds its structure
(`Grammar.statements`) and stops at the first fault of structure anywhere in
it. The second walks the statements in order: for a pair it reads the text of
the key's parts, then that of the value (for arrays and inline tables, item by
item, each inline pair put into its table at once), and then puts the pair
into its table; for a header it first joins the previous table to the root,
then reads the key and starts the new table. The first fault of the second pass
is reported. So a fault of structure outranks any fault of text or of tables,
wherever they stand.

The tables that come out list their entries in the order of their keys, so
whoever reads them meets the keys in that order, not in the order written.

Numbers are kept as written and read only when asked for: an integer as a
64-bit signed number if it fits, else unsigned, else as a 128-bit signed
number, else unsigned; a float rounded to the nearest double, where an infinity
that was not written as `inf` means it overflowed. A value that is passed over
rather than asked for is still walked, and each number in it is read.
-/

set_option autoImplicit false

namespace CilBind

namespace Toml

-- Powers are core's natural-number powers (literal exponents are written at type
-- `Nat`), also where another `Pow` instance is in scope.
attribute [local instance (high)] instPowNat

section

variable (src : Array Char)

/-- The value of a scalar written over `span` in the form `form`. -/
def scalarValue (span : Span) (form : Form) : Except Error Value :=
  match form with
  | .bare => do
    match ← Scalar.ofText (src.extract span.start span.stop) span.start with
    | .boolean b => pure (.boolean b)
    | .integer ds radix => pure (.integer ds radix)
    | .float t => pure (.float t)
    | .datetime t =>
      match Datetime.ofText t.toList with
      | .ok d => pure (.datetime d)
      | .error f => .error ⟨span, f.message⟩
  | form => do pure (.string (← Strings.text src span form))

/-- The names of the parts of a key. -/
def keyNames (parts : List KeyPart) : Except Error (List Name) :=
  parts.mapM (fun p => do pure (← Strings.keyName src p, p.span))

mutual

/-- The value a node writes. -/
def nodeValue : Node → Except Error Value
  | .scalar span form => scalarValue src span form
  | .array _ items => do pure (.array (← nodeValues items))
  | .inline _ pairs => do pure (.table .inline (← inlineEntries [] pairs))

/-- The values of the items of an array, each with its span. -/
def nodeValues : List Node → Except Error (List (Value × Span))
  | [] => pure []
  | n :: ns => do
    let v ← nodeValue n
    pure ((v, n.span) :: (← nodeValues ns))

/-- The entries of an inline table after `acc`, pair by pair. -/
def inlineEntries (acc : Entries) : List (List KeyPart × Node) → Except Error Entries
  | [] => pure acc
  | (key, n) :: rest => do
    let names ← keyNames src key
    let v ← nodeValue n
    inlineEntries (← insertPair acc names v n.span) rest

end

/-- The tables after one more statement. -/
def Filling.step (s : Filling) : Statement → Except Error Filling
  | .pair key node => do
    let names ← keyNames src key
    let v ← nodeValue src node
    pure { s with current := ← insertPair s.current names v node.span }
  | .header key span isArray => do
    let s ← s.finish
    let names ← keyNames src key
    if isArray then pure (s.startArray names span) else s.startTable names span

end

mutual

/-- A value with every table in it listing its entries in the order of their
keys. -/
def Value.ordered : Value → Value
  | .array items => .array (orderedItems items)
  | .tables tables => .tables (orderedTables tables)
  | .table origin entries => .table origin (orderedValues entries).sorted
  | v => v

/-- The items of an array, each ordered. -/
def orderedItems : List (Value × Span) → List (Value × Span)
  | [] => []
  | (v, span) :: rest => (v.ordered, span) :: orderedItems rest

/-- The entries of a table, each value ordered, the entries left in place. -/
def orderedValues : Entries → Entries
  | [] => []
  | (k, v, span) :: rest => (k, v.ordered, span) :: orderedValues rest

/-- The tables of an array of tables, each ordered. -/
def orderedTables : List Entries → List Entries
  | [] => []
  | entries :: rest => (orderedValues entries).sorted :: orderedTables rest

end

/-- The root table of a document, or its first fault. Its tables list their
entries in the order of their keys. -/
def read (text : String) : Except Error Entries := do
  let src := text.toList.toArray
  let statements ← Grammar.statements src
  let s ← statements.foldlM (Filling.step src) Filling.empty
  pure (orderedValues (← s.finish).root).sorted

/-- The widths an integer is read in, narrowest first. -/
inductive Width where
  | signed64
  | unsigned64
  | signed128
  | unsigned128
  deriving DecidableEq, Repr

/-- The value of the digits of an integer in `radix`, with an optional sign. -/
def integerValue (digits : String) (radix : Nat) : Option Int :=
  let (negative, ds) := match digits.toList with
    | '+' :: ds => (false, ds)
    | '-' :: ds => (true, ds)
    | ds => (false, ds)
  if ds.isEmpty || !ds.all (Scalar.isDigitOf radix) then none
  else
    let n := ds.foldl (fun acc c => acc * radix + (Hex.digitValue? c).getD 0) 0
    some (if negative then -(n : Int) else n)

/-- The narrowest width an integer fits, with its value. -/
def integerWidth (digits : String) (radix : Nat) : Option (Width × Int) := do
  let n ← integerValue digits radix
  let unsignedOk := !digits.startsWith "-"
  if -(2 ^ (63 : Nat) : Int) ≤ n && n < 2 ^ (63 : Nat) then some (.signed64, n)
  else if unsignedOk && 0 ≤ n && n < 2 ^ (64 : Nat) then some (.unsigned64, n)
  else if -(2 ^ (127 : Nat) : Int) ≤ n && n < 2 ^ (127 : Nat) then some (.signed128, n)
  else if unsignedOk && 0 ≤ n && n < 2 ^ (128 : Nat) then some (.unsigned128, n)
  else none

/-- The number of decimal digits of `n`, one for zero. -/
def decimalLength (n : Nat) : Nat := (toString n).length

/-- `m · 10^e` rounded to a double; far out of range it is an infinity or zero
without being computed. -/
def scaled (m : Nat) (e : Int) : Float :=
  if m = 0 then 0
  else if e > 400 then 1 / 0
  else if e + decimalLength m < -400 then 0
  else if e ≥ 0 then Float.ofScientific m false e.toNat
  else Float.ofScientific m true e.natAbs

/-- The double a float's text stands for, before any check of overflow:
a sign, digits with an optional fraction, an optional exponent; or `inf` and
`nan` after an optional sign. -/
def floatValue (text : String) : Float :=
  let (negative, rest) := match text.toList with
    | '+' :: r => (false, r)
    | '-' :: r => (true, r)
    | r => (false, r)
  let magnitude : Float :=
    if rest = ['i', 'n', 'f'] then 1 / 0
    else if rest = ['n', 'a', 'n'] then 0 / 0
    else
      let mantissa := rest.takeWhile (fun c => c ≠ 'e' && c ≠ 'E')
      let exponent := (rest.dropWhile (fun c => c ≠ 'e' && c ≠ 'E')).drop 1
      let whole := mantissa.takeWhile (· ≠ '.')
      let fraction := (mantissa.dropWhile (· ≠ '.')).drop 1
      let digitsOf (cs : List Char) : Nat := cs.foldl (fun n c => 10 * n + (c.toNat - 48)) 0
      let e : Int := match exponent with
        | '-' :: ds => -(digitsOf ds : Int)
        | '+' :: ds => digitsOf ds
        | ds => digitsOf ds
      scaled (digitsOf (whole ++ fraction)) (e - fraction.length)
  if negative then -magnitude else magnitude

/-- A float as a value of a data model writes it: the shortest decimal, with
`.0` added to a finite number that has no point. -/
def floatText (x : Float) : String :=
  let t := Floating.text64 x
  if !x.isNaN && !x.isInf && !t.contains '.' then t ++ ".0" else t

/-- What a value is, said to a reader that expected something else; reading a
number that fits no width, or a float that overflowed, is its own error. -/
def Value.unexpected : Value → Except String String
  | .string s => .ok ("string " ++ Quoted.quote s)
  | .integer ds radix =>
    match integerWidth ds radix with
    | some (.signed128, n) => .ok s!"integer `{n}` as i128"
    | some (.unsigned128, n) => .ok s!"integer `{n}` as u128"
    | some (_, n) => .ok s!"integer `{n}`"
    | none => .error "integer number overflowed"
  | .float t =>
    let x := floatValue t
    let written := (t.splitOn "inf").length > 1
    if x.isInf && !written then .error "floating-point number overflowed"
    else .ok s!"floating point `{floatText x}`"
  | .boolean b => .ok s!"boolean `{b}`"
  | .datetime _ | .table _ _ => .ok "map"
  | .array _ | .tables _ => .ok "sequence"

mutual

/-- Passing over a value written over `span` still reads every number in it,
item by item and entry by entry, and fails at the first that cannot be read. -/
def Value.passOver : Value → Span → Except Error Unit
  | .array items, _ => passOverItems items
  | .tables tables, _ => passOverTables tables
  | .table _ entries, _ => passOverEntries entries
  | v, span =>
    match v.unexpected with
    | .ok _ => .ok ()
    | .error message => .error ⟨span, message⟩

/-- Passing over the items of an array. -/
def passOverItems : List (Value × Span) → Except Error Unit
  | [] => .ok ()
  | (v, span) :: rest => do
    v.passOver span
    passOverItems rest

/-- Passing over the entries of a table. -/
def passOverEntries : Entries → Except Error Unit
  | [] => .ok ()
  | (_, v, span) :: rest => do
    v.passOver span
    passOverEntries rest

/-- Passing over the tables of an array of tables. -/
def passOverTables : List Entries → Except Error Unit
  | [] => .ok ()
  | entries :: rest => do
    passOverEntries entries
    passOverTables rest

end

end Toml

end CilBind
