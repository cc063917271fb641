import CilBind.Toml.Datetime
import CilBind.Toml.Error

/-!
# `CilBind.Toml.Value`: TOML values and the rules for filling tables

A table is a list of entries in the order their keys first appeared, each a
key, a value and the span that value was written over; once the document is
read, every table lists its entries in the order of their keys. A table remembers how
it came to be: written out under a header (or the document itself), named on
the way to a header's table, made by a dotted key, or written inline in braces.
An array of tables collects the tables of its `[[...]]` headers.

Filling tables follows these rules:

* a key names one value; naming it again is a duplicate key;
* a dotted key or a header walks down through tables, making those it lacks; it
  walks into the last table of an array of tables, and it cannot walk into
  any other value, nor into an inline table, which is closed once written;
* a dotted key cannot reopen a table written under a header, and a pair's last
  table must have been made by dotted keys exactly when its key is dotted;
* a header may define a table that was only named on the way so far, but no
  table twice, and an array-of-tables header only adds to an array of tables.
-/

set_option autoImplicit false

namespace CilBind

namespace Toml

/-- How a table came to be. -/
inductive Origin where
  /-- Written out under a header, or the document itself. -/
  | explicit
  /-- Named on the way to a header's table. -/
  | implicit
  /-- Made by a dotted key. -/
  | dotted
  /-- Written in braces. -/
  | inline
  deriving DecidableEq, Repr

/-- A TOML value. -/
inductive Value where
  | string (s : String)
  /-- An integer: its digits (with a sign when decimal) and their radix. -/
  | integer (digits : String) (radix : Nat)
  /-- A float as written, underscores removed. -/
  | float (text : String)
  | boolean (b : Bool)
  | datetime (d : Datetime)
  /-- The items of an array, each with the span it was written over. -/
  | array (items : List (Value × Span))
  /-- The tables of an array of tables, each a list of entries. -/
  | tables (items : List (List (String × Value × Span)))
  | table (origin : Origin) (entries : List (String × Value × Span))
  deriving Repr

/-- The entries of a table: key, value, and the span of the value. -/
abbrev Entries := List (String × Value × Span)

/-- How a value is named when it cannot be walked into. -/
def Value.typeName : Value → String
  | .string _ => "string"
  | .integer _ _ => "integer"
  | .float _ => "float"
  | .boolean _ => "boolean"
  | .datetime _ => "datetime"
  | .array _ => "array"
  | .tables _ => "array"
  | .table .inline _ => "inline table"
  | .table _ _ => "table"

namespace Entries

/-- The value under `k`, and its span. -/
def lookup (k : String) (es : Entries) : Option (Value × Span) :=
  (es.find? (·.1 == k)).map (·.2)

/-- The entries with the value under `k` replaced, in its place. -/
def replace (k : String) (v : Value) (es : Entries) : Entries :=
  es.map (fun e => if e.1 == k then (k, v, e.2.2) else e)

/-- The entries without `k`. -/
def erase (k : String) (es : Entries) : Entries := es.filter (·.1 != k)

/-- The entries in the order of their keys, compared code point by code point:
the order in which a finished table is read. -/
def sorted (es : Entries) : Entries := es.mergeSort (fun a b => decide (a.1 ≤ b.1))

end Entries

/-- A key of a table with the span it was written over. -/
abbrev Name := String × Span

/-- The error that `name` is a duplicate key. -/
def duplicate (name : Name) : Error := ⟨name.2, "duplicate key"⟩

/-- Walks from the table `es` down the names of `path`, making the tables it
lacks (made by a dotted key when `dotted`, else named on the way), and applies
`f` to the last table, told whether that table was made by a dotted key. The
walk gives the table back with the last table changed, and what `f` found. -/
def descend {α : Type} (dotted : Bool) (f : Bool → Entries → Except Error (Entries × α)) :
    List Name → Bool → Entries → Except Error (Entries × α)
  | [], byDots, es => f byDots es
  | (k, span) :: rest, _, es =>
    match es.lookup k with
    | none => do
      let (sub, a) ← descend dotted f rest dotted []
      pure (es ++ [(k, .table (if dotted then .dotted else .implicit) sub, span)], a)
    | some (.table .inline _, _) =>
      .error ⟨span, "cannot extend value of type inline table with a dotted key"⟩
    | some (.table origin sub, _) =>
      if dotted && origin == .explicit then .error (duplicate (k, span))
      else do
        let (sub, a) ← descend dotted f rest (origin == .dotted) sub
        pure (es.replace k (.table origin sub), a)
    | some (.tables items, _) =>
      match items.getLast? with
      | some last => do
        let (last, a) ← descend dotted f rest false last
        pure (es.replace k (.tables (items.dropLast ++ [last])), a)
      | none => .error ⟨span, "cannot extend value of type array with a dotted key"⟩
    | some (v, _) =>
      .error ⟨span, "cannot extend value of type " ++ v.typeName ++ " with a dotted key"⟩

/-- A list split into all but its last element, and that element. -/
def splitLast {α : Type} : List α → Option (List α × α)
  | [] => none
  | [a] => some ([], a)
  | a :: rest => (splitLast rest).map (fun (init, last) => (a :: init, last))

/-- Puts `value`, written over `span`, under the dotted key `path` into the
table `es`, which was not made by a dotted key. -/
def insertPair (es : Entries) (path : List Name) (value : Value) (span : Span) :
    Except Error Entries :=
  match splitLast path with
  | none => .ok es
  | some (pre, (k, kspan)) => do
    let put (byDots : Bool) (tbl : Entries) : Except Error (Entries × Unit) :=
      if byDots == pre.isEmpty then .error (duplicate (k, kspan))
      else match tbl.lookup k with
        | some _ => .error (duplicate (k, kspan))
        | none => .ok (tbl ++ [(k, value, span)], ())
    let (es, _) ← descend true put pre false es
    pure es

/-- The tables of a document as its statements fill them: the root, and the
table the pairs go into now, which joins the root when the next header comes,
under its `path`, as a table or as the next table of an array of tables. -/
structure Filling where
  root : Entries
  current : Entries
  path : List Name
  isArray : Bool
  /-- The span of the header of the current table. -/
  span : Span

namespace Filling

/-- The start of a document: everything goes into the root. -/
def empty : Filling := ⟨[], [], [], false, Span.point 0⟩

/-- The current table joined to the root. -/
def finish (s : Filling) : Except Error Filling :=
  match splitLast s.path with
  | none => .ok { s with root := s.current }
  | some (pre, (k, kspan)) => do
    let join (_ : Bool) (tbl : Entries) : Except Error (Entries × Unit) :=
      match tbl.lookup k, s.isArray with
      | some (.tables items, _), true => .ok (tbl.replace k (.tables (items ++ [s.current])), ())
      | none, true => .ok (tbl ++ [(k, .tables [s.current], s.span)], ())
      | some (.table .implicit _, _), false
      | some (.table .dotted _, _), false => .ok (tbl.replace k (.table .explicit s.current), ())
      | none, false => .ok (tbl ++ [(k, .table .explicit s.current, s.span)], ())
      | _, _ => .error (duplicate (k, kspan))
    let (root, _) ← descend false join pre false s.root
    pure { s with root := root }

/-- The start of the table of the header `[path]` over `span`: a table named on
the way so far is taken up with what it holds. -/
def startTable (s : Filling) (path : List Name) (span : Span) : Except Error Filling :=
  match splitLast path with
  | none => .ok s
  | some (pre, (k, kspan)) => do
    let take (_ : Bool) (tbl : Entries) : Except Error (Entries × Entries) :=
      match tbl.lookup k with
      | some (.table .implicit sub, _) => .ok (tbl.erase k, sub)
      | some _ => .error (duplicate (k, kspan))
      | none => .ok (tbl, [])
    let (root, current) ← descend false take pre false s.root
    pure ⟨root, current, path, false, span⟩

/-- The start of the next table of the header `[[path]]` over `span`. Where
that table goes is looked up only when it is finished, so a fault of its place
is found after those of its pairs. -/
def startArray (s : Filling) (path : List Name) (span : Span) : Filling :=
  if path.isEmpty then s else ⟨s.root, [], path, true, span⟩

end Filling

end Toml

end CilBind
