import CilBind.Meta.Member
import CilBind.Text.Hex

/-!
# `CilBind.Code.Token`: metadata tokens and the table they resolve in

A token is a 32-bit number: a table number in its high byte and a row below it.
It resolves to a method, a field, a type, a string, a member named by `ldtoken`,
or the bytes of a standalone signature.

A token table maps tokens to what they resolve to. Writing a token replaces what
it held before, so the last write wins. A table can also hand out tokens: each
metadata table counts its own rows from one, and the next row of a table is one
more than the rows it has handed out, whatever was written at explicit tokens.

Main statements:

* `resolve_insertAt`: a token resolves to what was last written at it.
* `resolve_insertAt_of_ne`: writing one token leaves every other as it was.
-/

set_option autoImplicit false

namespace CilBind

/-- A member that an `ldtoken` operand names. -/
inductive Member where
  | type (t : TypeRef)
  | method (m : MethodRef)
  | field (f : FieldRef)

/-- What a token resolves to. -/
inductive Resolved where
  | method (m : MethodRef)
  | field (f : FieldRef)
  | type (t : TypeRef)
  | string (s : String)
  | member (m : Member)
  | signature (blob : List UInt8)

/-- The name of what a token resolved to, for messages. -/
def Resolved.kindName : Resolved → String
  | .method _ => "method"
  | .field _ => "field"
  | .type _ => "type"
  | .string _ => "string"
  | .member _ => "member"
  | .signature _ => "signature"

/-- Tokens with what they resolve to, newest first, each token once; and the
rows each metadata table has handed out. -/
structure TokenTable where
  entries : List (UInt32 × Resolved)
  rows : List (UInt8 × Nat)

namespace TokenTable

/-- The table of type references. -/
def typeRefTable : UInt8 := 0x01
/-- The table of fields. -/
def fieldTable : UInt8 := 0x04
/-- The table of member references (methods). -/
def memberRefTable : UInt8 := 0x0A
/-- The table of standalone signatures. -/
def standaloneSigTable : UInt8 := 0x11
/-- The heap of user strings. -/
def userStringTable : UInt8 := 0x70

/-- The table with no tokens. -/
def empty : TokenTable := ⟨[], []⟩

/-- Writes `v` at `token`, replacing what the token held. -/
def insertAt (t : TokenTable) (token : UInt32) (v : Resolved) : TokenTable :=
  { t with entries := (token, v) :: t.entries.filter (fun e => e.1 != token) }

/-- The rows table `tbl` has handed out. -/
def rowsOf (t : TokenTable) (tbl : UInt8) : Nat :=
  match t.rows.find? (fun e => e.1 == tbl) with
  | some (_, n) => n
  | none => 0

/-- The token of the next row of table `tbl`. -/
def nextToken (t : TokenTable) (tbl : UInt8) : UInt32 :=
  (tbl.toUInt32 <<< 24) ||| (t.rowsOf tbl + 1).toUInt32

/-- Writes `v` at the next row of table `tbl`; gives the table and the token. -/
def insert (t : TokenTable) (tbl : UInt8) (v : Resolved) : TokenTable × UInt32 :=
  let token := t.nextToken tbl
  let n := t.rowsOf tbl + 1
  let t' := t.insertAt token v
  ({ t' with rows := (tbl, n) :: t'.rows.filter (fun e => e.1 != tbl) }, token)

/-- How many tokens the table holds. -/
def size (t : TokenTable) : Nat := t.entries.length

/-- The message for a token the table does not hold. -/
def missingMessage (token : UInt32) : String :=
  s!"token {Hex.padded 10 token.toNat} is not present in the table"

/-- What `token` resolves to, or the message that it is missing. -/
def resolve (t : TokenTable) (token : UInt32) : Except String Resolved :=
  match t.entries.find? (fun e => e.1 == token) with
  | some (_, v) => .ok v
  | none => .error (missingMessage token)

theorem resolve_insertAt (t : TokenTable) (token : UInt32) (v : Resolved) :
    (t.insertAt token v).resolve token = .ok v := by
  simp [insertAt, resolve]

/-- Dropping the entries of `token` changes no look-up of another token. -/
theorem find?_filter_ne (es : List (UInt32 × Resolved)) {token other : UInt32}
    (h : other ≠ token) :
    (es.filter (fun e => e.1 != token)).find? (fun e => e.1 == other) =
      es.find? (fun e => e.1 == other) := by
  induction es with
  | nil => rfl
  | cons e es ih =>
    have hto : (token == other) = false := by simpa [beq_iff_eq] using fun x => h x.symm
    by_cases he : e.1 = token
    · obtain ⟨a, b⟩ := e
      simp only at he
      subst he
      simp [hto, ih]
    · by_cases ho : e.1 = other
      · obtain ⟨a, b⟩ := e
        simp only at ho
        subst ho
        simp [he]
      · simp [he, ho, ih]

theorem resolve_insertAt_of_ne (t : TokenTable) {token other : UInt32} (v : Resolved)
    (h : other ≠ token) : (t.insertAt token v).resolve other = t.resolve other := by
  have hne : (token == other) = false := by simpa [beq_iff_eq] using fun e => h e.symm
  simp only [insertAt, resolve, List.find?_cons, hne, find?_filter_ne t.entries h]

end TokenTable

end CilBind
