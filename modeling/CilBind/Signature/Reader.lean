import CilBind.Signature.Compressed
import CilBind.Signature.Types

/-!
# `CilBind.Signature.Reader`: reading signature blobs

A reader is a blob, a position and the start of the last integer read. Every
successful integer read remembers where it started, so that one read can be
undone; a second undo before the next read fails. A failed read leaves the
position and the remembered start as they were, and a tag that is read but not
known still moves the position.

Each read is a step of `SigRead`, a state and error monad over the reader, so a
failed read hands back the reader as the failure left it.

Nested types and counted lists are read with a fuel bound that every nested
read and every list element spends one of. Every type, parameter and method
read consumes a byte before it reads anything nested, so eight steps per byte
left in the blob, and a few more, never run out (`fuelFor`).
-/

set_option autoImplicit false

namespace CilBind

/-- A cursor over a signature blob. -/
structure SigReader where
  bytes : List UInt8
  pos : Nat
  lastRead : Option Nat
  deriving DecidableEq, Repr

/-- A read from a signature blob: it ends with a value or an error, and with the
reader as it left it. -/
abbrev SigRead := EStateM SigError SigReader

namespace SigReader

/-- A reader at the start of a blob. -/
def ofBytes (bytes : List UInt8) : SigReader := ⟨bytes, 0, none⟩

/-- Whether the position is at or past the end of the blob. -/
def atEnd (r : SigReader) : Bool := r.pos ≥ r.bytes.length

/-- Reads one compressed integer. -/
def readU32 : SigRead UInt32 := fun r =>
  match Compressed.readAt r.bytes r.pos with
  | .ok (v, next) => .ok v { r with pos := next, lastRead := some r.pos }
  | .error e => .error e r

/-- Reads one signed compressed integer. -/
def readI32 : SigRead Int32 := fun r =>
  match Compressed.readSignedAt r.bytes r.pos with
  | .ok (v, next) => .ok v { r with pos := next, lastRead := some r.pos }
  | .error e => .error e r

/-- Undoes the most recent read; the remembered start is forgotten either way. -/
def rollback : SigRead Unit := fun r =>
  match r.lastRead with
  | some start => .ok () { r with pos := start, lastRead := none }
  | none => .error .doubleRollback r

/-- Reads a signature header. -/
def readFlags : SigRead UInt32 := readU32

/-- Reads an element type tag; an unknown number fails after it was read. -/
def readElementType : SigRead ElementType := do
  let raw ← readU32
  match ElementType.ofCode raw with
  | .ok et => pure et
  | .error e => throw e

/-- Reads a coded index into the type tables: the low two bits select the
table and the rest is the row. -/
def readTypeEncoded : SigRead TypeRow := do
  let encoded ← readU32
  let index := encoded >>> 2
  match encoded &&& 3 with
  | 0 => pure ⟨.typeDef, index⟩
  | 1 => pure ⟨.typeRef, index⟩
  | 2 => pure ⟨.typeSpec, index⟩
  | _ => throw (.unexpectedElementType encoded "TypeDefOrRef coded index")

/-- Reads a custom modifier if one comes next; otherwise the tag that was read
is undone. -/
def readCustomMod : SigRead (Option CustomMod) := do
  if (← get).atEnd then return none
  let tag ← readU32
  if tag = ElementType.cmodReqd.code then
    return some ⟨true, ← readTypeEncoded⟩
  else if tag = ElementType.cmodOpt.code then
    return some ⟨false, ← readTypeEncoded⟩
  else
    rollback
    return none

/-- Reads custom modifiers while they come; `fuel` bounds their number. -/
def readCustomModsFuel : Nat → SigRead (List CustomMod)
  | 0 => pure []
  | fuel + 1 => do
    match ← readCustomMod with
    | some m => return m :: (← readCustomModsFuel fuel)
    | none => return []

/-- The bytes left after the position. -/
def remaining (r : SigReader) : Nat := r.bytes.length - r.pos

/-- Reads custom modifiers while they come. Each takes at least one byte. -/
def readCustomMods : SigRead (List CustomMod) := do
  readCustomModsFuel ((← get).remaining + 1)

/-- Reads `n` compressed integers. -/
def readU32s : Nat → SigRead (List UInt32)
  | 0 => pure []
  | n + 1 => do
    let v ← readU32
    return v :: (← readU32s n)

/-- Reads `n` signed compressed integers. -/
def readI32s : Nat → SigRead (List Int32)
  | 0 => pure []
  | n + 1 => do
    let v ← readI32
    return v :: (← readI32s n)

/-- Reads an array shape: rank, sizes and lower bounds, each list after its
count. -/
def readArrayShape : SigRead ArrayShape := do
  let rank ← readU32
  let numSizes ← readU32
  let sizes ← readU32s numSizes.toNat
  let numBounds ← readU32
  let bounds ← readI32s numBounds.toNat
  return ⟨rank, sizes, bounds⟩

/-- The reader's position, for a failure that cannot happen. -/
def outOfFuel {α : Type} : SigRead α := do
  throw (.truncated (← get).pos)

mutual

/-- Reads a type: its tag, then what the tag calls for. -/
def readTypeFuel : Nat → SigRead TypeSig
  | 0 => outOfFuel
  | fuel + 1 => do
    let et ← readElementType
    readTypeAfter fuel et

/-- Reads what follows the tag `et` of a type. -/
def readTypeAfter : Nat → ElementType → SigRead TypeSig
  | 0, _ => outOfFuel
  | fuel + 1, et =>
    match et with
    | .void | .boolean | .char | .i1 | .u1 | .i2 | .u2 | .i4 | .u4 | .i8 | .u8 | .r4 | .r8
    | .i | .u | .string | .object | .typedByRef => pure (.primitive et)
    | .classType => return .classRow (← readTypeEncoded)
    | .valueType => return .valueTypeRow (← readTypeEncoded)
    | .szArray => do
      let mods ← readCustomMods
      return .szArray mods (← readTypeFuel fuel)
    | .array => do
      let elem ← readTypeFuel fuel
      return .array elem (← readArrayShape)
    | .ptr => do
      let mods ← readCustomMods
      return .ptr mods (← readTypeFuel fuel)
    | .byRef => return .byRef (← readTypeFuel fuel)
    | .genericInst => do
      let valueType ← do
        match ← readElementType with
        | .valueType => pure true
        | .classType => pure false
        | other => throw (.unexpectedElementType other.code "generic instantiation")
      let base ← readTypeEncoded
      let count ← readU32
      return .genericInst valueType base (← readTypesFuel fuel count.toNat)
    | .var => return .var (← readU32)
    | .mvar => return .mvar (← readU32)
    | .fnPtr => return .fnPtr (← readMethodFuel fuel)
    | other => throw (.unexpectedElementType other.code "type")

/-- Reads `n` types. -/
def readTypesFuel : Nat → Nat → SigRead (List TypeSig)
  | 0, _ => outOfFuel
  | _ + 1, 0 => pure []
  | fuel + 1, n + 1 => do
    let t ← readTypeFuel fuel
    return t :: (← readTypesFuel fuel n)

/-- Reads a parameter: modifiers, then a type that may be marked by-reference. -/
def readParamFuel : Nat → SigRead ParamSig
  | 0 => outOfFuel
  | fuel + 1 => do
    let mods ← readCustomMods
    let et ← readElementType
    if et = .byRef then
      return .mk mods (← readTypeFuel fuel) true
    else
      return .mk mods (← readTypeAfter fuel et) false

/-- Reads `n` parameters of a method. Before each parameter, until the vararg
sentinel has been seen, a tag is read: the sentinel moves the rest to the
varargs, anything else is undone. -/
def readMethodParams : Nat → Nat → Bool → SigRead (List ParamSig × List ParamSig)
  | 0, _, _ => outOfFuel
  | _ + 1, 0, _ => pure ([], [])
  | fuel + 1, n + 1, afterSentinel => do
    let after ← do
      if afterSentinel then pure true
      else
        let tag ← readU32
        if tag = ElementType.sentinel.code then pure true
        else
          rollback
          pure false
    let p ← readParamFuel fuel
    let (ps, vs) ← readMethodParams fuel n after
    if after then return (ps, p :: vs) else return (p :: ps, vs)

/-- Reads a method signature: header, generic count if `GENERIC` is set,
parameter count, return type and parameters. A calling convention above
`VARARG` (5) is no method. -/
def readMethodFuel : Nat → SigRead MethodSig
  | 0 => outOfFuel
  | fuel + 1 => do
    let flags ← readFlags
    if flags &&& 0x0F > 5 then throw (.notOnMethod flags)
    let generic ← if flags &&& 0x10 != 0 then readU32 else pure 0
    let count ← readU32
    let ret ← readParamFuel fuel
    let (ps, vs) ← readMethodParams fuel count.toNat false
    return .mk flags generic ret ps vs

end

/-- Enough fuel for every nested read from the reader's position. -/
def fuelFor (r : SigReader) : Nat := 8 * r.remaining + 16

/-- Reads a type. -/
def readType : SigRead TypeSig := do readTypeFuel (fuelFor (← get))

/-- Reads a parameter. -/
def readParam : SigRead ParamSig := do readParamFuel (fuelFor (← get))

/-- Reads a method signature. -/
def readMethod : SigRead MethodSig := do readMethodFuel (fuelFor (← get))

/-- Reads a field signature, whose header must be exactly `FIELD` (6). -/
def readField : SigRead FieldSig := do
  let flags ← readFlags
  if flags ≠ 6 then throw (.notOnField flags)
  let mods ← readCustomMods
  return ⟨mods, ← readType⟩

/-- Reads `n` parameters. -/
def readParams : Nat → SigRead (List ParamSig)
  | 0 => pure []
  | n + 1 => do
    let p ← readParam
    return p :: (← readParams n)

/-- Reads a property signature, whose header is `PROPERTY` (8), possibly with
`HAS_THIS`, and nothing else. -/
def readProperty : SigRead PropertySig := do
  let flags ← readFlags
  if flags &&& 0x0F ≠ 8 ∨ flags &&& ~~~(0x08 ||| 0x20) ≠ 0 then throw (.notOnProperty flags)
  let count ← readU32
  let mods ← readCustomMods
  let ty ← readType
  let params ← readParams count.toNat
  return ⟨flags &&& 0x20 != 0, mods, ty, params⟩

/-- Reads one local variable: modifiers, then `TypedByRef` alone, or a type that
may be marked pinned and then by-reference. -/
def readLocal : SigRead LocalSig := do
  let mods ← readCustomMods
  let et ← readElementType
  if et = .typedByRef then return ⟨mods, false, false, .primitive et⟩
  let pinned := et = .pinned
  let et ← if pinned then readElementType else pure et
  let byRef := et = .byRef
  let ty ← if byRef then readType else do readTypeAfter (fuelFor (← get)) et
  return ⟨mods, pinned, byRef, ty⟩

/-- Reads `n` local variables. -/
def readLocalList : Nat → SigRead (List LocalSig)
  | 0 => pure []
  | n + 1 => do
    let l ← readLocal
    return l :: (← readLocalList n)

/-- Reads a local variable signature, whose header must be exactly `LOCAL_SIG` (7). -/
def readLocals : SigRead (List LocalSig) := do
  let flags ← readFlags
  if flags ≠ 7 then throw (.notOnLocals flags)
  let count ← readU32
  readLocalList count.toNat

end SigReader

end CilBind
