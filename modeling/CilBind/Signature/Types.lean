import CilBind.Signature.ElementType
import CilBind.Text.Hex

/-!
# `CilBind.Signature.Types`: what a signature blob describes

A type in a blob is a primitive tag, a class or value type row, a single- or
multi-dimensional array, a pointer, a by-reference type, a generic instantiation,
a type or method generic parameter, or a function pointer with its own method
signature. Class and value type rows are coded indices into one of three
metadata tables; a row's token has the table number in its high byte and the
row index below it.

The header of a signature holds the calling convention in its low four bits and
the flags `GENERIC` (`0x10`), `HAS_THIS` (`0x20`) and `EXPLICIT_THIS` (`0x40`)
above. A call through a method signature pops one value per parameter and
vararg, and one for `this` when `HAS_THIS` is set without `EXPLICIT_THIS`.

The text of a type: a primitive by its tag name, `class 0x01000002`,
`valuetype …`, `E[]`, `E[rank N]`, `E*`, `E&`, `0x…<A, B>`, `!n`, `!!n` and
`method*`.
-/

set_option autoImplicit false

namespace CilBind

/-- The metadata tables a class or value type row can point into. -/
inductive TypeTable where
  | typeDef
  | typeRef
  | typeSpec
  deriving DecidableEq, Repr

namespace TypeTable

/-- The table number in the high byte of a token. -/
def number : TypeTable → UInt32
  | typeDef => 0x02
  | typeRef => 0x01
  | typeSpec => 0x1B

/-- The table's name. -/
def name : TypeTable → String
  | typeDef => "TypeDef"
  | typeRef => "TypeRef"
  | typeSpec => "TypeSpec"

end TypeTable

/-- A row of a type table, decoded from a coded index. -/
structure TypeRow where
  table : TypeTable
  index : UInt32
  deriving DecidableEq, Repr

/-- The metadata token of the row: the table number shifted into the high byte, or-ed
with the index. The index is not masked to the 24 bits below the table byte. -/
def TypeRow.token (r : TypeRow) : UInt32 := (r.table.number <<< 24) ||| r.index

/-- A required (`modreq`) or optional (`modopt`) custom modifier. -/
structure CustomMod where
  required : Bool
  ty : TypeRow
  deriving DecidableEq, Repr

/-- The rank, sizes and lower bounds of a multi-dimensional array. -/
structure ArrayShape where
  rank : UInt32
  sizes : List UInt32
  lowerBounds : List Int32
  deriving DecidableEq, Repr

mutual

/-- A type as a blob describes it. -/
inductive TypeSig where
  | primitive (et : ElementType)
  | classRow (row : TypeRow)
  | valueTypeRow (row : TypeRow)
  | szArray (mods : List CustomMod) (elem : TypeSig)
  | array (elem : TypeSig) (shape : ArrayShape)
  | ptr (mods : List CustomMod) (elem : TypeSig)
  | byRef (elem : TypeSig)
  | genericInst (valueType : Bool) (base : TypeRow) (args : List TypeSig)
  | var (n : UInt32)
  | mvar (n : UInt32)
  | fnPtr (sig : MethodSig)

/-- A parameter or return type with its modifiers. -/
inductive ParamSig where
  | mk (mods : List CustomMod) (ty : TypeSig) (byRef : Bool)

/-- A method definition or call-site signature. -/
inductive MethodSig where
  | mk (flags : UInt32) (genericParams : UInt32) (ret : ParamSig) (params : List ParamSig)
      (varargs : List ParamSig)

end

namespace ParamSig

/-- The modifiers before the parameter's type. -/
def mods : ParamSig → List CustomMod
  | mk m _ _ => m

/-- The parameter's type. -/
def ty : ParamSig → TypeSig
  | mk _ t _ => t

/-- Whether the parameter is passed by reference. -/
def byRef : ParamSig → Bool
  | mk _ _ b => b

end ParamSig

namespace MethodSig

/-- The header byte. -/
def flags : MethodSig → UInt32
  | mk f _ _ _ _ => f

/-- The number of generic parameters. -/
def genericParams : MethodSig → UInt32
  | mk _ g _ _ _ => g

/-- The return type. -/
def ret : MethodSig → ParamSig
  | mk _ _ r _ _ => r

/-- The parameters before the vararg sentinel. -/
def params : MethodSig → List ParamSig
  | mk _ _ _ p _ => p

/-- The parameters after the vararg sentinel. -/
def varargs : MethodSig → List ParamSig
  | mk _ _ _ _ v => v

/-- `HAS_THIS` is set and `EXPLICIT_THIS` is not. -/
def hasThis (m : MethodSig) : Bool :=
  m.flags &&& 0x20 != 0 && m.flags &&& 0x40 == 0

/-- The values a call through the signature pops. -/
def stackPops (m : MethodSig) : Nat :=
  m.params.length + m.varargs.length + if m.hasThis then 1 else 0

end MethodSig

namespace TypeSig

/-- The tag that starts the type in a blob. -/
def elementType : TypeSig → ElementType
  | primitive et => et
  | classRow _ => .classType
  | valueTypeRow _ => .valueType
  | szArray _ _ => .szArray
  | array _ _ => .array
  | ptr _ _ => .ptr
  | byRef _ => .byRef
  | genericInst _ _ _ => .genericInst
  | var _ => .var
  | mvar _ => .mvar
  | fnPtr _ => .fnPtr

/-- Whether the type is the primitive `Void`. -/
def isVoid : TypeSig → Bool
  | primitive .void => true
  | _ => false

/-- The text of a type. -/
def text : TypeSig → String
  | primitive et => et.name
  | classRow r => "class " ++ Hex.padded 10 r.token.toNat
  | valueTypeRow r => "valuetype " ++ Hex.padded 10 r.token.toNat
  | szArray _ e => e.text ++ "[]"
  | array e s => e.text ++ s!"[rank {s.rank}]"
  | ptr _ e => e.text ++ "*"
  | byRef e => e.text ++ "&"
  | genericInst _ b args => Hex.padded 10 b.token.toNat ++ "<" ++ textList args ++ ">"
  | var n => s!"!{n}"
  | mvar n => s!"!!{n}"
  | fnPtr _ => "method*"
where
  /-- The texts of a list of types, separated by commas. -/
  textList : List TypeSig → String
    | [] => ""
    | [t] => t.text
    | t :: ts => t.text ++ ", " ++ textList ts

end TypeSig

/-- A call through the signature leaves a value unless it returns void. -/
def MethodSig.returnsValue (m : MethodSig) : Bool := !m.ret.ty.isVoid

/-- A field signature: modifiers and a type. -/
structure FieldSig where
  mods : List CustomMod
  ty : TypeSig

/-- A property signature. -/
structure PropertySig where
  hasThis : Bool
  mods : List CustomMod
  ty : TypeSig
  params : List ParamSig

/-- One local variable of a local variable signature. -/
structure LocalSig where
  mods : List CustomMod
  pinned : Bool
  byRef : Bool
  ty : TypeSig

end CilBind
