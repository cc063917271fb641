import CilBind.Signature.Types
import CilBind.Signature.Compressed

/-!
# `CilBind.Signature.Writer`: signature blobs from what they describe

The canonical blob of a signature: every count, index and tag as the shortest
compressed integer, and every array lower bound in the signed form.

* A type is its element type tag and what the tag calls for: a coded index for
  a class or value type, modifiers and the element for a single-dimensional
  array or a pointer, the element and the shape for an array, the kind tag, the
  coded index, the count and the arguments for a generic instantiation, the
  number for a generic parameter, and the method signature for a function
  pointer.
* A coded index is the row shifted left by two, the table's tag below it
  (`TypeDef` 0, `TypeRef` 1, `TypeSpec` 2); a modifier is `0x1F` (required) or
  `0x20` (optional) and the coded index.
* A parameter is its modifiers, `0x10` when by reference, and its type.
* A method is its header, the generic count when `GENERIC` is set, the count of
  parameters and varargs, the return, the parameters, and the sentinel `0x41`
  before the varargs when there are any.
* A field is `0x06`, its modifiers and its type; a property its header (`0x08`,
  with `0x20` when it has `this`), the parameter count, its modifiers, its type
  and its parameters; locals are `0x07`, the count, then each local's
  modifiers, `0x45` when pinned, `0x10` when by reference, and its type.
-/

set_option autoImplicit false

namespace CilBind

/-- The coded index of a type row. -/
def TypeRow.codedIndex (r : TypeRow) : UInt32 :=
  let tag : UInt32 := match r.table with
    | .typeDef => 0
    | .typeRef => 1
    | .typeSpec => 2
  (r.index <<< 2) ||| tag

/-- The blob of a type row's coded index. -/
def TypeRow.encode (r : TypeRow) : Except SigError (List UInt8) := Compressed.write r.codedIndex

/-- The blob of a custom modifier. -/
def CustomMod.encode (m : CustomMod) : Except SigError (List UInt8) := do
  let tag := if m.required then ElementType.cmodReqd else ElementType.cmodOpt
  pure ((← Compressed.write tag.code) ++ (← m.ty.encode))

/-- The blob of a list of custom modifiers. -/
def CustomMod.encodeAll : List CustomMod → Except SigError (List UInt8)
  | [] => .ok []
  | m :: ms => do pure ((← m.encode) ++ (← encodeAll ms))

/-- The blob of signed integers. -/
def Compressed.writeSignedAll : List Int32 → Except SigError (List UInt8)
  | [] => .ok []
  | x :: xs => do pure ((← Compressed.writeSigned x) ++ (← writeSignedAll xs))

/-- The blob of an array shape: rank, the sizes after their count, the lower
bounds after theirs. -/
def ArrayShape.encode (s : ArrayShape) : Except SigError (List UInt8) := do
  pure ((← Compressed.write s.rank) ++ (← Compressed.encode (s.sizes.length.toUInt32 :: s.sizes)) ++
    (← Compressed.write s.lowerBounds.length.toUInt32) ++ (← Compressed.writeSignedAll s.lowerBounds))

/-- The blob of an element type tag. -/
def ElementType.encode (et : ElementType) : Except SigError (List UInt8) := Compressed.write et.code

mutual

/-- The blob of a type. -/
def TypeSig.encode : TypeSig → Except SigError (List UInt8)
  | .primitive et => et.encode
  | .classRow r => do pure ((← ElementType.classType.encode) ++ (← r.encode))
  | .valueTypeRow r => do pure ((← ElementType.valueType.encode) ++ (← r.encode))
  | .szArray mods e => do
    pure ((← ElementType.szArray.encode) ++ (← CustomMod.encodeAll mods) ++ (← TypeSig.encode e))
  | .array e shape => do
    pure ((← ElementType.array.encode) ++ (← TypeSig.encode e) ++ (← shape.encode))
  | .ptr mods e => do
    pure ((← ElementType.ptr.encode) ++ (← CustomMod.encodeAll mods) ++ (← TypeSig.encode e))
  | .byRef e => do pure ((← ElementType.byRef.encode) ++ (← TypeSig.encode e))
  | .genericInst vt base args => do
    let kind := if vt then ElementType.valueType else ElementType.classType
    pure ((← ElementType.genericInst.encode) ++ (← kind.encode) ++ (← base.encode) ++
      (← Compressed.write args.length.toUInt32) ++ (← TypeSig.encodeList args))
  | .var n => do pure ((← ElementType.var.encode) ++ (← Compressed.write n))
  | .mvar n => do pure ((← ElementType.mvar.encode) ++ (← Compressed.write n))
  | .fnPtr m => do pure ((← ElementType.fnPtr.encode) ++ (← MethodSig.encode m))

/-- The blobs of types, one after another. -/
def TypeSig.encodeList : List TypeSig → Except SigError (List UInt8)
  | [] => .ok []
  | t :: ts => do pure ((← TypeSig.encode t) ++ (← TypeSig.encodeList ts))

/-- The blob of a parameter. -/
def ParamSig.encode : ParamSig → Except SigError (List UInt8)
  | .mk mods ty byRef => do
    let marker ← if byRef then ElementType.byRef.encode else pure []
    pure ((← CustomMod.encodeAll mods) ++ marker ++ (← TypeSig.encode ty))

/-- The blobs of parameters, one after another. -/
def ParamSig.encodeList : List ParamSig → Except SigError (List UInt8)
  | [] => .ok []
  | p :: ps => do pure ((← ParamSig.encode p) ++ (← ParamSig.encodeList ps))

/-- The blob of a method signature. -/
def MethodSig.encode : MethodSig → Except SigError (List UInt8)
  | .mk flags generic ret params varargs => do
    let header ← Compressed.write flags
    let arity ← if flags &&& 0x10 != 0 then Compressed.write generic else pure []
    let count ← Compressed.write (params.length + varargs.length).toUInt32
    let r ← ParamSig.encode ret
    let ps ← ParamSig.encodeList params
    let vs ← ParamSig.encodeList varargs
    let sentinel ← if varargs.isEmpty then pure [] else ElementType.sentinel.encode
    pure (header ++ arity ++ count ++ r ++ ps ++ sentinel ++ vs)

end

/-- The blob of a field signature. -/
def FieldSig.encode (f : FieldSig) : Except SigError (List UInt8) := do
  pure ([0x06] ++ (← CustomMod.encodeAll f.mods) ++ (← f.ty.encode))

/-- The blob of a property signature. -/
def PropertySig.encode (p : PropertySig) : Except SigError (List UInt8) := do
  let header : UInt8 := if p.hasThis then 0x28 else 0x08
  pure ([header] ++ (← Compressed.write p.params.length.toUInt32) ++ (← CustomMod.encodeAll p.mods) ++
    (← p.ty.encode) ++ (← ParamSig.encodeList p.params))

/-- The blob of one local variable. -/
def LocalSig.encode (l : LocalSig) : Except SigError (List UInt8) := do
  let pinned ← if l.pinned then ElementType.pinned.encode else pure []
  let byRef ← if l.byRef then ElementType.byRef.encode else pure []
  pure ((← CustomMod.encodeAll l.mods) ++ pinned ++ byRef ++ (← l.ty.encode))

/-- The blob of a local variable signature. -/
def LocalSig.encodeAll (ls : List LocalSig) : Except SigError (List UInt8) := do
  let each ← ls.mapM LocalSig.encode
  pure ([0x07] ++ (← Compressed.write ls.length.toUInt32) ++ each.flatten)

end CilBind
