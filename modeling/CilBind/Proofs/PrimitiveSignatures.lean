import CilBind.Proofs.SignatureRoundTrip
import CilBind.Code.Writer

/-!
# `CilBind.Proofs.PrimitiveSignatures`: call-site signatures over primitive types

`Encode.primitiveMethodSig hasThis ret params` writes the blob of a call-site
signature whose return and parameter types are bare element type tags: the
header, the parameter count, the return tag and the parameter tags, each as a
compressed integer. `calli` finds its arity in such a blob.

`primitiveMethodSig_calli_arity`: for tags that stand for a type on their own
(`ElementType.leaves`: `Void` to `R8`, `String`, `TypedByRef`, `I`, `U` and
`Object`) and at most `0x1FFFFFFF` parameters, the blob is written, and the
method reader reads all of it back as the signature it describes
(`MethodSig.primitive`): `this` as asked, the parameters in order, no varargs,
the return type and no generic parameters. A `calli` whose token resolves to
the blob then takes the arguments, `this` when there is one and the function
pointer, and leaves a value unless the return type is `Void`.

## How the proof goes

The blob is the canonical encoding of `MethodSig.primitive` (`encode_primitive`):
a tag below `0x80` is its own compressed form. That signature is well formed
(`primitive_wf`), so the signature round trip (`readMethod_reads`) reads it
back. No leaf tag is a custom modifier, the by-reference marker or the vararg
sentinel, which is why the reader's lookahead before each parameter undoes
itself.
-/

set_option autoImplicit false

namespace CilBind

/-- A parameter or return type that is a bare element type. -/
def ParamSig.ofElementType (et : ElementType) : ParamSig := .mk [] (.primitive et) false

/-- The signature `Encode.primitiveMethodSig hasThis ret params` describes: the
header `HAS_THIS` or nothing, no generic parameters, the bare return type and
the bare parameter types, and no varargs. -/
def MethodSig.primitive (hasThis : Bool) (ret : ElementType) (params : List ElementType) :
    MethodSig :=
  .mk (if hasThis then 0x20 else 0) 0 (.ofElementType ret) (params.map .ofElementType) []

namespace MethodSig

/-- The header of a primitive call site says `this` exactly as asked. -/
theorem hasThis_primitive (hasThis : Bool) (ret : ElementType) (params : List ElementType) :
    (primitive hasThis ret params).hasThis = hasThis := by
  cases hasThis <;> simp only [primitive, MethodSig.hasThis, MethodSig.flags] <;> decide

/-- A primitive call site takes its parameters, and `this` when it has one. -/
theorem stackPops_primitive (hasThis : Bool) (ret : ElementType) (params : List ElementType) :
    (primitive hasThis ret params).stackPops = params.length + if hasThis then 1 else 0 := by
  rw [stackPops, hasThis_primitive]
  simp [primitive, MethodSig.params, MethodSig.varargs]

/-- A primitive call site returns a value unless its return tag is `Void`. -/
theorem returnsValue_primitive (hasThis : Bool) (ret : ElementType) (params : List ElementType) :
    (primitive hasThis ret params).returnsValue = decide (ret ≠ .void) := by
  cases ret <;> rfl

end MethodSig

/-! ### The blob is the canonical encoding -/

/-- Tags, one after another, are their own bytes. -/
theorem Compressed.encode_codes (ets : List ElementType) :
    Compressed.encode (ets.map ElementType.code) = .ok (ets.map fun et => et.code.toUInt8) := by
  induction ets with
  | nil => rfl
  | cons et ets ih => simp [Compressed.encode, write_code, ih]

/-- A parameter that is a bare tag is written as the tag's byte. -/
theorem ParamSig.encode_ofElementType (et : ElementType) :
    (ParamSig.ofElementType et).encode = .ok [et.code.toUInt8] := by
  simp [ofElementType, ParamSig.encode, CustomMod.encodeAll, TypeSig.encode, encode_elementType]

/-- Parameters that are bare tags are written as their bytes, in order. -/
theorem ParamSig.encodeList_ofElementType (ets : List ElementType) :
    ParamSig.encodeList (ets.map ofElementType) = .ok (ets.map fun et => et.code.toUInt8) := by
  induction ets with
  | nil => rfl
  | cons et ets ih => simp [ParamSig.encodeList, encode_ofElementType, ih]

/-- The primitive blob is the canonical blob of the signature it describes. -/
theorem encode_primitive (hasThis : Bool) (ret : ElementType) (params : List ElementType) :
    (MethodSig.primitive hasThis ret params).encode =
      Encode.primitiveMethodSig hasThis ret params := by
  -- Neither header sets `GENERIC`, so no generic count is written.
  have hflags : (if hasThis then (0x20 : UInt32) else 0) &&& 0x10 = 0 := by
    cases hasThis <;> rfl
  have hhead : Compressed.write (if hasThis then 0x20 else 0) = .ok [if hasThis then 0x20 else 0] := by
    cases hasThis <;> rfl
  cases hcount : Compressed.write params.length.toUInt32 <;>
    simp [MethodSig.primitive, MethodSig.encode, Encode.primitiveMethodSig, Compressed.encode,
      hflags, hhead, hcount, ParamSig.encode_ofElementType, ParamSig.encodeList_ofElementType,
      Compressed.encode_codes, write_code, ParamSig.encodeList, bind, Except.bind, pure,
      Except.pure]

/-! ### The signature is well formed -/

/-- A parameter over a tag that stands alone is well formed. -/
theorem ParamSig.ofElementType_wf {et : ElementType} (het : et ∈ ElementType.leaves) :
    (ParamSig.ofElementType et).WF := by
  refine ⟨by simp, ?_, het⟩
  -- The by-reference marker is no leaf.
  intro hbyref
  simp only [TypeSig.elementType] at hbyref
  subst hbyref
  simp [ElementType.leaves] at het

/-- Parameters over tags that stand alone are well formed. -/
theorem ParamSig.wfList_ofElementType {ets : List ElementType}
    (hets : ∀ et ∈ ets, et ∈ ElementType.leaves) : ParamSig.WFList (ets.map ofElementType) := by
  induction ets with
  | nil => trivial
  | cons et ets ih =>
    exact ⟨ofElementType_wf (hets et List.mem_cons_self),
      ih fun e he => hets e (List.mem_cons_of_mem et he)⟩

/-- A primitive call site over tags that stand alone, with a count that has a
compressed form, is well formed. -/
theorem MethodSig.primitive_wf {hasThis : Bool} {ret : ElementType} {params : List ElementType}
    (hret : ret ∈ ElementType.leaves) (hparams : ∀ et ∈ params, et ∈ ElementType.leaves)
    (hlen : params.length ≤ 0x1FFFFFFF) : (primitive hasThis ret params).WF := by
  refine ⟨?_, ?_, fun _ => rfl, by decide, by simpa [Compressed.maxValue] using hlen,
    ParamSig.ofElementType_wf hret, ParamSig.wfList_ofElementType hparams, trivial⟩ <;>
    cases hasThis <;> decide

/-! ### Reading the blob back -/

/-- The method reader started at a blob it reads from its first byte to its last. -/
theorem SigReader.readMethod_ofBytes {m : MethodSig} {bs : List UInt8} (hwf : m.WF)
    (he : m.encode = .ok bs) :
    ∃ l, SigReader.readMethod (SigReader.ofBytes bs) = .ok m ⟨bs, bs.length, l⟩ := by
  obtain ⟨l, h⟩ := SigReader.readMethod_reads hwf he (SigReader.ofBytes bs) [] (Set.mem_univ _)
    (by simp [SigReader.ofBytes])
  exact ⟨l, by simpa [SigReader.ofBytes] using h⟩

/-- The counts of a `calli` whose token names the blob of a signature the reader
reads back: the signature's values and the function pointer, and a result unless
it returns `Void`. -/
theorem Instruction.calli_counts {i : Instruction} {t : TokenRef} {blob : List UInt8}
    {m : MethodSig} {l : Option Nat} (hop : i.opcode = .calli) (ht : i.operand = .token t)
    (hres : t.resolve = .ok (.signature blob))
    (hread : SigReader.readMethod (SigReader.ofBytes blob) = .ok m ⟨blob, blob.length, l⟩)
    (rv : Bool) :
    i.stackPops rv = .ok (m.stackPops + 1) ∧
      i.stackPushes = .ok (if m.returnsValue then 1 else 0) := by
  have hsite : Instruction.callSite t = .ok m := by
    simp [Instruction.callSite, TokenRef.signature, hres, hread]
  have htok : i.expectToken = .ok t := by
    simp [Instruction.expectToken, Instruction.token?, ht]
  have hinfo : i.opcode.info.pop = .var ∧ i.opcode.info.push = .var := by
    rw [hop]
    exact ⟨rfl, rfl⟩
  constructor
  · rw [Instruction.stackPops, hinfo.1]
    simp [hop, htok, hsite]
  · rw [Instruction.stackPushes, hinfo.2]
    simp [hop, htok, hsite]

/-- **`calli` arity follows the primitive signature.** For leaf element types and at
most `0x1FFFFFFF` parameters, the primitive blob is written, the method reader
reads all of it back as `this` as asked, the parameters in order, no varargs,
the return type and no generic parameters; and a `calli` whose token resolves to
the blob takes the parameters, `this` when there is one and the function pointer,
and leaves a value exactly when the return type is not `Void`. -/
theorem primitiveMethodSig_calli_arity (hasThis : Bool) (ret : ElementType)
    (params : List ElementType) (hret : ret ∈ ElementType.leaves)
    (hparams : ∀ et ∈ params, et ∈ ElementType.leaves) (hlen : params.length ≤ 0x1FFFFFFF) :
    ∃ blob, Encode.primitiveMethodSig hasThis ret params = .ok blob ∧
      (∃ m l, SigReader.readMethod (SigReader.ofBytes blob) = .ok m ⟨blob, blob.length, l⟩ ∧
        m.hasThis = hasThis ∧ m.params = params.map ParamSig.ofElementType ∧ m.varargs = [] ∧
        m.ret = ParamSig.ofElementType ret ∧ m.genericParams = 0) ∧
      ∀ (i : Instruction) (t : TokenRef) (rv : Bool), i.opcode = .calli → i.operand = .token t →
        t.resolve = .ok (.signature blob) →
        i.stackPops rv = .ok (params.length + (if hasThis then 1 else 0) + 1) ∧
          i.stackPushes = .ok (if ret = .void then 0 else 1) := by
  have hwf : (MethodSig.primitive hasThis ret params).WF := MethodSig.primitive_wf hret hparams hlen
  obtain ⟨blob, he⟩ := MethodSig.encode_ok _ hwf
  obtain ⟨l, hread⟩ := SigReader.readMethod_ofBytes hwf he
  refine ⟨blob, (encode_primitive hasThis ret params).symm.trans he,
    ⟨_, l, hread, MethodSig.hasThis_primitive .., rfl, rfl, rfl, rfl⟩, ?_⟩
  intro i t rv hop ht hres
  obtain ⟨hpops, hpushes⟩ := Instruction.calli_counts hop ht hres hread rv
  rw [hpops, hpushes, MethodSig.stackPops_primitive, MethodSig.returnsValue_primitive]
  by_cases hvoid : ret = .void <;> simp [hvoid]

/-- A static call site taking a string and a double and returning an `int32`. -/
theorem stringDoubleSig_calli_arity :
    (ElementType.i4 ∈ ElementType.leaves ∧ (∀ et ∈ [ElementType.string, .r8], et ∈ ElementType.leaves) ∧
      [ElementType.string, .r8].length ≤ 0x1FFFFFFF) ∧
    ∃ blob, Encode.primitiveMethodSig false .i4 [.string, .r8] = .ok blob ∧
      (∃ m l, SigReader.readMethod (SigReader.ofBytes blob) = .ok m ⟨blob, blob.length, l⟩ ∧
        m.hasThis = false ∧ m.params = [ElementType.string, .r8].map ParamSig.ofElementType ∧
        m.varargs = [] ∧ m.ret = ParamSig.ofElementType .i4 ∧ m.genericParams = 0) ∧
      ∀ (i : Instruction) (t : TokenRef) (rv : Bool), i.opcode = .calli → i.operand = .token t →
        t.resolve = .ok (.signature blob) →
        i.stackPops rv = .ok ([ElementType.string, .r8].length + (if false then 1 else 0) + 1) ∧
          i.stackPushes = .ok (if ElementType.i4 = .void then 0 else 1) :=
  ⟨⟨by decide, by decide, by decide⟩,
    primitiveMethodSig_calli_arity false .i4 [.string, .r8] (by decide) (by decide) (by decide)⟩

end CilBind
