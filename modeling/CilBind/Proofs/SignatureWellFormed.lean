import CilBind.Proofs.CompressedForms
import CilBind.Proofs.Outcome
import CilBind.Signature.Writer

/-!
# `CilBind.Proofs.SignatureWellFormed`: the descriptors the writer writes

The writer fails where a number has no compressed form, and writes blobs that no
reader could take apart where a primitive carries a tag that needs a payload or a
parameter's type is itself a by-reference type (the marker `0x10` already says
that). `TypeSig.WF` and its companions rule out exactly that:

* primitives only over the tags that stand alone (`ElementType.leaves`);
* rows, generic counts, variable numbers, flags, ranks and sizes with compressed
  forms, and lower bounds in the range of the signed form;
* a calling convention the method reader accepts, and a generic count only under
  `GENERIC`;
* no by-reference type at the top of a parameter or a local.

On such descriptors the writer succeeds (`TypeSig.encode_ok` through
`LocalSig.encodeAll_ok`, by mutual induction over types, parameters and methods).
The first byte of a blob is what the reader's lookahead looks at, so it is
recorded here too: a type's blob starts with its tag, below the modifier tags
(`TypeSig.encode_head`, `TypeSig.code_lt`), and a parameter's starts below the
vararg sentinel (`ParamSig.encode_head`).
-/

set_option autoImplicit false

namespace CilBind

/-- A row of a type table whose coded index has a compressed form. -/
def TypeRow.WF (r : TypeRow) : Prop := r.index.toNat < 2 ^ 27

/-- Shifting a number below `2 ^ 30` left by two and or-ing in a tag below four is
adding them. -/
theorem TypeRow.toNat_shift_or {x t : UInt32} (hx : x.toNat < 2 ^ 30) (ht : t.toNat < 4) :
    ((x <<< 2) ||| t).toNat = x.toNat * 4 + t.toNat := by
  simp only [UInt32.toNat_or, UInt32.toNat_shiftLeft, UInt32.reduceToNat, Nat.reduceMod,
    Nat.shiftLeft_eq, Nat.reducePow]
  rw [Nat.mod_eq_of_lt (by omega), Compressed.or_eq_add_of_mod (i := 2) (by omega) (by omega)]

/-- The row and the tag of a coded index come apart again. -/
theorem TypeRow.codedIndex_bits {x t : UInt32} (hx : x.toNat < 2 ^ 30) (ht : t.toNat < 4) :
    ((x <<< 2) ||| t) >>> 2 = x ∧ ((x <<< 2) ||| t) &&& 3 = t := by
  have hsum := TypeRow.toNat_shift_or hx ht
  constructor
  · apply UInt32.toNat_inj.mp
    simp only [UInt32.toNat_shiftRight, hsum, UInt32.reduceToNat, Nat.reduceMod,
      Nat.shiftRight_eq_div_pow]
    omega
  · apply UInt32.toNat_inj.mp
    simp only [UInt32.toNat_and, hsum, UInt32.reduceToNat]
    rw [show (3 : Nat) = 2 ^ 2 - 1 from rfl, Nat.and_two_pow_sub_one_eq_mod]
    omega

/-- An array shape whose rank, sizes and counts have compressed forms, with lower
bounds in the range of the signed form. -/
def ArrayShape.WF (s : ArrayShape) : Prop :=
  s.rank ≤ Compressed.maxValue ∧ (∀ v ∈ s.sizes, v ≤ Compressed.maxValue) ∧
    s.sizes.length ≤ Compressed.maxValue.toNat ∧ s.lowerBounds.length ≤ Compressed.maxValue.toNat ∧
    ∀ x ∈ s.lowerBounds, -(2 ^ 28 : Int) ≤ x.toInt ∧ x.toInt < 2 ^ 28

/-- A count with a compressed form is read back as itself. -/
theorem toNat_toUInt32_of_le {n : Nat} (h : n ≤ Compressed.maxValue.toNat) : n.toUInt32.toNat = n := by
  simp only [Compressed.maxValue, UInt32.reduceToNat] at h
  simp only [Nat.toUInt32, UInt32.toNat_ofNat']
  omega

/-- The tags that stand for a type on their own. -/
def ElementType.leaves : List ElementType :=
  [.void, .boolean, .char, .i1, .u1, .i2, .u2, .i4, .u4, .i8, .u8, .r4, .r8, .string, .typedByRef,
    .i, .u, .object]

mutual

/-- A type that the writer can write and the reader reads back: primitives over the
tags that stand alone, rows with coded indices and numbers with compressed forms. -/
def TypeSig.WF : TypeSig → Prop
  | .primitive et => et ∈ ElementType.leaves
  | .classRow r => r.WF
  | .valueTypeRow r => r.WF
  | .szArray mods e => (∀ m ∈ mods, m.ty.WF) ∧ e.WF
  | .array e s => e.WF ∧ s.WF
  | .ptr mods e => (∀ m ∈ mods, m.ty.WF) ∧ e.WF
  | .byRef e => e.WF
  | .genericInst _ base args =>
    base.WF ∧ args.length ≤ Compressed.maxValue.toNat ∧ TypeSig.WFList args
  | .var n => n ≤ Compressed.maxValue
  | .mvar n => n ≤ Compressed.maxValue
  | .fnPtr m => m.WF

/-- Every type of the list is well formed. -/
def TypeSig.WFList : List TypeSig → Prop
  | [] => True
  | t :: ts => t.WF ∧ TypeSig.WFList ts

/-- A parameter whose type is no by-reference type: the marker `0x10` before a
parameter's type already says that it is passed by reference. -/
def ParamSig.WF : ParamSig → Prop
  | .mk mods ty _ => (∀ m ∈ mods, m.ty.WF) ∧ ty.elementType ≠ .byRef ∧ ty.WF

/-- Every parameter of the list is well formed. -/
def ParamSig.WFList : List ParamSig → Prop
  | [] => True
  | p :: ps => p.WF ∧ ParamSig.WFList ps

/-- A method signature with a calling convention the reader accepts, a generic
count only when `GENERIC` is set, and counts with compressed forms. -/
def MethodSig.WF : MethodSig → Prop
  | .mk flags generic ret params varargs =>
    flags ≤ Compressed.maxValue ∧ flags &&& 0x0F ≤ 5 ∧ (flags &&& 0x10 = 0 → generic = 0) ∧
      generic ≤ Compressed.maxValue ∧
      params.length + varargs.length ≤ Compressed.maxValue.toNat ∧
      ret.WF ∧ ParamSig.WFList params ∧ ParamSig.WFList varargs

end

/-! ### The writer succeeds on well-formed signatures -/

/-- Every element type code is below `0x80`, so it is its own compressed form. -/
theorem write_code (et : ElementType) : Compressed.write et.code = .ok [et.code.toUInt8] := by
  cases et <;> rfl

/-- An element type tag is written as its one-byte code. -/
theorem encode_elementType (et : ElementType) : et.encode = .ok [et.code.toUInt8] :=
  write_code et

/-- A list of numbers that all have compressed forms is written. -/
theorem Compressed.encode_ok : ∀ {vs : List UInt32}, (∀ v ∈ vs, v ≤ Compressed.maxValue) →
    ∃ bs, Compressed.encode vs = .ok bs
  | [], _ => ⟨[], rfl⟩
  | v :: vs, h => by
    obtain ⟨bv, hbv⟩ := Compressed.write_eq_ok (h v List.mem_cons_self)
    obtain ⟨bvs, hbvs⟩ := Compressed.encode_ok (fun w hw => h w (List.mem_cons_of_mem v hw))
    exact ⟨bv ++ bvs, by simp [Compressed.encode, hbv, hbvs]⟩

/-- A list of numbers in the range of the signed form is written. -/
theorem Compressed.writeSignedAll_ok : ∀ {xs : List Int32},
    (∀ x ∈ xs, -(2 ^ 28 : Int) ≤ x.toInt ∧ x.toInt < 2 ^ 28) →
    ∃ bs, Compressed.writeSignedAll xs = .ok bs
  | [], _ => ⟨[], rfl⟩
  | x :: xs, h => by
    obtain ⟨hlo, hhi⟩ := h x List.mem_cons_self
    obtain ⟨bx, hbx⟩ := Compressed.writeSigned_eq_ok hlo hhi
    obtain ⟨bxs, hbxs⟩ := Compressed.writeSignedAll_ok (fun y hy => h y (List.mem_cons_of_mem x hy))
    exact ⟨bx ++ bxs, by simp [Compressed.writeSignedAll, hbx, hbxs]⟩

/-- A count with a compressed form. -/
theorem write_count_ok {n : Nat} (h : n ≤ Compressed.maxValue.toNat) :
    ∃ bs, Compressed.write n.toUInt32 = .ok bs := by
  apply Compressed.write_eq_ok
  rw [UInt32.le_iff_toNat_le, toNat_toUInt32_of_le h]
  exact h

/-- A type row whose index fits is written. -/
theorem TypeRow.encode_ok {r : TypeRow} (h : r.WF) : ∃ bs, r.encode = .ok bs := by
  apply Compressed.write_eq_ok
  obtain ⟨table, index⟩ := r
  have hi : index.toNat < 2 ^ 27 := h
  have hsum := fun (t : UInt32) (ht : t.toNat < 4) => TypeRow.toNat_shift_or (x := index) (by omega) ht
  rw [UInt32.le_iff_toNat_le]
  cases table with
  | typeDef => simp only [TypeRow.codedIndex, hsum 0 (by decide)]; simp [Compressed.maxValue]; omega
  | typeRef => simp only [TypeRow.codedIndex, hsum 1 (by decide)]; simp [Compressed.maxValue]; omega
  | typeSpec => simp only [TypeRow.codedIndex, hsum 2 (by decide)]; simp [Compressed.maxValue]; omega

/-- Custom modifiers whose rows fit are written. -/
theorem CustomMod.encodeAll_ok : ∀ {mods : List CustomMod}, (∀ m ∈ mods, m.ty.WF) →
    ∃ bs, CustomMod.encodeAll mods = .ok bs
  | [], _ => ⟨[], rfl⟩
  | m :: ms, h => by
    obtain ⟨br, hbr⟩ := TypeRow.encode_ok (h m List.mem_cons_self)
    obtain ⟨bms, hbms⟩ := CustomMod.encodeAll_ok (fun m' hm' => h m' (List.mem_cons_of_mem m hm'))
    simp [CustomMod.encodeAll, CustomMod.encode, write_code, hbr, hbms]

/-- A well-formed array shape is written. -/
theorem ArrayShape.encode_ok {s : ArrayShape} (h : s.WF) : ∃ bs, s.encode = .ok bs := by
  obtain ⟨hrank, hsizes, hnum, hnum', hbounds⟩ := h
  obtain ⟨br, hbr⟩ := Compressed.write_eq_ok hrank
  obtain ⟨bn, hbn⟩ := write_count_ok hnum
  obtain ⟨bsz, hbsz⟩ := Compressed.encode_ok hsizes
  obtain ⟨bn', hbn'⟩ := write_count_ok hnum'
  obtain ⟨bb, hbb⟩ := Compressed.writeSignedAll_ok hbounds
  simp [ArrayShape.encode, Compressed.encode, hbr, hbn, hbsz, hbn', hbb]

mutual

/-- A well-formed type is written. -/
theorem TypeSig.encode_ok : ∀ (t : TypeSig), t.WF → ∃ bs, t.encode = .ok bs
  | .primitive et, _ => ⟨_, encode_elementType et⟩
  | .classRow r, h | .valueTypeRow r, h => by
    obtain ⟨b, hb⟩ := TypeRow.encode_ok h
    simp [TypeSig.encode, encode_elementType, hb]
  | .szArray mods e, h | .ptr mods e, h => by
    obtain ⟨hm, he⟩ := h
    obtain ⟨bm, hbm⟩ := CustomMod.encodeAll_ok hm
    obtain ⟨be, hbe⟩ := TypeSig.encode_ok e he
    simp [TypeSig.encode, encode_elementType, hbm, hbe]
  | .array e s, h => by
    obtain ⟨he, hs⟩ := h
    obtain ⟨be, hbe⟩ := TypeSig.encode_ok e he
    obtain ⟨bs, hbs⟩ := ArrayShape.encode_ok hs
    simp [TypeSig.encode, encode_elementType, hbe, hbs]
  | .byRef e, h => by
    obtain ⟨be, hbe⟩ := TypeSig.encode_ok e h
    simp [TypeSig.encode, encode_elementType, hbe]
  | .genericInst vt base args, h => by
    obtain ⟨hb, hlen, hargs⟩ := h
    obtain ⟨bb, hbb⟩ := TypeRow.encode_ok hb
    obtain ⟨bn, hbn⟩ := write_count_ok hlen
    obtain ⟨ba, hba⟩ := TypeSig.encodeList_ok args hargs
    simp [TypeSig.encode, encode_elementType, hbb, hbn, hba]
  | .var n, h | .mvar n, h => by
    obtain ⟨bn, hbn⟩ := Compressed.write_eq_ok h
    simp [TypeSig.encode, encode_elementType, hbn]
  | .fnPtr m, h => by
    obtain ⟨bm, hbm⟩ := MethodSig.encode_ok m h
    simp [TypeSig.encode, encode_elementType, hbm]

/-- Well-formed generic arguments are written. -/
theorem TypeSig.encodeList_ok : ∀ (ts : List TypeSig), TypeSig.WFList ts →
    ∃ bs, TypeSig.encodeList ts = .ok bs
  | [], _ => ⟨[], rfl⟩
  | t :: ts, h => by
    obtain ⟨ht, hts⟩ := h
    obtain ⟨bt, hbt⟩ := TypeSig.encode_ok t ht
    obtain ⟨bts, hbts⟩ := TypeSig.encodeList_ok ts hts
    simp [TypeSig.encodeList, hbt, hbts]

/-- A well-formed parameter is written. -/
theorem ParamSig.encode_ok : ∀ (p : ParamSig), p.WF → ∃ bs, p.encode = .ok bs
  | .mk mods ty byRef, h => by
    obtain ⟨hm, -, hty⟩ := h
    obtain ⟨bm, hbm⟩ := CustomMod.encodeAll_ok hm
    obtain ⟨bt, hbt⟩ := TypeSig.encode_ok ty hty
    cases byRef <;> simp [ParamSig.encode, encode_elementType, hbm, hbt]

/-- Well-formed parameters are written. -/
theorem ParamSig.encodeList_ok : ∀ (ps : List ParamSig), ParamSig.WFList ps →
    ∃ bs, ParamSig.encodeList ps = .ok bs
  | [], _ => ⟨[], rfl⟩
  | p :: ps, h => by
    obtain ⟨hp, hps⟩ := h
    obtain ⟨bp, hbp⟩ := ParamSig.encode_ok p hp
    obtain ⟨bps, hbps⟩ := ParamSig.encodeList_ok ps hps
    simp [ParamSig.encodeList, hbp, hbps]

/-- A well-formed method signature is written. -/
theorem MethodSig.encode_ok : ∀ (m : MethodSig), m.WF → ∃ bs, m.encode = .ok bs
  | .mk flags generic ret params varargs, h => by
    obtain ⟨hflags, -, -, hgeneric, hcount, hret, hps, hvs⟩ := h
    obtain ⟨bf, hbf⟩ := Compressed.write_eq_ok hflags
    obtain ⟨bg, hbg⟩ := Compressed.write_eq_ok hgeneric
    obtain ⟨bc, hbc⟩ := write_count_ok hcount
    obtain ⟨br, hbr⟩ := ParamSig.encode_ok ret hret
    obtain ⟨bps, hbps⟩ := ParamSig.encodeList_ok params hps
    obtain ⟨bvs, hbvs⟩ := ParamSig.encodeList_ok varargs hvs
    simp only [MethodSig.encode, hbf, hbc, hbr, hbps, hbvs]
    split <;> split <;> simp [hbg, encode_elementType]

end

/-- The blob of a type starts with its tag. -/
theorem TypeSig.encode_head {t : TypeSig} {bs : List UInt8} (he : t.encode = .ok bs) :
    bs = t.elementType.code.toUInt8 :: bs.tail := by
  cases t <;> simp [TypeSig.encode, encode_elementType] at he
  case primitive => rw [← he]; rfl
  case classRow | valueTypeRow | byRef | var | mvar | fnPtr =>
    obtain ⟨_, _, rfl⟩ := he
    rfl
  case szArray | array | ptr =>
    obtain ⟨_, _, _, _, rfl⟩ := he
    rfl
  case genericInst =>
    obtain ⟨_, _, _, _, _, _, rfl⟩ := he
    rfl

/-- The tags that stand alone come before the modifier tags. -/
theorem leaves_code_lt : ∀ et ∈ ElementType.leaves, et.code.toUInt8 < 0x1F := by decide

/-- The tag of a well-formed type comes before the modifier tags. -/
theorem TypeSig.code_lt {t : TypeSig} (hwf : t.WF) : t.elementType.code.toUInt8 < 0x1F := by
  cases t
  case primitive et => exact leaves_code_lt et hwf
  all_goals
    simp only [TypeSig.elementType]
    decide

/-- Byte strings that start with a byte below `c`. -/
def StartsBelow (c : UInt8) : Set (List UInt8) := {bs | ∃ b rest, bs = b :: rest ∧ b < c}

/-- A blob followed by one that starts below `c` starts below `c`, when it is
empty or itself starts below `c`. -/
theorem StartsBelow.append {c : UInt8} {bs cs : List UInt8} (hbs : bs = [] ∨ bs ∈ StartsBelow c)
    (hcs : cs ∈ StartsBelow c) : bs ++ cs ∈ StartsBelow c := by
  rcases hbs with rfl | ⟨b, rest, rfl, hb⟩
  · exact hcs
  · exact ⟨b, rest ++ cs, rfl, hb⟩

/-- A blob that starts below a byte has a byte. -/
theorem StartsBelow.length_pos {c : UInt8} {bs : List UInt8} (h : bs ∈ StartsBelow c) :
    0 < bs.length := by
  obtain ⟨b, rest, rfl, -⟩ := h
  simp

/-- The blob of modifiers is empty or starts with a modifier tag. -/
theorem CustomMod.encodeAll_head {mods : List CustomMod} {bs : List UInt8}
    (he : CustomMod.encodeAll mods = .ok bs) : bs = [] ∨ bs ∈ StartsBelow 0x21 := by
  cases mods with
  | nil =>
    cases he
    exact .inl rfl
  | cons m ms =>
    simp only [CustomMod.encodeAll, CustomMod.encode, write_code, Except.bind_eq_ok,
      Except.pure_eq_ok, Except.ok.injEq, exists_eq_left'] at he
    obtain ⟨_, ⟨_, _, rfl⟩, _, _, rfl⟩ := he
    refine .inr ⟨_, _, rfl, ?_⟩
    cases m.required <;> decide

/-- The blob of a well-formed parameter starts with a one-byte tag below the
sentinel: a modifier, the by-reference marker or the tag of its type. -/
theorem ParamSig.encode_head {p : ParamSig} {bs : List UInt8} (hwf : p.WF) (he : p.encode = .ok bs) :
    bs ∈ StartsBelow 0x21 := by
  obtain ⟨mods, ty, byRef⟩ := p
  obtain ⟨-, -, hty⟩ := hwf
  cases byRef <;> simp [ParamSig.encode, encode_elementType] at he <;>
    obtain ⟨bm, hbm, bt, hbt, rfl⟩ := he <;> refine StartsBelow.append (CustomMod.encodeAll_head hbm) ?_
  · rw [TypeSig.encode_head hbt]
    have h : ty.elementType.code.toUInt8.toNat < 31 := TypeSig.code_lt hty
    exact ⟨_, _, rfl, UInt8.lt_iff_toNat_lt.mpr (by simp only [UInt8.reduceToNat]; omega)⟩
  · exact ⟨_, _, rfl, by decide⟩

/-- A field signature whose modifiers and type are well formed. -/
def FieldSig.WF (f : FieldSig) : Prop := (∀ m ∈ f.mods, m.ty.WF) ∧ f.ty.WF

/-- A property signature whose parts are well formed, with a parameter count that has
a compressed form. -/
def PropertySig.WF (p : PropertySig) : Prop :=
  (∀ m ∈ p.mods, m.ty.WF) ∧ p.ty.WF ∧ p.params.length ≤ Compressed.maxValue.toNat ∧
    ParamSig.WFList p.params

/-- A local variable whose type is no by-reference type, for the same reason as a
parameter's. -/
def LocalSig.WF (l : LocalSig) : Prop :=
  (∀ m ∈ l.mods, m.ty.WF) ∧ l.ty.elementType ≠ .byRef ∧ l.ty.WF

/-- A well-formed field signature is written. -/
theorem FieldSig.encode_ok {f : FieldSig} (hwf : f.WF) : ∃ bs, f.encode = .ok bs := by
  obtain ⟨bm, hbm⟩ := CustomMod.encodeAll_ok hwf.1
  obtain ⟨bt, hbt⟩ := TypeSig.encode_ok f.ty hwf.2
  simp [FieldSig.encode, hbm, hbt]

/-- A well-formed property signature is written. -/
theorem PropertySig.encode_ok {p : PropertySig} (hwf : p.WF) : ∃ bs, p.encode = .ok bs := by
  obtain ⟨hm, hwt, hcount, hwps⟩ := hwf
  obtain ⟨bc, hbc⟩ := write_count_ok hcount
  obtain ⟨bm, hbm⟩ := CustomMod.encodeAll_ok hm
  obtain ⟨bt, hbt⟩ := TypeSig.encode_ok p.ty hwt
  obtain ⟨bps, hbps⟩ := ParamSig.encodeList_ok p.params hwps
  simp [PropertySig.encode, hbc, hbm, hbt, hbps]

/-- A well-formed local is written. -/
theorem LocalSig.encode_ok {l : LocalSig} (hwf : l.WF) : ∃ bs, l.encode = .ok bs := by
  obtain ⟨mods, pinned, byRef, ty⟩ := l
  obtain ⟨bm, hbm⟩ := CustomMod.encodeAll_ok hwf.1
  obtain ⟨bt, hbt⟩ := TypeSig.encode_ok ty hwf.2.2
  cases pinned <;> cases byRef <;> simp [LocalSig.encode, hbm, hbt, encode_elementType]

/-- Well-formed locals are written one by one. -/
theorem LocalSig.mapM_encode_ok : ∀ {ls : List LocalSig}, (∀ l ∈ ls, l.WF) →
    ∃ each, ls.mapM LocalSig.encode = .ok each
  | [], _ => ⟨[], rfl⟩
  | l :: ls, h => by
    obtain ⟨bl, hbl⟩ := LocalSig.encode_ok (h l List.mem_cons_self)
    obtain ⟨each, heach⟩ := LocalSig.mapM_encode_ok fun l' hl' => h l' (List.mem_cons_of_mem l hl')
    simp [List.mapM_cons, hbl, heach]

/-- A local signature of well-formed locals, whose count has a compressed form,
is written. -/
theorem LocalSig.encodeAll_ok {ls : List LocalSig} (hwf : ∀ l ∈ ls, l.WF)
    (hcount : ls.length ≤ Compressed.maxValue.toNat) : ∃ bs, LocalSig.encodeAll ls = .ok bs := by
  obtain ⟨each, heach⟩ := LocalSig.mapM_encode_ok hwf
  obtain ⟨bc, hbc⟩ := write_count_ok hcount
  simp [LocalSig.encodeAll, heach, hbc]

end CilBind
