import CilBind.Proofs.SignatureWellFormed
import CilBind.Signature.Reader

/-!
# `CilBind.Proofs.SignatureRoundTrip`: the reader parses exactly what the writer writes

`signature_roundTrip`: every well-formed type, parameter, method, field,
property and list of locals has a blob, and the matching reader, started at that
blob wherever it stands and whatever follows it, returns the descriptor and stops
just past the blob's last byte.

## How the proof goes

`Reads m bs a next` is that statement for one reader `m`, one blob `bs` and the
bytes `next` that may follow it. It composes under bind (`Reads.bind`), so each
reader's lemma follows its do-block one read at a time.

The `next` set is there for lookahead. `readCustomMods` reads one tag past the
last modifier and undoes that read, so it stops in the right place only when the
modifiers are followed by a tag that is no modifier (`ModsEnd`): a type's tag,
or the by-reference or pinned marker. The method reader looks for the vararg
sentinel the same way before each parameter; a parameter's blob starts below it.

Types, parameters and methods are read on fuel, which `fuelFor` sets above twice
the bytes left. The mutual descent from `readTypeAfter_reads` to
`readMethodFuel_reads` follows the mutual recursion of the readers and carries
two steps of fuel for each byte of the blob. Every nested blob is at least a
byte long, so each nested read gets the fuel it needs.
-/

set_option autoImplicit false

namespace CilBind

namespace SigReader

/-- `m` reads the bytes `bs` at the reader's position as `a`, whenever what follows
them is in `next`: it ends with `a` and the position just past `bs`. -/
def Reads {α : Type} (m : SigRead α) (bs : List UInt8) (a : α) (next : Set (List UInt8)) : Prop :=
  ∀ (r : SigReader) (rest : List UInt8), rest ∈ next → r.bytes.drop r.pos = bs ++ rest →
    ∃ l, m r = .ok a ⟨r.bytes, r.pos + bs.length, l⟩

namespace Reads

variable {α β : Type} {x : SigRead α} {f : α → SigRead β} {bs cs : List UInt8} {a : α} {b : β}
  {P Q : Set (List UInt8)}

/-- Two reads one after the other read the two blobs one after the other, when
what may follow the second blob may follow the first one with it. -/
theorem bind (hx : Reads x bs a P) (hf : Reads (f a) cs b Q) (hQP : ∀ rest ∈ Q, cs ++ rest ∈ P) :
    Reads (x >>= f) (bs ++ cs) b Q := by
  intro r rest hrest h
  obtain ⟨l, hxr⟩ := hx r (cs ++ rest) (hQP rest hrest) (by rw [h, List.append_assoc])
  have h' : r.bytes.drop (r.pos + bs.length) = cs ++ rest := by
    rw [← List.drop_drop, h, List.append_assoc, List.drop_left]
  obtain ⟨l', hfr⟩ := hf ⟨r.bytes, r.pos + bs.length, l⟩ rest hrest h'
  refine ⟨l', ?_⟩
  rw [EStateM.bind_apply_of_ok hxr, hfr, List.length_append, Nat.add_assoc]

/-- Returning a value reads no bytes. -/
theorem of_pure (a : α) : Reads (pure a : SigRead α) [] a P := by
  intro r rest _ _
  exact ⟨r.lastRead, by simp⟩

/-- A read followed by a `return` of what was read. -/
theorem bind_pure (hx : Reads x bs a P) (g : α → β) :
    Reads (x >>= fun a => pure (g a)) bs (g a) P := by
  have h := bind (f := fun a => pure (g a)) hx (of_pure (g a)) (fun rest h => by simpa using h)
  simpa using h

/-- A read followed by a step that returns at once. -/
theorem bind_of_pure (hx : Reads x bs a P) (hf : f a = pure b) : Reads (x >>= f) bs b P := by
  have h := bind (f := f) hx (hf ▸ of_pure b) (fun rest h => by simpa using h)
  simpa using h

end Reads

/-- A compressed integer reads back what the writer wrote for it, and remembers
where it started. -/
theorem readU32_apply {r : SigReader} {v : UInt32} {bs rest : List UInt8}
    (hw : Compressed.write v = .ok bs) (h : r.bytes.drop r.pos = bs ++ rest) :
    readU32 r = .ok v ⟨r.bytes, r.pos + bs.length, some r.pos⟩ := by
  simp [readU32, Compressed.readAt_of_write hw h]

/-- A compressed integer reads back what the writer wrote for it, whatever follows. -/
theorem readU32_reads {v : UInt32} {bs : List UInt8} (hw : Compressed.write v = .ok bs) :
    Reads readU32 bs v Set.univ :=
  fun _ _ _ h => ⟨_, readU32_apply hw h⟩

/-- A signed compressed integer reads back what the writer wrote for it. -/
theorem readI32_reads {x : Int32} {bs : List UInt8} (hw : Compressed.writeSigned x = .ok bs) :
    Reads readI32 bs x Set.univ := by
  intro r rest _ h
  exact ⟨some r.pos, by simp [readI32, Compressed.readSignedAt_of_writeSigned hw h]⟩

/-- An element type tag is its one-byte code. -/
theorem readElementType_reads (et : ElementType) :
    Reads readElementType [et.code.toUInt8] et Set.univ := by
  intro r rest _ h
  refine ⟨some r.pos, ?_⟩
  simp only [readElementType, EStateM.bind_apply_of_ok (readU32_apply (encode_elementType et) h),
    ElementType.ofCode_code]
  rfl

/-- A coded type row whose index fits reads back as its table and index. -/
theorem readTypeEncoded_reads {row : TypeRow} {bs : List UInt8} (hwf : row.WF)
    (he : row.encode = .ok bs) : Reads readTypeEncoded bs row Set.univ := by
  intro r rest _ h
  refine ⟨some r.pos, ?_⟩
  rw [readTypeEncoded, EStateM.bind_apply_of_ok (readU32_apply he h)]
  obtain ⟨table, index⟩ := row
  have hbits := fun (t : UInt32) (ht : t.toNat < 4) =>
    TypeRow.codedIndex_bits (x := index) (by unfold TypeRow.WF at hwf; simp at hwf; omega) ht
  cases table with
  | typeDef =>
    obtain ⟨h₁, h₂⟩ := hbits 0 (by decide)
    simp only [TypeRow.codedIndex, h₁, h₂]
    rfl
  | typeRef =>
    obtain ⟨h₁, h₂⟩ := hbits 1 (by decide)
    simp only [TypeRow.codedIndex, h₁, h₂]
    rfl
  | typeSpec =>
    obtain ⟨h₁, h₂⟩ := hbits 2 (by decide)
    simp only [TypeRow.codedIndex, h₁, h₂]
    rfl

/-- A byte below `0x80` is its own compressed form. -/
theorem write_byte {b : UInt8} (hb : b < 0x80) : Compressed.write b.toUInt32 = .ok [b] := by
  have hb' : b.toNat < 128 := hb
  have hle : b.toUInt32 ≤ 0x7F := by simp [UInt32.le_iff_toNat_le]; omega
  simp [Compressed.write, hle]

/-- A reader with a byte before it is not at the end. -/
theorem atEnd_eq_false {r : SigReader} {b : UInt8} {rest : List UInt8}
    (h : r.bytes.drop r.pos = b :: rest) : r.atEnd = false := by
  have : r.pos < r.bytes.length := by
    have := congrArg List.length h
    simp at this
    omega
  simp [atEnd]
  omega

/-- Byte strings that start with a one-byte tag that is no custom modifier, such as
the tag of a type, the by-reference marker or the pinned marker. -/
def ModsEnd : Set (List UInt8) :=
  {bs | ∃ b rest, bs = b :: rest ∧ b < 0x80 ∧ b ≠ 0x1F ∧ b ≠ 0x20}

/-- Widening keeps distinct bytes distinct. -/
theorem toUInt32_ne_of_ne {b c : UInt8} (h : b ≠ c) : b.toUInt32 ≠ c.toUInt32 := by
  intro h'
  apply h
  apply UInt8.toNat_inj.mp
  simpa using congrArg UInt32.toNat h'

/-- At a tag that is no modifier, `readCustomMod` reads the tag, undoes the read and
finds no modifier. -/
theorem readCustomMod_none : Reads readCustomMod [] none ModsEnd := by
  rintro r _ ⟨b, rest, rfl, hb, h1F, h20⟩ h
  have hread := readU32_apply (write_byte hb) (by rw [h]; rfl : r.bytes.drop r.pos = [b] ++ rest)
  have hreq : b.toUInt32 ≠ ElementType.cmodReqd.code := toUInt32_ne_of_ne h1F
  have hopt : b.toUInt32 ≠ ElementType.cmodOpt.code := toUInt32_ne_of_ne h20
  refine ⟨none, ?_⟩
  unfold readCustomMod
  simp only [EStateM.bind_apply_of_ok EStateM.get_apply, atEnd_eq_false h, Bool.false_eq_true,
    ↓reduceIte, EStateM.bind_apply_of_ok hread, hreq, hopt]
  rfl

/-- A custom modifier reads back as its tag and its type row. -/
theorem readCustomMod_some {m : CustomMod} {bs : List UInt8} (hwf : m.ty.WF)
    (he : m.encode = .ok bs) : Reads readCustomMod bs (some m) Set.univ := by
  obtain ⟨required, row⟩ := m
  simp only [CustomMod.encode, write_code, Except.bind_eq_ok, Except.pure_eq_ok, Except.ok.injEq,
    exists_eq_left'] at he
  obtain ⟨rb, hrb, rfl⟩ := he
  intro r rest hr h
  unfold readCustomMod
  rw [EStateM.bind_apply_of_ok EStateM.get_apply]
  simp only [atEnd_eq_false (by rw [h]; rfl), Bool.false_eq_true, ↓reduceIte]
  refine Reads.bind (readU32_reads (write_code _)) ?_ (fun _ _ => trivial) r rest hr h
  -- either tag is a modifier's, and says whether it is required
  cases required <;> exact Reads.bind_pure (readTypeEncoded_reads hwf hrb) _

/-- Custom modifiers take a byte each at least, so fuel above the length of
their blob is above their number. -/
theorem length_le_encodeAll : ∀ {mods : List CustomMod} {bs : List UInt8},
    CustomMod.encodeAll mods = .ok bs → mods.length ≤ bs.length
  | [], _, _ => by simp
  | m :: ms, bs, he => by
    simp only [CustomMod.encodeAll, Except.bind_eq_ok, Except.pure_eq_ok] at he
    obtain ⟨bm, hbm, bms, hbms, rfl⟩ := he
    have hpos : 0 < bm.length := by
      simp only [CustomMod.encode, write_code, Except.bind_eq_ok, Except.pure_eq_ok,
        Except.ok.injEq, exists_eq_left'] at hbm
      obtain ⟨rb, _, rfl⟩ := hbm
      simp
    have := length_le_encodeAll hbms
    simp only [List.length_cons, List.length_append]
    omega

/-- A run of custom modifiers followed by a tag that is no modifier reads back,
on fuel above their number. -/
theorem readCustomModsFuel_reads : ∀ {mods : List CustomMod} {bs : List UInt8} {fuel : Nat},
    (∀ m ∈ mods, m.ty.WF) → CustomMod.encodeAll mods = .ok bs → mods.length < fuel →
      Reads (readCustomModsFuel fuel) bs mods ModsEnd
  | [], bs, fuel + 1, _, he, _ => by
    cases he
    rw [readCustomModsFuel]
    exact Reads.bind readCustomMod_none (Reads.of_pure []) (fun _ h => h)
  | m :: ms, bs, fuel + 1, hwf, he, hlen => by
    simp only [CustomMod.encodeAll, Except.bind_eq_ok, Except.pure_eq_ok] at he
    obtain ⟨bm, hbm, bms, hbms, rfl⟩ := he
    have hms := readCustomModsFuel_reads (fun m' hm' => hwf m' (List.mem_cons_of_mem m hm')) hbms
      (by simp at hlen; omega)
    exact Reads.bind (readCustomMod_some (hwf m List.mem_cons_self) hbm) (Reads.bind_pure hms _)
      (fun _ _ => trivial)

/-- The custom modifiers before a type read back when a tag that is no modifier
follows them. -/
theorem readCustomMods_reads {mods : List CustomMod} {bs : List UInt8} (hwf : ∀ m ∈ mods, m.ty.WF)
    (he : CustomMod.encodeAll mods = .ok bs) : Reads readCustomMods bs mods ModsEnd := by
  rintro r _ ⟨b, rest, rfl, hnext⟩ h
  -- each modifier takes a byte at least, and a tag follows them
  have hlen := length_le_encodeAll he
  have hrem : bs.length + 1 ≤ r.remaining := by
    have := congrArg List.length h
    simp only [List.length_drop, List.length_append, List.length_cons] at this
    simp only [remaining]
    omega
  unfold readCustomMods
  rw [EStateM.bind_apply_of_ok EStateM.get_apply]
  exact readCustomModsFuel_reads hwf he (by omega) r _ ⟨b, rest, rfl, hnext⟩ h

/-- The sizes of an array shape read back, as many as were written. -/
theorem readU32s_reads : ∀ {vs : List UInt32} {bs : List UInt8},
    Compressed.encode vs = .ok bs → Reads (readU32s vs.length) bs vs Set.univ
  | [], _, he => by
    cases he
    exact Reads.of_pure []
  | v :: vs, bs, he => by
    simp only [Compressed.encode, Except.bind_eq_ok, Except.pure_eq_ok] at he
    obtain ⟨bv, hbv, bvs, hbvs, rfl⟩ := he
    rw [List.length_cons, readU32s]
    exact Reads.bind (readU32_reads hbv) (Reads.bind_pure (readU32s_reads hbvs) _) (fun _ _ => trivial)

/-- The lower bounds of an array shape read back, as many as were written. -/
theorem readI32s_reads : ∀ {xs : List Int32} {bs : List UInt8},
    Compressed.writeSignedAll xs = .ok bs → Reads (readI32s xs.length) bs xs Set.univ
  | [], _, he => by
    cases he
    exact Reads.of_pure []
  | x :: xs, bs, he => by
    simp only [Compressed.writeSignedAll, Except.bind_eq_ok, Except.pure_eq_ok] at he
    obtain ⟨bx, hbx, bxs, hbxs, rfl⟩ := he
    rw [List.length_cons, readI32s]
    exact Reads.bind (readI32_reads hbx) (Reads.bind_pure (readI32s_reads hbxs) _) (fun _ _ => trivial)

/-- A well-formed array shape reads back: its rank, then its sizes and its bounds
with their counts. -/
theorem readArrayShape_reads {s : ArrayShape} {bs : List UInt8} (hwf : s.WF)
    (he : s.encode = .ok bs) : Reads readArrayShape bs s Set.univ := by
  obtain ⟨rank, sizes, bounds⟩ := s
  obtain ⟨-, -, hsizes, hbounds, -⟩ := hwf
  simp only [ArrayShape.encode, Compressed.encode, Except.bind_eq_ok, Except.pure_eq_ok] at he
  obtain ⟨br, hbr, _, ⟨bn, hbn, bsz, hbsz, rfl⟩, bn', hbn', bb, hbb, rfl⟩ := he
  simp only [List.append_assoc]
  unfold readArrayShape
  refine Reads.bind (readU32_reads hbr) ?_ (fun _ _ => trivial)
  refine Reads.bind (readU32_reads hbn) ?_ (fun _ _ => trivial)
  simp only [toNat_toUInt32_of_le hsizes]
  refine Reads.bind (readU32s_reads hbsz) ?_ (fun _ _ => trivial)
  refine Reads.bind (readU32_reads hbn') ?_ (fun _ _ => trivial)
  simp only [toNat_toUInt32_of_le hbounds]
  exact Reads.bind_pure (readI32s_reads hbb) _

/-- A tag below `0x1F` is no modifier, so custom modifiers may stop before it. -/
theorem modsEnd_of_lt {b : UInt8} {rest : List UInt8} (hb : b < 0x1F) : b :: rest ∈ ModsEnd := by
  have hb' : b.toNat < 31 := hb
  refine ⟨b, rest, rfl, ?_, ?_, ?_⟩
  · show b.toNat < 128
    omega
  -- neither modifier tag is below the bound
  all_goals
    intro h
    subst h
    simp at hb'

/-- A type read from its tag on: the tag, then what the tag calls for. -/
theorem readTypeFuel_of_after {t : TypeSig} {bs : List UInt8} (he : t.encode = .ok bs)
    (hafter : ∀ {fuel}, 2 * bs.length ≤ fuel + 1 →
      Reads (readTypeAfter fuel t.elementType) bs.tail t Set.univ)
    {fuel : Nat} (hfuel : 2 * bs.length ≤ fuel) : Reads (readTypeFuel fuel) bs t Set.univ := by
  have hhead := TypeSig.encode_head he
  obtain ⟨f, rfl⟩ : ∃ f, fuel = f + 1 := ⟨fuel - 1, by rw [hhead] at hfuel; simp at hfuel; omega⟩
  rw [readTypeFuel, hhead]
  exact Reads.bind (readElementType_reads _) (hafter (by omega)) (fun _ _ => trivial)

/-! ### Parameters and the vararg sentinel -/

/-- No parameters read no bytes. -/
theorem readMethodParams_nil {fuel : Nat} {after : Bool} {P : Set (List UInt8)} (hfuel : 0 < fuel) :
    Reads (readMethodParams fuel 0 after) [] ([], []) P := by
  obtain ⟨g, rfl⟩ : ∃ g, fuel = g + 1 := ⟨fuel - 1, by omega⟩
  rw [readMethodParams]
  exact Reads.of_pure _

/-- After the sentinel a parameter goes to the varargs. -/
theorem readMethodParams_vararg {g n : Nat} {p : ParamSig} {vs : List ParamSig} {bp tail : List UInt8}
    (hp : Reads (readParamFuel g) bp p Set.univ)
    (hrest : Reads (readMethodParams g n true) tail ([], vs) Set.univ) :
    Reads (readMethodParams (g + 1) (n + 1) true) (bp ++ tail) ([], p :: vs) Set.univ := by
  rw [readMethodParams]
  simp only [↓reduceIte, pure_bind]
  exact Reads.bind hp (Reads.bind_of_pure hrest rfl) (fun _ _ => trivial)

/-- The sentinel is read and the rest is read as varargs. -/
theorem readMethodParams_sentinel {g n : Nat} {res : List ParamSig × List ParamSig}
    {tail : List UInt8} (hrest : Reads (readMethodParams (g + 1) (n + 1) true) tail res Set.univ) :
    Reads (readMethodParams (g + 1) (n + 1) false)
      ([ElementType.sentinel.code.toUInt8] ++ tail) res Set.univ := by
  rw [readMethodParams] at hrest ⊢
  simp only [Bool.false_eq_true, ↓reduceIte] at hrest ⊢
  exact Reads.bind (readU32_reads (write_code _)) (by simpa using hrest) (fun _ _ => trivial)

/-- Before the sentinel, the reader looks at the tag that starts a parameter, finds no
sentinel, undoes the read and reads the parameter. -/
theorem readMethodParams_param {g n : Nat} {p : ParamSig} {ps vs : List ParamSig}
    {bp tail : List UInt8} (hhead : bp ∈ StartsBelow 0x21) (hp : Reads (readParamFuel g) bp p Set.univ)
    (hrest : Reads (readMethodParams g n false) tail (ps, vs) Set.univ) :
    Reads (readMethodParams (g + 1) (n + 1) false) (bp ++ tail) (p :: ps, vs) Set.univ := by
  intro r rest _ h
  obtain ⟨b, bp', rfl, hb⟩ := hhead
  have hb' : b.toNat < 33 := hb
  have hread := readU32_apply (write_byte (UInt8.lt_iff_toNat_lt.mpr (by simp; omega)))
    (show r.bytes.drop r.pos = [b] ++ (bp' ++ tail ++ rest) by rw [h]; simp)
  have hne : b.toUInt32 ≠ ElementType.sentinel.code := by
    intro heq
    have := congrArg UInt32.toNat heq
    simp [ElementType.code] at this
    omega
  rw [readMethodParams]
  simp only [Bool.false_eq_true, ↓reduceIte]
  rw [EStateM.bind_apply_of_ok hread]
  simp only [hne, ↓reduceIte]
  -- undoing the peek puts the reader back where the parameter starts
  rw [EStateM.bind_apply_of_ok (rfl : rollback ⟨r.bytes, r.pos + [b].length, some r.pos⟩ =
    .ok () ⟨r.bytes, r.pos, none⟩)]
  simp only [pure_bind, Bool.false_eq_true, ↓reduceIte]
  exact Reads.bind hp (Reads.bind_pure hrest fun x => (p :: x.1, x.2)) (fun _ _ => trivial)
    ⟨r.bytes, r.pos, none⟩ rest (Set.mem_univ rest) h

/-- Whatever follows a well-formed type's blob, the modifiers before it end there. -/
theorem modsEnd_of_encode {t : TypeSig} {bs : List UInt8} (hwf : t.WF) (he : t.encode = .ok bs)
    (rest : List UInt8) : bs ++ rest ∈ ModsEnd := by
  rw [TypeSig.encode_head he]
  exact modsEnd_of_lt (TypeSig.code_lt hwf)

/-- A primitive type is its tag alone: nothing follows it. -/
theorem readTypeAfter_leaf {f : Nat} {et : ElementType} (het : et ∈ ElementType.leaves) :
    readTypeAfter (f + 1) et = pure (.primitive et) := by
  cases et <;> simp [ElementType.leaves] at het <;> rfl

/-- The parameters after the last fixed one: nothing when there are no varargs,
otherwise the sentinel and the varargs. -/
theorem readMethodParams_tail {vs : List ParamSig} {bvs : List UInt8}
    (hvs : ∀ {fuel}, 2 * bvs.length < fuel →
      Reads (readMethodParams fuel vs.length true) bvs ([], vs) Set.univ)
    (hnil : vs = [] → bvs = []) {fuel : Nat}
    (hfuel : 2 * ((if vs.isEmpty then [] else [ElementType.sentinel.code.toUInt8]) ++ bvs).length
      < fuel) :
    Reads (readMethodParams fuel vs.length false)
      ((if vs.isEmpty then [] else [ElementType.sentinel.code.toUInt8]) ++ bvs) ([], vs) Set.univ := by
  cases vs with
  | nil =>
    rw [hnil rfl]
    exact readMethodParams_nil (by omega)
  | cons v vs =>
    simp only [List.isEmpty_cons, Bool.false_eq_true, ↓reduceIte, List.length_append,
      List.length_singleton] at hfuel ⊢
    obtain ⟨g, rfl⟩ : ∃ g, fuel = g + 1 := ⟨fuel - 1, by omega⟩
    exact readMethodParams_sentinel (hvs (by omega))

/-! ### The mutual descent -/

/-- Fuel of two steps per byte of a nonempty blob, one step of it spent, is not
yet zero. -/
theorem fuel_succ {n fuel : Nat} (h : 2 * (n + 1) ≤ fuel + 1) : ∃ f, fuel = f + 1 :=
  ⟨fuel - 1, by omega⟩

mutual

/-- What follows the tag of a well-formed type is read back as the type, given fuel
for two steps per byte. -/
theorem readTypeAfter_reads : ∀ (t : TypeSig) {bs : List UInt8}, t.WF → t.encode = .ok bs →
    ∀ {fuel : Nat}, 2 * bs.length ≤ fuel + 1 →
      Reads (readTypeAfter fuel t.elementType) bs.tail t Set.univ
  | .primitive et, bs, hwf, he, fuel, hfuel => by
    simp [TypeSig.encode, encode_elementType] at he
    subst he
    obtain ⟨f, rfl⟩ := fuel_succ hfuel
    rw [TypeSig.elementType, readTypeAfter_leaf hwf]
    exact Reads.of_pure _
  | .classRow r, bs, hwf, he, fuel, hfuel | .valueTypeRow r, bs, hwf, he, fuel, hfuel => by
    simp [TypeSig.encode, encode_elementType] at he
    obtain ⟨br, hbr, rfl⟩ := he
    obtain ⟨f, rfl⟩ := fuel_succ hfuel
    rw [TypeSig.elementType, readTypeAfter]
    exact Reads.bind_pure (readTypeEncoded_reads hwf hbr) _
  | .szArray mods e, bs, hwf, he, fuel, hfuel | .ptr mods e, bs, hwf, he, fuel, hfuel => by
    obtain ⟨hm, hwe⟩ := hwf
    simp [TypeSig.encode, encode_elementType] at he
    obtain ⟨bm, hbm, be, hbe, rfl⟩ := he
    simp only [List.length_cons, List.length_append] at hfuel
    obtain ⟨f, rfl⟩ := fuel_succ hfuel
    rw [TypeSig.elementType, readTypeAfter]
    exact Reads.bind (readCustomMods_reads hm hbm)
      (Reads.bind_pure (readTypeFuel_of_after hbe (readTypeAfter_reads e hwe hbe) (by omega)) _)
      (fun rest _ => modsEnd_of_encode hwe hbe rest)
  | .array e s, bs, hwf, he, fuel, hfuel => by
    obtain ⟨hwe, hws⟩ := hwf
    simp [TypeSig.encode, encode_elementType] at he
    obtain ⟨be, hbe, bsh, hbsh, rfl⟩ := he
    simp only [List.length_cons, List.length_append] at hfuel
    obtain ⟨f, rfl⟩ := fuel_succ hfuel
    rw [TypeSig.elementType, readTypeAfter]
    exact Reads.bind (readTypeFuel_of_after hbe (readTypeAfter_reads e hwe hbe) (by omega))
      (Reads.bind_pure (readArrayShape_reads hws hbsh) _) (fun _ _ => trivial)
  | .byRef e, bs, hwf, he, fuel, hfuel => by
    simp [TypeSig.encode, encode_elementType] at he
    obtain ⟨be, hbe, rfl⟩ := he
    simp only [List.length_cons] at hfuel
    obtain ⟨f, rfl⟩ := fuel_succ hfuel
    rw [TypeSig.elementType, readTypeAfter]
    exact Reads.bind_pure (readTypeFuel_of_after hbe (readTypeAfter_reads e hwf hbe) (by omega)) _
  | .genericInst vt base args, bs, hwf, he, fuel, hfuel => by
    obtain ⟨hwb, hcount, hwargs⟩ := hwf
    obtain ⟨bn, hbn⟩ := write_count_ok hcount
    simp only [TypeSig.encode, encode_elementType, hbn, Except.bind_eq_ok, Except.pure_eq_ok,
      Except.ok.injEq, exists_eq_left'] at he
    obtain ⟨bb, hbb, ba, hba, rfl⟩ := he
    simp only [List.length_append, List.length_singleton] at hfuel
    obtain ⟨f, rfl⟩ : ∃ f, fuel = f + 1 := ⟨fuel - 1, by omega⟩
    rw [TypeSig.elementType, readTypeAfter]
    simp only [List.cons_append, List.nil_append, List.tail_cons, List.append_assoc]
    -- the kind tag decides `valueType`; the rest of the read is the same for both kinds
    refine Reads.bind (readElementType_reads _) ?_ (fun _ _ => trivial)
    cases vt <;>
    · simp only [Bool.false_eq_true, ↓reduceIte, pure_bind]
      refine Reads.bind (readTypeEncoded_reads hwb hbb)
        (Reads.bind (readU32_reads hbn) ?_ (fun _ _ => trivial)) (fun _ _ => trivial)
      rw [toNat_toUInt32_of_le hcount]
      exact Reads.bind_pure (readTypesFuel_reads args hwargs hba (by omega)) _
  | .var n, bs, hwf, he, fuel, hfuel | .mvar n, bs, hwf, he, fuel, hfuel => by
    simp [TypeSig.encode, encode_elementType] at he
    obtain ⟨bn, hbn, rfl⟩ := he
    obtain ⟨f, rfl⟩ := fuel_succ hfuel
    rw [TypeSig.elementType, readTypeAfter]
    exact Reads.bind_pure (readU32_reads hbn) _
  | .fnPtr m, bs, hwf, he, fuel, hfuel => by
    simp [TypeSig.encode, encode_elementType] at he
    obtain ⟨bm, hbm, rfl⟩ := he
    simp only [List.length_cons] at hfuel
    obtain ⟨f, rfl⟩ := fuel_succ hfuel
    rw [TypeSig.elementType, readTypeAfter]
    exact Reads.bind_pure (readMethodFuel_reads m hwf hbm (by omega)) _

/-- A list of well-formed types is read back, given fuel for two steps per byte and one
more. -/
theorem readTypesFuel_reads : ∀ (ts : List TypeSig) {bs : List UInt8}, TypeSig.WFList ts →
    TypeSig.encodeList ts = .ok bs → ∀ {fuel : Nat}, 2 * bs.length < fuel →
      Reads (readTypesFuel fuel ts.length) bs ts Set.univ
  | [], bs, _, he, fuel, hfuel => by
    cases he
    obtain ⟨g, rfl⟩ : ∃ g, fuel = g + 1 := ⟨fuel - 1, by omega⟩
    rw [List.length_nil, readTypesFuel]
    exact Reads.of_pure []
  | t :: ts, bs, hwf, he, fuel, hfuel => by
    obtain ⟨hwt, hwts⟩ := hwf
    simp only [TypeSig.encodeList, Except.bind_eq_ok, Except.pure_eq_ok] at he
    obtain ⟨bt, hbt, bts, hbts, rfl⟩ := he
    have hpos : 0 < bt.length := by rw [TypeSig.encode_head hbt]; simp
    simp only [List.length_append] at hfuel
    obtain ⟨g, rfl⟩ : ∃ g, fuel = g + 1 := ⟨fuel - 1, by omega⟩
    rw [List.length_cons, readTypesFuel]
    exact Reads.bind (readTypeFuel_of_after hbt (readTypeAfter_reads t hwt hbt) (by omega))
      (Reads.bind_pure (readTypesFuel_reads ts hwts hbts (by omega)) _) (fun _ _ => trivial)

/-- A well-formed parameter reads back, on two steps of fuel per byte of its blob. -/
theorem readParamFuel_reads : ∀ (p : ParamSig) {bs : List UInt8}, p.WF → p.encode = .ok bs →
    ∀ {fuel : Nat}, 2 * bs.length ≤ fuel → Reads (readParamFuel fuel) bs p Set.univ
  | .mk mods ty byRef, bs, hwf, he, fuel, hfuel => by
    obtain ⟨hm, hnot, hwt⟩ := hwf
    cases byRef <;> simp [ParamSig.encode, encode_elementType] at he <;>
      obtain ⟨bm, hbm, bt, hbt, rfl⟩ := he
    · -- a plain parameter: the tag that ends the modifiers is its type's
      have hhead := TypeSig.encode_head hbt
      have hlen : bt.length = bt.tail.length + 1 := by simpa using congrArg List.length hhead
      rw [hhead]
      simp only [List.length_append] at hfuel
      obtain ⟨f, rfl⟩ : ∃ f, fuel = f + 1 := ⟨fuel - 1, by omega⟩
      rw [readParamFuel]
      refine Reads.bind (readCustomMods_reads hm hbm) (Reads.bind (readElementType_reads _) ?_
        (fun _ _ => trivial)) (fun rest _ => modsEnd_of_lt (TypeSig.code_lt hwt))
      simp only [hnot, ↓reduceIte]
      exact Reads.bind_pure (readTypeAfter_reads ty hwt hbt (by omega)) _
    · -- a by-reference parameter: the marker, then the whole type
      simp only [List.length_append, List.length_cons] at hfuel
      obtain ⟨f, rfl⟩ : ∃ f, fuel = f + 1 := ⟨fuel - 1, by omega⟩
      rw [readParamFuel]
      refine Reads.bind (readCustomMods_reads hm hbm) (Reads.bind (readElementType_reads .byRef) ?_
        (fun _ _ => trivial)) (fun rest _ => modsEnd_of_lt (by decide))
      simp only [↓reduceIte]
      exact Reads.bind_pure (readTypeFuel_of_after hbt (readTypeAfter_reads ty hwt hbt) (by omega)) _

/-- The parameters after the vararg sentinel read back with no sentinel test. -/
theorem readMethodParams_varargs : ∀ (vs : List ParamSig) {bs : List UInt8}, ParamSig.WFList vs →
    ParamSig.encodeList vs = .ok bs → ∀ {fuel : Nat}, 2 * bs.length < fuel →
      Reads (readMethodParams fuel vs.length true) bs ([], vs) Set.univ
  | [], bs, _, he, fuel, hfuel => by
    cases he
    exact readMethodParams_nil hfuel
  | v :: vs, bs, hwf, he, fuel, hfuel => by
    obtain ⟨hwv, hwvs⟩ := hwf
    simp only [ParamSig.encodeList, Except.bind_eq_ok, Except.pure_eq_ok] at he
    obtain ⟨bv, hbv, bvs, hbvs, rfl⟩ := he
    have hpos := StartsBelow.length_pos (ParamSig.encode_head hwv hbv)
    simp only [List.length_append] at hfuel
    obtain ⟨g, rfl⟩ : ∃ g, fuel = g + 1 := ⟨fuel - 1, by omega⟩
    exact readMethodParams_vararg (readParamFuel_reads v hwv hbv (by omega))
      (readMethodParams_varargs vs hwvs hbvs (by omega))

/-- The fixed parameters of a method are read back before whatever `tail` the reader
reads next without a sentinel of its own. -/
theorem readMethodParams_fixed : ∀ (ps : List ParamSig) {bs : List UInt8}, ParamSig.WFList ps →
    ParamSig.encodeList ps = .ok bs → ∀ {tail : List UInt8} {n : Nat}
    {res : List ParamSig × List ParamSig},
    (∀ {fuel : Nat}, 2 * tail.length < fuel → Reads (readMethodParams fuel n false) tail res Set.univ) →
    ∀ {fuel : Nat}, 2 * (bs.length + tail.length) < fuel →
      Reads (readMethodParams fuel (ps.length + n) false) (bs ++ tail) (ps ++ res.1, res.2) Set.univ
  | [], bs, _, he, tail, n, res, htail, fuel, hfuel => by
    cases he
    simpa using htail (by simpa using hfuel)
  | p :: ps, bs, hwf, he, tail, n, res, htail, fuel, hfuel => by
    obtain ⟨hwp, hwps⟩ := hwf
    simp only [ParamSig.encodeList, Except.bind_eq_ok, Except.pure_eq_ok] at he
    obtain ⟨bp, hbp, bps, hbps, rfl⟩ := he
    have hhead := ParamSig.encode_head hwp hbp
    have hpos := StartsBelow.length_pos hhead
    simp only [List.length_append] at hfuel
    obtain ⟨g, rfl⟩ : ∃ g, fuel = g + 1 := ⟨fuel - 1, by omega⟩
    rw [List.length_cons, Nat.add_right_comm, List.append_assoc]
    exact readMethodParams_param hhead (readParamFuel_reads p hwp hbp (by omega))
      (readMethodParams_fixed ps hwps hbps htail (by omega))

/-- A well-formed method signature reads back, on two steps of fuel per byte of
its blob. -/
theorem readMethodFuel_reads : ∀ (m : MethodSig) {bs : List UInt8}, m.WF → m.encode = .ok bs →
    ∀ {fuel : Nat}, 2 * bs.length ≤ fuel → Reads (readMethodFuel fuel) bs m Set.univ
  | .mk flags generic ret params varargs, bs, hwf, he, fuel, hfuel => by
    obtain ⟨hflags, hconv, hgen, hgeneric, hcount, hwr, hwps, hwvs⟩ := hwf
    obtain ⟨bf, hbf⟩ := Compressed.write_eq_ok hflags
    obtain ⟨bc, hbc⟩ := write_count_ok hcount
    obtain ⟨bg, hbg⟩ := Compressed.write_eq_ok hgeneric
    obtain ⟨br, hbr⟩ := ParamSig.encode_ok ret hwr
    obtain ⟨bps, hbps⟩ := ParamSig.encodeList_ok params hwps
    obtain ⟨bvs, hbvs⟩ := ParamSig.encodeList_ok varargs hwvs
    -- the blob in the order the reader takes it apart
    have hbs : bs = bf ++ ((if flags &&& 0x10 != 0 then bg else []) ++ (bc ++ (br ++ (bps ++
        ((if varargs.isEmpty then [] else [ElementType.sentinel.code.toUInt8]) ++ bvs))))) := by
      simp only [MethodSig.encode, hbf, hbg, hbc, hbr, hbps, hbvs, encode_elementType] at he
      by_cases hg : (flags &&& 0x10 != 0) = true <;> by_cases hv : varargs.isEmpty = true <;>
        simp [hg, hv] at he <;> simp [← he, hg, hv]
    subst hbs
    have hpos : 0 < bf.length := by
      rw [Compressed.write_length hbf]
      split_ifs <;> omega
    obtain ⟨f, rfl⟩ : ∃ f, fuel = f + 1 := ⟨fuel - 1, by simp at hfuel; omega⟩
    simp only [List.length_append] at hfuel
    -- after the header and the generic count: the count, the return, the parameters
    have hjp : Reads (do
        let count ← readU32
        let ret ← readParamFuel f
        let x ← readMethodParams f count.toNat false
        pure (MethodSig.mk flags generic ret x.1 x.2))
        (bc ++ (br ++ (bps ++ ((if varargs.isEmpty then [] else [ElementType.sentinel.code.toUInt8]) ++
          bvs)))) (MethodSig.mk flags generic ret params varargs) Set.univ := by
      have hps := @readMethodParams_fixed params _ hwps hbps _ _ _
        (readMethodParams_tail (readMethodParams_varargs varargs hwvs hbvs)
          (fun h => by subst h; cases hbvs; rfl)) f (by simp only [List.length_append]; omega)
      refine Reads.bind (readU32_reads hbc) (Reads.bind (readParamFuel_reads ret hwr hbr (by omega)) ?_
        (fun _ _ => trivial)) (fun _ _ => trivial)
      rw [toNat_toUInt32_of_le hcount]
      exact Reads.bind_of_pure hps (by simp)
    rw [readMethodFuel]
    refine Reads.bind (readU32_reads hbf) ?_ (fun _ _ => trivial)
    -- the calling convention is one the reader accepts
    have hcall : ¬ (flags &&& 15 > 5) := by
      simp only [UInt32.le_iff_toNat_le, gt_iff_lt, UInt32.lt_iff_toNat_lt] at hconv ⊢
      omega
    simp only [hcall, ↓reduceIte]
    -- the generic count is there exactly under `GENERIC`
    by_cases hg : (flags &&& 16 != 0) = true
    · simp only [hg, ↓reduceIte]
      exact Reads.bind (readU32_reads hbg) hjp (fun _ _ => trivial)
    · have h0 : generic = 0 := hgen (by simpa using hg)
      subst h0
      simp only [hg, Bool.false_eq_true, ↓reduceIte, pure_bind, List.nil_append]
      exact hjp

end

/-! ### Whole signatures -/

/-- A blob at the reader's position is no longer than the bytes left. -/
theorem length_le_remaining {r : SigReader} {bs rest : List UInt8}
    (h : r.bytes.drop r.pos = bs ++ rest) : bs.length ≤ r.remaining := by
  have := congrArg List.length h
  simp only [List.length_drop, List.length_append] at this
  simp only [remaining]
  omega

/-- A reader that runs on the fuel `fuelFor` gives it reads a blob that it reads on
any fuel above twice the blob's length: the blob is part of what remains. -/
theorem Reads.of_fuelFor {α : Type} {m : Nat → SigRead α} {bs : List UInt8} {a : α}
    (hm : ∀ {fuel}, 2 * bs.length + 1 ≤ fuel → Reads (m fuel) bs a Set.univ) :
    Reads (do m (fuelFor (← get))) bs a Set.univ := by
  intro r rest hr h
  have hrem := length_le_remaining h
  rw [EStateM.bind_apply_of_ok EStateM.get_apply]
  exact hm (by unfold fuelFor; omega) r rest hr h

/-- A well-formed type reads back on the fuel its blob gives. -/
theorem readType_reads {t : TypeSig} {bs : List UInt8} (hwf : t.WF) (he : t.encode = .ok bs) :
    Reads readType bs t Set.univ :=
  Reads.of_fuelFor fun hfuel => readTypeFuel_of_after he (readTypeAfter_reads t hwf he) (by omega)

/-- A well-formed parameter reads back on the fuel its blob gives. -/
theorem readParam_reads {p : ParamSig} {bs : List UInt8} (hwf : p.WF) (he : p.encode = .ok bs) :
    Reads readParam bs p Set.univ :=
  Reads.of_fuelFor fun hfuel => readParamFuel_reads p hwf he (by omega)

/-- A well-formed method signature reads back on the fuel its blob gives. -/
theorem readMethod_reads {m : MethodSig} {bs : List UInt8} (hwf : m.WF) (he : m.encode = .ok bs) :
    Reads readMethod bs m Set.univ :=
  Reads.of_fuelFor fun hfuel => readMethodFuel_reads m hwf he (by omega)

/-- A well-formed field signature reads back: its tag, modifiers and type. -/
theorem readField_reads {f : FieldSig} {bs : List UInt8} (hwf : f.WF) (he : f.encode = .ok bs) :
    Reads readField bs f Set.univ := by
  obtain ⟨mods, ty⟩ := f
  obtain ⟨hm, hwt⟩ := hwf
  simp only [FieldSig.encode, Except.bind_eq_ok, Except.pure_eq_ok] at he
  obtain ⟨bm, hbm, bt, hbt, rfl⟩ := he
  unfold readField
  rw [List.append_assoc]
  -- the header is the field's, so the check on it passes
  refine Reads.bind (readU32_reads (rfl : Compressed.write 6 = .ok [0x06])) ?_ (fun _ _ => trivial)
  simp only [ne_eq, not_true_eq_false, ↓reduceIte]
  exact Reads.bind (readCustomMods_reads hm hbm) (Reads.bind_pure (readType_reads hwt hbt) _)
    (fun rest _ => modsEnd_of_encode hwt hbt rest)

/-- The parameters of a property read back, as many as were written. -/
theorem readParams_reads : ∀ {ps : List ParamSig} {bs : List UInt8}, ParamSig.WFList ps →
    ParamSig.encodeList ps = .ok bs → Reads (readParams ps.length) bs ps Set.univ
  | [], _, _, he => by
    cases he
    exact Reads.of_pure []
  | p :: ps, bs, hwf, he => by
    obtain ⟨hwp, hwps⟩ := hwf
    simp only [ParamSig.encodeList, Except.bind_eq_ok, Except.pure_eq_ok] at he
    obtain ⟨bp, hbp, bps, hbps, rfl⟩ := he
    rw [List.length_cons, readParams]
    exact Reads.bind (readParam_reads hwp hbp) (Reads.bind_pure (readParams_reads hwps hbps) _)
      (fun _ _ => trivial)

/-- A well-formed property signature reads back: its tag, count, modifiers, type
and parameters. -/
theorem readProperty_reads {p : PropertySig} {bs : List UInt8} (hwf : p.WF)
    (he : p.encode = .ok bs) : Reads readProperty bs p Set.univ := by
  obtain ⟨hasThis, mods, ty, params⟩ := p
  obtain ⟨hm, hwt, hcount, hwps⟩ := hwf
  obtain ⟨bc, hbc⟩ := write_count_ok (n := params.length) hcount
  simp only [PropertySig.encode, hbc, Except.bind_eq_ok, Except.pure_eq_ok, Except.ok.injEq,
    exists_eq_left'] at he
  obtain ⟨bm, hbm, bt, hbt, bps, hbps, rfl⟩ := he
  unfold readProperty
  simp only [List.append_assoc]
  have hheader : Compressed.write (if hasThis then 0x28 else 0x08 : UInt8).toUInt32 =
      .ok [if hasThis then 0x28 else 0x08] := by
    cases hasThis <;> rfl
  refine Reads.bind (readU32_reads hheader) ?_ (fun _ _ => trivial)
  -- either header passes the property check and says whether there is a `this`
  cases hasThis <;>
  · simp only [Bool.false_eq_true, ↓reduceIte]
    rw [if_neg (by decide)]
    refine Reads.bind (readU32_reads hbc) ?_ (fun _ _ => trivial)
    rw [toNat_toUInt32_of_le hcount]
    exact Reads.bind (readCustomMods_reads hm hbm) (Reads.bind (readType_reads hwt hbt)
      (Reads.bind_pure (readParams_reads hwps hbps) _) (fun _ _ => trivial))
      (fun rest _ => List.append_assoc bt bps rest ▸ modsEnd_of_encode hwt hbt _)

/-- The type of a local variable without the by-reference marker is read after its
tag, with fuel for the bytes left. -/
theorem readTypeAfter_fuelFor_reads {β : Type} {t : TypeSig} {bs : List UInt8} {g : TypeSig → β}
    (hwf : t.WF) (he : t.encode = .ok bs) :
    Reads (do
      let s ← get
      let ty ← readTypeAfter (fuelFor s) t.elementType
      pure (g ty)) bs.tail (g t) Set.univ := by
  have hlen : bs.length = bs.tail.length + 1 := by
    simpa using congrArg List.length (TypeSig.encode_head he)
  exact Reads.of_fuelFor (m := fun fuel => do
      let ty ← readTypeAfter fuel t.elementType
      pure (g ty))
    fun hfuel => Reads.bind_pure (readTypeAfter_reads t hwf he (by omega)) g

/-- The only type tagged `TYPEDBYREF` is the primitive one. -/
theorem TypeSig.eq_of_elementType_typedByRef {t : TypeSig} (h : t.elementType = .typedByRef) :
    t = .primitive .typedByRef := by
  cases t <;> simp [TypeSig.elementType] at h ⊢
  exact h

/-- The pinned and by-reference markers of a local end its custom modifiers. -/
theorem modsEnd_of_marker {et : ElementType} (h : et = .pinned ∨ et = .byRef) (rest : List UInt8) :
    et.code.toUInt8 :: rest ∈ ModsEnd := by
  rcases h with rfl | rfl <;> exact ⟨_, rest, rfl, by decide, by decide, by decide⟩

/-- A well-formed local reads back: its modifiers, the pinned and by-reference
markers it has, and its type. -/
theorem readLocal_reads {l : LocalSig} {bs : List UInt8} (hwf : l.WF) (he : l.encode = .ok bs) :
    Reads readLocal bs l Set.univ := by
  obtain ⟨mods, pinned, byRef, ty⟩ := l
  obtain ⟨hm, hnot', hwt⟩ := hwf
  have hnot : ty.elementType ≠ .byRef := hnot'
  -- the type's own tag is below the modifiers, so it is no pinned marker
  have hpin : ty.elementType ≠ .pinned := by
    intro h
    have := TypeSig.code_lt hwt
    rw [h] at this
    exact absurd this (by decide)
  cases pinned <;> cases byRef <;> simp [LocalSig.encode, encode_elementType] at he <;>
    obtain ⟨bm, hbm, bt, hbt, rfl⟩ := he <;> unfold readLocal
  case false.false =>
    -- no marker: the tag the modifiers end at is the type's
    refine Reads.bind (readCustomMods_reads hm hbm) ?_ (fun rest _ => modsEnd_of_encode hwt hbt rest)
    obtain ⟨tl, rfl⟩ : ∃ tl, bt = ty.elementType.code.toUInt8 :: tl := ⟨_, TypeSig.encode_head hbt⟩
    refine Reads.bind (readElementType_reads ty.elementType) ?_ (fun _ _ => trivial)
    by_cases htb : ty.elementType = .typedByRef
    · -- `TypedByRef` stands alone, with nothing after its tag
      have hty := TypeSig.eq_of_elementType_typedByRef htb
      subst hty
      simp only [TypeSig.encode, encode_elementType, Except.ok.injEq, List.cons.injEq] at hbt
      obtain ⟨-, rfl⟩ := hbt
      simp only [htb, ↓reduceIte]
      exact Reads.of_pure _
    · simp only [htb, hpin, hnot', pure_bind, ↓reduceIte, decide_false]
      exact readTypeAfter_fuelFor_reads hwt hbt
  case false.true =>
    -- by reference: the marker, then the whole type
    refine Reads.bind (readCustomMods_reads hm hbm) ?_ (fun _ _ => modsEnd_of_marker (.inr rfl) _)
    refine Reads.bind (readElementType_reads .byRef) ?_ (fun _ _ => trivial)
    simp only [reduceCtorEq, ↓reduceIte, pure_bind, decide_false, decide_true]
    exact Reads.bind_pure (readType_reads hwt hbt) _
  case true.false =>
    -- pinned: the marker, then the type's own tag
    refine Reads.bind (readCustomMods_reads hm hbm) ?_ (fun _ _ => modsEnd_of_marker (.inl rfl) _)
    obtain ⟨tl, rfl⟩ : ∃ tl, bt = ty.elementType.code.toUInt8 :: tl := ⟨_, TypeSig.encode_head hbt⟩
    refine Reads.bind (readElementType_reads .pinned) ?_ (fun _ _ => trivial)
    simp only [reduceCtorEq, ↓reduceIte, decide_true]
    refine Reads.bind (readElementType_reads ty.elementType) ?_ (fun _ _ => trivial)
    simp only [hnot, ↓reduceIte, decide_false]
    exact readTypeAfter_fuelFor_reads hwt hbt
  case true.true =>
    -- pinned by reference: both markers, then the whole type
    refine Reads.bind (readCustomMods_reads hm hbm) ?_ (fun _ _ => modsEnd_of_marker (.inl rfl) _)
    refine Reads.bind (readElementType_reads .pinned) ?_ (fun _ _ => trivial)
    simp only [reduceCtorEq, ↓reduceIte, decide_true]
    refine Reads.bind (readElementType_reads .byRef) ?_ (fun _ _ => trivial)
    simp only [↓reduceIte, decide_true]
    exact Reads.bind_pure (readType_reads hwt hbt) _

/-- The locals of a local signature read back, as many as were written. -/
theorem readLocalList_reads : ∀ {ls : List LocalSig} {each : List (List UInt8)},
    (∀ l ∈ ls, l.WF) → ls.mapM LocalSig.encode = .ok each →
      Reads (readLocalList ls.length) each.flatten ls Set.univ
  | [], each, _, he => by
    cases he
    exact Reads.of_pure []
  | l :: ls, each, hwf, he => by
    simp only [List.mapM_cons, Except.bind_eq_ok, Except.pure_eq_ok] at he
    obtain ⟨bl, hbl, bls, hbls, rfl⟩ := he
    rw [List.length_cons, readLocalList, List.flatten_cons]
    exact Reads.bind (readLocal_reads (hwf l List.mem_cons_self) hbl)
      (Reads.bind_pure (readLocalList_reads (fun l' hl' => hwf l' (List.mem_cons_of_mem l hl')) hbls) _)
      (fun _ _ => trivial)

/-- A well-formed local signature whose count fits a compressed integer reads
back: its tag, its count and its locals. -/
theorem readLocals_reads {ls : List LocalSig} {bs : List UInt8} (hwf : ∀ l ∈ ls, l.WF)
    (hcount : ls.length ≤ Compressed.maxValue.toNat) (he : LocalSig.encodeAll ls = .ok bs) :
    Reads readLocals bs ls Set.univ := by
  obtain ⟨bc, hbc⟩ := write_count_ok hcount
  simp only [LocalSig.encodeAll, hbc, Except.bind_eq_ok, Except.pure_eq_ok, Except.ok.injEq,
    exists_eq_left'] at he
  obtain ⟨each, heach, rfl⟩ := he
  unfold readLocals
  rw [List.append_assoc]
  -- the header is the locals', so the check on it passes
  refine Reads.bind (readU32_reads (rfl : Compressed.write 7 = .ok [0x07])) ?_ (fun _ _ => trivial)
  simp only [ne_eq, not_true_eq_false, ↓reduceIte]
  refine Reads.bind (readU32_reads hbc) ?_ (fun _ _ => trivial)
  rw [toNat_toUInt32_of_le hcount]
  exact readLocalList_reads hwf heach

/-- **The signature reader parses exactly its grammar.** Every well-formed type,
parameter, method, field, property and list of locals has an encoding, and reading that
encoding at any position, whatever bytes follow it, gives the descriptor back and stops
just past the encoding's last byte. -/
theorem signature_roundTrip :
    (∀ t : TypeSig, t.WF → ∃ bs, t.encode = .ok bs ∧ Reads readType bs t Set.univ) ∧
    (∀ p : ParamSig, p.WF → ∃ bs, p.encode = .ok bs ∧ Reads readParam bs p Set.univ) ∧
    (∀ m : MethodSig, m.WF → ∃ bs, m.encode = .ok bs ∧ Reads readMethod bs m Set.univ) ∧
    (∀ f : FieldSig, f.WF → ∃ bs, f.encode = .ok bs ∧ Reads readField bs f Set.univ) ∧
    (∀ p : PropertySig, p.WF → ∃ bs, p.encode = .ok bs ∧ Reads readProperty bs p Set.univ) ∧
    (∀ ls : List LocalSig, (∀ l ∈ ls, l.WF) → ls.length ≤ Compressed.maxValue.toNat →
      ∃ bs, LocalSig.encodeAll ls = .ok bs ∧ Reads readLocals bs ls Set.univ) := by
  refine ⟨fun t hwf => ?type, fun p hwf => ?param, fun m hwf => ?method, fun f hwf => ?field,
    fun p hwf => ?property, fun ls hwf hcount => ?locals⟩
  case type =>
    obtain ⟨bs, he⟩ := TypeSig.encode_ok t hwf
    exact ⟨bs, he, readType_reads hwf he⟩
  case param =>
    obtain ⟨bs, he⟩ := ParamSig.encode_ok p hwf
    exact ⟨bs, he, readParam_reads hwf he⟩
  case method =>
    obtain ⟨bs, he⟩ := MethodSig.encode_ok m hwf
    exact ⟨bs, he, readMethod_reads hwf he⟩
  case field =>
    obtain ⟨bs, he⟩ := FieldSig.encode_ok hwf
    exact ⟨bs, he, readField_reads hwf he⟩
  case property =>
    obtain ⟨bs, he⟩ := PropertySig.encode_ok hwf
    exact ⟨bs, he, readProperty_reads hwf he⟩
  case locals =>
    obtain ⟨bs, he⟩ := LocalSig.encodeAll_ok hwf hcount
    exact ⟨bs, he, readLocals_reads hwf hcount he⟩

/-- A generic vararg method returning a two-dimensional array with a negative lower bound,
taking an `int32` by reference under an optional modifier, and passing a function
pointer among its varargs, is read back from its encoding. -/
theorem varargMethod_roundTrip :
    ∃ bs, (MethodSig.mk 0x15 1
        (.mk [] (.array (.primitive .i4) ⟨2, [3], [-1]⟩) false)
        [.mk [⟨false, ⟨.typeRef, 5⟩⟩] (.primitive .i4) true]
        [.mk [] (.fnPtr (.mk 0 0 (.mk [] (.primitive .void) false) [] [])) false]).encode = .ok bs ∧
      Reads readMethod bs (MethodSig.mk 0x15 1
        (.mk [] (.array (.primitive .i4) ⟨2, [3], [-1]⟩) false)
        [.mk [⟨false, ⟨.typeRef, 5⟩⟩] (.primitive .i4) true]
        [.mk [] (.fnPtr (.mk 0 0 (.mk [] (.primitive .void) false) [] [])) false]) Set.univ :=
  signature_roundTrip.2.2.1 _ (by
    simp [MethodSig.WF, ParamSig.WF, ParamSig.WFList, TypeSig.WF, TypeRow.WF, ArrayShape.WF,
      ElementType.leaves, TypeSig.elementType]
    decide)

end SigReader

end CilBind
