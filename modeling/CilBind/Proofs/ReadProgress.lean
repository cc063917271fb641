import CilBind.Proofs.CompressedForms
import CilBind.Proofs.Outcome
import CilBind.Signature.Reader

/-!
# `CilBind.Proofs.ReadProgress`: every signature read consumes the blob

A successful read of a signature blob moves the reader forward over the bytes it
read. This module says by how much, for every read of `CilBind.Signature.Reader`
and on every blob:

* `Advance r r' k`: from `r` to `r'` the blob stays the same and the position goes
  `k` bytes forward at least, all of them bytes that were left.
* `Moves m k`: every successful run of `m` is such an advance.
* a compressed integer, an element type tag, a coded type row, a type, a
  parameter, a method, a field, a property and a list of locals each take a byte
  at least (`readU32_moves` to `readLocals_moves`);
* `readCustomMod_cases`: a custom modifier takes its tag and its row, two bytes at
  least, and finding none leaves the position where it was, even after the tag
  that was looked at is read and undone;
* a loop of `n` items takes `n` bytes (`LoopOf.moves`, `readTypesFuel_moves`,
  `readMethodParams_moves`).

## How the proof goes

`Moves` composes along a `do` block (`Moves.bind`), so each read's lemma follows
its definition one step at a time and never unfolds the reads it calls. The two
places that undo a read are the custom modifier and the vararg sentinel test
before a method parameter; both read a compressed integer, which remembers where
it started (`readU32_eq_ok`), so the undo puts the reader back exactly there
(`rollback_of_readU32`, `sentinelTest_moves`). The readers of nested types,
parameters and methods run on fuel; their lemmas are one mutual induction on the
fuel that follows the mutual recursion of the readers.
-/

set_option autoImplicit false

namespace CilBind

namespace SigReader

/-- The reader went from `r` to `r'` over the same blob, `k` bytes forward at least,
all of them bytes that were left at `r`. -/
structure Advance (r r' : SigReader) (k : Nat) : Prop where
  bytes_eq : r'.bytes = r.bytes
  pos_le : r.pos + k ≤ r'.pos
  remaining_le : r'.remaining + k ≤ r.remaining

/-- Every successful run of `m` moves the reader `k` bytes forward at least. -/
def Moves {α : Type} (m : SigRead α) (k : Nat) : Prop :=
  ∀ ⦃r r' : SigReader⦄ ⦃a : α⦄, m r = .ok a r' → Advance r r' k

namespace Advance

variable {r r₁ r₂ : SigReader} {j k : Nat}

/-- A reader over the same blob at the same position has advanced by nothing. -/
theorem of_pos_eq (hb : r₁.bytes = r.bytes) (hp : r₁.pos = r.pos) : Advance r r₁ 0 :=
  ⟨hb, by omega, by simp [remaining, hb, hp]⟩

/-- Advances add up along consecutive reads. -/
theorem trans (h₁ : Advance r r₁ j) (h₂ : Advance r₁ r₂ k) : Advance r r₂ (j + k) := by
  have := h₁.pos_le
  have := h₁.remaining_le
  have := h₂.pos_le
  have := h₂.remaining_le
  exact ⟨h₂.bytes_eq.trans h₁.bytes_eq, by omega, by omega⟩

/-- An advance of `k` bytes is one of every smaller amount. -/
theorem mono (h : Advance r r₁ k) (hjk : j ≤ k) : Advance r r₁ j := by
  have := h.pos_le
  have := h.remaining_le
  exact ⟨h.bytes_eq, by omega, by omega⟩

end Advance

namespace Moves

variable {α β : Type} {x : SigRead α} {g : α → SigRead β} {j k : Nat}

/-- Returning a value reads nothing. -/
theorem pure (a : α) : Moves (Pure.pure a : SigRead α) 0 := by
  intro r r' a' h
  cases h
  exact .of_pos_eq rfl rfl

/-- Looking at the reader reads nothing. -/
theorem get : Moves (MonadState.get : SigRead SigReader) 0 := by
  intro r r' a h
  cases h
  exact .of_pos_eq rfl rfl

/-- A read that always fails moves as far as one likes. -/
theorem throw (e : SigError) (k : Nat) : Moves (MonadExcept.throw e : SigRead α) k := by
  intro r r' a h
  cases h

/-- A read that fails at once never gets to its continuation. -/
theorem throw_bind (e : SigError) (k : Nat) : Moves (MonadExcept.throw e >>= g) k := by
  intro r r' a h
  cases h

/-- The amounts of two consecutive reads add up. -/
theorem bind (hx : Moves x j) (hg : ∀ a, Moves (g a) k) : Moves (x >>= g) (j + k) := by
  intro r r' b h
  obtain ⟨a, r₁, h₁, h₂⟩ := EStateM.bind_apply_eq_ok.mp h
  exact (hx h₁).trans (hg a h₂)

/-- Mapping the result of a read keeps its amount. -/
theorem bind_pure {g : α → β} (hx : Moves x k) : Moves (x >>= fun a => Pure.pure (g a)) k :=
  hx.bind (k := 0) fun _ => pure _

/-- A read that moves `k` bytes moves every smaller amount. -/
theorem mono (h : Moves x k) (hjk : j ≤ k) : Moves x j :=
  fun _ _ _ hr => (h hr).mono hjk

end Moves

/-! ### Compressed integers, tags and rows -/

/-- A compressed integer that is read takes one byte at least, all of them in the
blob. -/
theorem readAt_advance {bytes : List UInt8} {start : Nat} {v : UInt32} {next : Nat}
    (h : Compressed.readAt bytes start = .ok (v, next)) : start < next ∧ next ≤ bytes.length := by
  unfold Compressed.readAt at h
  split at h
  · cases h
  · rename_i first hfirst
    have h0 := (List.getElem?_eq_some_iff.mp hfirst).1
    split at h
    · cases h
      omega
    · split at h
      · split at h
        · cases h
        · rename_i second hsecond
          have h1 := (List.getElem?_eq_some_iff.mp hsecond).1
          cases h
          omega
      · split at h
        · rename_i b1 b2 b3 _ _ h3
          have := (List.getElem?_eq_some_iff.mp h3).1
          cases h
          omega
        · cases h

/-- A compressed integer read remembers where it started. -/
theorem readU32_eq_ok {r r' : SigReader} {v : UInt32} (h : readU32 r = .ok v r') :
    r'.lastRead = some r.pos ∧ Advance r r' 1 := by
  unfold readU32 at h
  split at h
  · rename_i next hread
    cases h
    obtain ⟨h1, h2⟩ := readAt_advance hread
    exact ⟨rfl, rfl, h1, by simp only [remaining]; omega⟩
  · cases h

/-- A compressed integer takes a byte at least. -/
theorem readU32_moves : Moves readU32 1 := fun _ _ _ h => (readU32_eq_ok h).2

/-- A signed compressed integer takes a byte at least: it is read as an unsigned one and then rotated. -/
theorem readI32_moves : Moves readI32 1 := by
  intro r r' v h
  unfold readI32 at h
  split at h
  · rename_i next hread
    cases h
    obtain ⟨raw, hraw, -⟩ := (Compressed.readSignedAt_eq_ok_iff _ _).mp hread
    obtain ⟨h1, h2⟩ := readAt_advance hraw
    exact ⟨rfl, h1, by simp only [remaining]; omega⟩
  · cases h

/-- Undoing a compressed integer read puts the reader back where the read started. -/
theorem rollback_of_readU32 {r r₁ : SigReader} {v : UInt32} (h : readU32 r = .ok v r₁) :
    rollback r₁ = .ok () { r with lastRead := none } := by
  unfold readU32 at h
  split at h
  · cases h
    rfl
  · cases h

/-- An element type tag is a compressed integer. -/
theorem readElementType_moves : Moves readElementType 1 := by
  unfold readElementType
  refine readU32_moves.bind (k := 0) fun raw => ?_
  split
  · exact Moves.pure _
  · exact Moves.throw _ _

/-- A coded type row is a compressed integer, whatever table its tag names. -/
theorem readTypeEncoded_moves : Moves readTypeEncoded 1 := by
  unfold readTypeEncoded
  refine readU32_moves.bind (k := 0) fun encoded => ?_
  split
  · exact Moves.pure _
  · exact Moves.pure _
  · exact Moves.pure _
  · exact Moves.throw _ _

/-! ### Custom modifiers -/

/-- A custom modifier takes its tag and its coded row; when none comes, the reader is
where it was, whether it stood at the end or read a tag and undid it. -/
theorem readCustomMod_cases {r r' : SigReader} {m : Option CustomMod}
    (h : readCustomMod r = .ok m r') :
    (∃ c, m = some c ∧ Advance r r' 2) ∨ (m = none ∧ r'.bytes = r.bytes ∧ r'.pos = r.pos) := by
  unfold readCustomMod at h
  rw [EStateM.bind_apply_of_ok EStateM.get_apply] at h
  split at h
  · cases h
    exact .inr ⟨rfl, rfl, rfl⟩
  · obtain ⟨tag, r₁, htag, h⟩ := EStateM.bind_apply_eq_ok.mp h
    have hadv := (readU32_eq_ok htag).2
    split at h
    · obtain ⟨row, r₂, hrow, h⟩ := EStateM.bind_apply_eq_ok.mp h
      cases h
      exact .inl ⟨_, rfl, hadv.trans (readTypeEncoded_moves hrow)⟩
    · split at h
      · obtain ⟨row, r₂, hrow, h⟩ := EStateM.bind_apply_eq_ok.mp h
        cases h
        exact .inl ⟨_, rfl, hadv.trans (readTypeEncoded_moves hrow)⟩
      · rw [EStateM.bind_apply_of_ok (rollback_of_readU32 htag)] at h
        cases h
        exact .inr ⟨rfl, rfl, rfl⟩

/-- A custom modifier, or the look for one, never moves the reader back. -/
theorem readCustomMod_moves : Moves readCustomMod 0 := by
  intro r r' m h
  rcases readCustomMod_cases h with ⟨c, -, hadv⟩ | ⟨-, hb, hp⟩
  · exact hadv.mono (Nat.zero_le 2)
  · exact .of_pos_eq hb hp

/-- A run of custom modifiers never moves the reader back, on any fuel. -/
theorem readCustomModsFuel_moves (fuel : Nat) : Moves (readCustomModsFuel fuel) 0 := by
  induction fuel with
  | zero => exact Moves.pure _
  | succ fuel ih =>
    rw [readCustomModsFuel]
    refine readCustomMod_moves.bind (k := 0) fun m => ?_
    split
    · exact ih.bind_pure
    · exact Moves.pure _

/-- The custom modifiers before a type never move the reader back. -/
theorem readCustomMods_moves : Moves readCustomMods 0 :=
  Moves.get.bind fun s => readCustomModsFuel_moves (s.remaining + 1)

/-! ### Counted lists -/

/-- `loop n` reads `n` items with `step`, one after the other, and returns them in
order: the shape of the readers of counted lists. -/
structure LoopOf {α : Type} (step : SigRead α) (loop : Nat → SigRead (List α)) : Prop where
  zero : loop 0 = pure []
  succ : ∀ n, loop (n + 1) = step >>= fun v => loop n >>= fun vs => pure (v :: vs)

/-- Items of a byte at least: `n` of them take `n` bytes. -/
theorem LoopOf.moves {α : Type} {step : SigRead α} {loop : Nat → SigRead (List α)}
    (hl : LoopOf step loop) (hs : Moves step 1) (n : Nat) : Moves (loop n) n := by
  induction n with
  | zero => exact hl.zero ▸ Moves.pure _
  | succ n ih =>
    rw [hl.succ]
    exact (hs.bind fun _ => ih.bind_pure).mono (by omega)

/-- The sizes of an array shape are a counted loop of compressed integers. -/
theorem readU32s_loop : LoopOf readU32 readU32s := ⟨rfl, fun _ => rfl⟩

/-- The lower bounds of an array shape are a counted loop of signed compressed integers. -/
theorem readI32s_loop : LoopOf readI32 readI32s := ⟨rfl, fun _ => rfl⟩

/-- An array shape takes its rank and its two counts, one byte each at least,
with the sizes and bounds they count. -/
theorem readArrayShape_moves : Moves readArrayShape 3 := by
  unfold readArrayShape
  exact (readU32_moves.bind fun _ => readU32_moves.bind fun sizes =>
    ((readU32s_loop.moves readU32_moves sizes.toNat).mono (Nat.zero_le _)).bind fun _ =>
      readU32_moves.bind fun bounds =>
        ((readI32s_loop.moves readI32_moves bounds.toNat).mono (Nat.zero_le _)).bind_pure).mono
    (by omega)

/-! ### Nested reads -/

/-- A read out of fuel fails, so it moves as far as one likes. -/
theorem outOfFuel_moves {α : Type} (k : Nat) : Moves (outOfFuel : SigRead α) k := by
  intro r r' a h
  cases h

/-- Before each parameter of a method, until the vararg sentinel has been passed, a
tag is read and kept only when it is the sentinel: the test itself moves nothing
back, whatever follows it moves. -/
theorem sentinelTest_moves {β : Type} {K : Bool → SigRead β} {k : Nat} (hK : ∀ a, Moves (K a) k)
    (after : Bool) (c : UInt32) :
    Moves (if after = true then Pure.pure true >>= K else readU32 >>= fun tag =>
      if tag = c then Pure.pure true >>= K else rollback >>= fun _ => Pure.pure false >>= K) k := by
  intro r r' b h
  split at h
  · rw [pure_bind] at h
    exact hK true h
  · obtain ⟨tag, r₁, htag, h⟩ := EStateM.bind_apply_eq_ok.mp h
    split at h
    · rw [pure_bind] at h
      exact ((readU32_moves htag).trans (hK true h)).mono (Nat.le_add_left k 1)
    · -- any other tag is undone, and the parameter starts where the tag did
      rw [EStateM.bind_apply_of_ok (rollback_of_readU32 htag), pure_bind] at h
      exact Nat.zero_add k ▸
        (Advance.of_pos_eq rfl rfl : Advance r { r with lastRead := none } 0).trans (hK false h)

mutual

/-- A type takes its element type tag at least. -/
theorem readTypeFuel_moves (fuel : Nat) : Moves (readTypeFuel fuel) 1 := by
  cases fuel with
  | zero => exact outOfFuel_moves 1
  | succ fuel =>
    rw [readTypeFuel]
    exact readElementType_moves.bind (k := 0) fun et => readTypeAfter_moves fuel et

/-- What follows a type's tag never moves the reader back; its amount is counted
with the tag. -/
theorem readTypeAfter_moves : ∀ fuel et, Moves (readTypeAfter fuel et) 0
  | 0, _ => outOfFuel_moves 0
  | fuel + 1, et => by
    match et with
    | .void | .boolean | .char | .i1 | .u1 | .i2 | .u2 | .i4 | .u4 | .i8 | .u8 | .r4 | .r8
    | .i | .u | .string | .object | .typedByRef =>
      exact Moves.pure _
    | .classType | .valueType =>
      rw [readTypeAfter]
      exact readTypeEncoded_moves.bind_pure.mono (Nat.zero_le 1)
    | .szArray | .ptr =>
      rw [readTypeAfter]
      exact readCustomMods_moves.bind fun _ => ((readTypeFuel_moves fuel).mono (Nat.zero_le 1)).bind_pure
    | .array =>
      rw [readTypeAfter]
      exact ((readTypeFuel_moves fuel).bind fun _ => readArrayShape_moves.bind_pure).mono (Nat.zero_le _)
    | .byRef =>
      rw [readTypeAfter]
      exact (readTypeFuel_moves fuel).bind_pure.mono (Nat.zero_le 1)
    | .genericInst =>
      rw [readTypeAfter]
      refine (readElementType_moves.bind (k := 0) fun kind => ?_).mono (Nat.zero_le _)
      -- what follows the kind tag, for either kind
      have hrest : ∀ vt : Bool, Moves (do
          let base ← readTypeEncoded
          let count ← readU32
          let args ← readTypesFuel fuel count.toNat
          pure (TypeSig.genericInst vt base args)) 0 := fun vt =>
        (readTypeEncoded_moves.bind fun _ => readU32_moves.bind fun count =>
          ((readTypesFuel_moves fuel count.toNat).mono (Nat.zero_le _)).bind_pure).mono (Nat.zero_le _)
      split
      · exact (Moves.pure true).bind hrest
      · exact (Moves.pure false).bind hrest
      · exact Moves.throw_bind _ _
    | .var | .mvar =>
      rw [readTypeAfter]
      exact readU32_moves.bind_pure.mono (Nat.zero_le 1)
    | .fnPtr =>
      rw [readTypeAfter]
      exact (readMethodFuel_moves fuel).bind_pure.mono (Nat.zero_le 1)
    | .end_ | .cmodReqd | .cmodOpt | .internal | .modifier | .sentinel | .pinned =>
      exact Moves.throw _ _

/-- The `n` arguments of a generic instance take a byte each. -/
theorem readTypesFuel_moves : ∀ fuel n, Moves (readTypesFuel fuel n) n
  | 0, _ => outOfFuel_moves _
  | _ + 1, 0 => Moves.pure _
  | fuel + 1, n + 1 => by
    rw [readTypesFuel]
    exact ((readTypeFuel_moves fuel).bind fun _ => (readTypesFuel_moves fuel n).bind_pure).mono (by omega)

/-- A parameter or a return type takes its tag at least, after its modifiers. -/
theorem readParamFuel_moves (fuel : Nat) : Moves (readParamFuel fuel) 1 := by
  cases fuel with
  | zero => exact outOfFuel_moves 1
  | succ fuel =>
    rw [readParamFuel]
    refine readCustomMods_moves.bind fun _ => readElementType_moves.bind (k := 0) fun et => ?_
    split
    · exact ((readTypeFuel_moves fuel).mono (Nat.zero_le 1)).bind_pure
    · exact (readTypeAfter_moves fuel et).bind_pure

/-- The `n` parameters of a method take a byte each, the vararg sentinel test
before each of them included. -/
theorem readMethodParams_moves : ∀ fuel n after, Moves (readMethodParams fuel n after) n
  | 0, _, _ => outOfFuel_moves _
  | _ + 1, 0, _ => Moves.pure _
  | fuel + 1, n + 1, after => by
    rw [readMethodParams]
    refine sentinelTest_moves (fun a => ?_) after _
    refine ((readParamFuel_moves fuel).bind fun _ =>
      (readMethodParams_moves fuel n a).bind (k := 0) fun res => ?_).mono (by omega)
    dsimp only
    split
    · exact Moves.pure _
    · exact Moves.pure _

/-- A method signature takes its calling convention byte at least. -/
theorem readMethodFuel_moves (fuel : Nat) : Moves (readMethodFuel fuel) 1 := by
  cases fuel with
  | zero => exact outOfFuel_moves 1
  | succ fuel =>
    rw [readMethodFuel]
    refine readU32_moves.bind (k := 0) fun flags => ?_
    -- the count, the return type and the parameters, after the generic count if any
    have hrest : ∀ generic, Moves (do
        let count ← readU32
        let ret ← readParamFuel fuel
        let x ← readMethodParams fuel count.toNat false
        pure (MethodSig.mk flags generic ret x.1 x.2)) 0 := fun generic =>
      (readU32_moves.bind fun count => (readParamFuel_moves fuel).bind fun _ =>
        ((readMethodParams_moves fuel count.toNat false).mono (Nat.zero_le _)).bind_pure).mono
          (Nat.zero_le _)
    dsimp only
    split
    · exact Moves.throw_bind _ _
    · split
      · exact (readU32_moves.mono (Nat.zero_le 1)).bind hrest
      · exact (Moves.pure 0).bind hrest

end

/-! ### Whole signatures -/

/-- A type read on the fuel its blob gives takes a byte at least. -/
theorem readType_moves : Moves readType 1 :=
  Moves.get.bind fun s => readTypeFuel_moves (fuelFor s)

/-- A parameter read on the fuel its blob gives takes a byte at least. -/
theorem readParam_moves : Moves readParam 1 :=
  Moves.get.bind fun s => readParamFuel_moves (fuelFor s)

/-- A method signature read on the fuel its blob gives takes a byte at least. -/
theorem readMethod_moves : Moves readMethod 1 :=
  Moves.get.bind fun s => readMethodFuel_moves (fuelFor s)

/-- A field signature takes its `FIELD` tag at least. -/
theorem readField_moves : Moves readField 1 := by
  unfold readField
  refine readU32_moves.bind (k := 0) fun flags => ?_
  dsimp only
  split
  · exact Moves.throw_bind _ _
  · exact (readCustomMods_moves.bind fun _ => readType_moves.bind_pure).mono (Nat.zero_le _)

/-- The parameters of a property are a counted loop of parameters. -/
theorem readParams_loop : LoopOf readParam readParams := ⟨rfl, fun _ => rfl⟩

/-- A property signature takes its `PROPERTY` tag at least. -/
theorem readProperty_moves : Moves readProperty 1 := by
  unfold readProperty
  refine readU32_moves.bind (k := 0) fun flags => ?_
  dsimp only
  split
  · exact Moves.throw_bind _ _
  · exact (readU32_moves.bind fun count => readCustomMods_moves.bind fun _ => readType_moves.bind fun _ =>
      ((readParams_loop.moves readParam_moves count.toNat).mono (Nat.zero_le _)).bind_pure).mono
        (Nat.zero_le _)

/-- A local takes its element type tag at least, after its modifiers. -/
theorem readLocal_moves : Moves readLocal 1 := by
  unfold readLocal
  refine readCustomMods_moves.bind fun _ => readElementType_moves.bind (k := 0) fun et => ?_
  dsimp only
  split
  · exact Moves.pure _
  · -- a pinned marker takes the next tag; the rest is the same after either
    split
    on_goal 1 => refine (readElementType_moves.mono (Nat.zero_le 1)).bind (k := 0) fun et' => ?_
    on_goal 2 => refine (Moves.pure et).bind (k := 0) fun et' => ?_
    -- the type: whole when by reference, after its tag otherwise
    all_goals
      split
      · exact (readType_moves.mono (Nat.zero_le 1)).bind_pure
      · exact Moves.get.bind fun s => (readTypeAfter_moves _ et').bind_pure

/-- The locals of a local signature are a counted loop of locals. -/
theorem readLocalList_loop : LoopOf readLocal readLocalList := ⟨rfl, fun _ => rfl⟩

/-- A local signature takes its `LOCAL_SIG` tag at least. -/
theorem readLocals_moves : Moves readLocals 1 := by
  unfold readLocals
  refine readU32_moves.bind (k := 0) fun flags => ?_
  dsimp only
  split
  · exact Moves.throw_bind _ _
  · exact (readU32_moves.bind fun count =>
      (readLocalList_loop.moves readLocal_moves count.toNat).mono (Nat.zero_le _)).mono (Nat.zero_le _)

end SigReader

end CilBind
