import CilBind.Proofs.ReadProgress

/-!
# `CilBind.Proofs.ReadBounds`: nesting and counts of a signature are bounded by its blob

Since every read consumes the blob (`CilBind.Proofs.ReadProgress`), nothing in a
signature read runs longer than the bytes that are left:

* `readType_eq_fuel`, `readParam_eq_fuel`, `readMethod_eq_fuel`: the nested readers
  run on fuel, one step per nested read and per item of a list, and two steps per
  byte left and one more are never used up: any such fuel gives the read that
  `readType`, `readParam` and `readMethod` make. So a chain of nested types takes a
  byte per type, and no fuel bound is ever what stops a read.
* `CountedLoop`: a counted list of `n` items takes `n` bytes, and its count matters
  only up to one more than the bytes left: the loop never gets past the item that
  starts at the end of the blob. This holds of every counted list of a signature:
  generic arguments, array sizes and bounds, method and property parameters,
  locals.
* a count larger than the bytes left after it fails the read that holds the list
  (`readType_fails_of_args`, `readArrayShape_fails_of_sizes`,
  `readArrayShape_fails_of_bounds`, `readMethod_fails_of_count`,
  `readProperty_fails_of_count`, `readLocals_fails_of_count`).

`reads_bounded_by_blob` gathers these with the progress of every read.

## How the proof goes

`AgreeWithin n m m'`: the two reads end alike from every reader with at most `n`
bytes left. It composes along a `do` block like `Moves`, the budget going down by
what each step moves (`AgreeWithin.bind`). Two readers on different fuel then agree
by one mutual induction on the fuel that follows the readers' mutual recursion: a
type, a parameter or a method needs `2 * n + 1` steps with `n` bytes left, what
follows a type's tag and a list of types or parameters `2 * n + 2`, and each nested
read comes after a byte that lowers `n`. The same composition shows that two counts
with the same minimum with one more than the bytes left give the same loop.
-/

set_option autoImplicit false

namespace CilBind

namespace SigReader

/-- `m` and `m'` end alike, value, error and reader, from every reader with at most
`n` bytes left. -/
def AgreeWithin {α : Type} (n : Nat) (m m' : SigRead α) : Prop :=
  ∀ r : SigReader, r.remaining ≤ n → m r = m' r

namespace AgreeWithin

variable {α β : Type} {n k : Nat} {x x' : SigRead α} {g g' : α → SigRead β}

/-- A read agrees with itself on every budget. -/
theorem refl : AgreeWithin n x x := fun _ _ => rfl

/-- Reads that agree, followed by reads that agree with the bytes the first left. -/
theorem bind (hx : AgreeWithin n x x') (hm : Moves x k)
    (hg : ∀ a j, j + k ≤ n → AgreeWithin j (g a) (g' a)) : AgreeWithin n (x >>= g) (x' >>= g') := by
  intro r hr
  show EStateM.bind x g r = EStateM.bind x' g' r
  unfold EStateM.bind
  rw [← hx r hr]
  cases h : x r with
  | ok a r₁ => exact hg a r₁.remaining (by have := (hm h).remaining_le; omega) r₁ le_rfl
  | error e r₁ => rfl

/-- Reads that agree, followed by the same read. -/
theorem bind_left (hx : AgreeWithin n x x') : AgreeWithin n (x >>= g) (x' >>= g) := by
  intro r hr
  show EStateM.bind x g r = EStateM.bind x' g r
  unfold EStateM.bind
  rw [hx r hr]

/-- Reads that fail at once with the same error agree, whatever follows. -/
theorem throw_bind (e : SigError) :
    AgreeWithin n (MonadExcept.throw e >>= g) (MonadExcept.throw e >>= g') :=
  fun _ _ => rfl

/-- Agreement goes through a test that both sides make alike. -/
theorem ite {c : Prop} [Decidable c] {y y' : SigRead α} (h₁ : c → AgreeWithin n x x')
    (h₂ : ¬ c → AgreeWithin n y y') : AgreeWithin n (if c then x else y) (if c then x' else y') := by
  split
  · exact h₁ ‹_›
  · exact h₂ ‹_›

end AgreeWithin

/-! ### Fuel -/

/-- The kind tag of a generic instantiation, `ValueType` or `Class`, and the rest
after it. -/
theorem genericKind_agree {n : Nat} {J J' : Bool → SigRead TypeSig}
    (hJ : ∀ vt j, j + 1 ≤ n → AgreeWithin j (J vt) (J' vt)) :
    AgreeWithin n (readElementType >>= fun kind => match kind with
      | .valueType => pure true >>= J
      | .classType => pure false >>= J
      | other => throw (SigError.unexpectedElementType other.code "generic instantiation") >>= J)
      (readElementType >>= fun kind => match kind with
      | .valueType => pure true >>= J'
      | .classType => pure false >>= J'
      | other => throw (SigError.unexpectedElementType other.code "generic instantiation") >>= J') := by
  refine AgreeWithin.refl.bind readElementType_moves fun kind j hj => ?_
  cases kind
  case valueType => exact hJ true j hj
  case classType => exact hJ false j hj
  all_goals exact AgreeWithin.throw_bind _

/-- The vararg sentinel test before a method parameter leaves at most the bytes it
found for what follows. -/
theorem sentinelTest_agree {β : Type} {n : Nat} {K K' : Bool → SigRead β}
    (hK : ∀ a j, j ≤ n → AgreeWithin j (K a) (K' a)) (after : Bool) (c : UInt32) :
    AgreeWithin n (if after = true then Pure.pure true >>= K else readU32 >>= fun tag =>
      if tag = c then Pure.pure true >>= K else rollback >>= fun _ => Pure.pure false >>= K)
      (if after = true then Pure.pure true >>= K' else readU32 >>= fun tag =>
      if tag = c then Pure.pure true >>= K' else rollback >>= fun _ => Pure.pure false >>= K') := by
  refine AgreeWithin.ite (fun _ => hK true n le_rfl) (fun _ => ?_)
  intro r hr
  cases htag : readU32 r with
  | ok tag r₁ =>
    rw [EStateM.bind_apply_of_ok htag, EStateM.bind_apply_of_ok htag]
    split
    · exact hK true r₁.remaining (by have := (readU32_moves htag).remaining_le; omega) r₁ le_rfl
    · rw [EStateM.bind_apply_of_ok (rollback_of_readU32 htag),
        EStateM.bind_apply_of_ok (rollback_of_readU32 htag)]
      exact hK false n le_rfl _ hr
  | error e r₁ =>
    show EStateM.bind readU32 _ r = EStateM.bind readU32 _ r
    unfold EStateM.bind
    rw [htag]

mutual

/-- A type reads alike on any two fuels of at least two steps per byte left and
one more. -/
theorem readTypeFuel_agree : ∀ (f : Nat) {f' n : Nat}, 2 * n + 1 ≤ f → 2 * n + 1 ≤ f' →
    AgreeWithin n (readTypeFuel f) (readTypeFuel f')
  | 0, _, _, hf, _ => absurd hf (by omega)
  | k + 1, f', n, hf, hf' => by
    obtain ⟨k', rfl⟩ : ∃ k', f' = k' + 1 := ⟨f' - 1, by omega⟩
    rw [readTypeFuel, readTypeFuel]
    -- the tag takes a byte, which pays for the step to what follows it
    exact AgreeWithin.refl.bind readElementType_moves fun et j hj =>
      readTypeAfter_agree k et (by omega) (by omega)

/-- What follows a type's tag reads alike on any two fuels of at least two steps
per byte left and two more: the tag already paid one byte. -/
theorem readTypeAfter_agree : ∀ (f : Nat) (et : ElementType) {f' n : Nat},
    2 * n + 2 ≤ f → 2 * n + 2 ≤ f' → AgreeWithin n (readTypeAfter f et) (readTypeAfter f' et)
  | 0, _, _, _, hf, _ => absurd hf (by omega)
  | k + 1, et, f', n, hf, hf' => by
    obtain ⟨k', rfl⟩ : ∃ k', f' = k' + 1 := ⟨f' - 1, by omega⟩
    match et with
    | .void | .boolean | .char | .i1 | .u1 | .i2 | .u2 | .i4 | .u4 | .i8 | .u8 | .r4 | .r8
    | .i | .u | .string | .object | .typedByRef | .classType | .valueType | .var | .mvar
    | .end_ | .cmodReqd | .cmodOpt | .internal | .modifier | .sentinel | .pinned =>
      -- nothing nested: the fuel is not read
      exact AgreeWithin.refl
    | .szArray | .ptr =>
      rw [readTypeAfter, readTypeAfter]
      exact AgreeWithin.refl.bind readCustomMods_moves fun _ j hj =>
        (readTypeFuel_agree k (by omega) (by omega)).bind_left
    | .array =>
      rw [readTypeAfter, readTypeAfter]
      exact (readTypeFuel_agree k (by omega) (by omega)).bind_left
    | .byRef =>
      rw [readTypeAfter, readTypeAfter]
      exact (readTypeFuel_agree k (by omega) (by omega)).bind_left
    | .fnPtr =>
      rw [readTypeAfter, readTypeAfter]
      exact (readMethodFuel_agree k (by omega) (by omega)).bind_left
    | .genericInst =>
      rw [readTypeAfter, readTypeAfter]
      -- the kind tag pays for the list of arguments
      refine genericKind_agree fun vt j hj => ?_
      exact AgreeWithin.refl.bind readTypeEncoded_moves fun _ j₁ hj₁ =>
        AgreeWithin.refl.bind readU32_moves fun count j₂ hj₂ =>
          (readTypesFuel_agree k count.toNat (by omega) (by omega)).bind_left

/-- The arguments of a generic instance read alike on any two fuels of at least
two steps per byte left and two more. -/
theorem readTypesFuel_agree : ∀ (f m : Nat) {f' n : Nat}, 2 * n + 2 ≤ f → 2 * n + 2 ≤ f' →
    AgreeWithin n (readTypesFuel f m) (readTypesFuel f' m)
  | 0, _, _, _, hf, _ => absurd hf (by omega)
  | k + 1, 0, f', n, hf, hf' => by
    obtain ⟨k', rfl⟩ : ∃ k', f' = k' + 1 := ⟨f' - 1, by omega⟩
    exact AgreeWithin.refl
  | k + 1, m + 1, f', n, hf, hf' => by
    obtain ⟨k', rfl⟩ : ∃ k', f' = k' + 1 := ⟨f' - 1, by omega⟩
    rw [readTypesFuel, readTypesFuel]
    exact (readTypeFuel_agree k (by omega) (by omega)).bind (readTypeFuel_moves k) fun _ j hj =>
      (readTypesFuel_agree k m (by omega) (by omega)).bind_left

/-- A parameter reads alike on any two fuels of at least two steps per byte left
and one more. -/
theorem readParamFuel_agree : ∀ (f : Nat) {f' n : Nat}, 2 * n + 1 ≤ f → 2 * n + 1 ≤ f' →
    AgreeWithin n (readParamFuel f) (readParamFuel f')
  | 0, _, _, hf, _ => absurd hf (by omega)
  | k + 1, f', n, hf, hf' => by
    obtain ⟨k', rfl⟩ : ∃ k', f' = k' + 1 := ⟨f' - 1, by omega⟩
    rw [readParamFuel, readParamFuel]
    refine AgreeWithin.refl.bind readCustomMods_moves fun _ j hj =>
      AgreeWithin.refl.bind readElementType_moves fun et j₁ hj₁ =>
        AgreeWithin.ite (fun _ => ?_) (fun _ => ?_)
    · exact (readTypeFuel_agree k (by omega) (by omega)).bind_left
    · exact (readTypeAfter_agree k et (by omega) (by omega)).bind_left

/-- The parameters of a method read alike on any two fuels of at least two steps
per byte left and two more. -/
theorem readMethodParams_agree : ∀ (f m : Nat) (after : Bool) {f' n : Nat},
    2 * n + 2 ≤ f → 2 * n + 2 ≤ f' →
    AgreeWithin n (readMethodParams f m after) (readMethodParams f' m after)
  | 0, _, _, _, _, hf, _ => absurd hf (by omega)
  | k + 1, 0, _, f', n, hf, hf' => by
    obtain ⟨k', rfl⟩ : ∃ k', f' = k' + 1 := ⟨f' - 1, by omega⟩
    exact AgreeWithin.refl
  | k + 1, m + 1, after, f', n, hf, hf' => by
    obtain ⟨k', rfl⟩ : ∃ k', f' = k' + 1 := ⟨f' - 1, by omega⟩
    rw [readMethodParams, readMethodParams]
    refine sentinelTest_agree (fun a j hj => ?_) after _
    exact (readParamFuel_agree k (by omega) (by omega)).bind (readParamFuel_moves k) fun _ j₁ hj₁ =>
      (readMethodParams_agree k m a (by omega) (by omega)).bind_left

/-- A method signature reads alike on any two fuels of at least two steps per byte
left and one more. -/
theorem readMethodFuel_agree : ∀ (f : Nat) {f' n : Nat}, 2 * n + 1 ≤ f → 2 * n + 1 ≤ f' →
    AgreeWithin n (readMethodFuel f) (readMethodFuel f')
  | 0, _, _, hf, _ => absurd hf (by omega)
  | k + 1, f', n, hf, hf' => by
    obtain ⟨k', rfl⟩ : ∃ k', f' = k' + 1 := ⟨f' - 1, by omega⟩
    rw [readMethodFuel, readMethodFuel]
    refine AgreeWithin.refl.bind readU32_moves fun flags j hj => ?_
    dsimp only
    refine AgreeWithin.ite (fun _ => AgreeWithin.throw_bind _) (fun _ => AgreeWithin.ite
      (fun _ => AgreeWithin.refl.bind readU32_moves fun generic j₁ hj₁ => ?_)
      (fun _ => AgreeWithin.refl.bind (Moves.pure 0) fun generic j₁ hj₁ => ?_))
    -- the count, the return type and the parameters, after a generic count or without one
    all_goals
      exact AgreeWithin.refl.bind readU32_moves fun count j₂ hj₂ =>
        (readParamFuel_agree k (by omega) (by omega)).bind (readParamFuel_moves k) fun _ j₃ hj₃ =>
          (readMethodParams_agree k count.toNat false (by omega) (by omega)).bind_left

end

/-- A reader on fuel that agrees with itself from two steps per byte left and one more
reads, on any such fuel, what it reads on the fuel `fuelFor` gives it. -/
theorem eq_fuelFor {α : Type} {m : Nat → SigRead α}
    (hm : ∀ (f : Nat) {f' n : Nat}, 2 * n + 1 ≤ f → 2 * n + 1 ≤ f' → AgreeWithin n (m f) (m f'))
    {r : SigReader} {f : Nat} (hf : 2 * r.remaining + 1 ≤ f) : m f r = (do m (fuelFor (← get))) r := by
  rw [EStateM.bind_apply_of_ok EStateM.get_apply]
  exact hm f hf (by unfold fuelFor; omega) r le_rfl

/-- Any fuel of two steps per byte left and one more reads the type `readType` reads. -/
theorem readType_eq_fuel {r : SigReader} {f : Nat} (hf : 2 * r.remaining + 1 ≤ f) :
    readTypeFuel f r = readType r :=
  eq_fuelFor readTypeFuel_agree hf

/-- Any fuel of two steps per byte left and one more reads the parameter
`readParam` reads. -/
theorem readParam_eq_fuel {r : SigReader} {f : Nat} (hf : 2 * r.remaining + 1 ≤ f) :
    readParamFuel f r = readParam r :=
  eq_fuelFor readParamFuel_agree hf

/-- Any fuel of two steps per byte left and one more reads the method signature
`readMethod` reads. -/
theorem readMethod_eq_fuel {r : SigReader} {f : Nat} (hf : 2 * r.remaining + 1 ≤ f) :
    readMethodFuel f r = readMethod r :=
  eq_fuelFor readMethodFuel_agree hf

/-! ### Counted lists -/

/-- `m` started at `r` ends with an error. -/
def Fails {α : Type} (m : SigRead α) (r : SigReader) : Prop :=
  ∃ e r', m r = .error e r'

/-- A list reader whose items take a byte each: `n` items take `n` bytes, and a count
matters only up to one more than the bytes left, as the item that would start at the
end of the blob fails. -/
structure CountedLoop {α : Type} (loop : Nat → SigRead α) : Prop where
  moves : ∀ n, Moves (loop n) n
  caps : ∀ n r, loop n r = loop (min n (r.remaining + 1)) r

/-- A loop whose `n` items take `n` bytes, and that reads alike for any two counts
with the same minimum with one more than the bytes left, is a counted loop. -/
theorem CountedLoop.of_agree {α : Type} {loop : Nat → SigRead α} (hm : ∀ n, Moves (loop n) n)
    (ha : ∀ n m R, min n (R + 1) = min m (R + 1) → AgreeWithin R (loop n) (loop m)) :
    CountedLoop loop :=
  ⟨hm, fun n r => ha n _ r.remaining (by omega) r le_rfl⟩

/-- More items than bytes left: the list fails. -/
theorem Moves.fails_of_lt {α : Type} {x : SigRead α} {k : Nat} (h : Moves x k) {r : SigReader}
    (hr : r.remaining < k) : Fails x r := by
  cases hx : x r with
  | ok a r' => exact absurd (h hx).remaining_le (by omega)
  | error e r' => exact ⟨e, r', hx⟩

/-- Counts with the same minimum with one more than the bytes left give the same
loop over items of a byte at least: the item past the end fails either way. -/
theorem LoopOf.agree {α : Type} {step : SigRead α} {loop : Nat → SigRead (List α)}
    (hl : LoopOf step loop) (hs : Moves step 1) :
    ∀ n m R, min n (R + 1) = min m (R + 1) → AgreeWithin R (loop n) (loop m)
  | 0, m, R, h => by
    obtain rfl : m = 0 := by omega
    exact .refl
  | n + 1, m, R, h => by
    obtain ⟨m, rfl⟩ : ∃ m', m = m' + 1 := ⟨m - 1, by omega⟩
    rw [hl.succ, hl.succ]
    exact AgreeWithin.refl.bind hs fun _ j hj =>
      (hl.agree hs n m j (by omega)).bind_left

/-- A counted list of items of a byte at least is a counted loop. -/
theorem LoopOf.counted {α : Type} {step : SigRead α} {loop : Nat → SigRead (List α)}
    (hl : LoopOf step loop) (hs : Moves step 1) : CountedLoop loop :=
  .of_agree (hl.moves hs) (hl.agree hs)

/-- The count of a generic instance's arguments matters only up to one more than
the bytes left. -/
theorem readTypesFuel_caps : ∀ (f n m R : Nat), min n (R + 1) = min m (R + 1) →
    AgreeWithin R (readTypesFuel f n) (readTypesFuel f m)
  | 0, _, _, _, _ => .refl
  | _ + 1, 0, m, R, h => by
    obtain rfl : m = 0 := by omega
    exact .refl
  | k + 1, n + 1, m, R, h => by
    obtain ⟨m, rfl⟩ : ∃ m', m = m' + 1 := ⟨m - 1, by omega⟩
    rw [readTypesFuel, readTypesFuel]
    exact AgreeWithin.refl.bind (readTypeFuel_moves k) fun _ j hj =>
      (readTypesFuel_caps k n m j (by omega)).bind_left

/-- The count of a method's parameters matters only up to one more than the bytes
left, the sentinel test before each parameter included. -/
theorem readMethodParams_caps : ∀ (f n m R : Nat) (after : Bool), min n (R + 1) = min m (R + 1) →
    AgreeWithin R (readMethodParams f n after) (readMethodParams f m after)
  | 0, _, _, _, _, _ => .refl
  | _ + 1, 0, m, R, _, h => by
    obtain rfl : m = 0 := by omega
    exact .refl
  | k + 1, n + 1, m, R, after, h => by
    obtain ⟨m, rfl⟩ : ∃ m', m = m' + 1 := ⟨m - 1, by omega⟩
    rw [readMethodParams, readMethodParams]
    -- the sentinel test keeps the budget, and the parameter lowers it
    refine sentinelTest_agree (fun a j hj => ?_) after _
    exact AgreeWithin.refl.bind (readParamFuel_moves k) fun _ j₁ hj₁ =>
      (readMethodParams_caps k n m j₁ a (by omega)).bind_left

/-! ### Counts beyond the blob -/

namespace Fails

variable {α β : Type} {x : SigRead α} {g : α → SigRead β} {r r₁ : SigReader} {a : α} {k : Nat}

/-- A read whose first step fails fails. -/
theorem bind_of_fails (h : Fails x r) : Fails (x >>= g) r := by
  obtain ⟨e, r', h⟩ := h
  exact ⟨e, r', EStateM.bind_apply_eq_error.mpr (.inl h)⟩

/-- A read whose first step succeeds fails when the rest fails from where the
first step left the reader. -/
theorem bind_of_ok (hx : x r = .ok a r₁) (hg : Fails (g a) r₁) : Fails (x >>= g) r := by
  obtain ⟨e, r', h⟩ := hg
  exact ⟨e, r', by rw [EStateM.bind_apply_of_ok hx, h]⟩

/-- A read whose rest fails from wherever the first step may leave the reader. -/
theorem bind_moves (hx : Moves x k) (hg : ∀ a r₁, r₁.remaining + k ≤ r.remaining → Fails (g a) r₁) :
    Fails (x >>= g) r := by
  cases h : x r with
  | ok a r₁ => exact bind_of_ok h (hg a r₁ (hx h).remaining_le)
  | error e r₁ => exact bind_of_fails ⟨e, r₁, h⟩

/-- A read that throws at once fails. -/
theorem throw_bind (e : SigError) : Fails (MonadExcept.throw e >>= g) r := ⟨e, r, rfl⟩

end Fails

/-- An array shape fails when its count of sizes exceeds the bytes left after it. -/
theorem readArrayShape_fails_of_sizes {r r₁ r₂ : SigReader} {rank sizes : UInt32}
    (hrank : readU32 r = .ok rank r₁) (hsizes : readU32 r₁ = .ok sizes r₂)
    (hlt : r₂.remaining < sizes.toNat) : Fails readArrayShape r :=
  Fails.bind_of_ok hrank (Fails.bind_of_ok hsizes
    (Fails.bind_of_fails ((readU32s_loop.moves readU32_moves _).fails_of_lt hlt)))

/-- An array shape fails when its count of lower bounds exceeds the bytes left
after it. -/
theorem readArrayShape_fails_of_bounds {r r₁ r₂ r₃ r₄ : SigReader} {rank numSizes bounds : UInt32}
    {sizes : List UInt32} (hrank : readU32 r = .ok rank r₁) (hnum : readU32 r₁ = .ok numSizes r₂)
    (hsizes : readU32s numSizes.toNat r₂ = .ok sizes r₃) (hbounds : readU32 r₃ = .ok bounds r₄)
    (hlt : r₄.remaining < bounds.toNat) : Fails readArrayShape r :=
  Fails.bind_of_ok hrank (Fails.bind_of_ok hnum (Fails.bind_of_ok hsizes (Fails.bind_of_ok hbounds
    (Fails.bind_of_fails ((readI32s_loop.moves readI32_moves _).fails_of_lt hlt)))))

/-- A generic instance fails, on any fuel, when its count of arguments exceeds
the bytes left after it. -/
theorem readTypeAfter_fails_of_args {f : Nat} {r r₁ r₂ r₃ : SigReader} {kind : ElementType}
    {base : TypeRow} {count : UInt32} (hkind : readElementType r = .ok kind r₁)
    (hbase : readTypeEncoded r₁ = .ok base r₂) (hcount : readU32 r₂ = .ok count r₃)
    (hlt : r₃.remaining < count.toNat) : Fails (readTypeAfter f .genericInst) r := by
  cases f with
  | zero => exact ⟨_, _, rfl⟩
  | succ k =>
    rw [readTypeAfter]
    refine Fails.bind_of_ok hkind ?_
    -- the arguments, after either kind
    have hargs : ∀ vt : Bool, Fails (do
        let base ← readTypeEncoded
        let count ← readU32
        let args ← readTypesFuel k count.toNat
        pure (TypeSig.genericInst vt base args)) r₁ := fun vt =>
      Fails.bind_of_ok hbase (Fails.bind_of_ok hcount
        (Fails.bind_of_fails ((readTypesFuel_moves k _).fails_of_lt hlt)))
    split
    · exact Fails.bind_of_ok rfl (hargs true)
    · exact Fails.bind_of_ok rfl (hargs false)
    · exact Fails.throw_bind _

/-- A type that is a generic instance fails when its count of arguments exceeds
the bytes left after it. -/
theorem readType_fails_of_args {r r₀ r₁ r₂ r₃ : SigReader} {kind : ElementType}
    {base : TypeRow} {count : UInt32} (htag : readElementType r = .ok .genericInst r₀)
    (hkind : readElementType r₀ = .ok kind r₁) (hbase : readTypeEncoded r₁ = .ok base r₂)
    (hcount : readU32 r₂ = .ok count r₃) (hlt : r₃.remaining < count.toNat) : Fails readType r := by
  refine Fails.bind_of_ok EStateM.get_apply ?_
  rw [show fuelFor r = (fuelFor r - 1) + 1 by unfold fuelFor; omega, readTypeFuel]
  exact Fails.bind_of_ok htag (readTypeAfter_fails_of_args hkind hbase hcount hlt)

/-- A method signature fails when its count of parameters exceeds the bytes left
after it, with or without a generic count before it. -/
theorem readMethod_fails_of_count {r r₁ r₂ r₃ : SigReader} {flags generic count : UInt32}
    (hflags : readFlags r = .ok flags r₁)
    (hgeneric : (if flags &&& 0x10 != 0 then readU32 else pure 0) r₁ = .ok generic r₂)
    (hcount : readU32 r₂ = .ok count r₃) (hlt : r₃.remaining < count.toNat) : Fails readMethod r := by
  refine Fails.bind_of_ok EStateM.get_apply ?_
  rw [show fuelFor r = (fuelFor r - 1) + 1 by unfold fuelFor; omega, readMethodFuel]
  refine Fails.bind_of_ok hflags ?_
  dsimp only
  -- the return type takes a byte, so the parameters find fewer than their count
  have hrest : Fails (do
      let count ← readU32
      let ret ← readParamFuel (fuelFor r - 1)
      let x ← readMethodParams (fuelFor r - 1) count.toNat false
      pure (MethodSig.mk flags generic ret x.1 x.2)) r₂ :=
    Fails.bind_of_ok hcount (Fails.bind_moves (readParamFuel_moves _) fun _ r₄ h₄ =>
      Fails.bind_of_fails ((readMethodParams_moves _ _ false).fails_of_lt (by omega)))
  split
  · exact Fails.throw_bind _
  · split
    · rw [if_pos ‹_›] at hgeneric
      exact Fails.bind_of_ok hgeneric hrest
    · rw [if_neg ‹_›] at hgeneric
      exact Fails.bind_of_ok hgeneric hrest

/-- A property signature fails when its count of parameters exceeds the bytes
left after it. -/
theorem readProperty_fails_of_count {r r₁ r₂ : SigReader} {flags count : UInt32}
    (hflags : readFlags r = .ok flags r₁) (hcount : readU32 r₁ = .ok count r₂)
    (hlt : r₂.remaining < count.toNat) : Fails readProperty r := by
  unfold readProperty
  refine Fails.bind_of_ok hflags ?_
  dsimp only
  split
  · exact Fails.throw_bind _
  · -- the property's type takes a byte before its parameters
    exact Fails.bind_of_ok hcount (Fails.bind_moves readCustomMods_moves fun _ r₃ h₃ =>
      Fails.bind_moves readType_moves fun _ r₄ h₄ =>
        Fails.bind_of_fails ((readParams_loop.moves readParam_moves _).fails_of_lt (by omega)))

/-- A local signature fails when its count of locals exceeds the bytes left after
it. -/
theorem readLocals_fails_of_count {r r₁ r₂ : SigReader} {flags count : UInt32}
    (hflags : readFlags r = .ok flags r₁) (hcount : readU32 r₁ = .ok count r₂)
    (hlt : r₂.remaining < count.toNat) : Fails readLocals r := by
  unfold readLocals
  refine Fails.bind_of_ok hflags ?_
  dsimp only
  split
  · exact Fails.throw_bind _
  · exact Fails.bind_of_ok hcount ((readLocalList_loop.moves readLocal_moves _).fails_of_lt hlt)

/-- **Signature reads are bounded by their blob.** Every successful read of a
compressed integer, an element type, a coded type row, a type, a parameter, a
method, a field, a property or a list of locals moves a byte forward at least;
a custom modifier moves two when there is one and none when there is not. So the
nested readers never use up fuel of two steps per byte left and one more; every
counted list takes a byte per item, and its count matters only up to one more
than the bytes left; and a count larger than the bytes left after it fails the
read that holds the list: generic arguments, array sizes and bounds, method and
property parameters, locals. -/
theorem reads_bounded_by_blob :
    (Moves readU32 1 ∧ Moves readElementType 1 ∧ Moves readTypeEncoded 1 ∧ Moves readType 1 ∧
      Moves readParam 1 ∧ Moves readMethod 1 ∧ Moves readField 1 ∧ Moves readProperty 1 ∧
      Moves readLocals 1) ∧
    (∀ r r' c, readCustomMod r = .ok (some c) r' → Advance r r' 2) ∧
    (∀ r r', readCustomMod r = .ok none r' → r'.pos = r.pos) ∧
    (∀ r f, 2 * r.remaining + 1 ≤ f → readTypeFuel f r = readType r ∧
      readParamFuel f r = readParam r ∧ readMethodFuel f r = readMethod r) ∧
    (CountedLoop readU32s ∧ CountedLoop readI32s ∧ (∀ f, CountedLoop (readTypesFuel f)) ∧
      CountedLoop readParams ∧ CountedLoop readLocalList ∧
      ∀ f after, CountedLoop fun n => readMethodParams f n after) ∧
    (∀ r r₀ r₁ r₂ r₃ kind base count, readElementType r = .ok .genericInst r₀ →
      readElementType r₀ = .ok kind r₁ → readTypeEncoded r₁ = .ok base r₂ →
      readU32 r₂ = .ok count r₃ → r₃.remaining < count.toNat → Fails readType r) ∧
    (∀ r r₁ r₂ rank sizes, readU32 r = .ok rank r₁ → readU32 r₁ = .ok sizes r₂ →
      r₂.remaining < sizes.toNat → Fails readArrayShape r) ∧
    (∀ r r₁ r₂ r₃ r₄ rank numSizes sizes bounds, readU32 r = .ok rank r₁ →
      readU32 r₁ = .ok numSizes r₂ → readU32s numSizes.toNat r₂ = .ok sizes r₃ →
      readU32 r₃ = .ok bounds r₄ → r₄.remaining < bounds.toNat → Fails readArrayShape r) ∧
    (∀ r r₁ r₂ r₃ flags generic count, readFlags r = .ok flags r₁ →
      (if flags &&& 0x10 != 0 then readU32 else pure 0) r₁ = .ok generic r₂ →
      readU32 r₂ = .ok count r₃ → r₃.remaining < count.toNat → Fails readMethod r) ∧
    (∀ r r₁ r₂ flags count, readFlags r = .ok flags r₁ → readU32 r₁ = .ok count r₂ →
      r₂.remaining < count.toNat → Fails readProperty r ∧ Fails readLocals r) := by
  refine ⟨⟨readU32_moves, readElementType_moves, readTypeEncoded_moves, readType_moves,
      readParam_moves, readMethod_moves, readField_moves, readProperty_moves, readLocals_moves⟩,
    ?some, ?none, ?fuel, ?loops, fun _ _ _ _ _ _ _ _ => readType_fails_of_args,
    fun _ _ _ _ _ => readArrayShape_fails_of_sizes,
    fun _ _ _ _ _ _ _ _ _ => readArrayShape_fails_of_bounds,
    fun _ _ _ _ _ _ _ => readMethod_fails_of_count,
    fun _ _ _ _ _ hflags hcount hlt => ⟨readProperty_fails_of_count hflags hcount hlt,
      readLocals_fails_of_count hflags hcount hlt⟩⟩
  case some =>
    intro r r' c h
    rcases readCustomMod_cases h with ⟨_, -, hadv⟩ | ⟨hnone, -⟩
    · exact hadv
    · cases hnone
  case none =>
    intro r r' h
    rcases readCustomMod_cases h with ⟨_, hsome, -⟩ | ⟨-, -, hpos⟩
    · cases hsome
    · exact hpos
  case fuel => exact fun r f hf => ⟨readType_eq_fuel hf, readParam_eq_fuel hf, readMethod_eq_fuel hf⟩
  case loops =>
    exact ⟨readU32s_loop.counted readU32_moves, readI32s_loop.counted readI32_moves,
      fun f => .of_agree (readTypesFuel_moves f) (readTypesFuel_caps f),
      readParams_loop.counted readParam_moves, readLocalList_loop.counted readLocal_moves,
      fun f after => .of_agree (fun n => readMethodParams_moves f n after)
        (fun n m R => readMethodParams_caps f n m R after)⟩

/-- Counts of `0x1FFFFFFF` with nothing after them to back them: a list of locals, the
parameters of a property and of a method all fail. -/
theorem oversizedCounts_fail :
    Fails readLocals (ofBytes [0x07, 0xDF, 0xFF, 0xFF, 0xFF]) ∧
      Fails readProperty (ofBytes [0x08, 0xDF, 0xFF, 0xFF, 0xFF, 0x08]) ∧
      Fails readMethod (ofBytes [0x00, 0xDF, 0xFF, 0xFF, 0xFF, 0x08]) := by
  obtain ⟨-, -, -, -, -, -, -, -, hmethod, hheader⟩ := reads_bounded_by_blob
  exact ⟨(hheader _ _ _ _ _ rfl rfl (by decide)).2, (hheader _ _ _ _ _ rfl rfl (by decide)).1,
    hmethod _ _ _ _ _ _ _ rfl rfl rfl (by decide)⟩

end SigReader

end CilBind
