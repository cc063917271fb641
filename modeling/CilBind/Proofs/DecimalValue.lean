import CilBind.Meta.Decimal
import Mathlib.Algebra.Order.Field.Rat
import Mathlib.Tactic.FieldSimp
import Mathlib.Tactic.Ring

/-!
# `CilBind.Proofs.DecimalValue`: decimal equality is equality of values

A decimal stands for the rational number `± magnitude / 10 ^ scale` (`value`).
Equality of decimals (`equiv`) compares normal forms, which move trailing zeros
of the magnitude out of the scale and drop the sign of zero. This module proves
that the comparison is exact:

* `equiv_iff_value_eq`: two decimals are equal exactly when their values are, for
  any words, sign and scale, so equality is an equivalence (`equiv_equivalence`)
  and every zero, signed or not, equals `zero` (`equiv_zero_of_magnitude`);
* `magnitude_ofMantissa?`, `value_ofMantissa?`: a decimal built from a signed
  mantissa exists exactly when the mantissa fits in 96 bits and the scale is at
  most 28, and then it holds the mantissa's magnitude and sign and stands for
  `mantissa / 10 ^ scale`.

## How the proof goes

`strip_spec` says what stripping keeps: the magnitude is the stripped one times
the power of ten that left the scale, and stripping stops at scale zero or at a
last digit other than zero. A normal form with that last property and no sign on
zero is `Reduced`. The heart is `Normal.eq_of_value_eq`: two reduced forms of one
value are equal. Cross-multiplied, their magnitudes satisfy
`a * 10 ^ t = b * 10 ^ s`; if `s < t`, then `b` is `a` times a power of ten, so it
ends in a zero while scale is left, which a reduced form never does
(`Normal.scale_le`).
-/

set_option autoImplicit false

namespace CilBind.Decimal

/-! ### Stripping trailing zeros -/

/-- What `strip` keeps: the magnitude is the stripped one times the powers of ten
moved out of the scale, the scale only shrinks, and it stops at scale zero or at
a last digit other than zero. -/
theorem strip_spec (m s : Nat) :
    m = (strip m s).1 * 10 ^ (s - (strip m s).2) ∧ (strip m s).2 ≤ s ∧
      ((strip m s).2 = 0 ∨ (strip m s).1 % 10 ≠ 0) := by
  fun_induction strip m s with
  | case1 m => simp
  | case2 m s h ih =>
    obtain ⟨h1, h2, h3⟩ := ih
    refine ⟨?_, by omega, h3⟩
    -- one trailing zero more moves into the power of ten
    have hexp : s + 1 - (strip (m / 10) s).2 = s - (strip (m / 10) s).2 + 1 := by omega
    rw [hexp, Nat.pow_succ, ← Nat.mul_assoc, ← h1]
    omega
  | case3 m s h => simp [h]

/-! ### Values -/

/-- The signed whole number a normal form scales down: its magnitude, negated when
the sign is set. -/
def Normal.mantissa (n : Normal) : Int := if n.negative then -(n.magnitude : Int) else n.magnitude

/-- The rational number a normal form stands for. -/
def Normal.value (n : Normal) : ℚ := n.mantissa / 10 ^ n.scale

/-- The rational number a decimal stands for: its magnitude, negated when the sign
is set, divided by ten to the scale. -/
def value (d : Decimal) : ℚ := (if d.negative then -1 else 1) * d.magnitude / 10 ^ d.scale.toNat

/-- A normal form as `normal` leaves it: no trailing zero while scale is left, and
no sign on zero. -/
structure Normal.Reduced (n : Normal) : Prop where
  no_trailing_zero : n.scale = 0 ∨ n.magnitude % 10 ≠ 0
  unsigned_zero : n.magnitude = 0 → n.negative = false

/-- The normal form strips trailing zeros and drops the sign of zero. -/
theorem normal_eq (d : Decimal) :
    d.normal = ⟨d.negative && (strip d.magnitude d.scale.toNat).1 != 0,
      (strip d.magnitude d.scale.toNat).1, (strip d.magnitude d.scale.toNat).2⟩ := rfl

/-- The normal form is reduced. -/
theorem normal_reduced (d : Decimal) : d.normal.Reduced := by
  obtain ⟨-, -, h⟩ := strip_spec d.magnitude d.scale.toNat
  rw [normal_eq]
  refine ⟨h, fun h0 => ?_⟩
  simp only at h0
  simp [h0]

/-- A magnitude scaled up by `10 ^ k` together with its scale has the same value. -/
theorem value_scaled (b : Bool) (m s k : Nat) :
    (Normal.mk (b && m != 0) m s).value =
      (if b then -1 else 1) * ((m * 10 ^ k : Nat) : ℚ) / 10 ^ (s + k) := by
  have h10 : (10 : ℚ) ^ s ≠ 0 := pow_ne_zero _ (by norm_num)
  have h10' : (10 : ℚ) ^ k ≠ 0 := pow_ne_zero _ (by norm_num)
  unfold Normal.value Normal.mantissa
  cases b <;> by_cases hm : m = 0 <;> simp [hm, pow_add] <;> field_simp

/-- Normalizing keeps the value. -/
theorem value_normal (d : Decimal) : d.normal.value = d.value := by
  obtain ⟨hm, hle, -⟩ := strip_spec d.magnitude d.scale.toNat
  have h := value_scaled d.negative (strip d.magnitude d.scale.toNat).1 (strip d.magnitude d.scale.toNat).2
    (d.scale.toNat - (strip d.magnitude d.scale.toNat).2)
  rw [Nat.add_sub_cancel' hle, ← hm] at h
  rw [normal_eq, h, value]

/-! ### One reduced form per value -/

/-- Two values `a.mantissa / 10 ^ a.scale` and `b.mantissa / 10 ^ b.scale` are
equal exactly when the mantissas agree once each is scaled by the other's power
of ten. -/
theorem Normal.value_eq_iff (a b : Normal) :
    a.value = b.value ↔ a.mantissa * 10 ^ b.scale = b.mantissa * 10 ^ a.scale := by
  have ha : (10 : ℚ) ^ a.scale ≠ 0 := pow_ne_zero _ (by norm_num)
  have hb : (10 : ℚ) ^ b.scale ≠ 0 := pow_ne_zero _ (by norm_num)
  rw [Normal.value, Normal.value, div_eq_div_iff ha hb]
  norm_cast

/-- The size of a normal form's mantissa is its magnitude. -/
theorem Normal.natAbs_mantissa (n : Normal) : n.mantissa.natAbs = n.magnitude := by
  unfold Normal.mantissa
  split <;> simp

/-- A reduced form has no more scale than any form of the same value: fewer digits
after the point would need a trailing zero it does not have. -/
theorem Normal.scale_le {a b : Normal} (hb : b.Reduced)
    (h : a.magnitude * 10 ^ b.scale = b.magnitude * 10 ^ a.scale) : b.scale ≤ a.scale := by
  by_contra hlt
  obtain ⟨k, hk⟩ : ∃ k, b.scale = a.scale + (k + 1) := ⟨b.scale - a.scale - 1, by omega⟩
  rw [hk, Nat.pow_add] at h
  have h' : a.magnitude * 10 ^ (k + 1) * 10 ^ a.scale = b.magnitude * 10 ^ a.scale := by
    rw [← h]; ring
  have hmag : b.magnitude = a.magnitude * 10 ^ k * 10 := by
    rw [← Nat.eq_of_mul_eq_mul_right (pow_pos (by norm_num) _) h', Nat.pow_succ, Nat.mul_assoc]
  rcases hb.no_trailing_zero with h0 | h0
  · omega
  · exact h0 (by rw [hmag, Nat.mul_mod_left])

/-- Two mantissas of one nonzero magnitude agree only with the same sign. -/
theorem Normal.negative_eq_of_mantissa_eq {a b : Normal} (h0 : a.magnitude ≠ 0)
    (hm : a.magnitude = b.magnitude) (h : a.mantissa = b.mantissa) : a.negative = b.negative := by
  obtain ⟨an, am, as⟩ := a
  obtain ⟨bn, bm, bs⟩ := b
  simp only [Normal.mantissa] at h0 hm h ⊢
  subst hm
  cases an <;> cases bn <;> simp at h ⊢ <;> omega

/-- A reduced form is the only one of its value. -/
theorem Normal.eq_of_value_eq {a b : Normal} (ha : a.Reduced) (hb : b.Reduced)
    (h : a.value = b.value) : a = b := by
  have hz := (Normal.value_eq_iff a b).mp h
  have hnat : a.magnitude * 10 ^ b.scale = b.magnitude * 10 ^ a.scale := by
    simpa [Int.natAbs_mul, Normal.natAbs_mantissa] using congrArg Int.natAbs hz
  have hs : a.scale = b.scale :=
    Nat.le_antisymm (Normal.scale_le ha hnat.symm) (Normal.scale_le hb hnat)
  rw [hs] at hz hnat
  have hm : a.magnitude = b.magnitude := Nat.eq_of_mul_eq_mul_right (pow_pos (by norm_num) _) hnat
  have hmant : a.mantissa = b.mantissa :=
    Int.eq_of_mul_eq_mul_right (pow_ne_zero _ (by norm_num)) hz
  -- a nonzero value carries its sign in the mantissa; zero is unsigned in both
  have hneg : a.negative = b.negative := by
    by_cases h0 : a.magnitude = 0
    · rw [ha.unsigned_zero h0, hb.unsigned_zero (hm ▸ h0)]
    · exact Normal.negative_eq_of_mantissa_eq h0 hm hmant
  cases a
  cases b
  simp only [Normal.mk.injEq] at *
  exact ⟨hneg, hm, hs⟩

/-! ### Equality of decimals -/

/-- Two decimals are equal exactly when their rational values are. -/
theorem equiv_iff_value_eq (a b : Decimal) : a.equiv b = true ↔ a.value = b.value := by
  rw [equiv, beq_iff_eq, ← value_normal, ← value_normal]
  exact ⟨congrArg Normal.value, Normal.eq_of_value_eq (normal_reduced a) (normal_reduced b)⟩

example : (⟨10003, 0, 0, false, 1⟩ : Decimal).equiv ⟨1000300, 0, 0, false, 3⟩ = true := by decide

/-- Equality of decimals is an equivalence. -/
theorem equiv_equivalence : Equivalence (fun a b : Decimal => a.equiv b = true) := by
  simp only [equiv_iff_value_eq]
  exact ⟨fun _ => rfl, Eq.symm, Eq.trans⟩

/-- A decimal is zero exactly when its magnitude is, at any scale and sign. -/
theorem value_eq_zero_iff (d : Decimal) : d.value = 0 ↔ d.magnitude = 0 := by
  have h10 : (10 : ℚ) ^ d.scale.toNat ≠ 0 := pow_ne_zero _ (by norm_num)
  unfold value
  cases d.negative <;> simp [h10]

/-- Every zero equals `zero`, whatever its sign and scale. -/
theorem equiv_zero_of_magnitude {d : Decimal} (h : d.magnitude = 0) : d.equiv zero = true := by
  rw [equiv_iff_value_eq, (value_eq_zero_iff d).mpr h, (value_eq_zero_iff zero).mpr rfl]

/-! ### Building from a mantissa -/

/-- A mantissa and scale make a decimal exactly when the mantissa fits in 96 bits
and the scale is at most 28. -/
theorem ofMantissa?_isSome_iff (m : Int) (s : Nat) :
    (ofMantissa? m s).isSome ↔ m.natAbs < 2 ^ 96 ∧ s ≤ maxScale := by
  dsimp only [ofMantissa?]
  split
  · rename_i h
    exact ⟨fun _ => h, fun _ => rfl⟩
  · rename_i h
    simp only [Option.isSome_none, Bool.false_eq_true, false_iff]
    exact h

/-- The words of a built decimal put its mantissa's magnitude back together. -/
theorem magnitude_ofMantissa? {m : Int} {s : Nat} {d : Decimal} (h : ofMantissa? m s = some d) :
    d.magnitude = m.natAbs ∧ (d.negative = true ↔ m < 0) ∧ d.scale.toNat = s := by
  dsimp only [ofMantissa?] at h
  split at h
  · rename_i hfit
    cases h
    have hm := hfit.1
    have hs : s ≤ 28 := hfit.2
    simp only [magnitude, Nat.toUInt32, UInt32.toNat_ofNat', decide_eq_true_eq, Nat.toUInt8,
      UInt8.toNat_ofNat']
    exact ⟨by omega, trivial, by omega⟩
  · cases h

/-- The decimal made from a mantissa and scale stands for the mantissa over
`10 ^ s`. -/
theorem value_ofMantissa? {m : Int} {s : Nat} {d : Decimal} (h : ofMantissa? m s = some d) :
    d.value = m / 10 ^ s := by
  obtain ⟨hmag, hneg, hs⟩ := magnitude_ofMantissa? h
  have hcast : ((m.natAbs : Nat) : ℚ) = ((m.natAbs : Int) : ℚ) := (Int.cast_natCast _).symm
  unfold value
  rw [hmag, hs, hcast]
  by_cases hm : m < 0
  · rw [if_pos (hneg.mpr hm), Int.ofNat_natAbs_of_nonpos hm.le]
    push_cast
    ring
  · rw [if_neg (mt hneg.mp hm), Int.natAbs_of_nonneg (not_lt.mp hm)]
    ring

/-- **Decimal equality is exact.** For any words, sign and scale, two decimals are
equal exactly when their rational values are; so equality is an equivalence, and
every zero equals `zero`. A decimal built from a mantissa and a scale exists
exactly when the mantissa fits in 96 bits and the scale is at most 28; it holds
the mantissa's magnitude and sign and stands for `mantissa / 10 ^ scale`. -/
theorem equiv_agrees_with_value :
    (∀ a b : Decimal, a.equiv b = true ↔ a.value = b.value) ∧
    Equivalence (fun a b : Decimal => a.equiv b = true) ∧
    (∀ d : Decimal, d.magnitude = 0 → d.equiv zero = true) ∧
    (∀ (m : Int) (s : Nat), (ofMantissa? m s).isSome ↔ m.natAbs < 2 ^ 96 ∧ s ≤ maxScale) ∧
    (∀ (m : Int) (s : Nat) (d : Decimal), ofMantissa? m s = some d →
      d.magnitude = m.natAbs ∧ (d.negative = true ↔ m < 0) ∧ d.value = m / 10 ^ s) :=
  ⟨equiv_iff_value_eq, equiv_equivalence, fun _ => equiv_zero_of_magnitude, ofMantissa?_isSome_iff,
    fun _ _ _ h => ⟨(magnitude_ofMantissa? h).1, (magnitude_ofMantissa? h).2.1, value_ofMantissa? h⟩⟩

/-- `1000.3` written with scales one and three; a negative zero of scale three; and
a mantissa of 96 bits, whose top bit lands in the high word. -/
theorem equiv_agrees_at_trailing_zeros :
    ((⟨10003, 0, 0, false, 1⟩ : Decimal).equiv ⟨1000300, 0, 0, false, 3⟩ = true ↔
      (⟨10003, 0, 0, false, 1⟩ : Decimal).value = (⟨1000300, 0, 0, false, 3⟩ : Decimal).value) ∧
    (⟨0, 0, 0, true, 3⟩ : Decimal).equiv zero = true ∧
    ((ofMantissa? (2 ^ 95 + 5) 0).isSome ↔ (2 ^ 95 + 5 : Int).natAbs < 2 ^ 96 ∧ 0 ≤ maxScale) ∧
    ((⟨5, 0, 0x80000000, false, 0⟩ : Decimal).magnitude = (2 ^ 95 + 5 : Int).natAbs ∧
      ((⟨5, 0, 0x80000000, false, 0⟩ : Decimal).negative = true ↔ (2 ^ 95 + 5 : Int) < 0) ∧
      (⟨5, 0, 0x80000000, false, 0⟩ : Decimal).value = ((2 ^ 95 + 5 : Int) : ℚ) / 10 ^ 0) :=
  ⟨equiv_agrees_with_value.1 _ _, equiv_agrees_with_value.2.2.1 _ rfl,
    equiv_agrees_with_value.2.2.2.1 _ _,
    equiv_agrees_with_value.2.2.2.2 _ _ _ (by decide)⟩

end CilBind.Decimal
