import CilBind.Proofs.DecimalValue
import Mathlib.Tactic.Positivity

/-!
# `CilBind.Proofs.DecimalText`: the text of a decimal is its canonical numeral

A decimal numeral (`Numeral`) is a minus sign or none, digits before the point
and digits after it, the point written only when digits follow. Among the
numerals of a decimal's value, `text` writes the shortest:

* `text_canonical`: the text of every decimal, whatever its words, sign and
  scale, is a numeral of its value; it starts with `-` exactly when the value is
  negative, has a point exactly when the value is no whole number, never ends its
  fraction in a zero, has the single digit `0` before the point below one in
  size, and is no longer than any other numeral of the value. Two decimals have
  the same text exactly when they are equal (`text_eq_iff_equiv`).

## How the proof goes

`text_toList` reads the three branches of `text` as one numeral
(`Normal.numeral`): the sign of the normal form, the digits of its whole part
`m / 10 ^ s`, and a fraction of exactly `s` digits standing for `m % 10 ^ s`
(`FractionDigits`). Splitting the digits of `m` at `s` from the right gives the
digits of `m / 10 ^ s` on the left (`take_toDigits`); when `m` has no more than
`s` digits, the zeros in front fill the fraction up.

For the shortest numeral, take any numeral `W.F` of the value, with `k` digits
after the point. Cross-multiplied, `W + F / 10 ^ k = m / 10 ^ s` makes `W` the
whole part `m / 10 ^ s` (`split_point`), so `W` needs as many digits as the text
has before the point; and `F` stands for the fraction, which a reduced form
cannot write in fewer than `s` digits without a trailing zero in `m`
(`scale_le_of_fraction`). A numeral is read back from its characters
(`Numeral.parse_render`), so equal texts are equal numerals and equal values.
-/

set_option autoImplicit false

namespace CilBind.Decimal

/-! ### Numerals -/

/-- A decimal numeral as text: a minus sign or none, the digits before the point,
and the digits after it; the point is written only when digits follow it. -/
structure Numeral where
  negative : Bool
  whole : List Char
  frac : List Char
  deriving DecidableEq, Repr

namespace Numeral

/-- The characters of a numeral. -/
def render (n : Numeral) : List Char :=
  (if n.negative then ['-'] else []) ++ n.whole ++ (if n.frac = [] then [] else '.' :: n.frac)

/-- A numeral whose parts are all digits, with at least one before the point. -/
def WellFormed (n : Numeral) : Prop :=
  n.whole ≠ [] ∧ ∀ c ∈ n.whole ++ n.frac, c.isDigit

/-- Whether a numeral is well formed can be computed. -/
instance (n : Numeral) : Decidable n.WellFormed :=
  inferInstanceAs (Decidable (_ ∧ ∀ c ∈ n.whole ++ n.frac, c.isDigit))

/-- The whole part of a well-formed numeral is digits. -/
theorem WellFormed.whole_digits {n : Numeral} (h : n.WellFormed) : ∀ c ∈ n.whole, c.isDigit :=
  fun c hc => h.2 c (List.mem_append_left _ hc)

/-- The fraction of a well-formed numeral is digits. -/
theorem WellFormed.frac_digits {n : Numeral} (h : n.WellFormed) : ∀ c ∈ n.frac, c.isDigit :=
  fun c hc => h.2 c (List.mem_append_right _ hc)

/-- The rational number a numeral stands for. -/
def value (n : Numeral) : ℚ :=
  (if n.negative then -1 else 1) *
    (Nat.ofDigitChars 10 n.whole 0 + (Nat.ofDigitChars 10 n.frac 0 : ℚ) / 10 ^ n.frac.length)

/-- Reads a numeral from its characters: a leading minus sign, the digits up to
the first other character, and what follows that character. -/
def parse (cs : List Char) : Numeral :=
  let body := if cs.head? = some '-' then cs.tail else cs
  ⟨cs.head? = some '-', body.takeWhile Char.isDigit, (body.dropWhile Char.isDigit).drop 1⟩

/-- The characters after the sign: the whole part, then the point and the
fraction when there is one. -/
def body (n : Numeral) : List Char := n.whole ++ (if n.frac = [] then [] else '.' :: n.frac)

/-- A numeral is its sign followed by its body. -/
theorem render_eq (n : Numeral) : n.render = (if n.negative then ['-'] else []) ++ n.body := by
  rw [render, body, List.append_assoc]

/-- The length of a numeral: the sign, the whole part, and the point with the
fraction when there is one. -/
theorem length_render (n : Numeral) :
    n.render.length = (if n.negative then 1 else 0) + n.whole.length +
      (if n.frac = [] then 0 else n.frac.length + 1) := by
  unfold render
  split <;> split <;> simp <;> omega

/-- The digits of the body run up to the point, and the fraction follows it. -/
theorem body_split {n : Numeral} (h : n.WellFormed) :
    n.body.takeWhile Char.isDigit = n.whole ∧ (n.body.dropWhile Char.isDigit).drop 1 = n.frac := by
  rw [body, List.takeWhile_append_of_pos h.whole_digits, List.dropWhile_append_of_pos h.whole_digits]
  -- the point is no digit, so the run stops there
  have hpoint : Char.isDigit '.' = false := by decide
  split <;> simp_all

/-- A body never starts with a minus sign: it starts with a digit. -/
theorem body_head {n : Numeral} (h : n.WellFormed) : n.body.head? ≠ some '-' := by
  obtain ⟨c, cs, hcs⟩ := List.exists_cons_of_ne_nil h.1
  have hc : c.isDigit := h.2 c (by simp [hcs])
  rw [body, hcs, List.cons_append, List.head?_cons]
  intro hminus
  rw [Option.some.injEq] at hminus
  subst hminus
  exact absurd hc (by decide)

/-- Reading a well-formed numeral's characters gives the numeral back. -/
theorem parse_render {n : Numeral} (h : n.WellFormed) : parse n.render = n := by
  obtain ⟨hwhole, hfrac⟩ := body_split h
  rw [render_eq, parse]
  cases n with
  | mk negative whole frac =>
    cases negative with
    | true => simp_all
    | false => simp_all [body_head h]

/-- A well-formed numeral starts with a minus sign exactly when it is negative. -/
theorem head_render {n : Numeral} (h : n.WellFormed) :
    n.render.head? = some '-' ↔ n.negative = true := by
  rw [render_eq]
  cases n.negative with
  | true => simp
  | false => simpa using body_head h

/-- A well-formed numeral has a point exactly when it has a fraction. -/
theorem point_mem_render {n : Numeral} (h : n.WellFormed) : '.' ∈ n.render ↔ n.frac ≠ [] := by
  have hwhole : '.' ∉ n.whole := fun hp => absurd (h.whole_digits '.' hp) (by decide)
  unfold render
  split <;> split <;> simp_all

/-- The digits of a numeral stand for a number of no sign. -/
theorem unsigned_nonneg (n : Numeral) :
    (0 : ℚ) ≤ Nat.ofDigitChars 10 n.whole 0 + (Nat.ofDigitChars 10 n.frac 0 : ℚ) / 10 ^ n.frac.length := by
  positivity

/-- The size of a numeral's value is what its digits stand for. -/
theorem abs_value (n : Numeral) : |n.value| =
    Nat.ofDigitChars 10 n.whole 0 + (Nat.ofDigitChars 10 n.frac 0 : ℚ) / 10 ^ n.frac.length := by
  have h := n.unsigned_nonneg
  unfold value
  split
  · rw [neg_one_mul, abs_neg, abs_of_nonneg h]
  · rw [one_mul, abs_of_nonneg h]

/-- Only a numeral with a minus sign stands for a negative number. -/
theorem negative_of_value_neg {n : Numeral} (h : n.value < 0) : n.negative = true := by
  by_contra hneg
  unfold value at h
  rw [if_neg hneg, one_mul] at h
  exact absurd h (not_lt.mpr n.unsigned_nonneg)

end Numeral

/-! ### Digit strings -/

/-- The digits `l ++ r` stand for those of `l` shifted past `r`, plus those of `r`. -/
theorem ofDigitChars_append_zero (l r : List Char) :
    Nat.ofDigitChars 10 (l ++ r) 0 = 10 ^ r.length * Nat.ofDigitChars 10 l 0 + Nat.ofDigitChars 10 r 0 := by
  rw [Nat.ofDigitChars_append, Nat.ofDigitChars_eq_ofDigitChars_zero]

/-- A digit stands for at most nine. -/
theorem digit_sub_le {c : Char} (h : c.isDigit) : c.toNat - '0'.toNat ≤ 9 := by
  simp only [Char.isDigit, Bool.and_eq_true, decide_eq_true_eq] at h
  have h0 : 48 ≤ c.val.toNat := h.1
  have h1 : c.val.toNat ≤ 57 := h.2
  show c.val.toNat - 48 ≤ 9
  omega

/-- A run of `k` digits stands for a number below `10 ^ k`. -/
theorem ofDigitChars_lt {cs : List Char} (h : ∀ c ∈ cs, c.isDigit) :
    Nat.ofDigitChars 10 cs 0 < 10 ^ cs.length := by
  induction cs with
  | nil => simp
  | cons c cs ih =>
    have hc := Nat.mul_le_mul_left (10 ^ cs.length) (digit_sub_le (h c List.mem_cons_self))
    have ih' := ih (fun x hx => h x (List.mem_cons_of_mem c hx))
    rw [Nat.ofDigitChars_cons, Nat.ofDigitChars_eq_ofDigitChars_zero, Nat.mul_zero, Nat.zero_add,
      List.length_cons, pow_succ]
    omega

/-- Dropping the last `s` digits of a number leaves the digits of its quotient by
`10 ^ s`. -/
theorem take_toDigits {m s : Nat} (h : s < (Nat.toDigits 10 m).length) :
    (Nat.toDigits 10 m).take ((Nat.toDigits 10 m).length - s) = Nat.toDigits 10 (m / 10 ^ s) := by
  induction s generalizing m with
  | zero => simp
  | succ s ih =>
    -- two digits or more: the last one comes off, and `s` more come off the rest
    have hm : 10 ≤ m := by
      by_contra hlt
      rw [Nat.toDigits_of_lt_base (by omega)] at h
      simp at h
    rw [Nat.toDigits_of_base_le (by norm_num) hm] at h ⊢
    simp only [List.length_append, List.length_singleton] at h ⊢
    rw [List.take_append_of_le_length (by omega),
      show (Nat.toDigits 10 (m / 10)).length + 1 - (s + 1) = (Nat.toDigits 10 (m / 10)).length - s by omega,
      ih (by omega), Nat.div_div_eq_div_mul, ← pow_succ']

/-- The last `s` digits of a number stand for its remainder by `10 ^ s`. -/
theorem ofDigitChars_drop_toDigits {m s : Nat} (h : s < (Nat.toDigits 10 m).length) :
    Nat.ofDigitChars 10 ((Nat.toDigits 10 m).drop ((Nat.toDigits 10 m).length - s)) 0 = m % 10 ^ s := by
  have hsplit := congrArg (Nat.ofDigitChars 10 · 0)
    (List.take_append_drop ((Nat.toDigits 10 m).length - s) (Nat.toDigits 10 m))
  rw [ofDigitChars_append_zero, take_toDigits h, Nat.ofDigitChars_ten_toDigits,
    Nat.ofDigitChars_ten_toDigits, List.length_drop,
    show (Nat.toDigits 10 m).length - ((Nat.toDigits 10 m).length - s) = s by omega] at hsplit
  have := Nat.div_add_mod m (10 ^ s)
  omega

/-- The last decimal digit of `m` is `m % 10`. -/
theorem getLast?_toDigits (m : Nat) : (Nat.toDigits 10 m).getLast? = some (Nat.digitChar (m % 10)) := by
  rw [Nat.toDigits_eq_if (by norm_num)]
  split
  · simp [Nat.mod_eq_of_lt ‹_›]
  · simp

/-- Only zero is written `0`. -/
theorem digitChar_ne_zero : ∀ k < 10, k ≠ 0 → Nat.digitChar k ≠ '0' := by decide

/-! ### Arithmetic of the point -/

/-- A value split at the point: when `W + F / 10 ^ k = m / 10 ^ s` with `F` below
`10 ^ k`, the whole part `W` is `m / 10 ^ s` and the fraction `F / 10 ^ k` is
`(m % 10 ^ s) / 10 ^ s`. -/
theorem split_point {W F k m s : Nat} (hF : F < 10 ^ k)
    (h : (W * 10 ^ k + F) * 10 ^ s = m * 10 ^ k) :
    W = m / 10 ^ s ∧ F * 10 ^ s = m % 10 ^ s * 10 ^ k := by
  have hP : 0 < 10 ^ k := pow_pos (by norm_num) k
  have hQ : 0 < 10 ^ s := pow_pos (by norm_num) s
  have hexp : (W * 10 ^ k + F) * 10 ^ s = W * 10 ^ s * 10 ^ k + F * 10 ^ s := by ring
  have hlo : W * 10 ^ s ≤ m := Nat.le_of_mul_le_mul_right (by omega) hP
  have hhi : m < (W + 1) * 10 ^ s := by
    have hFQ : F * 10 ^ s < 10 ^ k * 10 ^ s := Nat.mul_lt_mul_of_pos_right hF hQ
    have hsucc : (W + 1) * 10 ^ s * 10 ^ k = W * 10 ^ s * 10 ^ k + 10 ^ k * 10 ^ s := by ring
    exact Nat.lt_of_mul_lt_mul_right (a := 10 ^ k) (by omega)
  have hW : W = m / 10 ^ s := (Nat.div_eq_of_lt_le hlo hhi).symm
  refine ⟨hW, ?_⟩
  -- what is left of `m` past the whole part is the fraction, scaled to `10 ^ k`
  have hm := Nat.div_add_mod m (10 ^ s)
  rw [← hW] at hm
  have hm' : m * 10 ^ k = W * 10 ^ s * 10 ^ k + m % 10 ^ s * 10 ^ k :=
    calc m * 10 ^ k = (10 ^ s * W + m % 10 ^ s) * 10 ^ k := by rw [hm]
      _ = W * 10 ^ s * 10 ^ k + m % 10 ^ s * 10 ^ k := by ring
  omega

/-- A fraction of `k` digits that stands for the fraction of a reduced
`m / 10 ^ s` has at least `s` digits: with fewer, `m` would end in a zero. -/
theorem scale_le_of_fraction {F k m s : Nat} (hred : s = 0 ∨ m % 10 ≠ 0)
    (h : F * 10 ^ s = m % 10 ^ s * 10 ^ k) : s ≤ k := by
  by_contra hlt
  obtain ⟨j, hj⟩ : ∃ j, s = k + (j + 1) := ⟨s - k - 1, by omega⟩
  have hpow : 10 ^ s = 10 ^ (j + 1) * 10 ^ k := by rw [hj, pow_add, Nat.mul_comm]
  have h1 : F * 10 ^ (j + 1) * 10 ^ k = m % 10 ^ s * 10 ^ k := by rw [← h, hpow, Nat.mul_assoc]
  have h2 : F * 10 ^ (j + 1) = m % 10 ^ s :=
    Nat.eq_of_mul_eq_mul_right (pow_pos (by norm_num) k) h1
  -- the last digit of `m` is the last digit of `m % 10 ^ s`, a multiple of ten
  have h3 : m % 10 = 0 := by
    rw [← Nat.mod_mod_of_dvd m (dvd_pow_self 10 (by omega : s ≠ 0)), ← h2, pow_succ,
      ← Nat.mul_assoc, Nat.mul_mod_left]
  rcases hred with h0 | h0 <;> omega

/-! ### Values of reduced forms -/

/-- The size of a normal form's value is its magnitude at its scale. -/
theorem Normal.abs_value (n : Normal) : |n.value| = (n.magnitude : ℚ) / 10 ^ n.scale := by
  unfold Normal.value Normal.mantissa
  split <;> simp [abs_div]

/-- A reduced form is below zero exactly when its sign is set. -/
theorem Normal.value_neg_iff {n : Normal} (h : n.Reduced) : n.value < 0 ↔ n.negative = true := by
  have hpow : (0 : ℚ) < 10 ^ n.scale := by positivity
  unfold Normal.value Normal.mantissa
  cases hneg : n.negative with
  | true =>
    have hm : n.magnitude ≠ 0 := fun h0 => by rw [h.unsigned_zero h0] at hneg; cases hneg
    have hpos : (0 : ℚ) < n.magnitude := by exact_mod_cast Nat.pos_of_ne_zero hm
    simp only [if_true, Int.cast_neg, Int.cast_natCast, iff_true]
    exact div_neg_of_neg_of_pos (neg_neg_of_pos hpos) hpow
  | false =>
    simp only [Bool.false_eq_true, if_false, Int.cast_natCast, iff_false, not_lt]
    positivity

/-- A reduced form stands for a whole number exactly when its scale is zero. -/
theorem Normal.isInt_iff {n : Normal} (h : n.Reduced) : (∃ k : Int, n.value = k) ↔ n.scale = 0 := by
  constructor
  · rintro ⟨k, hk⟩
    by_contra hs
    have hpow : (10 : ℚ) ^ n.scale ≠ 0 := pow_ne_zero _ (by norm_num)
    have hz : n.mantissa = k * 10 ^ n.scale := by
      unfold Normal.value at hk
      rw [div_eq_iff hpow] at hk
      exact_mod_cast hk
    -- then the magnitude is a multiple of `10 ^ scale`, and so ends in a zero
    have hm : n.magnitude = k.natAbs * 10 ^ n.scale := by
      rw [← Normal.natAbs_mantissa, hz, Int.natAbs_mul, Int.natAbs_pow]
      rfl
    have h10 : n.magnitude % 10 = 0 := by
      rw [hm, ← Nat.succ_pred_eq_of_ne_zero hs, pow_succ, ← Nat.mul_assoc, Nat.mul_mod_left]
    rcases h.no_trailing_zero with h0 | h0 <;> contradiction
  · intro hs
    refine ⟨n.mantissa, ?_⟩
    simp [Normal.value, hs]

/-! ### The numeral of a normal form -/

/-- `frac` is the fraction of `m / 10 ^ s` in `s` digits: the last `s` digits of
`m`, with zeros in front where `m` has fewer, so that it ends in the last digit
of `m`. -/
structure FractionDigits (m s : Nat) (frac : List Char) : Prop where
  length_eq : frac.length = s
  digits : ∀ c ∈ frac, c.isDigit
  value_eq : Nat.ofDigitChars 10 frac 0 = m % 10 ^ s
  last_eq : 0 < s → frac.getLast? = some (Nat.digitChar (m % 10))

namespace FractionDigits

variable {m s : Nat} {frac : List Char}

/-- The fraction is empty exactly at scale zero. -/
theorem eq_nil_iff (hf : FractionDigits m s frac) : frac = [] ↔ s = 0 := by
  rw [← hf.length_eq, List.length_eq_zero_iff]

/-- At scale zero there is no fraction. -/
theorem of_scale_zero (m : Nat) : FractionDigits m 0 [] :=
  ⟨rfl, by simp, by simp [Nat.mod_one], by simp⟩

/-- With more digits than the scale, the fraction is the last `s` digits. -/
theorem of_lt_length (h : s < (Nat.toDigits 10 m).length) :
    FractionDigits m s ((Nat.toDigits 10 m).drop ((Nat.toDigits 10 m).length - s)) where
  length_eq := by
    rw [List.length_drop]
    omega
  digits c hc := Nat.isDigit_of_mem_toDigits (by norm_num) (by norm_num) (List.mem_of_mem_drop hc)
  value_eq := ofDigitChars_drop_toDigits h
  last_eq _ := by rw [List.getLast?_drop, if_neg (by omega), getLast?_toDigits]

/-- With no more digits than the scale, zeros in front fill the fraction up. -/
theorem of_length_le (h : (Nat.toDigits 10 m).length ≤ s) :
    FractionDigits m s (List.replicate (s - (Nat.toDigits 10 m).length) '0' ++ Nat.toDigits 10 m) where
  length_eq := by
    rw [List.length_append, List.length_replicate]
    omega
  digits c hc := by
    rcases List.mem_append.mp hc with hc | hc
    · rw [List.eq_of_mem_replicate hc]
      decide
    · exact Nat.isDigit_of_mem_toDigits (by norm_num) (by norm_num) hc
  value_eq := by
    have hpos : 0 < (Nat.toDigits 10 m).length := List.length_pos_iff.mpr Nat.toDigits_ne_nil
    have hm : m < 10 ^ s := (Nat.length_toDigits_le_iff (by norm_num) (by omega)).mp h
    rw [ofDigitChars_append_zero, Nat.ofDigitChars_replicate_zero, Nat.ofDigitChars_ten_toDigits,
      Nat.mod_eq_of_lt hm]
    simp
  last_eq _ := by rw [List.getLast?_append_of_ne_nil _ Nat.toDigits_ne_nil, getLast?_toDigits]

end FractionDigits

/-- The numeral of a normal form: its sign, the digits of its whole part, and the
digits `frac` after the point. -/
def Normal.numeral (n : Normal) (frac : List Char) : Numeral :=
  ⟨n.negative, Nat.toDigits 10 (n.magnitude / 10 ^ n.scale), frac⟩

section NormalNumeral

variable {N : Normal} {frac : List Char}

/-- The numeral of a normal form is well formed. -/
theorem numeral_wellFormed (hf : FractionDigits N.magnitude N.scale frac) :
    (N.numeral frac).WellFormed := by
  refine ⟨Nat.toDigits_ne_nil, fun c hc => ?_⟩
  rcases List.mem_append.mp hc with hc | hc
  · exact Nat.isDigit_of_mem_toDigits (by norm_num) (by norm_num) hc
  · exact hf.digits c hc

/-- The whole part and the fraction add up to the normal form's value. -/
theorem value_numeral (hf : FractionDigits N.magnitude N.scale frac) :
    (N.numeral frac).value = N.value := by
  obtain ⟨neg, m, s⟩ := N
  -- without the sign: the quotient and the remainder by `10 ^ s` make up `m`
  have hparts : ((m / 10 ^ s : Nat) : ℚ) + ((m % 10 ^ s : Nat) : ℚ) / 10 ^ s = (m : ℚ) / 10 ^ s := by
    have hpow : (10 : ℚ) ^ s ≠ 0 := pow_ne_zero _ (by norm_num)
    have hsplit : ((m / 10 ^ s : Nat) : ℚ) * 10 ^ s + ((m % 10 ^ s : Nat) : ℚ) = m := by
      exact_mod_cast (by rw [Nat.mul_comm]; exact Nat.div_add_mod m (10 ^ s))
    rw [← hsplit]
    field_simp
  unfold Normal.numeral Numeral.value Normal.value Normal.mantissa
  simp only [Nat.ofDigitChars_ten_toDigits, hf.value_eq, hf.length_eq, hparts]
  cases neg <;> simp [neg_div]

/-- The numeral of a normal form has a fraction exactly when its scale is not zero. -/
theorem numeral_frac_eq_nil_iff (hf : FractionDigits N.magnitude N.scale frac) :
    (N.numeral frac).frac = [] ↔ N.scale = 0 :=
  hf.eq_nil_iff

/-- The fraction of a reduced form never ends in a zero. -/
theorem numeral_last (hN : N.Reduced) (hf : FractionDigits N.magnitude N.scale frac) :
    (N.numeral frac).frac.getLast? ≠ some '0' := by
  show frac.getLast? ≠ some '0'
  by_cases hs : N.scale = 0
  · rw [List.getLast?_eq_none_iff.mpr (hf.eq_nil_iff.mpr hs)]
    simp
  · -- with scale left, the magnitude's last digit is not zero, and it ends the fraction
    have h10 : N.magnitude % 10 ≠ 0 := hN.no_trailing_zero.resolve_left hs
    rw [hf.last_eq (Nat.pos_of_ne_zero hs), Ne, Option.some.injEq]
    exact digitChar_ne_zero _ (Nat.mod_lt _ (by norm_num)) h10

/-- Below one in size, the whole part is a single zero. -/
theorem numeral_whole_of_lt_one (hlt : |N.value| < 1) : (N.numeral frac).whole = ['0'] := by
  have hpow : (0 : ℚ) < 10 ^ N.scale := by positivity
  rw [Normal.abs_value, div_lt_one hpow] at hlt
  have hm : N.magnitude < 10 ^ N.scale := by exact_mod_cast hlt
  show Nat.toDigits 10 (N.magnitude / 10 ^ N.scale) = ['0']
  rw [Nat.div_eq_of_lt hm, Nat.toDigits_zero]

/-- Every well-formed numeral of a reduced form's value is at least as long as the
form's own numeral: it needs the sign when the value is negative, as many digits
before the point as the whole part has, and at least `scale` digits after it. -/
theorem numeral_shortest (hN : N.Reduced) (hf : FractionDigits N.magnitude N.scale frac)
    {n : Numeral} (hwf : n.WellFormed) (hv : n.value = N.value) :
    (N.numeral frac).render.length ≤ n.render.length := by
  -- the two values agree in size: whole part plus fraction against `m / 10 ^ s`
  have habs : (Nat.ofDigitChars 10 n.whole 0 : ℚ) +
      (Nat.ofDigitChars 10 n.frac 0 : ℚ) / 10 ^ n.frac.length = (N.magnitude : ℚ) / 10 ^ N.scale := by
    rw [← Numeral.abs_value, hv, Normal.abs_value]
  have hcross : (Nat.ofDigitChars 10 n.whole 0 * 10 ^ n.frac.length + Nat.ofDigitChars 10 n.frac 0) *
      10 ^ N.scale = N.magnitude * 10 ^ n.frac.length := by
    have hk : (10 : ℚ) ^ n.frac.length ≠ 0 := pow_ne_zero _ (by norm_num)
    have hs : (10 : ℚ) ^ N.scale ≠ 0 := pow_ne_zero _ (by norm_num)
    field_simp at habs
    exact_mod_cast habs.trans (mul_comm _ _)
  obtain ⟨hW, hF⟩ := split_point (ofDigitChars_lt hwf.frac_digits) hcross
  -- the sign: a negative value needs one
  have hsign : (if (N.numeral frac).negative then 1 else 0) ≤ (if n.negative then 1 else 0) := by
    cases hneg : (N.numeral frac).negative with
    | false => simp
    | true => rw [Numeral.negative_of_value_neg (hv ▸ (Normal.value_neg_iff hN).mpr hneg)]
  -- the whole part: its value is the same, and so it has at least as many digits
  have hdigits : (N.numeral frac).whole.length ≤ n.whole.length := by
    rw [Normal.numeral, Nat.length_toDigits_le_iff (by norm_num) (List.length_pos_iff.mpr hwf.1), ← hW]
    exact ofDigitChars_lt hwf.whole_digits
  -- the fraction: with scale left, it needs the point and at least `scale` digits
  have hpoint : (if (N.numeral frac).frac = [] then 0 else (N.numeral frac).frac.length + 1) ≤
      (if n.frac = [] then 0 else n.frac.length + 1) := by
    show (if frac = [] then 0 else frac.length + 1) ≤ _
    by_cases hs : N.scale = 0
    · rw [if_pos (hf.eq_nil_iff.mpr hs)]
      exact Nat.zero_le _
    · have hle := scale_le_of_fraction hN.no_trailing_zero hF
      have hne : n.frac ≠ [] := fun h0 => by rw [h0, List.length_nil] at hle; omega
      rw [if_neg (mt hf.eq_nil_iff.mp hs), if_neg hne, hf.length_eq]
      omega
  rw [Numeral.length_render, Numeral.length_render]
  omega

end NormalNumeral

/-! ### The text -/

/-- The sign as text. -/
theorem toList_sign (b : Bool) : (if b then "-" else "").toList = if b then ['-'] else [] := by
  cases b <;> rfl

/-- The numeral `text` writes: the sign of the normal form, the digits of its
whole part, and its fraction in as many digits as its scale. -/
theorem text_toList (d : Decimal) : ∃ frac, FractionDigits d.normal.magnitude d.normal.scale frac ∧
    d.text.toList = (d.normal.numeral frac).render := by
  unfold text Normal.numeral
  generalize d.normal = n
  obtain ⟨neg, m, s⟩ := n
  simp only [String.toList_append, toList_sign, Numeral.render_eq, Numeral.body]
  -- the three branches of `text`, each with the fraction it writes
  by_cases hs : s = 0
  · -- scale zero: the digits of the magnitude, no point
    subst hs
    refine ⟨[], .of_scale_zero m, ?_⟩
    simp [String.toList_ofList]
  by_cases hlen : s < (Nat.toDigits 10 m).length
  · -- more digits than the scale: the point goes `scale` digits from the right
    have hf := FractionDigits.of_lt_length hlen
    refine ⟨_, hf, ?_⟩
    simp [hs, hlen, String.toList_ofList, take_toDigits hlen, mt hf.eq_nil_iff.mp hs]
  · -- no more digits than the scale: the whole part is zero
    have hf := FractionDigits.of_length_le (m := m) (s := s) (by omega)
    have hm : m < 10 ^ s := (Nat.length_toDigits_le_iff (by norm_num) (by omega)).mp (by omega)
    refine ⟨_, hf, ?_⟩
    simp [hs, hlen, String.toList_ofList, Nat.div_eq_of_lt hm, Nat.toDigits_zero, mt hf.eq_nil_iff.mp hs]

example : (⟨5, 0, 0, false, 3⟩ : Decimal).text = "0.005" := by decide

/-- Equal decimals have equal text, and equal text means equal values. -/
theorem text_eq_iff_equiv (a b : Decimal) : a.text = b.text ↔ a.equiv b = true := by
  constructor
  · intro h
    obtain ⟨fa, hfa, hta⟩ := text_toList a
    obtain ⟨fb, hfb, htb⟩ := text_toList b
    -- the text is read back to the numeral, and the numeral has the decimal's value
    have hn : a.normal.numeral fa = b.normal.numeral fb := by
      rw [← Numeral.parse_render (numeral_wellFormed hfa), ← hta, h, htb,
        Numeral.parse_render (numeral_wellFormed hfb)]
    rw [equiv_iff_value_eq, ← value_normal, ← value_normal, ← value_numeral hfa, ← value_numeral hfb, hn]
  · intro h
    have hn : a.normal = b.normal := by simpa [equiv] using h
    unfold text
    rw [hn]

/-- **The text of a decimal is the canonical numeral of its value.** For any words,
sign and scale, the text is a well-formed numeral of the decimal's value; it starts
with `-` exactly when the value is negative and has a point exactly when the value
is no whole number; its fraction does not end in a zero; below one in size it has
the single digit `0` before the point; and no numeral of the value is shorter.
Two decimals have the same text exactly when they are equal. -/
theorem text_canonical :
    (∀ d : Decimal, ∃ n : Numeral, n.WellFormed ∧ d.text.toList = n.render ∧ n.value = d.value ∧
      (d.text.toList.head? = some '-' ↔ d.value < 0) ∧
      ('.' ∈ d.text.toList ↔ ∀ k : Int, d.value ≠ k) ∧
      n.frac.getLast? ≠ some '0' ∧
      (|d.value| < 1 → n.whole = ['0']) ∧
      ∀ n' : Numeral, n'.WellFormed → n'.value = d.value → d.text.length ≤ n'.render.length) ∧
    (∀ a b : Decimal, a.text = b.text ↔ a.equiv b = true) := by
  refine ⟨fun d => ?_, text_eq_iff_equiv⟩
  obtain ⟨frac, hf, htext⟩ := text_toList d
  have hN := normal_reduced d
  have hwf := numeral_wellFormed hf
  refine ⟨d.normal.numeral frac, hwf, htext, by rw [value_numeral hf, value_normal], ?_, ?_,
    numeral_last hN hf, fun hlt => numeral_whole_of_lt_one (by rwa [value_normal]), fun n' hwf' hv => ?_⟩
  · rw [htext, Numeral.head_render hwf, ← value_normal, Normal.value_neg_iff hN]
    rfl
  · rw [htext, Numeral.point_mem_render hwf, ← value_normal, Ne, numeral_frac_eq_nil_iff hf,
      ← Normal.isInt_iff hN]
    simp
  · rw [← String.length_toList, htext]
    exact numeral_shortest hN hf hwf' (by rw [hv, value_normal])

/-- `0.005`, built with scale three, is written so and is no longer than the
padded `00.0050` of the same value; `1000.3` has one text at scales one and three. -/
theorem text_of_thousandths :
    (⟨5, 0, 0, false, 3⟩ : Decimal).text = "0.005" ∧
    (⟨5, 0, 0, false, 3⟩ : Decimal).text.length ≤
      (Numeral.render ⟨false, ['0', '0'], ['0', '0', '5', '0']⟩).length ∧
    ((⟨10003, 0, 0, false, 1⟩ : Decimal).text = (⟨1000300, 0, 0, false, 3⟩ : Decimal).text ↔
      (⟨10003, 0, 0, false, 1⟩ : Decimal).equiv ⟨1000300, 0, 0, false, 3⟩ = true) := by
  refine ⟨by decide, ?_, text_canonical.2 _ _⟩
  obtain ⟨_, -, -, -, -, -, -, -, hshortest⟩ := text_canonical.1 ⟨5, 0, 0, false, 3⟩
  refine hshortest _ ⟨List.cons_ne_nil _ _, by simp [Char.isDigit]⟩ ?_
  simp [Numeral.value, value, magnitude, Nat.ofDigitChars]
  norm_num

end CilBind.Decimal
