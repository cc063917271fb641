import CilBind.Signature.Compressed
import Mathlib.Tactic.NormNum

/-!
# `CilBind.Proofs.CompressedForms`: compressed integers read back

A compressed integer is one, two or four bytes wide, and its lead byte says
which. This module reads each of the three forms back at any position of a
blob, whatever follows it, and derives from that:

* `readAt_of_write`: a value that `write` accepts is read back from its bytes,
  and the position moves past them;
* `readSignedAt_of_readAt`: the signed reading of a raw value `raw` of a form
  is `raw / 2 - (raw % 2) * 2 ^ b`, with `b` the width's sign bit (6, 13 or 28),
  so that setting every bit from `b` up is the subtraction it stands for;
* `readSignedAt_of_writeSigned`: a signed value that `writeSigned` accepts is
  read back from its bytes;
* `signed_forms_decode`: a value of the range of any of the three forms, rotated
  and written in that form, wide or not, is read back; and on every buffer the
  signed reading is the raw value shifted right by one, less `2 ^ b` when its low
  bit is set, or the raw reading's failure.

## How the proof goes

Each form's lead byte carries the form's marker bits above the value's top
bits; `lead_one`, `lead_two` and `lead_four` check the marker tests and the
masks on every top part a value of the form can have, by evaluation. The rest is
arithmetic on `Nat`: a bitwise or of parts that do not overlap is their sum
(`or_eq_add_of_mod`), so the parts that the reader shifts back into place add
up to the value (`split_two`, `split_four`). For the signed form, `rotated`
names what `writeSigned` writes, and `rotated_spec` undoes the rotation on
either side of zero.
-/

set_option autoImplicit false

namespace CilBind.Compressed

/-! ### Bit arithmetic -/

/-- A bitwise or of a multiple of `2 ^ i` and a number below `2 ^ i` is their sum. -/
theorem or_eq_add_of_mod {a b i : Nat} (ha : a % 2 ^ i = 0) (hb : b < 2 ^ i) : a ||| b = a + b := by
  have h := Nat.two_pow_add_eq_or_of_lt hb (a / 2 ^ i)
  rwa [Nat.mul_div_cancel' (Nat.dvd_of_mod_eq_zero ha), eq_comm] at h

/-- The lead byte of the one-byte form has its top bit clear. -/
theorem lead_one : ∀ k < 128, (UInt32.ofNat k).toUInt8 &&& 0x80 = 0 := by decide

/-- The lead byte of the two-byte form is `10` and the top six bits of the value. -/
theorem lead_two : ∀ k < 64, ((0x80 ||| UInt32.ofNat k).toUInt8 &&& 0x80 ≠ 0 ∧
    (0x80 ||| UInt32.ofNat k).toUInt8 &&& 0x40 = 0 ∧
    ((0x80 ||| UInt32.ofNat k).toUInt8 &&& 0x3F).toUInt32 = UInt32.ofNat k) := by decide

/-- The lead byte of the four-byte form is `110` and the top five bits of the value. -/
theorem lead_four : ∀ k < 32, ((0xC0 ||| UInt32.ofNat k).toUInt8 &&& 0x80 ≠ 0 ∧
    (0xC0 ||| UInt32.ofNat k).toUInt8 &&& 0x40 ≠ 0 ∧
    ((0xC0 ||| UInt32.ofNat k).toUInt8 &&& 0x1F).toUInt32 = UInt32.ofNat k) := by decide

/-- A value is its bytes from the second up, shifted back, or-ed with its low byte. -/
theorem split_two (v : UInt32) : (v >>> 8 <<< 8) ||| v.toUInt8.toUInt32 = v := by
  apply UInt32.toNat_inj.mp
  have hv := v.toNat_lt
  simp only [UInt32.toNat_or, UInt32.toNat_shiftLeft, UInt32.toNat_shiftRight, UInt8.toNat_toUInt32,
    UInt32.toNat_toUInt8, UInt32.reduceToNat, Nat.reduceMod, Nat.shiftRight_eq_div_pow,
    Nat.shiftLeft_eq, Nat.reducePow] at hv ⊢
  simp (disch := omega) only [Nat.mod_eq_of_lt]
  rw [or_eq_add_of_mod (i := 8) (by omega) (by omega)]
  omega

/-- Four bytes or-ed into place are added into place. -/
theorem or_bytes_four {a b c d : Nat} (hb : b < 256) (hc : c < 256) (hd : d < 256) :
    a * 16777216 ||| b * 65536 ||| c * 256 ||| d = a * 16777216 + b * 65536 + c * 256 + d := by
  have h₁ : a * 16777216 ||| b * 65536 = a * 16777216 + b * 65536 :=
    or_eq_add_of_mod (i := 24) (by omega) (by omega)
  have h₂ : a * 16777216 + b * 65536 ||| c * 256 = a * 16777216 + b * 65536 + c * 256 :=
    or_eq_add_of_mod (i := 16) (by omega) (by omega)
  rw [h₁, h₂]
  exact or_eq_add_of_mod (i := 8) (by omega) hd

/-- A value is its four bytes, each shifted back into place. -/
theorem split_four (v : UInt32) : (v >>> 24 <<< 24) ||| ((v >>> 16).toUInt8.toUInt32 <<< 16)
    ||| ((v >>> 8).toUInt8.toUInt32 <<< 8) ||| v.toUInt8.toUInt32 = v := by
  apply UInt32.toNat_inj.mp
  have hv := v.toNat_lt
  simp only [UInt32.toNat_or, UInt32.toNat_shiftLeft, UInt32.toNat_shiftRight, UInt8.toNat_toUInt32,
    UInt32.toNat_toUInt8, UInt32.reduceToNat, Nat.reduceMod, Nat.shiftRight_eq_div_pow,
    Nat.shiftLeft_eq, Nat.reducePow] at hv ⊢
  simp (disch := omega) only [Nat.mod_eq_of_lt]
  rw [or_bytes_four (by omega) (by omega) (by omega)]
  omega

/-! ### The three forms -/

/-- The bytes from a position are the blob that starts there. -/
theorem getElem?_of_drop {bytes bs rest : List UInt8} {pos : Nat} (h : bytes.drop pos = bs ++ rest)
    {i : Nat} (hi : i < bs.length) : bytes[pos + i]? = bs[i]? := by
  rw [← List.getElem?_drop, h, List.getElem?_append_left hi]

variable {bytes rest : List UInt8} {pos : Nat} {r : UInt32}

/-- A value below `2 ^ 7` is read from one byte. -/
theorem readAt_one (hr : r.toNat < 2 ^ 7) (h : bytes.drop pos = [r.toUInt8] ++ rest) :
    readAt bytes pos = .ok (r, pos + 1) := by
  have h₀ : bytes[pos]? = some r.toUInt8 := by simpa using getElem?_of_drop h (i := 0) (by simp)
  have hlead : r.toUInt8 &&& 0x80 = 0 := by simpa using lead_one r.toNat hr
  have hval : r.toUInt8.toUInt32 = r := UInt32.toNat_inj.mp (by simp; omega)
  simp [readAt, h₀, hlead, hval]

/-- A value below `2 ^ 14` is read from the two-byte form, even one that would fit
in a single byte. -/
theorem readAt_two (hr : r.toNat < 2 ^ 14)
    (h : bytes.drop pos = [((0x80 : UInt32) ||| (r >>> 8)).toUInt8, r.toUInt8] ++ rest) :
    readAt bytes pos = .ok (r, pos + 2) := by
  have hk : (r >>> 8).toNat < 64 := by
    simp [UInt32.toNat_shiftRight, Nat.shiftRight_eq_div_pow]; omega
  obtain ⟨h80, h40, h3F⟩ := lead_two _ hk
  rw [UInt32.ofNat_toNat] at h80 h40 h3F
  generalize ((0x80 : UInt32) ||| (r >>> 8)).toUInt8 = b at h h80 h40 h3F
  have h₀ : bytes[pos]? = some b := getElem?_of_drop h (i := 0) (by simp)
  have h₁ : bytes[pos + 1]? = some r.toUInt8 := getElem?_of_drop h (i := 1) (by simp)
  simp only [readAt, h₀, h₁, h80, h40, h3F, split_two, ↓reduceIte]

/-- A value below `2 ^ 29` is read from the four-byte form. -/
theorem readAt_four (hr : r.toNat < 2 ^ 29)
    (h : bytes.drop pos = [((0xC0 : UInt32) ||| (r >>> 24)).toUInt8, (r >>> 16).toUInt8,
      (r >>> 8).toUInt8, r.toUInt8] ++ rest) :
    readAt bytes pos = .ok (r, pos + 4) := by
  have hk : (r >>> 24).toNat < 32 := by
    simp [UInt32.toNat_shiftRight, Nat.shiftRight_eq_div_pow]; omega
  obtain ⟨h80, h40, h1F⟩ := lead_four _ hk
  rw [UInt32.ofNat_toNat] at h80 h40 h1F
  generalize ((0xC0 : UInt32) ||| (r >>> 24)).toUInt8 = b at h h80 h40 h1F
  have h₀ : bytes[pos]? = some b := getElem?_of_drop h (i := 0) (by simp)
  have h₁ : bytes[pos + 1]? = some (r >>> 16).toUInt8 := getElem?_of_drop h (i := 1) (by simp)
  have h₂ : bytes[pos + 2]? = some (r >>> 8).toUInt8 := getElem?_of_drop h (i := 2) (by simp)
  have h₃ : bytes[pos + 3]? = some r.toUInt8 := getElem?_of_drop h (i := 3) (by simp)
  simp only [readAt, h₀, h₁, h₂, h₃, h80, h40, h1F, split_four, ↓reduceIte]

/-- Every value up to `maxValue` is written. -/
theorem write_eq_ok {v : UInt32} (hv : v ≤ maxValue) : ∃ bs, write v = .ok bs := by
  unfold write
  split
  · exact ⟨_, rfl⟩
  · split
    · exact ⟨_, rfl⟩
    · -- the last test is `hv` itself, which `split` has already used
      exact ⟨_, rfl⟩

/-- What `write` writes is read back, and the position moves past it. -/
theorem readAt_of_write {v : UInt32} {bs : List UInt8} (hw : write v = .ok bs)
    (h : bytes.drop pos = bs ++ rest) : readAt bytes pos = .ok (v, pos + bs.length) := by
  unfold write at hw
  split at hw
  · rename_i hv
    cases hw
    exact readAt_one (by simp [UInt32.le_iff_toNat_le] at hv; omega) h
  · split at hw
    · rename_i hv
      cases hw
      exact readAt_two (by simp [UInt32.le_iff_toNat_le] at hv; omega) h
    · split at hw
      · rename_i hv
        cases hw
        exact readAt_four (by simp [maxValue, UInt32.le_iff_toNat_le] at hv; omega) h
      · cases hw

/-! ### The signed reading -/

set_option maxRecDepth 4000 in
/-- A byte whose high bit is clear is below `0x80`. -/
theorem lead_lt : ∀ k < 256, UInt8.ofNat k &&& 0x80 = 0 → k < 128 := by decide

/-- The raw value of a form is one bit wider than the form's sign bit. -/
theorem readAt_lt {raw : UInt32} {next : Nat} (h : readAt bytes pos = .ok (raw, next)) :
    raw.toNat < 2 ^ (signBits (next - pos) + 1) := by
  unfold readAt at h
  split at h
  · cases h
  · rename_i first _
    split at h
    · rename_i h80
      cases h
      have := lead_lt first.toNat first.toNat_lt (by simpa using h80)
      simp [signBits]; omega
    · split at h
      · split at h
        · cases h
        · cases h
          rename_i second _
          have h63 : first.toNat &&& 63 ≤ 63 := Nat.and_le_right
          have hs := second.toNat_lt
          simp only [UInt32.toNat_or, UInt32.toNat_shiftLeft, UInt8.toNat_toUInt32, UInt8.toNat_and,
            UInt32.reduceToNat, UInt8.reduceToNat, Nat.reduceMod, Nat.shiftLeft_eq,
            Nat.add_sub_cancel_left, signBits]
          exact Nat.or_lt_two_pow (by omega) (by omega)
      · split at h
        · cases h
          rename_i b1 b2 b3 _ _ _
          have h31 : first.toNat &&& 31 ≤ 31 := Nat.and_le_right
          have h1 := b1.toNat_lt
          have h2 := b2.toNat_lt
          have h3 := b3.toNat_lt
          simp only [UInt32.toNat_or, UInt32.toNat_shiftLeft, UInt8.toNat_toUInt32, UInt8.toNat_and,
            UInt32.reduceToNat, UInt8.reduceToNat, Nat.reduceMod, Nat.shiftLeft_eq,
            Nat.add_sub_cancel_left, signBits]
          refine Nat.or_lt_two_pow (Nat.or_lt_two_pow (Nat.or_lt_two_pow ?_ ?_) ?_) ?_ <;> omega
        · cases h

/-- The sign extension mask of a width: every bit from the sign bit up. -/
theorem mask_toNat (w : Nat) :
    ((-1 : Int32) <<< (signBits w).toInt32).toBitVec.toNat = 2 ^ 32 - 2 ^ signBits w := by
  unfold signBits
  split <;> decide

/-- The sign bit of every form is at most bit 28. -/
theorem signBits_le (w : Nat) : signBits w ≤ 28 := by
  unfold signBits
  split <;> decide

/-- An unsigned value below `2 ^ 31` reads as the same signed one. -/
theorem toInt_toInt32_of_lt {u : UInt32} (hu : u.toNat < 2 ^ 31) : u.toInt32.toInt = u.toNat := by
  rw [Int32.toInt, UInt32.toBitVec_toInt32, BitVec.toInt_eq_toNat_cond]
  simp only [UInt32.toNat_toBitVec]
  split <;> omega

/-- Setting every bit from `b` up in a number below `2 ^ b` subtracts `2 ^ b`. -/
theorem toInt_or_mask {m : Int32} {b : Nat} (hb : b ≤ 28) (hm : m.toBitVec.toNat < 2 ^ b)
    (hmask : ((-1 : Int32) <<< b.toInt32).toBitVec.toNat = 2 ^ 32 - 2 ^ b) :
    (m ||| (-1 : Int32) <<< b.toInt32).toInt = m.toBitVec.toNat - 2 ^ b := by
  have hpow : 2 ^ b ≤ 2 ^ 28 := Nat.pow_le_pow_right (by decide) hb
  have hdvd : (2 ^ 32 - 2 ^ b) % 2 ^ b = 0 := by
    apply Nat.sub_mod_eq_zero_of_mod_eq
    rw [Nat.mod_self, Nat.mod_eq_zero_of_dvd (Nat.pow_dvd_pow 2 (by omega))]
  rw [Int32.toInt, Int32.toBitVec_or, BitVec.toInt_eq_toNat_cond, BitVec.toNat_or, hmask,
    Nat.or_comm, or_eq_add_of_mod hdvd hm]
  have hcast : (2 : Int) ^ b = ((2 ^ b : Nat) : Int) := by norm_cast
  rw [hcast]
  generalize 2 ^ b = B at hpow hm ⊢
  split <;> omega

/-- The signed reading of a raw value `raw`: half of it, less `2 ^ b` when its low
bit is set, where `b` is the sign bit of the width that was read. -/
theorem readSignedAt_of_readAt {raw : UInt32} {next : Nat}
    (h : readAt bytes pos = .ok (raw, next)) :
    ∃ v : Int32, readSignedAt bytes pos = .ok (v, next) ∧
      v.toInt = (raw.toNat / 2 : Nat) - (raw.toNat % 2 : Nat) * 2 ^ signBits (next - pos) := by
  have hlt := readAt_lt h
  have hb := signBits_le (next - pos)
  have hpow : 2 ^ (signBits (next - pos) + 1) ≤ 2 ^ 29 :=
    Nat.pow_le_pow_right (by decide) (by omega)
  have hhalf : (raw >>> 1).toNat = raw.toNat / 2 := by
    simp [UInt32.toNat_shiftRight, Nat.shiftRight_eq_div_pow]
  have hodd : raw &&& 1 = 0 ↔ raw.toNat % 2 = 0 := by
    simp [← UInt32.toNat_inj, UInt32.toNat_and]
  unfold readSignedAt
  simp only [h, bind, Except.bind, pure, Except.pure]
  have hmag : (raw >>> 1).toInt32.toInt = (raw.toNat / 2 : Nat) := by
    rw [toInt_toInt32_of_lt (by omega), hhalf]
  split
  · rename_i heven
    refine ⟨_, rfl, ?_⟩
    rw [hmag, hodd.mp heven]
    simp
  · rename_i hodd'
    refine ⟨_, rfl, ?_⟩
    have hone : raw.toNat % 2 = 1 := by
      have := mt hodd.mpr hodd'
      omega
    have hsucc : 2 ^ (signBits (next - pos) + 1) = 2 * 2 ^ signBits (next - pos) := Nat.pow_succ'
    rw [toInt_or_mask hb (by rw [UInt32.toBitVec_toInt32, UInt32.toNat_toBitVec, hhalf]; omega)
      (mask_toNat _), UInt32.toBitVec_toInt32, UInt32.toNat_toBitVec, hhalf, hone]
    simp

/-- The `n`-bit two's complement of `x`, rotated left by one bit. -/
def rotated (n : Nat) (x : Int32) : UInt32 :=
  let u := (Int.emod x.toInt (2 ^ n : Nat)).toNat
  ((u * 2 + u / 2 ^ (n - 1)) % 2 ^ n).toUInt32

/-- Rotating a value of the `k + 1`-bit range gives a raw value of that many bits, and
the signed reading with sign bit `k` turns it back into the value. -/
theorem rotated_spec {k : Nat} (hk : k ≤ 28) {x : Int32} (hlo : -(2 ^ k : Int) ≤ x.toInt)
    (hhi : x.toInt < 2 ^ k) :
    (rotated (k + 1) x).toNat < 2 ^ (k + 1) ∧
      ((rotated (k + 1) x).toNat / 2 : Nat) -
        ((rotated (k + 1) x).toNat % 2 : Nat) * (2 ^ k : Int) = x.toInt := by
  have hN : 2 ^ k ≤ 2 ^ 28 := Nat.pow_le_pow_right (by decide) hk
  have hpos : 0 < 2 ^ k := Nat.two_pow_pos k
  have hcast : (2 : Int) ^ k = ((2 ^ k : Nat) : Int) := by norm_cast
  simp only [rotated, Nat.add_sub_cancel, Nat.pow_succ', hcast] at hlo hhi ⊢
  generalize 2 ^ k = N at hN hpos hlo hhi ⊢
  have he : x.toInt.emod ((2 * N : Nat) : Int) = x.toInt % (2 * N) := by push_cast; rfl
  rw [he]
  have hu : ((x.toInt % (2 * N)).toNat : Int) = x.toInt % (2 * N) :=
    Int.toNat_of_nonneg (Int.emod_nonneg _ (by omega))
  generalize (x.toInt % (2 * N)).toNat = u at hu ⊢
  have hraw : ((u * 2 + u / N) % (2 * N)).toUInt32.toNat = (u * 2 + u / N) % (2 * N) := by
    rw [Nat.toUInt32, UInt32.toNat_ofNat', Nat.mod_eq_of_lt]
    exact lt_of_lt_of_le (Nat.mod_lt _ (by omega)) (by omega)
  rw [hraw]
  rcases lt_or_ge x.toInt 0 with hx | hx
  · -- a negative value is stored `2 * N` above itself, so its sign bit is set
    have hu' : (u : Int) = x.toInt + 2 * N := by
      rw [hu, ← Int.add_emod_right, Int.emod_eq_of_lt (by omega) (by omega)]
    have hs : u / N = 1 := Nat.div_eq_of_lt_le (by omega) (by omega)
    have hr : (u * 2 + 1) % (2 * N) = u * 2 + 1 - 2 * N := by
      rw [Nat.mod_eq_sub_mod (by omega), Nat.mod_eq_of_lt (by omega)]
    have hbit : (u * 2 + 1 - 2 * N) % 2 = 1 := by omega
    rw [hs, hr, hbit]
    constructor <;> omega
  · have hu' : (u : Int) = x.toInt := by rw [hu, Int.emod_eq_of_lt hx (by omega)]
    have hs : u / N = 0 := Nat.div_eq_of_lt (by omega)
    have hr : (u * 2 + 0) % (2 * N) = u * 2 := Nat.mod_eq_of_lt (by omega)
    have hbit : u * 2 % 2 = 0 := by omega
    rw [hs, hr, hbit]
    constructor <;> omega

/-- A value of the range of a width, rotated and written in that width's form, is read
back by the signed reading. -/
theorem readSignedAt_of_rotated {k w : Nat} {x : Int32} (hk : signBits w = k)
    (hlo : -(2 ^ k : Int) ≤ x.toInt) (hhi : x.toInt < 2 ^ k)
    (h : readAt bytes pos = .ok (rotated (k + 1) x, pos + w)) :
    readSignedAt bytes pos = .ok (x, pos + w) := by
  obtain ⟨v, hv, hvx⟩ := readSignedAt_of_readAt h
  have hx : v = x := by
    apply Int32.toInt_inj.mp
    rw [hvx, Nat.add_sub_cancel_left, hk]
    exact (rotated_spec (hk ▸ signBits_le w) hlo hhi).2
  rw [hv, hx]

/-- `writeSigned` with the rotation of each width named. -/
theorem writeSigned_eq (x : Int32) : writeSigned x =
    if -64 ≤ x.toInt ∧ x.toInt < 64 then write (rotated 7 x)
    else if -8192 ≤ x.toInt ∧ x.toInt < 8192 then
      .ok [((0x80 : UInt32) ||| (rotated 14 x >>> 8)).toUInt8, (rotated 14 x).toUInt8]
    else if -(2 ^ 28 : Int) ≤ x.toInt ∧ x.toInt < 2 ^ 28 then
      .ok [((0xC0 : UInt32) ||| (rotated 29 x >>> 24)).toUInt8, (rotated 29 x >>> 16).toUInt8,
        (rotated 29 x >>> 8).toUInt8, (rotated 29 x).toUInt8]
    else .error (.overflow x.toUInt32) := rfl

/-- Every value in the range of the signed form is written. -/
theorem writeSigned_eq_ok {x : Int32} (hlo : -(2 ^ 28 : Int) ≤ x.toInt) (hhi : x.toInt < 2 ^ 28) :
    ∃ bs, writeSigned x = .ok bs := by
  rw [writeSigned_eq]
  split
  · rename_i hx
    have hlt : (rotated 7 x).toNat < 2 ^ 7 :=
      (rotated_spec (k := 6) (by decide) (by omega) (by omega)).1
    exact write_eq_ok (by simp [maxValue, UInt32.le_iff_toNat_le]; omega)
  · split
    · exact ⟨_, rfl⟩
    · rw [if_pos ⟨hlo, hhi⟩]
      exact ⟨_, rfl⟩

/-- What `writeSigned` writes is read back by the signed reading. -/
theorem readSignedAt_of_writeSigned {x : Int32} {bs : List UInt8} (hw : writeSigned x = .ok bs)
    (h : bytes.drop pos = bs ++ rest) : readSignedAt bytes pos = .ok (x, pos + bs.length) := by
  rw [writeSigned_eq] at hw
  split at hw
  · rename_i hx
    have hlt : (rotated 7 x).toNat < 2 ^ 7 :=
      (rotated_spec (k := 6) (by decide) (by omega) (by omega)).1
    have hone : bs.length = 1 := by
      rw [write_length hw, if_pos (by simp [UInt32.le_iff_toNat_le]; omega)]
    exact readSignedAt_of_rotated (k := 6) (by rw [hone]; rfl) (by omega) (by omega)
      (readAt_of_write hw h)
  · split at hw
    · rename_i hx
      cases hw
      have hlt : (rotated 14 x).toNat < 2 ^ 14 :=
        (rotated_spec (k := 13) (by decide) (by omega) (by omega)).1
      exact readSignedAt_of_rotated (k := 13) rfl (by omega) (by omega) (readAt_two hlt h)
    · split at hw
      · rename_i hx
        cases hw
        have hlt : (rotated 29 x).toNat < 2 ^ 29 := (rotated_spec (k := 28) le_rfl hx.1 hx.2).1
        exact readSignedAt_of_rotated (k := 28) rfl hx.1 hx.2 (readAt_four hlt h)
      · cases hw

/-! ### Every form of the signed reading -/

/-- The three forms of a compressed integer, by width. -/
inductive Form where
  | one
  | two
  | four
  deriving DecidableEq, Repr

namespace Form

/-- The number of bytes of the form. -/
def size : Form → Nat
  | one => 1
  | two => 2
  | four => 4

/-- The number of value bits of the form. -/
def bits : Form → Nat
  | one => 7
  | two => 14
  | four => 29

/-- A raw value in the form of this width: its bytes, most significant first, with
the form's marker bits in the lead byte. -/
def encode : Form → UInt32 → List UInt8
  | one, r => [r.toUInt8]
  | two, r => [((0x80 : UInt32) ||| (r >>> 8)).toUInt8, r.toUInt8]
  | four, r =>
    [((0xC0 : UInt32) ||| (r >>> 24)).toUInt8, (r >>> 16).toUInt8, (r >>> 8).toUInt8, r.toUInt8]

/-- The sign bit the signed reading takes for the form is its top value bit. -/
theorem signBits_size (w : Form) : signBits w.size = w.bits - 1 := by
  cases w <;> rfl

end Form

/-- A raw value of a width's bits, written in that width's form, is read back, even
when a shorter form would hold it. -/
theorem readAt_width (w : Form) {r : UInt32} (hr : r.toNat < 2 ^ w.bits)
    (h : bytes.drop pos = w.encode r ++ rest) : readAt bytes pos = .ok (r, pos + w.size) := by
  cases w with
  | one => exact readAt_one hr h
  | two => exact readAt_two hr h
  | four => exact readAt_four hr h

/-- A value of a width's range, rotated and written in that width's form, is read
back by the signed reading, which moves past the form. -/
theorem readSignedAt_width (w : Form) {x : Int32} (hlo : -(2 ^ (w.bits - 1) : Int) ≤ x.toInt)
    (hhi : x.toInt < 2 ^ (w.bits - 1)) (h : bytes.drop pos = w.encode (rotated w.bits x) ++ rest) :
    readSignedAt bytes pos = .ok (x, pos + w.size) := by
  have hk : w.bits - 1 ≤ 28 := by cases w <;> decide
  have hbits : w.bits - 1 + 1 = w.bits := by cases w <;> rfl
  have hr : (rotated w.bits x).toNat < 2 ^ w.bits := hbits ▸ (rotated_spec hk hlo hhi).1
  refine readSignedAt_of_rotated w.signBits_size hlo hhi ?_
  rw [hbits]
  exact readAt_width w hr h

/-- A failed read of the raw value fails the signed reading with the same error. -/
theorem readSignedAt_eq_error_iff (e : SigError) :
    readSignedAt bytes pos = .error e ↔ readAt bytes pos = .error e := by
  unfold readSignedAt
  cases hread : readAt bytes pos with
  | error e' => simp [bind, Except.bind]
  | ok p =>
    obtain ⟨raw, next⟩ := p
    simp only [bind, Except.bind, pure, Except.pure]
    split <;> simp

/-- The signed reading of a buffer, in full: the raw value shifted right by one,
less `2 ^ b` when its low bit is set, where `b` is the sign bit of the width read. -/
theorem readSignedAt_eq_ok_iff (v : Int32) (next : Nat) :
    readSignedAt bytes pos = .ok (v, next) ↔ ∃ raw, readAt bytes pos = .ok (raw, next) ∧
      v.toInt = ((raw >>> 1).toNat : Int) - ((raw &&& 1).toNat : Int) * 2 ^ signBits (next - pos) := by
  have hbits : ∀ raw : UInt32, (raw >>> 1).toNat = raw.toNat / 2 ∧ (raw &&& 1).toNat = raw.toNat % 2 :=
    fun raw => ⟨by simp [UInt32.toNat_shiftRight, Nat.shiftRight_eq_div_pow],
      by simp [UInt32.toNat_and, Nat.and_one_is_mod]⟩
  constructor
  · intro h
    cases hread : readAt bytes pos with
    | error e => rw [(readSignedAt_eq_error_iff e).mpr hread] at h; cases h
    | ok p =>
      obtain ⟨raw, next'⟩ := p
      obtain ⟨v', hv', hval⟩ := readSignedAt_of_readAt hread
      rw [h] at hv'
      cases hv'
      refine ⟨raw, rfl, ?_⟩
      rw [hval, (hbits raw).1, (hbits raw).2]
  · rintro ⟨raw, hread, hval⟩
    obtain ⟨v', hv', hval'⟩ := readSignedAt_of_readAt hread
    have hv : v' = v := by
      apply Int32.toInt_inj.mp
      rw [hval', hval, (hbits raw).1, (hbits raw).2]
    rw [hv', hv]

/-- **Signed compressed integers decode to their value.** A value of the range of a
width, as its two's complement rotated left by one bit and written in exactly that
width's form, is read back by the signed reading, which moves past the form. On
every buffer the signed reading fails exactly when the raw reading does, and
otherwise gives the raw value shifted right by one, less `2 ^ b` when its low bit is
set, where `b` is the sign bit (6, 13 or 28) of the width actually read. -/
theorem signed_forms_decode :
    (∀ (w : Form) (x : Int32), -(2 ^ (w.bits - 1) : Int) ≤ x.toInt → x.toInt < 2 ^ (w.bits - 1) →
      ∀ (bytes rest : List UInt8) (pos : Nat), bytes.drop pos = w.encode (rotated w.bits x) ++ rest →
        readSignedAt bytes pos = .ok (x, pos + w.size)) ∧
    (∀ (bytes : List UInt8) (pos : Nat) (v : Int32) (next : Nat),
      readSignedAt bytes pos = .ok (v, next) ↔ ∃ raw, readAt bytes pos = .ok (raw, next) ∧
        v.toInt = ((raw >>> 1).toNat : Int) - ((raw &&& 1).toNat : Int) * 2 ^ signBits (next - pos)) ∧
    (∀ (bytes : List UInt8) (pos : Nat) (e : SigError),
      readSignedAt bytes pos = .error e ↔ readAt bytes pos = .error e) :=
  ⟨fun w _ hlo hhi _ _ _ h => readSignedAt_width w hlo hhi h, fun _ _ v next => readSignedAt_eq_ok_iff v next,
    fun _ _ e => readSignedAt_eq_error_iff e⟩

/-- `-8192` in the two-byte form `80 01`; `-1` as `7F`; `2` as `04`, and as
`80 04` in the wider two-byte form. -/
theorem signed_forms_of_tests :
    readSignedAt [0x80, 0x01] 0 = .ok (-8192, 0 + Form.two.size) ∧
    readSignedAt [0x7F] 0 = .ok (-1, 0 + Form.one.size) ∧
    readSignedAt [0x04] 0 = .ok (2, 0 + Form.one.size) ∧
    readSignedAt [0x80, 0x04] 0 = .ok (2, 0 + Form.two.size) :=
  ⟨signed_forms_decode.1 .two (-8192) (by decide) (by decide) [0x80, 0x01] [] 0 (by decide),
    signed_forms_decode.1 .one (-1) (by decide) (by decide) [0x7F] [] 0 (by decide),
    signed_forms_decode.1 .one 2 (by decide) (by decide) [0x04] [] 0 (by decide),
    signed_forms_decode.1 .two 2 (by decide) (by decide) [0x80, 0x04] [] 0 (by decide)⟩

end CilBind.Compressed
