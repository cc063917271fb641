import CilBind.Signature.Error

/-!
# `CilBind.Signature.Compressed`: compressed unsigned integers of signature blobs

The leading byte of a value selects its width: `0xxxxxxx` holds seven bits in one
byte, `10xxxxxx` and one more byte hold fourteen bits, and `110xxxxx` with three
more bytes holds twenty-nine bits. A leading `111xxxxx` is read as the four-byte
form too, keeping its low five bits. The signed form rotates the sign bit into
the lowest place and sign-extends from the width that was read.

Main statements:

* `readAt_pos`: a successful read moves the position forward by one, two or four.
* `write_length`: writing uses the fewest bytes the value allows.
-/

set_option autoImplicit false

namespace CilBind.Compressed

-- Powers are core's natural-number powers (literal exponents are written at type
-- `Nat`), also where another `Pow` instance is in scope.
attribute [local instance (high)] instPowNat

/-- The largest value with a compressed form. -/
def maxValue : UInt32 := 0x1FFFFFFF

/-- The value that starts at byte `start` and the position after it. The blob
ends too soon at `start` when it has no byte there, at `start + 1` for a short
two-byte form, and at its own length for a short four-byte form. -/
def readAt (bytes : List UInt8) (start : Nat) : Except SigError (UInt32 × Nat) :=
  match bytes[start]? with
  | none => .error (.truncated start)
  | some first =>
    if first &&& 0x80 = 0 then .ok (first.toUInt32, start + 1)
    else if first &&& 0x40 = 0 then
      match bytes[start + 1]? with
      | none => .error (.truncated (start + 1))
      | some second =>
        .ok (((first &&& 0x3F).toUInt32 <<< 8) ||| second.toUInt32, start + 2)
    else
      match bytes[start + 1]?, bytes[start + 2]?, bytes[start + 3]? with
      | some b1, some b2, some b3 =>
        .ok (((first &&& 0x1F).toUInt32 <<< 24) ||| (b1.toUInt32 <<< 16)
          ||| (b2.toUInt32 <<< 8) ||| b3.toUInt32, start + 4)
      | _, _, _ => .error (.truncated bytes.length)

/-- The number of value bits of a form that is `width` bytes wide, less the sign. -/
def signBits (width : Nat) : Nat :=
  match width with
  | 1 => 6
  | 2 => 13
  | _ => 28

/-- The signed value at `start` and the position after it: an even raw value `r`
stands for `r / 2`, an odd one for `r / 2` with every bit from `signBits` up set. -/
def readSignedAt (bytes : List UInt8) (start : Nat) : Except SigError (Int32 × Nat) := do
  let (raw, next) ← readAt bytes start
  let magnitude := (raw >>> 1).toInt32
  if raw &&& 1 = 0 then pure (magnitude, next)
  else pure (magnitude ||| ((-1 : Int32) <<< (signBits (next - start)).toInt32), next)

/-- Reads values from `start` until the blob ends; `fuel` bounds the count. -/
def readAllFrom (bytes : List UInt8) (start : Nat) : Nat → Except SigError (List UInt32)
  | 0 => .ok []
  | fuel + 1 =>
    if start < bytes.length then do
      let (v, next) ← readAt bytes start
      let rest ← readAllFrom bytes next fuel
      pure (v :: rest)
    else .ok []

/-- Every value of a blob, read from its first byte to its last. -/
def decode (bytes : List UInt8) : Except SigError (List UInt32) :=
  readAllFrom bytes 0 bytes.length

/-- The compressed form of one value. -/
def write (v : UInt32) : Except SigError (List UInt8) :=
  if v ≤ 0x7F then .ok [v.toUInt8]
  else if v ≤ 0x3FFF then .ok [((0x80 : UInt32) ||| (v >>> 8)).toUInt8, v.toUInt8]
  else if v ≤ maxValue then
    .ok [((0xC0 : UInt32) ||| (v >>> 24)).toUInt8, (v >>> 16).toUInt8, (v >>> 8).toUInt8, v.toUInt8]
  else .error (.overflow v)

/-- Writes a signed integer in the shortest form whose range holds it: its
`n`-bit two's complement (`n` = 7, 14 or 29) rotated left by one bit, so that
the sign lands in the lowest bit. -/
def writeSigned (x : Int32) : Except SigError (List UInt8) :=
  let form (n : Nat) : UInt32 :=
    let u := (Int.emod x.toInt (2 ^ n : Nat)).toNat
    ((u * 2 + u / 2 ^ (n - 1)) % 2 ^ n).toUInt32
  if -64 ≤ x.toInt ∧ x.toInt < 64 then write (form 7)
  else if -8192 ≤ x.toInt ∧ x.toInt < 8192 then
    let r := form 14
    .ok [((0x80 : UInt32) ||| (r >>> 8)).toUInt8, r.toUInt8]
  else if -(2 ^ (28 : Nat) : Int) ≤ x.toInt ∧ x.toInt < 2 ^ (28 : Nat) then
    let r := form 29
    .ok [((0xC0 : UInt32) ||| (r >>> 24)).toUInt8, (r >>> 16).toUInt8, (r >>> 8).toUInt8, r.toUInt8]
  else .error (.overflow x.toUInt32)

/-- The compressed forms of a run of values, one after the other; the first value
without a form stops it. -/
def encode : List UInt32 → Except SigError (List UInt8)
  | [] => .ok []
  | v :: vs => do
    let head ← write v
    let tail ← encode vs
    pure (head ++ tail)

theorem readAt_pos {bytes : List UInt8} {start : Nat} {v : UInt32} {next : Nat}
    (h : readAt bytes start = .ok (v, next)) :
    next = start + 1 ∨ next = start + 2 ∨ next = start + 4 := by
  unfold readAt at h
  split at h
  · cases h
  · split at h
    · cases h; simp
    · split at h
      · split at h
        · cases h
        · cases h; simp
      · split at h
        · cases h; simp
        · cases h

theorem write_length {v : UInt32} {bs : List UInt8} (h : write v = .ok bs) :
    bs.length = (if v ≤ 0x7F then 1 else if v ≤ 0x3FFF then 2 else 4) := by
  unfold write at h
  split at h
  · cases h; simp [*]
  · split at h
    · cases h; simp [*]
    · split at h
      · cases h; simp [*]
      · cases h

end CilBind.Compressed
