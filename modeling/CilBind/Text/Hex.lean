/-!
# `CilBind.Text.Hex`: hexadecimal text for numbers and byte strings

Numbers in messages are written in lowercase hexadecimal with a `0x` mark, either
in their fewest digits or padded with zeros to a fixed total width that counts
the mark. Byte strings travel as hexadecimal text: reading ignores blanks and
accepts either case; writing uses two lowercase digits per byte.

Main statement: `digits_length_pos`, a number always has at least one digit.
-/

set_option autoImplicit false

namespace CilBind.Hex

/-- The lowercase digit of a value below sixteen. -/
def digitChar (n : Nat) : Char :=
  if n < 10 then Char.ofNat (48 + n) else Char.ofNat (87 + n)

/-- The fewest lowercase hexadecimal digits of `n`; zero is `"0"`. -/
def digits (n : Nat) : List Char :=
  if n < 16 then [digitChar n]
  else digits (n / 16) ++ [digitChar (n % 16)]
decreasing_by omega

/-- `n` in its fewest digits after the `0x` mark. -/
def alt (n : Nat) : String :=
  "0x" ++ String.ofList (digits n)

/-- `n` after the `0x` mark, padded with zeros so that mark and digits together
are at least `width` characters long. -/
def padded (width : Nat) (n : Nat) : String :=
  let ds := digits n
  "0x" ++ String.ofList (List.replicate (width - 2 - ds.length) '0' ++ ds)

/-- `n` as exactly `count` digits without a mark, zeros in front (more digits if
`n` needs them). -/
def fixed (count : Nat) (n : Nat) : String :=
  let ds := digits n
  String.ofList (List.replicate (count - ds.length) '0' ++ ds)

/-- The value of one hexadecimal digit of either case. -/
def digitValue? (c : Char) : Option Nat :=
  if '0' ≤ c ∧ c ≤ '9' then some (c.toNat - 48)
  else if 'a' ≤ c ∧ c ≤ 'f' then some (c.toNat - 87)
  else if 'A' ≤ c ∧ c ≤ 'F' then some (c.toNat - 55)
  else none

/-- Pairs of digits to bytes; a digit left over or a non-digit fails. -/
def bytesOfDigits : List Char → Except String (List UInt8)
  | [] => .ok []
  | [_] => .error "odd-length hex"
  | a :: b :: rest =>
    match digitValue? a, digitValue? b with
    | some hi, some lo => do
      let tail ← bytesOfDigits rest
      pure (UInt8.ofNat (hi * 16 + lo) :: tail)
    | _, _ => .error "invalid hex digit"

/-- Unicode's white space: the ASCII blanks and line breaks, the next line and
no-break spaces, the Ogham space mark, the typographic spaces, the line and
paragraph separators, and the ideographic space. -/
def isBlank (c : Char) : Bool :=
  let n := c.toNat
  (0x9 ≤ n && n ≤ 0xD) || n == 0x20 || n == 0x85 || n == 0xA0 || n == 0x1680 ||
    (0x2000 ≤ n && n ≤ 0x200A) || n == 0x2028 || n == 0x2029 || n == 0x202F ||
    n == 0x205F || n == 0x3000

/-- The bytes that a hexadecimal text spells, blanks ignored; an odd number of
digits is refused before any digit is looked at. -/
def decodeBytes (s : String) : Except String (List UInt8) :=
  let ds := s.toList.filter (fun c => !isBlank c)
  if ds.length % 2 = 1 then .error "odd-length hex" else bytesOfDigits ds

/-- Two lowercase digits for each byte. -/
def encodeBytes (bs : List UInt8) : String :=
  String.join (bs.map (fun b => fixed 2 b.toNat))

theorem digits_length_pos (n : Nat) : 0 < (digits n).length := by
  rw [digits]
  split
  · simp
  · simp

end CilBind.Hex
