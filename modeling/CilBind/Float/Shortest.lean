/-!
# `CilBind.Float.Shortest`: the fewest decimal digits that read back

A finite binary floating-point value `m · 2^q` stands for every real number that
rounds to it: the interval from halfway to the neighbour below to halfway to the
neighbour above, both ends included exactly when `m` is even. The gap below is
half as wide when the value is a power of two above the least normal one.

`Binary.shortest` searches the decimal grids `10^k` from the coarsest that still
has the leading digit, one digit more each time. On each grid only the two
neighbours of the value can lie in the interval if any grid point does. The first
grid with a hit wins; of two hits the nearer, and an exact tie goes up.
-/

set_option autoImplicit false

namespace CilBind.Floating

-- Powers are core's natural-number powers (literal exponents are written at type
-- `Nat`), also where another `Pow` instance is in scope.
attribute [local instance (high)] instPowNat

/-- The layout of an IEEE 754 binary format: the stored fraction bits and the
exponent bits. -/
structure Format where
  fractionBits : Nat
  exponentBits : Nat
  /-- The most significant digits any value of the format needs. -/
  maxDigits : Nat
  deriving Repr

namespace Format

/-- 64-bit binary floating point. -/
def binary64 : Format := ⟨52, 11, 17⟩

/-- 32-bit binary floating point. -/
def binary32 : Format := ⟨23, 8, 9⟩

/-- The exponent bias. -/
def bias (f : Format) : Nat := 2 ^ (f.exponentBits - 1) - 1

end Format

/-- A finite non-negative value `m · 2^q`. -/
structure Binary where
  m : Nat
  q : Int
  /-- The gap to the value below is half the gap to the value above. -/
  narrowBelow : Bool
  deriving Repr, DecidableEq

/-- What the bits of a value are: not a number, an infinity, or finite. -/
inductive Class where
  | nan
  | infinite (negative : Bool)
  | finite (negative : Bool) (x : Binary)
  deriving Repr, DecidableEq

/-- Splits the bits of a value of format `f` into sign, exponent and fraction. -/
def classify (f : Format) (bits : Nat) : Class :=
  let frac := bits % 2 ^ f.fractionBits
  let e := (bits / 2 ^ f.fractionBits) % 2 ^ f.exponentBits
  let negative := (bits / 2 ^ (f.fractionBits + f.exponentBits)) % 2 = 1
  if e = 2 ^ f.exponentBits - 1 then
    if frac = 0 then .infinite negative else .nan
  else if e = 0 then
    .finite negative ⟨frac, 1 - (f.bias : Int) - f.fractionBits, false⟩
  else
    .finite negative ⟨2 ^ f.fractionBits + frac, (e : Int) - f.bias - f.fractionBits,
      frac = 0 && e > 1⟩

/-- `digits · 10^exp`. -/
structure Dec where
  digits : Nat
  exp : Int
  deriving Repr, DecidableEq

/-- Compares `a · 10^i` with `n · 2^j`, exactly. -/
def cmpScaled (a : Nat) (i : Int) (n : Nat) (j : Int) : Ordering :=
  compare (a * 10 ^ i.toNat * 2 ^ (-j).toNat) (n * 2 ^ j.toNat * 10 ^ (-i).toNat)

namespace Binary

/-- The lower end of the interval, in units of `2^(q-2)`. -/
def lowEnd (x : Binary) : Nat := if x.narrowBelow then 4 * x.m - 1 else 4 * x.m - 2

/-- The upper end of the interval, in units of `2^(q-2)`. -/
def highEnd (x : Binary) : Nat := 4 * x.m + 2

/-- Whether `d` lies among the reals that round to `x` (to nearest, ties to even). -/
def readsBack (x : Binary) (d : Dec) : Bool :=
  let incl := x.m % 2 == 0
  let cl := cmpScaled d.digits d.exp x.lowEnd (x.q - 2)
  let ch := cmpScaled d.digits d.exp x.highEnd (x.q - 2)
  (cl == .gt || (incl && cl == .eq)) && (ch == .lt || (incl && ch == .eq))

/-- The number of decimal digits of `n`, at least one. -/
def digitCount (n : Nat) : Nat := (Nat.toDigits 10 n).length

/-- The value as a fraction `num / den` of naturals. -/
def num (x : Binary) : Nat := x.m * 2 ^ x.q.toNat

/-- The denominator of the value. -/
def den (x : Binary) : Nat := 2 ^ (-x.q).toNat

/-- The exponent of the leading decimal digit: the greatest `e` with
`10^e ≤ m · 2^q`, for a value that is not zero. -/
def leadExponent (x : Binary) : Int :=
  let t : Int := (digitCount x.num : Int) - digitCount x.den
  if x.num * 10 ^ (-t).toNat ≥ x.den * 10 ^ t.toNat then t else t - 1

/-- The value's neighbour below on the grid `10^k`: `⌊m · 2^q / 10^k⌋`. -/
def floorOnGrid (x : Binary) (k : Int) : Nat :=
  (x.num * 10 ^ (-k).toNat) / (x.den * 10 ^ k.toNat)

/-- Of the two neighbours `lo` and `lo + 1` on the grid `10^k`, the hit that is
nearer to the value, a tie going to the upper one. -/
def pickOnGrid (x : Binary) (k : Int) : Option Dec :=
  let lo := x.floorOnGrid k
  let below : Dec := ⟨lo, k⟩
  let above : Dec := ⟨lo + 1, k⟩
  match x.readsBack below, x.readsBack above with
  | true, true =>
    -- twice the value against the sum of the two neighbours
    if cmpScaled (2 * lo + 1) k (2 * x.m) x.q == .gt then some below else some above
  | true, false => some below
  | false, true => some above
  | false, false => none

/-- Moves trailing zeros of the digits into the exponent; `fuel` bounds the steps. -/
def stripZeros : Nat → Dec → Dec
  | 0, d => d
  | fuel + 1, d =>
    if d.digits ≠ 0 ∧ d.digits % 10 = 0 then stripZeros fuel ⟨d.digits / 10, d.exp + 1⟩ else d

/-- The exact decimal value of `m · 2^q`, for the case no grid had a hit. -/
def exactDec (x : Binary) : Dec :=
  if x.q ≥ 0 then ⟨x.m * 2 ^ x.q.toNat, 0⟩
  else ⟨x.m * 5 ^ (-x.q).toNat, x.q⟩

/-- The fewest digits among the decimals that read back as `x`, the nearest of
those; `x` is not zero. -/
def shortest (f : Format) (x : Binary) : Dec :=
  let lead := x.leadExponent
  let grids := (List.range f.maxDigits).map (fun n : Nat => lead - (n : Int))
  match grids.findSome? x.pickOnGrid with
  | some d => stripZeros (digitCount d.digits) d
  | none => stripZeros (digitCount (exactDec x).digits) (exactDec x)

end Binary

end CilBind.Floating
