import CilBind.Meta.Decimal

/-!
# `CilBind.Meta.Default`: declared defaults of optional parameters

An optional parameter declares its default as null, a boolean, an integer of a
stated width, a 32- or 64-bit float or a decimal. An integer width says how a
64-bit constant is read back: its low bits, taken signed or unsigned.
-/

set_option autoImplicit false

namespace CilBind

/-- Width and signedness of an integral constant. -/
inductive IntWidth where
  | i8 | u8 | i16 | u16 | char | i32 | u32 | i64 | u64
  deriving DecidableEq, Repr

namespace IntWidth

-- Powers are core's natural-number powers (literal exponents are written at type
-- `Nat`), also where another `Pow` instance is in scope.
attribute [local instance (high)] instPowNat

/-- Every width. -/
def all : List IntWidth := [i8, u8, i16, u16, char, i32, u32, i64, u64]

/-- The short name (`I8`, `Char`, …). -/
def tag : IntWidth → String
  | i8 => "I8" | u8 => "U8" | i16 => "I16" | u16 => "U16" | char => "Char"
  | i32 => "I32" | u32 => "U32" | i64 => "I64" | u64 => "U64"

/-- The width with the given short name. -/
def ofTag? (s : String) : Option IntWidth := all.find? (fun w => w.tag = s)

/-- The number of bits kept. -/
def bits : IntWidth → Nat
  | i8 | u8 => 8
  | i16 | u16 | char => 16
  | i32 | u32 => 32
  | i64 | u64 => 64

/-- Whether the kept bits are read as a two's complement number. -/
def signed : IntWidth → Bool
  | i8 | i16 | i32 | i64 => true
  | _ => false

/-- The low `bits` bits of `raw`, read back signed or unsigned. -/
def normalize (w : IntWidth) (raw : Int) : Int :=
  let m := raw % (2 ^ w.bits : Nat)
  if w.signed && m ≥ (2 ^ (w.bits - 1) : Nat) then m - (2 ^ w.bits : Nat) else m

end IntWidth

/-- The declared default of an optional parameter. -/
inductive DefaultValue where
  | null
  | bool (b : Bool)
  | int (value : Int) (width : IntWidth)
  | f32 (x : Float32)
  | f64 (x : Float)
  | decimal (d : Decimal)

end CilBind
