import CilBind.Meta.Member

/-!
# `CilBind.Routine.Layout`: the arguments of a synthesized routine

A synthesized routine takes the factory's target first when the factory has
one, then the resolution context, then the factory's own parameters. An
argument of the factory body keeps its place relative to the others: the target
stays first, and every other argument moves one place up to make room for the
context. An ordinal beyond the factory's arguments has no place, and neither
has one that would move past the last 16-bit ordinal.

Main statements:

* `remap_lt`: a remapped argument is an argument of the routine.
* `remap_ne_context`: no argument of the body lands on the context.
-/

set_option autoImplicit false

namespace CilBind

/-- The factory's target flag and parameters. -/
structure Layout where
  hasThis : Bool
  params : List ParamInfo

namespace Layout

-- Powers are core's natural-number powers (literal exponents are written at type
-- `Nat`), also where another `Pow` instance is in scope.
attribute [local instance (high)] instPowNat

/-- Where the resolution context sits: after the target if there is one. -/
def contextIndex (l : Layout) : Nat := if l.hasThis then 1 else 0

/-- How many arguments the routine takes. -/
def argCount (l : Layout) : Nat := l.params.length + 1 + if l.hasThis then 1 else 0

/-- The routine's ordinal of argument `bodyIndex` of the factory body. -/
def remap (l : Layout) (bodyIndex : Nat) : Option Nat :=
  if bodyIndex ≥ l.params.length + (if l.hasThis then 1 else 0) then none
  else if l.hasThis && bodyIndex = 0 then some 0
  else if bodyIndex + 1 < 2 ^ (16 : Nat) then some (bodyIndex + 1)
  else none

/-- Every slot `remap` gives is one of the routine's. -/
theorem remap_lt {l : Layout} {bodyIndex n : Nat} (h : l.remap bodyIndex = some n) :
    n < l.argCount := by
  unfold remap at h
  unfold argCount
  cases hb : l.hasThis <;> simp only [hb] at h ⊢ <;> grind

/-- No body argument lands in the context's slot. -/
theorem remap_ne_context {l : Layout} {bodyIndex n : Nat} (h : l.remap bodyIndex = some n) :
    n ≠ l.contextIndex := by
  unfold remap at h
  unfold contextIndex
  cases hb : l.hasThis <;> simp only [hb] at h ⊢ <;> grind

end Layout

end CilBind
