import CilBind.Proofs.SynthesisSafety

/-!
# `CilBind.Proofs.ArgumentSlots`: where the arguments of a factory land in its routine

A synthesized routine takes the factory's target when the factory has one, then
the resolution context, then the factory's own parameters. `Layout.remap` gives
an argument of the factory body its slot in the routine: the target keeps slot
`0`, and every other argument moves one place up, past the context.

`remap_order_bijection` says three things.

* Whenever the routine's arguments can all be numbered in sixteen bits, `remap`
  takes the body's arguments, in order, onto the routine's slots other than the
  context, and has no slot for a number past them (`Layout.RemapsInOrder`).
* The list a bound routine is run on (`Layout.invokeArgs`, what `Run.invoke`
  builds) has one value per slot, and the context at the context's slot.
* Every operation of a synthesized routine that names an argument names one of
  those slots other than the context, and no replayed instruction names an
  argument at all (`RoutineOp.Within`).

## How the proof goes

Below the body's argument count, `remap` is one formula (`remap_of_lt`): `0` for
the target and the successor for everything else. The sixteen-bit bound is what
keeps the successor from being refused as too large. Order and range follow by
arithmetic, with `Layout.bodyIndexOf` inverting the formula on the slots other
than the context. The operations of a synthesized routine were shown to stay
within the layout on the way to their stack safety (`synthesize_checked`).
-/

set_option autoImplicit false

namespace CilBind

namespace Layout

/-- The arguments of the factory body: its parameters, and its target when it has
one. -/
def bodyArgCount (l : Layout) : Nat := l.params.length + if l.hasThis then 1 else 0

/-- The routine has one argument more than the body: the context. -/
theorem argCount_eq (l : Layout) : l.argCount = l.bodyArgCount + 1 := by
  unfold argCount bodyArgCount
  omega

/-- The argument of the factory body that `remap` takes to slot `n`. -/
def bodyIndexOf (l : Layout) (n : Nat) : Nat := if l.hasThis ∧ n = 0 then 0 else n - 1

/-- `remap` takes the arguments of the factory body, in order, onto the routine's
slots other than the context, one slot each, and has no slot for anything else. -/
structure RemapsInOrder (l : Layout) : Prop where
  /-- Every argument of the body has a slot. -/
  total : ∀ k < l.bodyArgCount, ∃ n, l.remap k = some n
  /-- A later argument has a later slot. -/
  strictMono : ∀ j k a b, j < k → l.remap j = some a → l.remap k = some b → a < b
  /-- The slots given out are the routine's arguments other than the context. -/
  range : ∀ n, (n < l.argCount ∧ n ≠ l.contextIndex) ↔ ∃ k < l.bodyArgCount, l.remap k = some n
  /-- A number past the body's arguments has no slot. -/
  none_of_le : ∀ k, l.bodyArgCount ≤ k → l.remap k = none

/-- A number past the body's arguments has no slot. -/
theorem remap_of_le {l : Layout} {k : Nat} (hk : l.bodyArgCount ≤ k) : l.remap k = none :=
  if_pos hk

/-- The slot of a body argument: `0` for the target, the next number for every
other argument. -/
theorem remap_of_lt {l : Layout} (hl : l.argCount ≤ 65536) {k : Nat} (hk : k < l.bodyArgCount) :
    l.remap k = some (if l.hasThis ∧ k = 0 then 0 else k + 1) := by
  -- The successor stays below `2 ^ 16`, since the context takes a slot above it.
  have hsucc : k + 1 < 65536 := by
    rw [argCount_eq] at hl
    omega
  unfold bodyArgCount at hk
  unfold remap
  rw [if_neg (show ¬ (k ≥ l.params.length + if l.hasThis then 1 else 0) by omega)]
  cases hthis : l.hasThis <;> by_cases hk0 : k = 0 <;> simp [hk0, hsucc]

/-- Every slot of the routine other than the context is the slot of a body
argument. -/
theorem remap_bodyIndexOf {l : Layout} (hl : l.argCount ≤ 65536) {n : Nat} (hn : n < l.argCount)
    (hne : n ≠ l.contextIndex) :
    l.bodyIndexOf n < l.bodyArgCount ∧ l.remap (l.bodyIndexOf n) = some n := by
  unfold argCount at hn
  unfold contextIndex at hne
  have hk : l.bodyIndexOf n < l.bodyArgCount := by
    unfold bodyIndexOf bodyArgCount
    cases hthis : l.hasThis <;> simp only [hthis] at hn hne ⊢ <;> grind
  refine ⟨hk, ?_⟩
  rw [remap_of_lt hl hk]
  unfold bodyIndexOf
  cases hthis : l.hasThis <;> simp only [hthis] at hne ⊢ <;> grind

/-- With at most `2 ^ 16` arguments, `remap` takes the body's arguments in order
onto the routine's slots other than the context. -/
theorem remapsInOrder {l : Layout} (hl : l.argCount ≤ 65536) : l.RemapsInOrder where
  total k hk := ⟨_, remap_of_lt hl hk⟩
  strictMono j k a b hjk ha hb := by
    -- Only the body's arguments have slots, so both are below its count.
    have hk : k < l.bodyArgCount := Nat.lt_of_not_le fun h => by simp [remap_of_le h] at hb
    rw [remap_of_lt hl (by omega), Option.some.injEq] at ha
    rw [remap_of_lt hl hk, Option.some.injEq] at hb
    subst ha hb
    split <;> split <;> omega
  range n := by
    constructor
    · rintro ⟨hn, hne⟩
      exact ⟨l.bodyIndexOf n, remap_bodyIndexOf hl hn hne⟩
    · rintro ⟨k, -, h⟩
      exact ⟨remap_lt h, remap_ne_context h⟩
  none_of_le _ := remap_of_le

/-- A bound routine runs on one value per slot, when its own arguments are as many
as the factory's parameters. -/
theorem length_invokeArgs (l : Layout) (target : Option Value) (context : Value)
    {args : List Value} (h : args.length = l.params.length) :
    (l.invokeArgs target context args).length = l.argCount := by
  unfold invokeArgs argCount
  cases l.hasThis <;> simp [h]

/-- The context lands in the context's slot. -/
theorem invokeArgs_context (l : Layout) (target : Option Value) (context : Value)
    (args : List Value) : (l.invokeArgs target context args)[l.contextIndex]? = some context := by
  unfold invokeArgs contextIndex
  cases l.hasThis <;> rfl

end Layout

/-- **Argument remapping is an order-preserving bijection.** With at most `2 ^ 16`
arguments, `remap` takes the body's arguments in order onto the routine's slots
other than the context, and has none for larger numbers; the arguments a bound
routine runs on fill those slots with the context at its own; and every argument
a synthesized routine names is such a slot, never the context, while no replayed
instruction names one. -/
theorem remap_order_bijection :
    (∀ l : Layout, l.argCount ≤ 65536 → l.RemapsInOrder) ∧
    (∀ (l : Layout) (target : Option Value) (context : Value) (args : List Value),
      args.length = l.params.length →
      (l.invokeArgs target context args).length = l.argCount ∧
        (l.invokeArgs target context args)[l.contextIndex]? = some context) ∧
    (∀ (opts : SynthesisOptions) (d : FactoryDefinition) (r : Routine),
      synthesize opts d = .ok r → ∀ op ∈ r.ops, op.Within r.layout) := by
  refine ⟨fun l hl => Layout.remapsInOrder hl, fun l target context args h => ?_,
    fun opts d r h => (synthesize_checked h).within⟩
  exact ⟨l.length_invokeArgs target context h, l.invokeArgs_context target context args⟩

/-- A closure layout with two parameters: the target keeps slot `0`, the context
takes slot `1`, and the parameters move to `2` and `3`. -/
def pairClosureLayout : Layout :=
  ⟨true, [⟨"name", .string, none⟩, ⟨"count", .primitive .i4, some (.int 1 .i32)⟩]⟩

/-- `pairClosureLayout` is small enough for its arguments to be remapped in order. -/
theorem pairClosureLayout_remaps :
    pairClosureLayout.argCount ≤ 65536 ∧ pairClosureLayout.RemapsInOrder :=
  ⟨by decide, remap_order_bijection.1 pairClosureLayout (by decide)⟩

example : (List.range 4).map pairClosureLayout.remap = [some 0, some 2, some 3, none] := by
  decide

end CilBind
