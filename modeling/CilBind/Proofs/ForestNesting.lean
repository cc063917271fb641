import CilBind.Proofs.ForestSubtree

/-!
# `CilBind.Proofs.ForestNesting`: the subtrees of a built forest are well nested

The subtree of a packet `p` is the set of packets below it through operand
edges (`Forest.Desc p`). In a forest the builder makes, subtrees occupy the body
the way nested expressions do (`Forest.SubtreeNested`):

* the listing `postOrder p` holds the subtree in strictly increasing packet
  order, and so in offset order when the body is in offset order;
* of two operands of `p`, the earlier one's subtree lies wholly below the
  later one's;
* a packet that lies between the lowest packet of the subtree and `p` but is
  not in it is a statement that stays a root, or a value taken by a packet that
  is outside the subtree and lies between it and `p`;
* a `dup` in that span copies no value from below the subtree.

## How the proof goes

Everything rests on one fact about the builder beside the shape `Forest.Wf`:
each packet takes the topmost value packets of the stack, so a value packet
that lies above one of its operands and that nothing has taken yet is taken by
it too (`Forest.TakesTopmost`). `takeValues_fst_above` proves this of one split
of a decreasing stack, and `build_induction` carries it through the run, beside
the shape that `step_wf` keeps.

The path from `p` down to a packet `s` of its subtree crosses every point `d`
between them: some packet `r` at or above `d` on the path has an operand `c`
below `d` on it (`Desc.crossing`). If a value packet `q` at that point were
still untaken when `r` was made, `r` would have taken it too; so a value packet
inside the span and outside the subtree was taken before `p`
(`Wf.takenBefore_of_between`). The other statements follow from that one and
from every packet having at most one consumer (`Wf.parent_unique`).
-/

set_option autoImplicit false

namespace CilBind

namespace Instruction

/-- Marking the token resolved keeps the offset. -/
theorem touchCounts_offset (i : Instruction) : i.touchCounts.offset = i.offset := by
  unfold touchCounts
  split
  · split <;> rfl
  · rfl

end Instruction

namespace Forest

/-! ### Each packet takes the topmost value packets -/

/-- On a stack whose packets decrease from the top, a value packet that lies
above a packet `takeValues` takes is taken too. -/
theorem takeValues_fst_above (g : Nat → Bool) {n : Nat} {s : List Nat}
    (hs : s.Pairwise (· > ·)) {x y : Nat} (hx : x ∈ (takeValues g n s).1) (hy : y ∈ s)
    (hxy : x < y) (hg : g y = true) : y ∈ (takeValues g n s).1 := by
  fun_induction takeValues g n s with
  | case1 s => simp at hx
  | case2 n => simp at hy
  | case3 n z s hz t r heq ih =>
    rw [heq] at ih
    simp only [List.mem_cons] at hx hy ⊢
    rcases hy with rfl | hy
    · exact Or.inl rfl
    · -- `y` lies below the top `z`, so `x`, lower still, is not `z`.
      have hyz : y < z := List.rel_of_pairwise_cons hs hy
      rcases hx with rfl | hx
      · omega
      · exact Or.inr (ih hs.of_cons hx hy)
  | case4 n z s hz t r heq ih =>
    rw [heq] at ih
    rcases List.mem_cons.mp hy with rfl | hy
    · simp [hz] at hg
    · exact ih hs.of_cons hx hy

/-- Every packet took the topmost value packets: a value packet that lies
between one of its operands and itself, and that no earlier packet took, is an
operand of it too. -/
def TakesTopmost (f : Forest) : Prop :=
  ∀ r c q, c ∈ f.childrenOf r → c < q → q < r → isValue f.packets q = true →
    ¬ f.TakenBefore r q → q ∈ f.childrenOf r

/-- Pushing a packet keeps the property when the new packet takes the topmost
value packets itself; the older packets only mention older ones. -/
theorem TakesTopmost.push {packets : Array Packet} {roots roots' : List Nat} {pk : Packet}
    (ht : (⟨packets, roots⟩ : Forest).TakesTopmost)
    (hpk : ∀ c q, c ∈ pk.children → c < q → q < packets.size → isValue packets q = true →
      ¬ (⟨packets, roots⟩ : Forest).TakenBefore packets.size q → q ∈ pk.children) :
    (⟨packets.push pk, roots'⟩ : Forest).TakesTopmost := by
  have hagree : (⟨packets, roots⟩ : Forest).AgreeBelow ⟨packets.push pk, roots'⟩ packets.size :=
    AgreeBelow.push ⟨packets, roots⟩ pk roots'
  intro r c q hc hcq hqr hq hfree
  rcases Nat.lt_trichotomy r packets.size with hr | rfl | hr
  · have hget := hagree r hr
    have hmono := hagree.mono hr.le
    have hc' : c ∈ (⟨packets, roots⟩ : Forest).childrenOf r := by
      simpa only [childrenOf, hget] using hc
    have hq' : isValue packets q = true := by
      rwa [← hmono.isValue_eq hqr] at hq
    have := ht r c q hc' hcq hqr hq' (fun h => hfree (hmono.takenBefore_iff.mp h))
    simpa only [childrenOf, hget] using this
  · have hnew : (⟨packets.push pk, roots'⟩ : Forest).childrenOf packets.size = pk.children := by
      simp [childrenOf, get?]
    rw [hnew] at hc ⊢
    exact hpk c q hc hcq hqr (by rwa [← hagree.isValue_eq hqr] at hq)
      (fun h => hfree (hagree.takenBefore_iff.mp h))
  · rw [childrenOf_eq_nil (by simp; omega)] at hc
    cases hc

/-- One step of the builder keeps the property. -/
theorem step_takesTopmost {rv : Bool} {pre : List Instruction} {i : Instruction}
    {packets : Array Packet} {stack : List Nat} {acc' : Array Packet × List Nat}
    (hw : (⟨packets, stack.reverse⟩ : Forest).Wf rv pre)
    (ht : (⟨packets, stack.reverse⟩ : Forest).TakesTopmost)
    (h : step rv (packets, stack) i = .ok acc') :
    (⟨acc'.1, acc'.2.reverse⟩ : Forest).TakesTopmost := by
  rcases step_eq_ok h with ⟨-, top, -, rfl⟩ | ⟨-, needed, pushes, -, -, -, rfl⟩
  · -- A `dup` takes nothing.
    exact ht.push (by simp)
  · refine ht.push fun c q hc hcq hq hqv hfree => ?_
    -- An untaken packet is still on the stack, above the taken `c`.
    have hqs : q ∈ stack := hw.mem_stack_iff.mpr ⟨hq, hfree⟩
    exact List.mem_reverse.mpr
      (takeValues_fst_above _ hw.stack_desc (List.mem_reverse.mp hc) hqs hcq hqv)

/-- A property of the forest being built that every step keeps, from a forest of
the shape the builder makes, holds of the forest the builder ends with. -/
theorem build_induction {rv : Bool} (I : Forest → Prop) (hempty : I ⟨#[], []⟩)
    (hstep : ∀ {pre : List Instruction} {i : Instruction} {packets : Array Packet}
      {stack : List Nat} {acc' : Array Packet × List Nat},
      (⟨packets, stack.reverse⟩ : Forest).Wf rv pre → I ⟨packets, stack.reverse⟩ →
      step rv (packets, stack) i = .ok acc' → I ⟨acc'.1, acc'.2.reverse⟩)
    {is : List Instruction} {f : Forest} (h : build rv is = .ok f) : I f := by
  -- The run from any stack of the right shape, with the shape carried along.
  have run : ∀ (is pre : List Instruction) (packets : Array Packet) (stack : List Nat)
      (acc' : Array Packet × List Nat),
      (⟨packets, stack.reverse⟩ : Forest).Wf rv pre → I ⟨packets, stack.reverse⟩ →
      is.foldlM (step rv) (packets, stack) = .ok acc' → I ⟨acc'.1, acc'.2.reverse⟩ := by
    intro is
    induction is with
    | nil =>
      intro pre packets stack acc' _ hi h
      simp only [List.foldlM_nil, Except.pure_eq_ok] at h
      subst h
      exact hi
    | cons i is ih =>
      intro pre packets stack acc' hw hi h
      rw [List.foldlM_cons] at h
      obtain ⟨⟨packets₁, stack₁⟩, hs, hrest⟩ := Except.bind_eq_ok.mp h
      exact ih _ _ _ _ (step_wf hw hs) (hstep hw hi hs) hrest
  unfold build at h
  obtain ⟨⟨packets, stack⟩, hfold, hf⟩ := Except.bind_eq_ok.mp h
  simp only [Except.pure_eq_ok] at hf
  subst hf
  exact run is [] #[] [] _ (wf_empty rv) hempty hfold

/-- Every packet the builder makes takes its operands from the top of the stack. -/
theorem build_takesTopmost {rv : Bool} {is : List Instruction} {f : Forest}
    (h : build rv is = .ok f) : f.TakesTopmost := by
  refine build_induction TakesTopmost ?_ (fun hw ht hs => step_takesTopmost hw ht hs) h
  intro r c q hc
  simp [childrenOf, get?] at hc

/-! ### Paths through a subtree -/

/-- The path from `p` down to `s` crosses every point `d` between them: a packet
`r` at or above `d` on it has an operand `c` below `d` on it. -/
theorem Desc.crossing {f : Forest} {p s d : Nat} (h : f.Desc p s) (hsd : s < d) (hdp : d ≤ p) :
    ∃ r c, f.Desc p r ∧ c ∈ f.childrenOf r ∧ f.Desc c s ∧ c < d ∧ d ≤ r := by
  induction h with
  | refl => omega
  | @child a c s hc hd ih =>
    by_cases hcd : c < d
    · exact ⟨a, c, .refl a, hc, hd, hcd, hdp⟩
    · obtain ⟨r, c', hr, hc', hs, hlt, hle⟩ := ih hsd (by omega)
      exact ⟨r, c', .child hc hr, hc', hs, hlt, hle⟩

/-- Whatever the fuel, the listing of a subtree holds only packets of it. -/
theorem desc_of_mem_postOrderFuel {f : Forest} :
    ∀ {fuel a q : Nat}, q ∈ f.postOrderFuel fuel a → f.Desc a q
  | 0, _, _, h => by simp [postOrderFuel] at h
  | fuel + 1, a, q, h => by
    rw [postOrderFuel, List.mem_append, List.mem_flatMap, List.mem_singleton] at h
    rcases h with ⟨c, hc, hq⟩ | rfl
    · exact .child hc (desc_of_mem_postOrderFuel hq)
    · exact .refl q

/-- A packet without operands has itself as its whole subtree. -/
theorem Desc.eq_of_childrenOf_nil {f : Forest} {p q : Nat} (h : f.Desc p q)
    (hnil : f.childrenOf p = []) : q = p := by
  cases h with
  | refl => rfl
  | child hc _ => simp [hnil] at hc

namespace Wf

variable {f : Forest} {rv : Bool} {is : List Instruction}

/-- A packet's operands are in increasing order. -/
theorem childrenOf_sorted (hw : f.Wf rv is) (p : Nat) : (f.childrenOf p).Pairwise (· < ·) := by
  by_cases hp : p < is.length
  · obtain ⟨pk, hget, hpw⟩ := hw.packet p is[p] (List.getElem?_eq_getElem hp)
    simp only [childrenOf, hget]
    exact hpw.sorted
  · rw [childrenOf_eq_nil (by rw [hw.size]; omega)]
    exact List.Pairwise.nil

/-- A packet that copies another is a `dup`: it has no operands and copies the
most recent value packet not taken yet. -/
theorem topValueAt_of_dupOf (hw : f.Wf rv is) {d q : Nat} {pd : Packet}
    (hd : f.get? d = some pd) (hq : pd.dupOf = some q) : pd.children = [] ∧ f.TopValueAt d q := by
  have hlt : d < is.length := by
    rw [← hw.size]
    exact (Array.getElem?_eq_some_iff.mp hd).1
  obtain ⟨pk, hget, hpw⟩ := hw.packet d is[d] (List.getElem?_eq_getElem hlt)
  rw [hd, Option.some.injEq] at hget
  subst hget
  have harity := hpw.arity
  split at harity
  · obtain ⟨hnil, q', hq', htop⟩ := harity
    rw [hq, Option.some.injEq] at hq'
    subst hq'
    exact ⟨hnil, htop⟩
  · rw [hq] at harity
    cases harity.2

/-- Packets are laid out in the order of their instructions' offsets when the
body is. -/
theorem offset_lt (hw : f.Wf rv is) (hsorted : is.Pairwise (fun a b => a.offset < b.offset))
    {a b : Nat} {pa pb : Packet} (ha : f.get? a = some pa) (hb : f.get? b = some pb)
    (hab : a < b) : pa.instr.offset < pb.instr.offset := by
  have hb' : b < is.length := by
    rw [← hw.size]
    exact (Array.getElem?_eq_some_iff.mp hb).1
  obtain ⟨pa', ha', hpa⟩ := hw.packet a is[a] (List.getElem?_eq_getElem (by omega))
  obtain ⟨pb', hb'', hpb⟩ := hw.packet b is[b] (List.getElem?_eq_getElem hb')
  rw [ha, Option.some.injEq] at ha'
  rw [hb, Option.some.injEq] at hb''
  subst ha' hb''
  rw [hpa.instr, hpb.instr, Instruction.touchCounts_offset, Instruction.touchCounts_offset]
  exact List.pairwise_iff_getElem.mp hsorted a b (by omega) hb' hab

section Nesting

variable (hw : f.Wf rv is) (ht : f.TakesTopmost)
include hw ht

/-- A value packet between the bottom of a subtree and its root that is not in
the subtree was taken before the root: the packet of the subtree whose operand
edge crosses it would otherwise have taken it too. -/
theorem takenBefore_of_between {p s q : Nat} (hs : f.Desc p s) (hsq : s < q) (hqp : q < p)
    (hq : ¬ f.Desc p q) (hv : isValue f.packets q = true) : f.TakenBefore p q := by
  obtain ⟨r, c, hr, hc, -, hcq, hqr⟩ := hs.crossing hsq hqp.le
  have hrp : r ≤ p := hw.desc_le hr
  have hqr' : q < r := lt_of_le_of_ne hqr fun e => hq (e ▸ hr)
  by_contra hfree
  have hnot : ¬ f.TakenBefore r q := fun ⟨r', hr', hq'⟩ => hfree ⟨r', by omega, hq'⟩
  exact hq (hr.tail (ht r c q hc hcq hqr' hv hnot))

/-- What lies in the span of a subtree but outside it: a statement that stays a
root, or a value that a packet outside the subtree takes before the root. -/
theorem between_cases {p s q : Nat} (hs : f.Desc p s) (hsq : s < q) (hqp : q < p)
    (hq : ¬ f.Desc p q) :
    (isValue f.packets q = false ∧ q ∈ f.roots) ∨
      (∃ r, q ∈ f.childrenOf r ∧ ¬ f.Desc p r ∧ q < r ∧ r < p) := by
  cases hv : isValue f.packets q with
  | false =>
    refine Or.inl ⟨rfl, hw.mem_roots_iff.mpr ⟨?_, fun ho => ?_⟩⟩
    · -- `q` lies below a packet that has an operand, so it is a packet.
      obtain ⟨r, c, -, hc, -, -, hqr⟩ := hs.crossing hsq hqp.le
      have := lt_size_of_mem_childrenOf hc
      rw [hw.size] at this
      omega
    · -- Only value packets are operands.
      obtain ⟨r, hr⟩ := mem_operands.mp ho
      rw [(hw.child_lt hr).2] at hv
      cases hv
  | true =>
    obtain ⟨r, hr, hqr⟩ := hw.takenBefore_of_between ht hs hsq hqp hq hv
    exact Or.inr ⟨r, hqr, fun hd => hq (hd.tail hqr), (hw.child_lt hqr).1, hr⟩

/-- The subtrees of two operands do not interleave: the earlier operand's lies
wholly below the later one's. -/
theorem sibling_lt {p c₁ c₂ x y : Nat} (h₁ : c₁ ∈ f.childrenOf p) (h₂ : c₂ ∈ f.childrenOf p)
    (hlt : c₁ < c₂) (hx : f.Desc c₁ x) (hy : f.Desc c₂ y) : x < y := by
  have hxc := hw.desc_le hx
  have hcp := (hw.child_lt h₂).1
  -- `c₁` is taken by `p` only, which lies above `c₂`.
  have hout : ¬ f.Desc c₂ c₁ := by
    intro hd
    obtain ⟨r, hr, hc⟩ := hd.exists_parent (by omega)
    have hrc := hw.desc_le hr
    rw [hw.parent_unique hc h₁] at hrc
    omega
  by_contra hyx
  have hyc : y < c₁ := lt_of_le_of_ne (by omega) fun e => hout (e ▸ hy)
  -- Lying inside the span of `c₂`'s subtree, `c₁` would be taken before `c₂`.
  obtain ⟨r, hr, hc⟩ := hw.takenBefore_of_between ht hy hyc hlt hout (hw.child_lt h₁).2
  have := hw.parent_unique hc h₁
  omega

/-- Whatever the fuel, the listing of a subtree is in increasing packet order. -/
theorem postOrderFuel_sorted : ∀ (fuel a : Nat), (f.postOrderFuel fuel a).Pairwise (· < ·)
  | 0, _ => by simp [postOrderFuel]
  | fuel + 1, a => by
    rw [postOrderFuel, List.pairwise_append, List.pairwise_flatMap]
    refine ⟨⟨fun c _ => postOrderFuel_sorted fuel c, ?_⟩, List.pairwise_singleton _ _, ?_⟩
    · -- The operands' listings follow each other in operand order.
      exact (hw.childrenOf_sorted a).imp_of_mem fun h₁ h₂ hlt x hx y hy =>
        hw.sibling_lt ht h₁ h₂ hlt (desc_of_mem_postOrderFuel hx) (desc_of_mem_postOrderFuel hy)
    · intro x hx y hy
      rw [List.mem_singleton] at hy
      subst hy
      obtain ⟨c, hc, hx⟩ := List.mem_flatMap.mp hx
      exact lt_of_le_of_lt (hw.desc_le (desc_of_mem_postOrderFuel hx)) (hw.child_lt hc).1

end Nesting

/-- A `dup` inside the span of a subtree copies no value from below it: the
operand edge of the subtree that crosses the `dup` holds a value that is not
taken yet. -/
theorem dupOf_ge (hw : f.Wf rv is) {p s d q : Nat} {pd : Packet} (hs : f.Desc p s)
    (hsd : s < d) (hdp : d < p) (hd : f.get? d = some pd) (hq : pd.dupOf = some q) : s ≤ q := by
  obtain ⟨hnil, htop⟩ := hw.topValueAt_of_dupOf hd hq
  obtain ⟨r, c, -, hc, hcs, hcd, hdr⟩ := hs.crossing hsd hdp.le
  have hrd : r ≠ d := by
    rintro rfl
    simp [childrenOf, hd, hnil] at hc
  have hsc := hw.desc_le hcs
  by_contra hqs
  obtain ⟨r', hr', hc'⟩ := htop.2.2.2 c (by omega) hcd (hw.child_lt hc).2
  have := hw.parent_unique hc' hc
  omega

/-- The listing of any packet holds exactly its subtree. -/
theorem mem_postOrder_iff (hw : f.Wf rv is) (p q : Nat) : q ∈ f.postOrder p ↔ f.Desc p q := by
  by_cases hp : p < f.packets.size
  · exact hw.mem_postOrder hp
  · -- No packet: the listing is `p` alone, and so is the subtree.
    have hnil : f.childrenOf p = [] := childrenOf_eq_nil (by omega)
    refine ⟨desc_of_mem_postOrderFuel, fun hd => ?_⟩
    rw [hd.eq_of_childrenOf_nil hnil, postOrder, postOrderFuel]
    simp

end Wf

/-- How the subtree of packet `p` sits among the packets of a forest built from
the body `is`; the subtree is the set of packets `f.Desc p`. -/
structure SubtreeNested (f : Forest) (is : List Instruction) (p : Nat) : Prop where
  /-- The listing of the subtree holds exactly its packets, -/
  mem_postOrder : ∀ q, q ∈ f.postOrder p ↔ f.Desc p q
  /-- in strictly increasing packet order, -/
  postOrder_sorted : (f.postOrder p).Pairwise (· < ·)
  /-- and so in offset order when the body is. -/
  postOrder_offsets : is.Pairwise (fun a b => a.offset < b.offset) →
    (f.postOrder p).Pairwise fun a b =>
      ∀ pa pb, f.get? a = some pa → f.get? b = some pb → pa.instr.offset < pb.instr.offset
  /-- Of two operands of `p`, the earlier one's subtree lies wholly below the
  later one's. -/
  siblings : ∀ c₁ c₂, c₁ ∈ f.childrenOf p → c₂ ∈ f.childrenOf p → c₁ < c₂ →
    ∀ x y, f.Desc c₁ x → f.Desc c₂ y → x < y
  /-- A packet above some packet of the subtree and below `p`, but not in the
  subtree, is a statement that stays a root, or is taken by a packet outside
  the subtree that lies between it and `p`. -/
  between : ∀ s q, f.Desc p s → s < q → q < p → ¬ f.Desc p q →
    (isValue f.packets q = false ∧ q ∈ f.roots) ∨
      (∃ r, q ∈ f.childrenOf r ∧ ¬ f.Desc p r ∧ q < r ∧ r < p)
  /-- A `dup` above some packet of the subtree and below `p` copies no value
  from below that packet. -/
  dup_inside : ∀ s d pd q, f.Desc p s → s < d → d < p → f.get? d = some pd →
    pd.dupOf = some q → s ≤ q

/-- **Subtrees nest.** In every forest the builder makes, the listing of a
packet's subtree holds exactly its packets, in increasing order and in offset
order; the subtrees of two operands lie one below the other; a packet between
the subtree and its root that is not in it is a statement left as a root or is
taken outside; and a `dup` there copies nothing from below the subtree. -/
theorem build_subtrees_nested {rv : Bool} {is : List Instruction} {f : Forest}
    (h : build rv is = .ok f) (p : Nat) : f.SubtreeNested is p := by
  have hw := build_wf h
  have ht := build_takesTopmost h
  have hsorted : (f.postOrder p).Pairwise (· < ·) := hw.postOrderFuel_sorted ht _ p
  exact {
    mem_postOrder := hw.mem_postOrder_iff p
    postOrder_sorted := hsorted
    postOrder_offsets := fun hoff =>
      hsorted.imp_of_mem fun _ _ hab _ _ ha hb => hw.offset_lt hoff ha hb hab
    siblings := fun _ _ h₁ h₂ hlt _ _ hx hy => hw.sibling_lt ht h₁ h₂ hlt hx hy
    between := fun _ _ hs hsq hqp hq => hw.between_cases ht hs hsq hqp hq
    dup_inside := fun _ _ _ _ hs hsd hdp hd hq => hw.dupOf_ge hs hsd hdp hd hq }

/-- A body with a statement inside the span of an expression: `ldc.i4.1`, then
`ldc.i4.5` stored to a local, then `ldarg.0`, their sum, a copy of the sum that
is dropped, and `ret` of the sum. -/
def spanBody : List Instruction :=
  [⟨0, .ldc_i4_1, .none⟩, ⟨1, .ldc_i4_5, .none⟩, ⟨2, .stloc_0, .none⟩, ⟨3, .ldarg_0, .none⟩,
    ⟨4, .add, .none⟩, ⟨5, .dup, .none⟩, ⟨6, .pop, .none⟩, ⟨7, .ret, .none⟩]

/-- Every subtree of the forest of `spanBody` nests. -/
theorem build_spanBody_nested :
    ∃ f, build true spanBody = .ok f ∧ ∀ p, f.SubtreeNested spanBody p := by
  have hf : build true spanBody = .ok _ := rfl
  exact ⟨_, hf, build_subtrees_nested hf⟩

end Forest

end CilBind
