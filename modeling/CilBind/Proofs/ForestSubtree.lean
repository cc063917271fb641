import CilBind.Proofs.ForestShape

/-!
# `CilBind.Proofs.ForestSubtree`: subtrees of a built forest

`Forest.postOrder` lists the subtree of a packet, operands first, with fuel that
bounds its depth. On a forest of the shape the builder makes (`Forest.Wf`) the
fuel never runs out: the subtree of `a` lists exactly the packets below `a`
through operand edges (`Forest.Desc`, `Wf.mem_postOrder`). Every packet is an
operand of at most one packet (`Wf.parent_unique`), and an operand has a
smaller number than its consumer (`Wf.child_lt`), so everything below `a` is at
most `a` (`Wf.desc_le`), and a packet strictly below `a` has its consumer below
`a` too (`Desc.exists_parent`).
-/

set_option autoImplicit false

namespace CilBind

namespace Forest

/-- `q` is `a` or lies below it through operand edges. -/
inductive Desc (f : Forest) : Nat → Nat → Prop
  | refl (a : Nat) : Desc f a a
  | child {a c q : Nat} : c ∈ f.childrenOf a → Desc f c q → Desc f a q

namespace Desc

variable {f : Forest}

/-- A descendant of a descendant is a descendant. -/
theorem trans {a b q : Nat} (h₁ : f.Desc a b) (h₂ : f.Desc b q) : f.Desc a q := by
  induction h₁ with
  | refl => exact h₂
  | child hc _ ih => exact .child hc (ih h₂)

/-- One more operand edge at the bottom. -/
theorem tail {a p c : Nat} (h : f.Desc a p) (hc : c ∈ f.childrenOf p) : f.Desc a c :=
  h.trans (.child hc (.refl c))

/-- A packet strictly below `a` is an operand of a packet at or below `a`. -/
theorem exists_parent {a q : Nat} (h : f.Desc a q) (hne : q ≠ a) :
    ∃ p, f.Desc a p ∧ q ∈ f.childrenOf p := by
  induction h with
  | refl => exact absurd rfl hne
  | @child a c q hc hd ih =>
    by_cases hqc : q = c
    · subst hqc
      exact ⟨a, .refl a, hc⟩
    · obtain ⟨p, hp, hq⟩ := ih hqc
      exact ⟨p, .child hc hp, hq⟩

end Desc

/-- Whether a packet below `p` takes `q` can be computed. -/
instance (f : Forest) (p q : Nat) : Decidable (f.TakenBefore p q) := by
  unfold TakenBefore
  infer_instance

/-- What packet `k` takes is what is taken before `k + 1` and not before `k`. -/
theorem takenBefore_succ {f : Forest} {k q : Nat} :
    f.TakenBefore (k + 1) q ↔ f.TakenBefore k q ∨ q ∈ f.childrenOf k := by
  unfold TakenBefore
  constructor
  · rintro ⟨r, hr, hq⟩
    rcases Nat.lt_succ_iff_lt_or_eq.mp hr with hr | rfl
    · exact Or.inl ⟨r, hr, hq⟩
    · exact Or.inr hq
  · rintro (⟨r, hr, hq⟩ | hq)
    · exact ⟨r, by omega, hq⟩
    · exact ⟨k, by omega, hq⟩

/-- Only a packet that exists has operands. -/
theorem lt_size_of_mem_childrenOf {f : Forest} {p c : Nat} (hc : c ∈ f.childrenOf p) :
    p < f.packets.size := by
  by_contra hp
  rw [childrenOf_eq_nil (by omega)] at hc
  cases hc

namespace Wf

variable {f : Forest} {rv : Bool} {is : List Instruction}

/-- An operand is an earlier value packet. -/
theorem child_lt (hw : f.Wf rv is) {p c : Nat} (hc : c ∈ f.childrenOf p) :
    c < p ∧ isValue f.packets c = true := by
  by_cases hp : p < is.length
  · obtain ⟨pk, hget, hpw⟩ := hw.packet p is[p] (List.getElem?_eq_getElem hp)
    simp only [childrenOf, hget] at hc
    exact hpw.children c hc
  · rw [childrenOf_eq_nil (by rw [hw.size]; omega)] at hc
    cases hc

/-- A packet takes each operand once. -/
theorem childrenOf_nodup (hw : f.Wf rv is) (p : Nat) : (f.childrenOf p).Nodup := by
  by_cases hp : p < is.length
  · obtain ⟨pk, hget, hpw⟩ := hw.packet p is[p] (List.getElem?_eq_getElem hp)
    simp only [childrenOf, hget]
    exact hpw.sorted.nodup
  · rw [childrenOf_eq_nil (by rw [hw.size]; omega)]
    exact List.nodup_nil

/-- Everything below `a` is at most `a`. -/
theorem desc_le (hw : f.Wf rv is) {a q : Nat} (h : f.Desc a q) : q ≤ a := by
  induction h with
  | refl => exact Nat.le_refl _
  | child hc _ ih =>
    have := (hw.child_lt hc).1
    omega

/-- Every packet is an operand of at most one packet: the operand lists are
disjoint, as no number occurs twice among them. -/
theorem parent_unique (hw : f.Wf rv is) {p p' c : Nat} (hc : c ∈ f.childrenOf p)
    (hc' : c ∈ f.childrenOf p') : p = p' := by
  have hdisj := (List.nodup_flatMap.mp (List.nodup_append.mp hw.nodup).1).2
  rw [List.pairwise_iff_getElem] at hdisj
  -- Two different packets would hold `c` in two disjoint operand lists.
  have key : ∀ {r r'}, r < r' → c ∈ f.childrenOf r → c ∈ f.childrenOf r' → False := by
    intro r r' hrr' hr hr'
    have hr'lt := lt_size_of_mem_childrenOf hr'
    have hrlt : r < f.packets.size := by omega
    have hd := hdisj r r' (by simpa using hrlt) (by simpa using hr'lt) hrr'
    simp only [Function.onFun, Array.getElem_toList] at hd
    simp only [childrenOf, get?, Array.getElem?_eq_getElem hrlt,
      Array.getElem?_eq_getElem hr'lt] at hr hr'
    exact hd hr hr'
  rcases Nat.lt_trichotomy p p' with h | h | h
  · exact (key h hc hc').elim
  · exact h
  · exact (key h hc' hc).elim

/-- With fuel above `a`, the subtree of `a` lists exactly the packets below it. -/
theorem mem_postOrderFuel (hw : f.Wf rv is) (fuel : Nat) :
    ∀ {a q : Nat}, a < fuel → (q ∈ f.postOrderFuel fuel a ↔ f.Desc a q) := by
  induction fuel with
  | zero => exact fun h => absurd h (Nat.not_lt_zero _)
  | succ fuel ih =>
    intro a q ha
    -- Every operand of `a` is below `a`, so the fuel left covers it.
    have hfuel : ∀ c ∈ f.childrenOf a, c < fuel := fun c hc => by
      have := (hw.child_lt hc).1
      omega
    rw [postOrderFuel, List.mem_append, List.mem_flatMap, List.mem_singleton]
    constructor
    · rintro (⟨c, hc, hq⟩ | rfl)
      · exact .child hc ((ih (hfuel c hc)).mp hq)
      · exact .refl q
    · intro hd
      cases hd with
      | refl => exact Or.inr rfl
      | child hc hd' => exact Or.inl ⟨_, hc, (ih (hfuel _ hc)).mpr hd'⟩

/-- The subtree of a packet lists exactly the packets below it. -/
theorem mem_postOrder (hw : f.Wf rv is) {a q : Nat} (ha : a < f.packets.size) :
    q ∈ f.postOrder a ↔ f.Desc a q :=
  hw.mem_postOrderFuel _ (by omega)

end Wf

end Forest

end CilBind
