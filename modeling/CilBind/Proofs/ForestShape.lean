import CilBind.Proofs.Outcome
import CilBind.Tree.Builder

/-!
# `CilBind.Proofs.ForestShape`: the shape of every forest the builder makes

`Forest.build` replays a straight-line body over an abstract stack of packet
numbers, top first. A `dup` takes nothing and records the topmost value packet;
any other instruction takes the topmost value packets it pops, skipping the
value-less ones, which stay on the stack as statements. What is left at the end
are the roots. This module proves that a successful build always has the shape
the rest of the pipeline relies on, `Forest.Wf`:

* one packet per instruction, packet `p` holding instruction `p`;
* every packet number occurs exactly once among all operand lists and the
  roots (`Wf.perm`);
* the operands of a packet are earlier value packets, in increasing order, as
  many as the instruction pops; a `dup` has none and copies the most recent
  value packet not yet taken (`Forest.TopValueAt`);
* the roots are increasing and the last is the last instruction.

## How the proof goes

The invariant of the fold is `Wf` itself, of the forest made so far with the
stack read bottom to top as its roots (`build_wf`). The stack is then exactly
the set of packets no operand list holds, in decreasing order, and one step
(`step_wf`) keeps that: `takeValues` splits the stack into two sublists whose
union is the stack (`takeValues_perm`), so the operands taken are value packets
in decreasing order and the rest stays sorted under the new packet. What a
packet's properties mention are packets with smaller numbers, so pushing a new
packet keeps them (`PacketWf.congr`).
-/

set_option autoImplicit false

namespace CilBind

namespace Instruction

/-- Working out the stack counts changes only whether the token is resolved,
never what it names. -/
theorem touchCounts_opcode (i : Instruction) : i.touchCounts.opcode = i.opcode := by
  unfold touchCounts
  split
  · split <;> rfl
  · rfl

/-- A `dup` has no token to mark. -/
theorem touchCounts_of_dup {i : Instruction} (h : i.opcode = .dup) : i.touchCounts = i := by
  simp [touchCounts, countsTouchToken, h]

end Instruction

namespace Forest

/-! ### Splitting operands off the stack -/

section TakeValues

variable (g : Nat → Bool)

/-- The packets taken and the packets left are the whole stack. -/
theorem takeValues_perm (n : Nat) (s : List Nat) :
    ((takeValues g n s).1 ++ (takeValues g n s).2).Perm s := by
  fun_induction takeValues g n s with
  | case1 s => simp
  | case2 n => simp
  | case3 n x s hx t r heq ih =>
    rw [heq] at ih
    exact ih.cons x
  | case4 n x s hx t r heq ih =>
    rw [heq] at ih
    exact List.perm_middle.trans (ih.cons x)

/-- The packets taken keep their order on the stack. -/
theorem takeValues_fst_sublist (n : Nat) (s : List Nat) : (takeValues g n s).1.Sublist s := by
  fun_induction takeValues g n s with
  | case1 s => simp
  | case2 n => simp
  | case3 n x s hx t r heq ih =>
    rw [heq] at ih
    exact ih.cons_cons x
  | case4 n x s hx t r heq ih =>
    rw [heq] at ih
    exact ih.cons x

/-- The packets left keep their order on the stack. -/
theorem takeValues_snd_sublist (n : Nat) (s : List Nat) : (takeValues g n s).2.Sublist s := by
  fun_induction takeValues g n s with
  | case1 s => simp
  | case2 n => simp
  | case3 n x s hx t r heq ih =>
    rw [heq] at ih
    exact ih.cons x
  | case4 n x s hx t r heq ih =>
    rw [heq] at ih
    exact ih.cons_cons x

/-- Only value packets are taken. -/
theorem takeValues_fst_value (n : Nat) (s : List Nat) : ∀ x ∈ (takeValues g n s).1, g x := by
  fun_induction takeValues g n s with
  | case1 s => simp
  | case2 n => simp
  | case3 n x s hx t r heq ih =>
    rw [heq] at ih
    intro y hy
    rcases List.mem_cons.mp hy with rfl | hy
    · exact hx
    · exact ih y hy
  | case4 n x s hx t r heq ih =>
    rw [heq] at ih
    exact ih

/-- At most `n` packets are taken. -/
theorem takeValues_fst_length (n : Nat) (s : List Nat) : (takeValues g n s).1.length ≤ n := by
  fun_induction takeValues g n s with
  | case1 s => simp
  | case2 n => simp
  | case3 n x s hx t r heq ih =>
    rw [heq] at ih
    simp only [List.length_cons] at ih ⊢
    omega
  | case4 n x s hx t r heq ih =>
    rw [heq] at ih
    exact ih

end TakeValues

/-! ### The shape -/

/-- Every operand list, one packet after the other. -/
def operands (f : Forest) : List Nat := f.packets.toList.flatMap Packet.children

/-- Packet `q` is an operand of some packet made before packet `p`. -/
def TakenBefore (f : Forest) (p q : Nat) : Prop := ∃ r < p, q ∈ f.childrenOf r

/-- Packet `q` is what a `dup` made as packet `p` copies: the most recent value
packet before `p` that no packet before `p` has taken as an operand. -/
def TopValueAt (f : Forest) (p q : Nat) : Prop :=
  q < p ∧ isValue f.packets q ∧ ¬ f.TakenBefore p q ∧
    ∀ q', q < q' → q' < p → isValue f.packets q' → f.TakenBefore p q'

/-- What the builder guarantees of packet `p`, made from instruction `i`. Only
packets numbered below `p` are mentioned, so later packets never change it. -/
structure PacketWf (f : Forest) (returnsValue : Bool) (p : Nat) (i : Instruction) (pk : Packet) :
    Prop where
  /-- The packet holds its instruction, with the token its stack counts looked
  up marked resolved. -/
  instr : pk.instr = i.touchCounts
  /-- Its operands are earlier packets that leave a value. -/
  children : ∀ c ∈ pk.children, c < p ∧ isValue f.packets c
  /-- Its operands are in increasing order, the order they were pushed in. -/
  sorted : pk.children.Pairwise (· < ·)
  /-- A `dup` takes nothing and copies the topmost value; any other instruction
  takes as many operands as it pops, and copies nothing. -/
  arity : if i.opcode = .dup then pk.children = [] ∧ ∃ q, pk.dupOf = some q ∧ f.TopValueAt p q
    else i.stackPops returnsValue = .ok pk.children.length ∧ pk.dupOf = none
  /-- A `dup` leaves a value; any other instruction leaves one when it pushes any. -/
  value : if i.opcode = .dup then pk.hasValue = true
    else ∃ k, i.stackPushes = .ok k ∧ pk.hasValue = decide (0 < k)

/-- The shape of every forest the builder makes from the instructions `is`. -/
structure Wf (f : Forest) (returnsValue : Bool) (is : List Instruction) : Prop where
  /-- One packet per instruction. -/
  size : f.packets.size = is.length
  /-- Packet `p` is made from instruction `p`, with the guarantees of `PacketWf`. -/
  packet : ∀ p i, is[p]? = some i → ∃ pk, f.get? p = some pk ∧ f.PacketWf returnsValue p i pk
  /-- Every packet is an operand of exactly one packet or a root, and occurs
  exactly once. -/
  perm : (f.operands ++ f.roots).Perm (List.range is.length)
  /-- The roots are in the order their packets were made. -/
  roots_sorted : f.roots.Pairwise (· < ·)
  /-- The last root is the last instruction. -/
  last_root : is ≠ [] → f.roots.getLast? = some (is.length - 1)

/-! ### Packets below a bound -/

/-- Two forests whose packets agree below `n`. -/
def AgreeBelow (f f' : Forest) (n : Nat) : Prop := ∀ q < n, f.get? q = f'.get? q

/-- A new packet leaves the packets before it as they were. -/
theorem AgreeBelow.push (f : Forest) (pk : Packet) (roots : List Nat) :
    f.AgreeBelow ⟨f.packets.push pk, roots⟩ f.packets.size := by
  intro q hq
  simp [get?, Array.getElem?_push_lt hq]

/-- Forests that agree below `n` agree below every smaller bound. -/
theorem AgreeBelow.mono {f f' : Forest} {n n' : Nat} (h : f.AgreeBelow f' n) (hle : n' ≤ n) :
    f.AgreeBelow f' n' :=
  fun q hq => h q (by omega)

/-- Forests that agree below `n` agree on which packets below it have values. -/
theorem AgreeBelow.isValue_eq {f f' : Forest} {n q : Nat} (h : f.AgreeBelow f' n) (hq : q < n) :
    isValue f.packets q = isValue f'.packets q := by
  have hget := h q hq
  simp only [get?] at hget
  simp only [isValue, hget]

/-- Forests that agree below `p` agree on what the packets below `p` take. -/
theorem AgreeBelow.takenBefore_iff {f f' : Forest} {p q : Nat} (h : f.AgreeBelow f' p) :
    f.TakenBefore p q ↔ f'.TakenBefore p q := by
  unfold TakenBefore
  constructor
  · rintro ⟨r, hr, hq⟩
    exact ⟨r, hr, by simpa only [childrenOf, h r hr] using hq⟩
  · rintro ⟨r, hr, hq⟩
    exact ⟨r, hr, by simpa only [childrenOf, h r hr] using hq⟩

/-- Forests that agree below `p` have the same value on top at `p`. -/
theorem AgreeBelow.topValueAt {f f' : Forest} {p q : Nat} (h : f.AgreeBelow f' p)
    (ht : f.TopValueAt p q) : f'.TopValueAt p q := by
  obtain ⟨hlt, hval, hfree, hlater⟩ := ht
  refine ⟨hlt, ?_, ?_, ?_⟩
  · rwa [← h.isValue_eq hlt]
  · rwa [← h.takenBefore_iff]
  · intro q' h1 h2 hv
    rw [← h.isValue_eq h2] at hv
    exact h.takenBefore_iff.mp (hlater q' h1 h2 hv)

/-- A packet's guarantees mention only earlier packets. -/
theorem PacketWf.congr {f f' : Forest} {rv : Bool} {p : Nat} {i : Instruction} {pk : Packet}
    (h : f.AgreeBelow f' p) (hw : f.PacketWf rv p i pk) : f'.PacketWf rv p i pk := by
  obtain ⟨hinstr, hchildren, hsorted, harity, hvalue⟩ := hw
  refine ⟨hinstr, ?_, hsorted, ?_, hvalue⟩
  · intro c hc
    obtain ⟨hlt, hv⟩ := hchildren c hc
    exact ⟨hlt, by rwa [← h.isValue_eq hlt]⟩
  · split
    · rename_i hdup
      rw [if_pos hdup] at harity
      obtain ⟨hnil, q, hq, ht⟩ := harity
      exact ⟨hnil, q, hq, h.topValueAt ht⟩
    · rename_i hdup
      rwa [if_neg hdup] at harity

/-! ### What the shape says about the stack -/

/-- An operand is a child of some packet. -/
theorem mem_operands {f : Forest} {q : Nat} : q ∈ f.operands ↔ ∃ r, q ∈ f.childrenOf r := by
  simp only [operands, List.mem_flatMap, Array.mem_toList_iff, childrenOf, get?]
  constructor
  · rintro ⟨pk, hpk, hq⟩
    obtain ⟨r, hr⟩ := Array.getElem?_of_mem hpk
    exact ⟨r, by simpa [hr] using hq⟩
  · rintro ⟨r, hq⟩
    cases hr : f.packets[r]? with
    | none => simp [hr] at hq
    | some pk => exact ⟨pk, Array.mem_of_getElem? hr, by simpa [hr] using hq⟩

/-- A number past the forest has no children. -/
theorem childrenOf_eq_nil {f : Forest} {r : Nat} (h : f.packets.size ≤ r) : f.childrenOf r = [] := by
  simp [childrenOf, get?, Array.getElem?_eq_none h]

/-- The operands are the packets taken by some packet. -/
theorem mem_operands_iff_takenBefore {f : Forest} {q : Nat} :
    q ∈ f.operands ↔ f.TakenBefore f.packets.size q := by
  rw [mem_operands]
  constructor
  · rintro ⟨r, hq⟩
    by_cases hr : r < f.packets.size
    · exact ⟨r, hr, hq⟩
    · rw [childrenOf_eq_nil (by omega)] at hq
      simp at hq
  · rintro ⟨r, -, hq⟩
    exact ⟨r, hq⟩

namespace Wf

variable {f : Forest} {rv : Bool} {is : List Instruction}

/-- No packet is taken twice, nor both taken and a root. -/
theorem nodup (hw : f.Wf rv is) : (f.operands ++ f.roots).Nodup :=
  hw.perm.nodup_iff.mpr List.nodup_range

/-- The operands and roots are exactly the packets of the body. -/
theorem mem_range (hw : f.Wf rv is) {q : Nat} : q ∈ f.operands ++ f.roots ↔ q < is.length := by
  rw [hw.perm.mem_iff, List.mem_range]

/-- The roots are the packets that no packet takes. -/
theorem mem_roots_iff (hw : f.Wf rv is) {q : Nat} :
    q ∈ f.roots ↔ q < is.length ∧ q ∉ f.operands := by
  constructor
  · intro hq
    refine ⟨hw.mem_range.mp (List.mem_append_right _ hq), fun ho => ?_⟩
    exact (List.nodup_append.mp hw.nodup).2.2 q ho q hq rfl
  · rintro ⟨hlt, hno⟩
    rcases List.mem_append.mp (hw.mem_range.mpr hlt) with h | h
    · exact absurd h hno
    · exact h

section Stack

/-! While the forest is built, its roots are the stack read bottom to top. -/

variable {pre : List Instruction} {packets : Array Packet} {stack : List Nat}

/-- The stack of a forest being built holds packets already made. -/
theorem stack_lt (hw : (⟨packets, stack.reverse⟩ : Forest).Wf rv pre) :
    ∀ x ∈ stack, x < packets.size := fun _ hx =>
  hw.size ▸ hw.mem_range.mp (List.mem_append_right _ (List.mem_reverse.mpr hx))

/-- The stack holds later packets nearer its top. -/
theorem stack_desc (hw : (⟨packets, stack.reverse⟩ : Forest).Wf rv pre) :
    stack.Pairwise (· > ·) :=
  List.pairwise_reverse.mp hw.roots_sorted

/-- The stack holds exactly the packets no packet has taken. -/
theorem mem_stack_iff (hw : (⟨packets, stack.reverse⟩ : Forest).Wf rv pre) {q : Nat} :
    q ∈ stack ↔
      q < packets.size ∧ ¬ (⟨packets, stack.reverse⟩ : Forest).TakenBefore packets.size q := by
  rw [← List.mem_reverse, ← mem_operands_iff_takenBefore, hw.size]
  exact hw.mem_roots_iff

/-- The first value packet on the stack is the most recent value packet not
taken yet: what a `dup` copies. -/
theorem topValueAt_find (hw : (⟨packets, stack.reverse⟩ : Forest).Wf rv pre) {top : Nat}
    (h : stack.find? (isValue packets) = some top) :
    (⟨packets, stack.reverse⟩ : Forest).TopValueAt packets.size top := by
  obtain ⟨hval, above, below, hsplit, habove⟩ := List.find?_eq_some_iff_append.mp h
  obtain ⟨hlt, hfree⟩ := hw.mem_stack_iff.mp (List.mem_of_find?_eq_some h)
  refine ⟨hlt, hval, hfree, fun q htopq hq hqv => ?_⟩
  by_contra hqfree
  have hqs : q ∈ stack := hw.mem_stack_iff.mpr ⟨hq, hqfree⟩
  -- Above `top` lie only packets without a value, below it only older ones.
  have hdesc := hw.stack_desc
  rw [hsplit] at hqs hdesc
  rcases List.mem_append.mp hqs with hqa | hqb
  · simpa [hqv] using habove q hqa
  · rcases List.mem_cons.mp hqb with rfl | hqb
    · omega
    · have := List.rel_of_pairwise_cons (List.pairwise_append.mp hdesc).2.1 hqb
      omega

end Stack

/-- Adding a packet on top of the operand-free rest of the stack keeps the
shape, when the new packet's operands and the rest make up the old stack. -/
theorem push {pre : List Instruction} {i : Instruction} {packets : Array Packet}
    {stack rest : List Nat} {pk : Packet}
    (hw : (⟨packets, stack.reverse⟩ : Forest).Wf rv pre)
    (hpk : (⟨packets.push pk, (packets.size :: rest).reverse⟩ : Forest).PacketWf rv packets.size i pk)
    (hrest : rest.Sublist stack) (hperm : (pk.children ++ rest).Perm stack) :
    (⟨packets.push pk, (packets.size :: rest).reverse⟩ : Forest).Wf rv (pre ++ [i]) := by
  have hsize : packets.size = pre.length := hw.size
  refine ⟨by simp [hsize], ?_, ?_, ?_, ?_⟩
  · intro p j hj
    rcases Nat.lt_or_ge p pre.length with hp | hp
    · rw [List.getElem?_append_left hp] at hj
      obtain ⟨pk', hget, hpw⟩ := hw.packet p j hj
      have hp' : p < packets.size := by omega
      refine ⟨pk', ?_, hpw.congr ((AgreeBelow.push _ pk _).mono hp'.le)⟩
      show (packets.push pk)[p]? = some pk'
      rw [Array.getElem?_push, if_neg (by omega)]
      exact hget
    · obtain rfl : p = packets.size := by
        have := (List.getElem?_eq_some_iff.mp hj).1
        simp only [List.length_append, List.length_singleton] at this
        omega
      rw [hsize, List.getElem?_concat_length, Option.some.injEq] at hj
      subst hj
      exact ⟨pk, by simp [get?], hpk⟩
  · have hops : (⟨packets.push pk, (packets.size :: rest).reverse⟩ : Forest).operands =
        (⟨packets, stack.reverse⟩ : Forest).operands ++ pk.children := by
      simp [operands]
    rw [hops, List.length_append, List.length_singleton, List.range_succ, ← hsize]
    -- The new operands and the rest of the stack are the old stack.
    have hnew : List.Perm (pk.children ++ rest.reverse) stack.reverse :=
      ((List.reverse_perm rest).append_left _).trans (hperm.trans (List.reverse_perm stack).symm)
    have hold : List.Perm (Forest.operands ⟨packets, stack.reverse⟩ ++ stack.reverse)
        (List.range packets.size) := hsize ▸ hw.perm
    show List.Perm (Forest.operands ⟨packets, stack.reverse⟩ ++ pk.children ++
      (packets.size :: rest).reverse) (List.range packets.size ++ [packets.size])
    rw [List.reverse_cons, List.append_assoc, ← List.append_assoc pk.children,
      ← List.append_assoc]
    exact ((hnew.append_left _).append_right _).trans (hold.append_right _)
  · show List.Pairwise (· < ·) (packets.size :: rest).reverse
    simp only [List.reverse_cons, List.pairwise_append, List.pairwise_reverse,
      List.mem_reverse, List.mem_singleton, List.pairwise_singleton, true_and]
    refine ⟨hw.stack_desc.sublist hrest, fun a ha b hb => hb ▸ hw.stack_lt a (hrest.subset ha)⟩
  · intro _
    show (packets.size :: rest).reverse.getLast? = _
    simp [hsize]

end Wf

/-! ### One step of the builder -/

/-- What one successful step of the builder does: a `dup` pushes a packet that
copies the first value packet on the stack; any other instruction takes as many
value packets as it pops and pushes its packet on what is left. -/
theorem step_eq_ok {rv : Bool} {packets : Array Packet} {stack : List Nat} {i : Instruction}
    {acc' : Array Packet × List Nat} (h : step rv (packets, stack) i = .ok acc') :
    (i.opcode = .dup ∧ ∃ top, stack.find? (isValue packets) = some top ∧
      acc' = (packets.push ⟨i, [], some top, true⟩, packets.size :: stack)) ∨
    (i.opcode ≠ .dup ∧ ∃ needed pushes, i.stackPops rv = .ok needed ∧
      (takeValues (isValue packets) needed stack).1.length = needed ∧
      i.stackPushes = .ok pushes ∧
      acc' = (packets.push ⟨i.touchCounts, (takeValues (isValue packets) needed stack).1.reverse,
        none, decide (0 < pushes)⟩, packets.size :: (takeValues (isValue packets) needed stack).2)) := by
  unfold step at h
  simp only at h
  split at h
  · simp [throw, throwThe, MonadExceptOf.throw] at h
  split at h
  · rename_i hdup
    left
    refine ⟨hdup, ?_⟩
    split at h
    · rename_i top htop
      exact ⟨top, htop, by simpa [pure, Except.pure] using h.symm⟩
    · simp [throw, throwThe, MonadExceptOf.throw] at h
  · rename_i hdup
    right
    refine ⟨hdup, ?_⟩
    obtain ⟨needed, hneeded, h⟩ := Except.bind_eq_ok.mp h
    split at h
    · simp [throw, throwThe, MonadExceptOf.throw] at h
    · rename_i hlen
      obtain ⟨pushes, hpushes, h⟩ := Except.bind_eq_ok.mp h
      have hle := takeValues_fst_length (isValue packets) needed stack
      refine ⟨needed, pushes, Except.mapError_eq_ok.mp hneeded, by omega,
        Except.mapError_eq_ok.mp hpushes, ?_⟩
      simpa [pure, Except.pure] using h.symm

namespace Wf

variable {rv : Bool} {pre : List Instruction} {i : Instruction} {packets : Array Packet}
  {stack : List Nat}

/-- The packet of a `dup`: it takes nothing and copies the first value packet
on the stack. -/
theorem dup_packetWf (hw : (⟨packets, stack.reverse⟩ : Forest).Wf rv pre)
    (hdup : i.opcode = .dup) {top : Nat} (htop : stack.find? (isValue packets) = some top) :
    (⟨packets.push ⟨i, [], some top, true⟩, (packets.size :: stack).reverse⟩ : Forest).PacketWf
      rv packets.size i ⟨i, [], some top, true⟩ where
  instr := (Instruction.touchCounts_of_dup hdup).symm
  children := by simp
  sorted := List.Pairwise.nil
  arity := by
    rw [if_pos hdup]
    exact ⟨rfl, top, rfl,
      (AgreeBelow.push ⟨packets, stack.reverse⟩ _ _).topValueAt (hw.topValueAt_find htop)⟩
  value := by rw [if_pos hdup]

/-- The packet of any other instruction: it takes the value packets
`takeValues` splits off the stack. -/
theorem taken_packetWf (hw : (⟨packets, stack.reverse⟩ : Forest).Wf rv pre)
    (hdup : i.opcode ≠ .dup) {needed pushes : Nat} {taken rest : List Nat}
    (htake : takeValues (isValue packets) needed stack = (taken, rest))
    (hpops : i.stackPops rv = .ok needed) (hlen : taken.length = needed)
    (hpushes : i.stackPushes = .ok pushes) :
    (⟨packets.push ⟨i.touchCounts, taken.reverse, none, decide (0 < pushes)⟩,
      (packets.size :: rest).reverse⟩ : Forest).PacketWf rv packets.size i
      ⟨i.touchCounts, taken.reverse, none, decide (0 < pushes)⟩ := by
  have hsub : taken.Sublist stack := by
    simpa only [htake] using takeValues_fst_sublist (isValue packets) needed stack
  refine ⟨rfl, ?_, ?_, ?_, ?_⟩
  · intro c hc
    have hc : c ∈ taken := List.mem_reverse.mp hc
    have hlt := hw.stack_lt c (hsub.subset hc)
    refine ⟨hlt, ?_⟩
    rw [← (AgreeBelow.push ⟨packets, stack.reverse⟩ _ _).isValue_eq hlt]
    have hvals := takeValues_fst_value (isValue packets) needed stack
    rw [htake] at hvals
    exact hvals c hc
  · -- Taken top first from a decreasing stack, the operands read upwards.
    exact List.pairwise_reverse.mpr (hw.stack_desc.sublist hsub)
  · rw [if_neg hdup]
    simp [hpops, hlen]
  · rw [if_neg hdup]
    exact ⟨pushes, hpushes, rfl⟩

end Wf

/-- One step keeps the shape. -/
theorem step_wf {rv : Bool} {pre : List Instruction} {i : Instruction} {packets : Array Packet}
    {stack : List Nat} {acc' : Array Packet × List Nat}
    (hw : (⟨packets, stack.reverse⟩ : Forest).Wf rv pre) (h : step rv (packets, stack) i = .ok acc') :
    (⟨acc'.1, acc'.2.reverse⟩ : Forest).Wf rv (pre ++ [i]) := by
  rcases step_eq_ok h with ⟨hdup, top, htop, rfl⟩ | ⟨hdup, needed, pushes, hpops, hlen, hpushes, rfl⟩
  · exact hw.push (hw.dup_packetWf hdup htop) (List.Sublist.refl _) (List.Perm.refl _)
  · rcases htake : takeValues (isValue packets) needed stack with ⟨taken, rest⟩
    simp only [htake] at hlen ⊢
    have hperm := takeValues_perm (isValue packets) needed stack
    have hrest := takeValues_snd_sublist (isValue packets) needed stack
    rw [htake] at hperm hrest
    exact hw.push (hw.taken_packetWf hdup htake hpops hlen hpushes) hrest
      (((List.reverse_perm taken).append_right rest).trans hperm)

/-- The run of the builder over `is`, from any stack of the right shape, keeps
the shape. -/
theorem foldlM_step_wf {rv : Bool} (is : List Instruction) :
    ∀ {pre : List Instruction} {packets : Array Packet} {stack : List Nat}
      {acc' : Array Packet × List Nat},
      (⟨packets, stack.reverse⟩ : Forest).Wf rv pre →
      is.foldlM (step rv) (packets, stack) = .ok acc' →
      (⟨acc'.1, acc'.2.reverse⟩ : Forest).Wf rv (pre ++ is) := by
  induction is with
  | nil =>
    intro pre packets stack acc' hw h
    simp only [List.foldlM_nil, Except.pure_eq_ok] at h
    subst h
    simpa using hw
  | cons i is ih =>
    intro pre packets stack acc' hw h
    rw [List.foldlM_cons] at h
    obtain ⟨⟨packets₁, stack₁⟩, hstep, hrest⟩ := Except.bind_eq_ok.mp h
    have := ih (step_wf hw hstep) hrest
    simpa using this

/-- The empty forest is the shape of the empty body. -/
theorem wf_empty (rv : Bool) : (⟨#[], []⟩ : Forest).Wf rv [] where
  size := rfl
  packet := by simp
  perm := by simp [operands]
  roots_sorted := List.Pairwise.nil
  last_root := by simp

/-- **Every forest the builder makes has its shape.** One packet per instruction,
each made from its instruction, every packet the operand of one packet or a root,
once, and the roots in order, ending with the last instruction. -/
theorem build_wf {rv : Bool} {is : List Instruction} {f : Forest} (h : build rv is = .ok f) :
    f.Wf rv is := by
  unfold build at h
  obtain ⟨⟨packets, stack⟩, hfold, hf⟩ := Except.bind_eq_ok.mp h
  simp only [Except.pure_eq_ok] at hf
  subst hf
  simpa using foldlM_step_wf is (wf_empty rv) hfold

/-- A body that adds its two arguments, copies the sum, drops the copy and
returns the sum. -/
def sumBody : List Instruction :=
  [⟨0, .ldarg_0, .none⟩, ⟨1, .ldarg_1, .none⟩, ⟨2, .add, .none⟩, ⟨3, .dup, .none⟩,
    ⟨4, .pop, .none⟩, ⟨5, .ret, .none⟩]

/-- `sumBody` builds, and its forest has the shape. -/
theorem build_sumBody_wf : ∃ f, build true sumBody = .ok f ∧ f.Wf true sumBody := by
  have hf : build true sumBody = .ok _ := rfl
  exact ⟨_, hf, build_wf hf⟩

end Forest

end CilBind
