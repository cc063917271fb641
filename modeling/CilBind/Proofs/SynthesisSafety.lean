import CilBind.Proofs.BodyCodec
import CilBind.Proofs.ForestSubtree
import CilBind.Proofs.RoutineRun
import CilBind.Routine.Synthesis
import CilBind.Run.Scripted

/-!
# `CilBind.Proofs.SynthesisSafety`: synthesized routines run without stack faults

A synthesized routine replays the packets of the factory body in order. A taken
argument is replaced, at its own place, by a load of the context, its
resolution and, for a value type, an unboxing; the other packets of its
expression are dropped. Every such routine passes the static check of
`Routine.Checked` (`synthesize_checked`), and so runs without stack faults
(`synthesize_run_safe`).

## How the proof goes

The check counts the stack depth operation by operation. After the operations
for the packets below `k`, the depth is the number of packets in
`onStack f pl k`: the value packets below `k` that no packet below `k` takes,
and whose value the routine has (`Emitted`: a taken argument, or a packet
outside every taken argument's expression). `check_block` is the step: the
operations for packet `k` take the stack from `onStack k` to `onStack (k + 1)`.

* A replayed packet takes its operands, which the routine has
  (`emitted_child`): a packet strictly inside a taken argument's expression has
  its one consumer inside it too (`Wf.parent_unique`).
* A taken argument's resolution leaves one value, in place of operands the
  routine does not have (`taken_child`).
* A dropped packet leaves nothing and takes nothing the routine has
  (`skipped_child`).
* A replayed `dup` finds the value it copies: no taken expression holds a packet
  a `dup` copies (`emitted_of_duplicated`).

The last packet is the tail `ret`, outside every taken expression, so the last
operation is that `ret`, replayed.
-/

set_option autoImplicit false

namespace CilBind

/-! ### The counts of a replayed instruction -/

namespace TokenRef

/-- Marking a token resolved keeps the method it names. -/
theorem method_touch (t : TokenRef) : t.touch.method = t.method := by
  unfold touch
  split <;> rfl

/-- Marking a token resolved keeps the signature it names. -/
theorem signature_touch (t : TokenRef) : t.touch.signature = t.signature := by
  unfold touch
  split <;> rfl

end TokenRef

namespace Instruction

/-- Marking a token resolved keeps its call site. -/
theorem callSite_touch (t : TokenRef) : callSite t.touch = callSite t := by
  simp only [callSite, TokenRef.signature_touch]

/-- Looking a token up while counting changes no count. -/
theorem stackPops_touchCounts (i : Instruction) (rv : Bool) :
    i.touchCounts.stackPops rv = i.stackPops rv := by
  unfold touchCounts
  split
  · split
    · next t ht =>
      simp only [stackPops, expectToken, token?, ht, bind, Except.bind, TokenRef.method_touch,
        callSite_touch]
    · rfl
  · rfl

/-- Marking the token resolved keeps what the instruction pushes. -/
theorem stackPushes_touchCounts (i : Instruction) : i.touchCounts.stackPushes = i.stackPushes := by
  unfold touchCounts
  split
  · split
    · next t ht =>
      simp only [stackPushes, expectToken, token?, ht, bind, Except.bind, TokenRef.method_touch,
        callSite_touch]
    · rfl
  · rfl

/-- Only `dup` leaves two values. -/
theorem stackPushes_le_one {i : Instruction} {k : Nat} (h : i.opcode ≠ .dup)
    (hk : i.stackPushes = .ok k) : k ≤ 1 := by
  have htable : i.opcode.info.push = .fixed 0 ∨ i.opcode.info.push = .fixed 1 ∨
      i.opcode.info.push = .var := by
    generalize i.opcode = op at h ⊢
    cases op <;> first | exact absurd rfl h | decide
  unfold stackPushes at hk
  rcases htable with hp | hp | hp <;> rw [hp] at hk
  · cases hk
    omega
  · cases hk
    omega
  · dsimp only at hk
    -- A call leaves one value or none, as its method or its call site says.
    have hite : ∀ {b : Bool}, (if b then 1 else 0) = k → k ≤ 1 := fun {b} hb => by
      subst hb
      split <;> omega
    split at hk
    · obtain ⟨t, -, hk⟩ := Except.bind_eq_ok.mp hk
      obtain ⟨m, -, hk⟩ := Except.bind_eq_ok.mp hk
      exact hite (Except.pure_eq_ok.mp hk)
    · obtain ⟨t, -, hk⟩ := Except.bind_eq_ok.mp hk
      obtain ⟨m, -, hk⟩ := Except.bind_eq_ok.mp hk
      exact hite (Except.pure_eq_ok.mp hk)
    · obtain ⟨t, -, hk⟩ := Except.bind_eq_ok.mp hk
      obtain ⟨m, -, hk⟩ := Except.bind_eq_ok.mp hk
      exact hite (Except.pure_eq_ok.mp hk)
    · cases hk
      omega

/-- An instruction with an argument slot loads an argument, loads its address,
or stores to it. -/
theorem argIndex?_opcode {i : Instruction} {k : Nat} (h : i.argIndex? = some k) :
    i.opcode ∈ [.ldarg_0, .ldarg_1, .ldarg_2, .ldarg_3, .ldarg_s, .ldarg, .ldarga_s, .ldarga,
      .starg_s, .starg] := by
  unfold argIndex? at h
  split at h <;> simp_all

end Instruction

/-- A slot `remap` gives fits in sixteen bits. -/
theorem Layout.remap_lt_two_pow {l : Layout} {bodyIndex n : Nat} (h : l.remap bodyIndex = some n) :
    n < 2 ^ 16 := by
  unfold Layout.remap at h
  cases hb : l.hasThis <;> simp only [hb] at h <;> grind

namespace Synthesis

/-! ### Moving an instruction to the routine -/

section Remap

variable {layout : Layout} {i : Instruction} {op : RoutineOp}

/-- A moved argument access takes and leaves what the access it replaces does. -/
theorem remap_effect (h : remap layout i = .ok op) (rv : Bool) :
    op.effect rv = (RoutineOp.replay i).effect rv := by
  unfold remap at h
  split at h
  · cases h
    rfl
  · next k hk =>
    split at h
    · cases h
    · have hop := Instruction.argIndex?_opcode hk
      simp only [List.mem_cons, List.not_mem_nil, or_false] at hop
      rcases hop with hop | hop | hop | hop | hop | hop | hop | hop | hop | hop <;>
        simp only [hop] at h <;> cases h <;>
        simp only [RoutineOp.effect, Instruction.stackPops, Instruction.stackPushes, hop] <;> rfl

/-- A moved argument access names an argument of the routine other than the
context, and a replayed instruction names none. -/
theorem remap_within (h : remap layout i = .ok op) : op.Within layout := by
  unfold remap at h
  split at h
  · next hk =>
    cases h
    exact hk
  · next k hk =>
    split at h
    · cases h
    · next n hn =>
      have hw : n < layout.argCount ∧ n ≠ layout.contextIndex ∧ n < 2 ^ 16 :=
        ⟨Layout.remap_lt hn, Layout.remap_ne_context hn, Layout.remap_lt_two_pow hn⟩
      split at h <;> cases h <;> exact hw

/-- A moved instruction never loads the context. -/
theorem remap_isLoadContext (h : remap layout i = .ok op) : op.isLoadContext = false := by
  unfold remap at h
  split at h
  · cases h
    rfl
  · split at h
    · cases h
    · split at h <;> cases h <;> rfl

/-- A replayed instruction without an argument slot stays as it is. -/
theorem remap_of_argIndex? (h : i.argIndex? = none) : remap layout i = .ok (.replay i) := by
  simp [remap, h]

end Remap

/-! ### Inverting a synthesis -/

/-- The plan after one argument: unchanged, or the argument taken, when no
packet of its expression is one a `dup` copies. -/
theorem consider_eq_ok {recognizer : Recognizer} {dups : List Nat} {acc acc' : Plan} {arg : Nat}
    {p : ParamInfo} (h : acc.consider recognizer dups arg p = .ok acc') :
    acc' = acc ∨ (acc' = ⟨acc.taken ++ [(arg, p.ty)], acc.skipped ++ recognizer.forest.postOrder arg,
      acc.names ++ [p.name]⟩ ∧ ∀ q ∈ recognizer.forest.postOrder arg, q ∉ dups) := by
  unfold Plan.consider at h
  rcases hd : p.default with _ | default
  · simp only [hd, pure, Except.pure, Except.ok.injEq] at h
    exact Or.inl h.symm
  rw [hd] at h
  dsimp only at h
  rcases hr : recognizer.isDefault arg p.ty default with e | hit
  · rw [hr] at h
    cases e <;> simp [bind, Except.bind, throw, throwThe, MonadExceptOf.throw] at h
  rw [hr] at h
  simp only [bind, Except.bind, pure, Except.pure] at h
  split at h
  · exact Or.inl (Except.ok.inj h).symm
  split at h
  · exact Or.inl (Except.ok.inj h).symm
  next hany =>
  refine Or.inr ⟨(Except.ok.inj h).symm, fun q hq hqd => hany ?_⟩
  exact List.any_eq_true.mpr ⟨q, hq, decide_eq_true hqd⟩

/-- The packet a tail `ret` returns is the only operand of the last root. -/
theorem constructed_eq_ok {f : Forest} {ctor : Nat} (h : constructed f = .ok ctor) :
    ∃ top pk, f.top? = some top ∧ f.get? top = some pk ∧ pk.instr.opcode = .ret ∧
      pk.children = [ctor] := by
  unfold constructed at h
  split at h
  · next top htop =>
    split at h
    · next ret hret =>
      dsimp only at h
      split at h
      · next hopc =>
        split at h
        · next c hch =>
          refine ⟨top, ret, htop, hret, hopc, ?_⟩
          split at h
          · split at h
            · split at h
              · simp [bind, Except.bind, throw, throwThe, MonadExceptOf.throw] at h
              · simp only [pure, Except.pure, Except.ok.injEq] at h
                rw [hch, h]
            · simp [bind, Except.bind, throw, throwThe, MonadExceptOf.throw] at h
          · simp [throw, throwThe, MonadExceptOf.throw] at h
        · simp [throw, throwThe, MonadExceptOf.throw] at h
      · simp [bind, Except.bind, throw, throwThe, MonadExceptOf.throw] at h
    · simp [throw, throwThe, MonadExceptOf.throw] at h
  · simp [throw, throwThe, MonadExceptOf.throw] at h

/-- A routine of the pipeline carries the factory's layout and return type,
and the operations of its parts. -/
theorem routineOf_eq_ok {b : Bool} {opts : SynthesisOptions} {d : FactoryDefinition} {R : Routine}
    (h : routineOf b opts d = .ok R) :
    ∃ out, parts b opts d = .ok out ∧ R.layout = layoutOf d ∧ R.returns = d.returns ∧
      R.ops = out.2.1 := by
  unfold routineOf at h
  cases hp : parts b opts d with
  | error e => simp [hp, Except.map] at h
  | ok out =>
    simp only [hp, Except.map, Except.ok.injEq] at h
    subst h
    exact ⟨out, rfl, rfl, rfl, rfl⟩

/-- The stages of `parts`, for either flag: the kept body, its forest, the
constructed packet and the plan, which is empty when no argument is taken. -/
theorem parts_stages {b : Bool} {opts : SynthesisOptions} {d : FactoryDefinition}
    {out : List TypeRef × List RoutineOp × List String} (h : parts b opts d = .ok out) :
    ∃ kept forest ctor params pl,
      ((decodeBody d.tokens d.body).mapError SynthesisError.decode >>= replayable opts) = .ok kept ∧
      Forest.build (!d.returns.isVoid) kept = .ok forest ∧ constructed forest = .ok ctor ∧
      (if b then plan (Recognizer.ofForest forest opts.recognizeStructDefaults)
        (duplicated forest) (forest.childrenOf ctor) params else pure ⟨[], [], []⟩) = .ok pl ∧
      ops forest (layoutOf d) pl = .ok out.2.1 := by
  unfold parts at h
  cases b <;> simp only [Bool.false_eq_true, ↓reduceIte] at h
  -- the flags differ in the plan alone, which `hpl` carries as it is
  all_goals
    split at h
    · simp [throw, throwThe, MonadExceptOf.throw, bind, Except.bind] at h
    obtain ⟨body, hbody, h⟩ := Except.bind_eq_ok.mp h
    obtain ⟨kept, hkept, h⟩ := Except.bind_eq_ok.mp h
    obtain ⟨forest, hforest, h⟩ := Except.bind_eq_ok.mp h
    obtain ⟨ctor, hctor, h⟩ := Except.bind_eq_ok.mp h
    split at h
    · obtain ⟨method, -, h⟩ := Except.bind_eq_ok.mp h
      obtain ⟨pl, hpl, h⟩ := Except.bind_eq_ok.mp h
      obtain ⟨routineOps, hops, h⟩ := Except.bind_eq_ok.mp h
      obtain ⟨locals, -, h⟩ := Except.bind_eq_ok.mp h
      rw [Except.pure_eq_ok] at h
      subst h
      refine ⟨kept, forest, ctor, method.params, pl, ?_, Except.mapError_eq_ok.mp hforest, hctor,
        by simpa using hpl, hops⟩
      simp [hbody, hkept, bind, Except.bind]
    · simp [throw, throwThe, MonadExceptOf.throw, bind, Except.bind] at h

/-- A partial application builds the forest of the kept body, finds the
constructed packet, plans its operands and lays out the operations. -/
theorem parts_eq_ok {opts : SynthesisOptions} {d : FactoryDefinition}
    {out : List TypeRef × List RoutineOp × List String}
    (h : parts true opts d = .ok out) :
    ∃ kept forest ctor pl params, Forest.build (!d.returns.isVoid) kept = .ok forest ∧
      constructed forest = .ok ctor ∧
      plan (Recognizer.ofForest forest opts.recognizeStructDefaults)
        (duplicated forest) (forest.childrenOf ctor) params = .ok pl ∧
      ops forest (layoutOf d) pl = .ok out.2.1 := by
  obtain ⟨kept, forest, ctor, params, pl, -, hforest, hctor, hpl, hops⟩ := parts_stages h
  exact ⟨kept, forest, ctor, pl, params, hforest, hctor, by simpa using hpl, hops⟩

/-- Replay keeps an instruction as it is or drops it. -/
theorem keep_eq_some {opts : SynthesisOptions} {i j : Instruction}
    (h : keep opts i = .ok (some j)) : j = i := by
  dsimp only [keep] at h
  split at h
  · split at h <;> cases h
  · split at h
    · cases h
    · exact (Option.some.inj (Except.ok.inj h)).symm

/-- Every instruction replay keeps is one of the body's. -/
theorem mem_of_replayable {opts : SynthesisOptions} :
    ∀ {is kept : List Instruction}, replayable opts is = .ok kept → ∀ j ∈ kept, j ∈ is
  | [], kept, h => by
    simp only [replayable, List.filterMapM_nil, Except.pure_eq_ok] at h
    simp [← h]
  | i :: is, kept, h => by
    rw [replayable, List.filterMapM_cons] at h
    obtain ⟨o, ho, h⟩ := Except.bind_eq_ok.mp h
    cases o with
    | none =>
      intro j hj
      exact List.mem_cons_of_mem _ (mem_of_replayable h j hj)
    | some k =>
      obtain ⟨rest, hrest, h⟩ := Except.bind_eq_ok.mp h
      rw [Except.pure_eq_ok] at h
      subst h
      obtain rfl := keep_eq_some ho
      intro j hj
      rcases List.mem_cons.mp hj with rfl | hj
      · exact List.mem_cons_self
      · exact List.mem_cons_of_mem _ (mem_of_replayable hrest j hj)

/-- The body that partial application keeps is made of instructions that fit
their opcodes, as every decoded body is. -/
theorem kept_fits {opts : SynthesisOptions} {tbl : TokenTable} {bytes : List UInt8}
    {kept : List Instruction}
    (h : ((decodeBody tbl bytes).mapError SynthesisError.decode >>= replayable opts) = .ok kept) :
    ∀ i ∈ kept, i.Fits := by
  obtain ⟨body, hbody, hkept⟩ := Except.bind_eq_ok.mp h
  intro i hi
  exact decodeBody_fits (Except.mapError_eq_ok.mp hbody) i (mem_of_replayable hkept i hi)

/-- The forest whose packets the recognizer of a partial application judges is
built from instructions that fit their opcodes. -/
theorem synthesize_forest_fits {opts : SynthesisOptions} {d : FactoryDefinition} {R : Routine}
    (h : synthesize opts d = .ok R) :
    ∃ kept f ctor params pl, Forest.build (!d.returns.isVoid) kept = .ok f ∧ (∀ i ∈ kept, i.Fits) ∧
      constructed f = .ok ctor ∧
      plan (Recognizer.ofForest f opts.recognizeStructDefaults) (duplicated f) (f.childrenOf ctor)
        params = .ok pl := by
  obtain ⟨out, hp, -⟩ := routineOf_eq_ok h
  obtain ⟨kept, f, ctor, params, pl, hkept, hf, hctor, hpl, -⟩ := parts_stages hp
  exact ⟨kept, f, ctor, params, pl, hf, kept_fits hkept, hctor, by simpa using hpl⟩

/-! ### The plan -/

/-- What the plan for the constructed packet `ctor` guarantees: every taken
argument is an operand of `ctor` whose expression holds no packet a `dup`
copies, and the skipped packets are exactly those expressions. -/
structure Plan.Sound (f : Forest) (ctor : Nat) (pl : Plan) : Prop where
  taken : ∀ a ∈ pl.taken.map Prod.fst,
    a ∈ f.childrenOf ctor ∧ ∀ q ∈ f.postOrder a, q ∉ duplicated f
  skipped : pl.skipped = (pl.taken.map Prod.fst).flatMap f.postOrder

/-- Considering one more operand of the constructed packet keeps the plan sound. -/
theorem Plan.Sound.consider {f : Forest} {ctor : Nat} {acc acc' : Plan} {sd : Bool} {arg : Nat}
    {p : ParamInfo} (hs : acc.Sound f ctor) (harg : arg ∈ f.childrenOf ctor)
    (h : acc.consider (Recognizer.ofForest f sd) (duplicated f) arg p = .ok acc') :
    acc'.Sound f ctor := by
  rcases consider_eq_ok h with rfl | ⟨rfl, hfree⟩
  · exact hs
  · constructor
    · intro a ha
      simp only [List.map_append, List.map_cons, List.map_nil, List.mem_append,
        List.mem_singleton] at ha
      rcases ha with ha | rfl
      · exact hs.taken a ha
      · exact ⟨harg, hfree⟩
    · simp only [List.map_append, List.map_cons, List.map_nil, List.flatMap_append,
        List.flatMap_singleton, hs.skipped]
      rfl

/-- The plan for the operands of `ctor` is sound. -/
theorem plan_sound {f : Forest} {ctor : Nat} {sd : Bool} {params : List ParamInfo} {pl : Plan}
    (h : plan (Recognizer.ofForest f sd) (duplicated f) (f.childrenOf ctor) params = .ok pl) :
    pl.Sound f ctor := by
  unfold plan at h
  -- The fold visits operands of `ctor`, each with its parameter.
  have hmem : ∀ z ∈ (f.childrenOf ctor).zip params, z.1 ∈ f.childrenOf ctor :=
    fun z hz => (List.of_mem_zip hz).1
  have hstart : (⟨[], [], []⟩ : Plan).Sound f ctor := ⟨by simp, rfl⟩
  generalize (f.childrenOf ctor).zip params = zs at hmem h
  generalize (⟨[], [], []⟩ : Plan) = acc at hstart h
  induction zs generalizing acc with
  | nil =>
    rw [List.foldlM_nil, Except.pure_eq_ok] at h
    exact h ▸ hstart
  | cons z zs ih =>
    rw [List.foldlM_cons] at h
    obtain ⟨acc₁, h₁, h⟩ := Except.bind_eq_ok.mp h
    have hs₁ : acc₁.Sound f ctor := hstart.consider (hmem z List.mem_cons_self) h₁
    exact ih (fun z' hz' => hmem z' (List.mem_cons_of_mem z hz')) acc₁ hs₁ h

/-! ### The packets whose values the routine has -/

/-- The routine has packet `q`'s value: `q` is a taken argument, whose value
its resolution gives, or lies outside every taken argument's expression and is
replayed. -/
def Emitted (pl : Plan) (q : Nat) : Prop := q ∈ pl.taken.map Prod.fst ∨ q ∉ pl.skipped

/-- Whether the routine has a packet's value can be computed. -/
instance (pl : Plan) (q : Nat) : Decidable (Emitted pl q) := by
  unfold Emitted
  infer_instance

/-- A key found in an association list is one of its keys. -/
theorem mem_of_lookup_eq_some {l : List (Nat × TypeRef)} {k : Nat} {ty : TypeRef}
    (h : l.lookup k = some ty) : k ∈ l.map Prod.fst := by
  obtain ⟨l₁, l₂, rfl, -⟩ := List.lookup_eq_some_iff.mp h
  simp

/-- A key not found in an association list is none of its keys. -/
theorem not_mem_of_lookup_eq_none {l : List (Nat × TypeRef)} {k : Nat}
    (h : l.lookup k = none) : k ∉ l.map Prod.fst := by
  intro hk
  obtain ⟨p, hp, rfl⟩ := List.mem_map.mp hk
  simpa using List.lookup_eq_none_iff.mp h p hp

section Emitting

variable {rv : Bool} {kept : List Instruction} {f : Forest} {ctor : Nat} {pl : Plan}
  (hw : f.Wf rv kept) (hs : pl.Sound f ctor)
include hw hs

/-- A taken argument is a value packet below `ctor`. -/
theorem taken_lt {a : Nat} (ha : a ∈ pl.taken.map Prod.fst) :
    a < ctor ∧ Forest.isValue f.packets a = true ∧ ctor < f.packets.size := by
  have hc := (hs.taken a ha).1
  exact ⟨(hw.child_lt hc).1, (hw.child_lt hc).2, Forest.lt_size_of_mem_childrenOf hc⟩

/-- The skipped packets are those below a taken argument. -/
theorem mem_skipped {q : Nat} : q ∈ pl.skipped ↔ ∃ a ∈ pl.taken.map Prod.fst, f.Desc a q := by
  rw [hs.skipped, List.mem_flatMap]
  constructor
  · rintro ⟨a, ha, hq⟩
    have := taken_lt hw hs ha
    exact ⟨a, ha, (hw.mem_postOrder (by omega)).mp hq⟩
  · rintro ⟨a, ha, hq⟩
    have := taken_lt hw hs ha
    exact ⟨a, ha, (hw.mem_postOrder (by omega)).mpr hq⟩

/-- The routine has the operands of a packet it replays. -/
theorem emitted_child {k c : Nat} (hk : k ∉ pl.skipped) (hc : c ∈ f.childrenOf k) :
    Emitted pl c := by
  by_contra hne
  simp only [Emitted, not_or, not_not] at hne
  obtain ⟨hcT, hcK⟩ := hne
  obtain ⟨a, ha, hac⟩ := (mem_skipped hw hs).mp hcK
  -- `c` is strictly below `a`, so its one consumer `k` is below `a` too.
  obtain ⟨p, hap, hcp⟩ := hac.exists_parent fun h => hcT (h ▸ ha)
  have hpk : p = k := hw.parent_unique hcp hc
  exact hk ((mem_skipped hw hs).mpr ⟨a, ha, hpk ▸ hap⟩)

/-- The routine does not have the operands of a taken argument. -/
theorem taken_child {k c : Nat} (hk : k ∈ pl.taken.map Prod.fst) (hc : c ∈ f.childrenOf k) :
    ¬ Emitted pl c := by
  rintro (hcT | hcK)
  · -- `c` would have two consumers, `k` and `ctor`.
    have hctor : k = ctor := hw.parent_unique hc (hs.taken c hcT).1
    have := (taken_lt hw hs hk).1
    omega
  · exact hcK ((mem_skipped hw hs).mpr ⟨k, hk, .child hc (.refl c)⟩)

/-- The routine does not have the operands of a packet it drops. -/
theorem skipped_child {k c : Nat} (hkK : k ∈ pl.skipped) (hc : c ∈ f.childrenOf k) :
    ¬ Emitted pl c := by
  obtain ⟨a, ha, hak⟩ := (mem_skipped hw hs).mp hkK
  rintro (hcT | hcK)
  · -- `k` would be `ctor`, which lies above every taken argument.
    have hctor : k = ctor := hw.parent_unique hc (hs.taken c hcT).1
    have hle := hw.desc_le hak
    have := (taken_lt hw hs ha).1
    omega
  · exact hcK ((mem_skipped hw hs).mpr ⟨a, ha, hak.tail hc⟩)

omit hw in
/-- The routine has every packet a `dup` copies. -/
theorem emitted_of_duplicated {t : Nat} (ht : t ∈ duplicated f) : Emitted pl t := by
  refine Or.inr fun htK => ?_
  rw [hs.skipped, List.mem_flatMap] at htK
  obtain ⟨a, ha, hta⟩ := htK
  exact (hs.taken a ha).2 t hta ht

end Emitting

/-! ### Counting the stack -/

/-- The packets whose values are on the routine's stack once the operations for
the packets below `k` have run: value packets below `k` that no packet below `k`
takes, and whose value the routine has. -/
def onStack (f : Forest) (pl : Plan) (k : Nat) : Finset Nat :=
  (Finset.range k).filter fun q =>
    Forest.isValue f.packets q = true ∧ ¬ f.TakenBefore k q ∧ Emitted pl q

/-- The packets on the stack before `k`: value packets below `k` that no packet
below `k` takes and whose value the routine has. -/
theorem mem_onStack {f : Forest} {pl : Plan} {k q : Nat} :
    q ∈ onStack f pl k ↔
      q < k ∧ Forest.isValue f.packets q = true ∧ ¬ f.TakenBefore k q ∧ Emitted pl q := by
  simp [onStack]

section Counting

variable {rv : Bool} {kept : List Instruction} {f : Forest} (hw : f.Wf rv kept) (pl : Plan)
include hw

/-- Packet `k` takes its operands off the stack, and leaves its own value when
it has one the routine has. -/
theorem onStack_succ (k : Nat) :
    onStack f pl (k + 1) = (onStack f pl k).filter (· ∉ f.childrenOf k) ∪
      (if Forest.isValue f.packets k = true ∧ Emitted pl k then {k} else ∅) := by
  -- Packet `k` is taken by no packet up to `k`: its consumer comes after it.
  have hfree : ¬ f.TakenBefore (k + 1) k := fun ⟨r, hr, hkr⟩ => by
    have := (hw.child_lt hkr).1
    omega
  ext q
  rw [Finset.mem_union, Finset.mem_filter, mem_onStack, mem_onStack, Forest.takenBefore_succ]
  by_cases hqk : q = k
  · subst hqk
    rw [Forest.takenBefore_succ] at hfree
    split <;> simp_all
  · have hq : q < k + 1 ↔ q < k := by omega
    split <;> simp [hq, hqk, and_assoc, and_comm, and_left_comm]

/-- The depth after packet `k`: the depth before it, less its operands, plus its
own value when the routine has it. -/
theorem card_onStack_succ (k : Nat) :
    (onStack f pl (k + 1)).card = ((onStack f pl k).filter (· ∉ f.childrenOf k)).card +
      (if Forest.isValue f.packets k = true ∧ Emitted pl k then 1 else 0) := by
  rw [onStack_succ hw pl k]
  split
  · -- `k` is not below `k`.
    rw [Finset.card_union_of_disjoint, Finset.card_singleton]
    rw [Finset.disjoint_singleton_right, Finset.mem_filter, mem_onStack]
    omega
  · simp

/-- When the routine has all operands of `k`, they are on its stack, and `k`
takes them all off. -/
theorem card_onStack_of_emitted {k : Nat} (hall : ∀ c ∈ f.childrenOf k, Emitted pl c) :
    (f.childrenOf k).length ≤ (onStack f pl k).card ∧
      ((onStack f pl k).filter (· ∉ f.childrenOf k)).card + (f.childrenOf k).length =
        (onStack f pl k).card := by
  -- An operand of `k` is taken by no other packet.
  have hsub : ∀ c ∈ f.childrenOf k, c ∈ onStack f pl k := fun c hc =>
    mem_onStack.mpr ⟨(hw.child_lt hc).1, (hw.child_lt hc).2, fun ⟨r, hr, hcr⟩ => by
      have := hw.parent_unique hcr hc
      omega, hall c hc⟩
  have htaken : (onStack f pl k).filter (· ∈ f.childrenOf k) = (f.childrenOf k).toFinset := by
    ext c
    simp only [Finset.mem_filter, List.mem_toFinset]
    exact ⟨fun h => h.2, fun h => ⟨hsub c h, h⟩⟩
  have hlen : ((onStack f pl k).filter (· ∈ f.childrenOf k)).card = (f.childrenOf k).length := by
    rw [htaken, List.toFinset_card_of_nodup (hw.childrenOf_nodup k)]
  have hsplit : ((onStack f pl k).filter (· ∈ f.childrenOf k)).card +
      ((onStack f pl k).filter (· ∉ f.childrenOf k)).card = (onStack f pl k).card :=
    Finset.card_filter_add_card_filter_not _
  omega

omit hw in
/-- When the routine has no operand of `k`, none is on its stack. -/
theorem filter_onStack_of_not_emitted {k : Nat} (hnone : ∀ c ∈ f.childrenOf k, ¬ Emitted pl c) :
    (onStack f pl k).filter (· ∉ f.childrenOf k) = onStack f pl k :=
  Finset.filter_true_of_mem fun q hq hqc => hnone q hqc (mem_onStack.mp hq).2.2.2

end Counting

/-! ### Checking the operations of one packet -/

/-- A resolution leaves one value. -/
theorem check_resolution (rv : Bool) (ty : TypeRef) (d : Nat) :
    (resolution ty).foldlM (RoutineOp.check rv) (d, false) = some (d + 1, false) := by
  unfold resolution
  split <;> simp [RoutineOp.check, RoutineOp.effect]

/-- One replayed operation, found with the values it takes. -/
theorem check_single {op : RoutineOp} {rv : Bool} {d pops pushes : Nat}
    (heff : op.effect rv = .ok (pops, pushes)) (hk : pops ≤ d) (hctx : op.isLoadContext = false) :
    [op].foldlM (RoutineOp.check rv) (d, false) = some (d - pops + pushes, false) := by
  have hcheck : op.check rv (d, false) = some (d - pops + pushes, false) :=
    RoutineOp.check_eq_some.mpr ⟨pops, pushes, heff, hk, nofun, by rw [hctx]⟩
  rw [List.foldlM_cons, hcheck]
  rfl

/-- Checking block after block: when block `j` takes the state from `s j` to
`s (j + 1)`, the first `n` blocks take it from `s 0` to `s n`. -/
theorem foldlM_take_flatten {α σ : Type} {g : σ → α → Option σ} {each : List (List α)}
    (s : Nat → σ) (hstep : ∀ j (hj : j < each.length), each[j].foldlM g (s j) = some (s (j + 1))) :
    ∀ n ≤ each.length, (each.take n).flatten.foldlM g (s 0) = some (s n)
  | 0, _ => rfl
  | n + 1, hn => by
    rw [List.take_succ_eq_append_getElem (by omega), List.flatten_append, List.foldlM_append,
      foldlM_take_flatten s hstep n (by omega), List.flatten_singleton]
    exact hstep n (by omega)

/-- Every operation for a packet names only the routine's arguments, never the
context. -/
theorem opsOf_within {layout : Layout} {pl : Plan} {k : Nat} {p : Packet} {block : List RoutineOp}
    (hblock : opsOf layout pl k p = .ok block) : ∀ op ∈ block, op.Within layout := by
  unfold opsOf at hblock
  split at hblock
  · cases hblock
    intro op hop
    unfold resolution at hop
    split at hop <;> simp at hop <;> rcases hop with rfl | rfl | rfl <;> trivial
  · split at hblock
    · cases hblock
      simp
    · obtain ⟨op, hop, hblock⟩ := Except.bind_eq_ok.mp hblock
      rw [Except.pure_eq_ok] at hblock
      subst hblock
      simpa using remap_within hop

/-- What the count reads of an existing packet: whether it leaves a value, and
its operands. -/
theorem isValue_childrenOf {f : Forest} {k : Nat} (hk : k < f.packets.size) {pk : Packet}
    (hpk : f.packets[k] = pk) :
    Forest.isValue f.packets k = pk.hasValue ∧ f.childrenOf k = pk.children := by
  constructor
  · simp [Forest.isValue, Array.getElem?_eq_getElem hk, hpk]
  · simp [Forest.childrenOf, Forest.get?, Array.getElem?_eq_getElem hk, hpk]

section Blocks

variable {rv : Bool} {kept : List Instruction} {f : Forest} {ctor : Nat} {pl : Plan}
  (hw : f.Wf rv kept) (hs : pl.Sound f ctor)
include hw hs

/-- A replayed `dup` copies a value the routine has, and leaves one more. -/
theorem check_dup (layout : Layout) {k : Nat} (hk : k < f.packets.size) {i : Instruction}
    {pk : Packet} (hpk : f.packets[k] = pk) (hpw : f.PacketWf rv k i pk) (hdup : i.opcode = .dup)
    (hkK : k ∉ pl.skipped) {op : RoutineOp} (hop : remap layout pk.instr = .ok op) :
    [op].foldlM (RoutineOp.check rv) ((onStack f pl k).card, false) =
      some ((onStack f pl (k + 1)).card, false) := by
  obtain ⟨hval, hchildren⟩ := isValue_childrenOf hk hpk
  have harity := hpw.arity
  have hvalue := hpw.value
  rw [if_pos hdup] at harity hvalue
  obtain ⟨hnil, t, hdupOf, ht⟩ := harity
  have hinstr : pk.instr = i := hpw.instr.trans (Instruction.touchCounts_of_dup hdup)
  have heff : op.effect rv = .ok (1, 2) := by
    rw [remap_effect hop, hinstr]
    simp only [RoutineOp.effect, Instruction.stackPops, Instruction.stackPushes, hdup]
    rfl
  -- The copied value is on the routine's stack: nothing taken is ever copied.
  have htdup : t ∈ duplicated f :=
    List.mem_filterMap.mpr ⟨pk, hpk ▸ Array.getElem_mem_toList hk, hdupOf⟩
  have hton : t ∈ onStack f pl k :=
    mem_onStack.mpr ⟨ht.1, ht.2.1, ht.2.2.1, emitted_of_duplicated hs htdup⟩
  have hpos : 1 ≤ (onStack f pl k).card := Finset.card_pos.mpr ⟨t, hton⟩
  have hnone : ∀ c ∈ f.childrenOf k, ¬ Emitted pl c := fun c hc => by
    rw [hchildren, hnil] at hc
    cases hc
  rw [card_onStack_succ hw pl k, filter_onStack_of_not_emitted pl hnone,
    if_pos ⟨hval.trans hvalue, Or.inr hkK⟩, check_single heff hpos (remap_isLoadContext hop)]
  congr 2
  omega

/-- Any other replayed instruction takes its operands, which the routine has,
and leaves at most one value. -/
theorem check_replayed (layout : Layout) {k : Nat} (hk : k < f.packets.size) {i : Instruction}
    {pk : Packet} (hpk : f.packets[k] = pk) (hpw : f.PacketWf rv k i pk) (hdup : i.opcode ≠ .dup)
    (hkK : k ∉ pl.skipped) {op : RoutineOp} (hop : remap layout pk.instr = .ok op) :
    [op].foldlM (RoutineOp.check rv) ((onStack f pl k).card, false) =
      some ((onStack f pl (k + 1)).card, false) := by
  obtain ⟨hval, hchildren⟩ := isValue_childrenOf hk hpk
  have harity := hpw.arity
  have hvalue := hpw.value
  rw [if_neg hdup] at harity hvalue
  obtain ⟨hpops, -⟩ := harity
  obtain ⟨n, hpushes, hhas⟩ := hvalue
  have heff : op.effect rv = .ok (pk.children.length, n) := by
    rw [remap_effect hop, hpw.instr, RoutineOp.effect_replay.mpr]
    exact ⟨(Instruction.stackPops_touchCounts _ rv).trans hpops,
      (Instruction.stackPushes_touchCounts _).trans hpushes⟩
  have hn := Instruction.stackPushes_le_one hdup hpushes
  obtain ⟨hle, hcount⟩ := card_onStack_of_emitted hw pl fun c hc => emitted_child hw hs hkK hc
  rw [hchildren] at hle hcount
  rw [card_onStack_succ hw pl k, hchildren, check_single heff hle (remap_isLoadContext hop)]
  have hite : (if Forest.isValue f.packets k = true ∧ Emitted pl k then 1 else 0) = n := by
    rw [hval, hhas]
    by_cases hn0 : 0 < n
    · rw [if_pos ⟨decide_eq_true hn0, Or.inr hkK⟩]
      omega
    · rw [if_neg fun h => hn0 (of_decide_eq_true h.1)]
      omega
  rw [hite]
  congr 2
  omega

/-- The step of the count: the operations for packet `k` take the routine's
stack from the values of `onStack k` to those of `onStack (k + 1)`. -/
theorem check_block (layout : Layout) {k : Nat} (hk : k < f.packets.size)
    {block : List RoutineOp} (hblock : opsOf layout pl k f.packets[k] = .ok block) :
    block.foldlM (RoutineOp.check rv) ((onStack f pl k).card, false) =
      some ((onStack f pl (k + 1)).card, false) := by
  have hkl : k < kept.length := hw.size ▸ hk
  obtain ⟨pk, hget, hpw⟩ := hw.packet k kept[k] (List.getElem?_eq_getElem hkl)
  have hpk : f.packets[k] = pk := by
    simpa [Forest.get?, Array.getElem?_eq_getElem hk] using hget
  unfold opsOf at hblock
  rw [hpk] at hblock
  split at hblock
  · -- A taken argument: its resolution leaves one value, its operands are gone.
    next ty hty =>
    cases hblock
    have hkT := mem_of_lookup_eq_some hty
    rw [card_onStack_succ hw pl k,
      filter_onStack_of_not_emitted pl fun c hc => taken_child hw hs hkT hc,
      if_pos ⟨(taken_lt hw hs hkT).2.1, Or.inl hkT⟩]
    exact check_resolution rv ty _
  next hty =>
  have hkT := not_mem_of_lookup_eq_none hty
  split at hblock
  · -- A packet of a taken argument's expression: dropped, with its operands.
    next hkK =>
    cases hblock
    have hnot : ¬ (Forest.isValue f.packets k = true ∧ Emitted pl k) := fun h =>
      h.2.elim hkT fun h' => h' hkK
    rw [card_onStack_succ hw pl k,
      filter_onStack_of_not_emitted pl fun c hc => skipped_child hw hs hkK hc, if_neg hnot]
    rfl
  -- A replayed packet: one operation, with the counts of its instruction.
  next hkK =>
  obtain ⟨op, hop, hblock⟩ := Except.bind_eq_ok.mp hblock
  rw [Except.pure_eq_ok] at hblock
  subst hblock
  by_cases hdup : kept[k].opcode = .dup
  · exact check_dup hw hs layout hk hpk hpw hdup hkK hop
  · exact check_replayed hw hs layout hk hpk hpw hdup hkK hop

end Blocks

/-! ### Every synthesized routine passes the check -/

/-- The tail `ret`, which consumes the constructed value, is the last packet,
and no taken expression holds it: it is replayed. -/
theorem tail_replayed {rv : Bool} {kept : List Instruction} {f : Forest} {ctor : Nat} {pl : Plan}
    (hw : f.Wf rv kept) (hc : constructed f = .ok ctor) (hs : pl.Sound f ctor) :
    ∃ top pk, f.get? top = some pk ∧ top + 1 = f.packets.size ∧ pk.instr.opcode = .ret ∧
      top ∉ pl.taken.map Prod.fst ∧ top ∉ pl.skipped := by
  obtain ⟨top, pk, htop, hget, hret, hch⟩ := constructed_eq_ok hc
  have htoplt : top < f.packets.size := by
    simp only [Forest.get?] at hget
    exact (Array.getElem?_eq_some_iff.mp hget).1
  have hne : kept ≠ [] := fun h => by
    rw [hw.size, h] at htoplt
    cases htoplt
  -- The top of the finished forest is its last root, the last instruction.
  have htop_eq : top = kept.length - 1 := by
    have := hw.last_root hne
    rw [Forest.top?] at htop
    rw [htop] at this
    exact Option.some.inj this
  have hctor_lt : ctor < top := (hw.child_lt (by simp [Forest.childrenOf, hget, hch])).1
  -- Everything taken, and everything below it, is at most an operand of `ctor`.
  have htopT : top ∉ pl.taken.map Prod.fst := fun h => by
    have := (taken_lt hw hs h).1
    omega
  have htopK : top ∉ pl.skipped := fun h => by
    obtain ⟨a, ha, hat⟩ := (mem_skipped hw hs).mp h
    have := hw.desc_le hat
    have := (taken_lt hw hs ha).1
    omega
  exact ⟨top, pk, hget, by rw [hw.size]; omega, hret, htopT, htopK⟩

/-- The operations of a synthesis pass the check, name only the routine's
arguments, and end with the tail `ret`, replayed. -/
theorem ops_checked {rv : Bool} {kept : List Instruction} {f : Forest} {ctor : Nat} {pl : Plan}
    (hw : f.Wf rv kept) (hc : constructed f = .ok ctor) (hs : pl.Sound f ctor) {layout : Layout}
    {out : List RoutineOp} (hops : ops f layout pl = .ok out) :
    RoutineOp.Checks rv 0 false out ∧ (∀ op ∈ out, op.Within layout) ∧
      ∃ i, out.getLast? = some (.replay i) ∧ i.opcode = .ret := by
  unfold ops at hops
  obtain ⟨each, heach, hout⟩ := Except.bind_eq_ok.mp hops
  rw [Except.pure_eq_ok] at hout
  subst hout
  obtain ⟨hlen, hblocks⟩ := List.forall₂_iff_get.mp (Except.forall₂_of_mapM_eq_ok heach)
  simp only [List.length_zipIdx, Array.length_toList] at hlen
  have hsize := hw.size
  -- Block `j` holds the operations for packet `j`.
  have hblock : ∀ j (hj : j < each.length), opsOf layout pl j f.packets[j] = .ok each[j] := by
    intro j hj
    have := hblocks j (by simp; omega) hj
    simpa [List.getElem_zipIdx] using this
  refine ⟨?_, ?_, ?_⟩
  · -- Block by block, the depth is the number of packets on the stack.
    have hall := foldlM_take_flatten (fun j => ((onStack f pl j).card, false))
      (fun j hj => check_block hw hs layout (by omega) (hblock j hj)) each.length le_rfl
    rw [List.take_length] at hall
    have h0 : (onStack f pl 0).card = 0 := by simp [onStack]
    rw [h0] at hall
    unfold RoutineOp.Checks
    rw [hall]
    rfl
  · intro op hop
    obtain ⟨block, hblk, hop⟩ := List.mem_flatten.mp hop
    obtain ⟨j, hj, rfl⟩ := List.getElem_of_mem hblk
    exact opsOf_within (hblock j hj) op hop
  · -- The last block replays the tail `ret`.
    obtain ⟨top, pk, hget, hsucc, hret, htopT, htopK⟩ := tail_replayed hw hc hs
    have htoplt : top < f.packets.size := by omega
    have hpk : f.packets[top] = pk := by
      simpa [Forest.get?, Array.getElem?_eq_getElem htoplt] using hget
    have hidx : pk.instr.argIndex? = none := by
      simp [Instruction.argIndex?, hret]
    have htop_each : top < each.length := by omega
    have hlast : each[top] = [.replay pk.instr] := by
      have := hblock top (by omega)
      rw [hpk, opsOf, (List.lookup_eq_none_iff.mpr ?_), if_neg htopK, remap_of_argIndex? hidx] at this
      · exact (Except.ok.inj this).symm.trans rfl
      · intro p hp
        simpa using fun h => htopT (List.mem_map.mpr ⟨p, hp, h.symm⟩)
    refine ⟨pk.instr, ?_, hret⟩
    have hsplit : each = each.take top ++ [each[top]] := by
      rw [← List.take_succ_eq_append_getElem, show top + 1 = each.length by omega, List.take_length]
    rw [hsplit, List.flatten_append, List.flatten_singleton, hlast, List.getLast?_append_of_ne_nil _
      (List.cons_ne_nil _ _)]
    rfl

end Synthesis

/-- Every routine a partial application synthesizes passes the static check. -/
theorem synthesize_checked {opts : SynthesisOptions} {d : FactoryDefinition} {r : Routine}
    (h : synthesize opts d = .ok r) : r.Checked := by
  unfold synthesize Synthesis.routineOf at h
  obtain ⟨⟨locals, routineOps, names⟩, hparts, rfl⟩ := Except.map_eq_ok.mp h
  obtain ⟨kept, forest, ctor, pl, params, hbuild, hctor, hplan, hops⟩ :=
    Synthesis.parts_eq_ok hparts
  -- The forest has the builder's shape.
  have hw : forest.Wf (!d.returns.isVoid) kept := by
    unfold Forest.build at hbuild
    obtain ⟨⟨packets, stack⟩, hfold, hf⟩ := Except.bind_eq_ok.mp hbuild
    rw [Except.pure_eq_ok] at hf
    subst hf
    simpa using Forest.foldlM_step_wf kept (Forest.wf_empty _) hfold
  obtain ⟨hchecks, hwithin, hlast⟩ :=
    Synthesis.ops_checked hw hctor (Synthesis.plan_sound hplan) hops
  exact ⟨hchecks, hwithin, hlast⟩

/-! ### Running a synthesized routine -/

/-- A synthesized routine runs safely, whatever the host and the resolver: never
with a stack fault, its operations always finding the values they take, ending
only at a replayed `ret`; and, with no managed pointers given to it, never
missing an argument slot or losing the context. -/
theorem synthesize_run_safe {opts : SynthesisOptions} {d : FactoryDefinition} {r : Routine}
    (h : synthesize opts d = .ok r) {m : Type → Type} [Monad m] [LawfulMonad m]
    (host : Host m) (resolver : Resolver m) : r.RunsSafely host resolver :=
  (synthesize_checked h).runsSafely host resolver

/-- A service constructed with a retry count whose default, 3, the resolver
provides. -/
def serviceCtor : MethodRef :=
  ⟨".ctor", .classType "App.Service", [⟨"retries", .primitive .i4, some (.int 3 .i32)⟩], .void,
    true⟩

/-- `ldc.i4.3; newobj App.Service(int32); ret`. -/
def serviceFactory : FactoryDefinition where
  key := ⟨1, 0x06000001⟩
  body := [0x19, 0x73, 0x01, 0x00, 0x00, 0x0A, 0x2A]
  tokens := ⟨[(0x0A000001, .method serviceCtor)], [(0x0A, 1)]⟩
  target := none
  params := []
  returns := .classType "App.Service"
  locals := []
  localSig := none
  isAsync := false

/-- The routine for `serviceFactory` is synthesized and runs safely. -/
theorem serviceFactory_runs_safely :
    ∃ r, synthesize SynthesisOptions.standard serviceFactory = .ok r ∧
      r.RunsSafely (HostScript.host ⟨[], [], true⟩) (ResolverScript.resolver ⟨[], []⟩) := by
  have hok : (synthesize SynthesisOptions.standard serviceFactory).toBool = true := by
    decide +kernel
  cases h : synthesize SynthesisOptions.standard serviceFactory with
  | ok r => exact ⟨r, rfl, synthesize_run_safe h _ _⟩
  | error e =>
    rw [h] at hok
    cases hok

end CilBind
