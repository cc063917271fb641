import CilBind.Proofs.ReplayStack
import CilBind.Run.Scripted

/-!
# `CilBind.Proofs.Substitution`: what partial application changes in a routine

`synthesize` and `Synthesis.verbatim` run the same pipeline on a factory. They
decode and keep the same body, build the same forest and find the same
constructed packet. Only the plan differs: the verbatim routine takes nothing
from the resolver and replays every packet. This module relates the two
routines and their runs.

* `Synthesis.Plan.apply pl ops`: the operations of the verbatim routine with
  the plan's substitutions made. A taken argument's packet becomes a
  resolution, the rest of its expression disappears, and every other packet
  keeps its operation.
* `Synthesis.ops_empty_apply`: laying out a forest with a plan gives the plan
  applied to the layout with the empty plan.
* `RoutineOp.ConstructsNothing`: an operation that never asks the host to
  construct an instance. Every operation of a resolution is one
  (`resolution_constructsNothing`).
* `substituted_composite_divergence`: the routine `synthesize` makes is the
  verbatim routine with the plan applied. The verbatim routine replays the
  forest, so every run of it that reaches a decimal composite finds the
  composite's five literals on its stack. The construction then asks the host
  for the decimal whenever one operand is an `ldc.i8` load. The partially
  applied routine resolves a taken argument instead, with no construction.
-/

set_option autoImplicit false

namespace CilBind

namespace Synthesis

/-! ### The plan applied to the verbatim operations -/

/-- What the plan puts in place of `x.1`, the operation for packet `x.2`: a
resolution for a taken argument, nothing for a packet of a taken argument's
expression, and the operation itself otherwise. -/
def Plan.substitute (pl : Plan) (x : RoutineOp × Nat) : List RoutineOp :=
  match pl.taken.lookup x.2 with
  | some ty => resolution ty
  | none => if x.2 ∈ pl.skipped then [] else [x.1]

/-- The plan applied to a list of operations whose `k`th is the one for packet `k`. -/
def Plan.apply (pl : Plan) (ops : List RoutineOp) : List RoutineOp :=
  ops.zipIdx.flatMap pl.substitute

/-- A packet whose instruction moves to the layout gives, under any plan, what
the plan puts in place of the moved instruction. -/
theorem opsOf_of_remap {layout : Layout} {pl : Plan} {k : Nat} {p : Packet} {op : RoutineOp}
    (h : remap layout p.instr = .ok op) : opsOf layout pl k p = .ok (pl.substitute (op, k)) := by
  dsimp only [opsOf, Plan.substitute]
  cases pl.taken.lookup k with
  | some ty => rfl
  | none =>
    by_cases hs : k ∈ pl.skipped
    · simp [hs]
    · simp [hs, h, bind, Except.bind, pure, Except.pure]

/-- Under the empty plan a packet gives its instruction moved to the layout. -/
theorem opsOf_empty_eq_ok {layout : Layout} {k : Nat} {p : Packet} {each : List RoutineOp}
    (h : opsOf layout ⟨[], [], []⟩ k p = .ok each) :
    ∃ op, remap layout p.instr = .ok op ∧ each = [op] := by
  simp only [opsOf, List.lookup_nil, List.not_mem_nil, ↓reduceIte] at h
  obtain ⟨op, hop, h⟩ := Except.bind_eq_ok.mp h
  exact ⟨op, hop, (Except.pure_eq_ok.mp h).symm⟩

/-- The loop of `ops` from packet number `n` on, under the empty plan and under
any plan `pl`. The first gives each packet's instruction moved to the layout;
the second then succeeds too, with the plan applied to the first. -/
theorem mapM_opsOf_apply {layout : Layout} (pl : Plan)
    {F G : Packet × Nat → Except SynthesisError (List RoutineOp)}
    (hF : ∀ x, F x = opsOf layout ⟨[], [], []⟩ x.2 x.1) (hG : ∀ x, G x = opsOf layout pl x.2 x.1) :
    ∀ (ps : List Packet) (n : Nat) {each₀ : List (List RoutineOp)},
      (ps.zipIdx n).mapM F = .ok each₀ →
      List.Forall₂ (fun p op => remap layout p.instr = .ok op) ps each₀.flatten ∧
      ∃ each, (ps.zipIdx n).mapM G = .ok each ∧
        each.flatten = (each₀.flatten.zipIdx n).flatMap pl.substitute
  | [], n, each₀, h => by
    simp only [List.zipIdx_nil, List.mapM_nil, Except.pure_eq_ok] at h
    subst h
    exact ⟨.nil, [], rfl, rfl⟩
  | p :: ps, n, each₀, h => by
    simp only [List.zipIdx_cons, List.mapM_cons] at h
    obtain ⟨e, he, h⟩ := Except.bind_eq_ok.mp h
    obtain ⟨es, hes, h⟩ := Except.bind_eq_ok.mp h
    rw [Except.pure_eq_ok] at h
    subst h
    rw [hF] at he
    obtain ⟨op, hop, rfl⟩ := opsOf_empty_eq_ok he
    obtain ⟨hrest, each, hmap, hflat⟩ := mapM_opsOf_apply pl hF hG ps (n + 1) hes
    refine ⟨.cons hop hrest, pl.substitute (op, n) :: each, ?_, ?_⟩
    · simp [List.zipIdx_cons, List.mapM_cons, hG, opsOf_of_remap hop, hmap]
    · simp [hflat, List.zipIdx_cons]

/-- Laying out a forest under the empty plan moves every packet's instruction
to the layout, in order; under any plan it then gives the plan applied to
those operations. -/
theorem ops_empty_apply {f : Forest} {layout : Layout} {ops₀ : List RoutineOp}
    (h : ops f layout ⟨[], [], []⟩ = .ok ops₀) :
    List.Forall₂ (fun p op => remap layout p.instr = .ok op) f.packets.toList ops₀ ∧
      ∀ pl : Plan, ops f layout pl = .ok (pl.apply ops₀) := by
  unfold ops at h ⊢
  obtain ⟨each₀, hmap, h⟩ := Except.bind_eq_ok.mp h
  rw [Except.pure_eq_ok] at h
  subst h
  refine ⟨(mapM_opsOf_apply ⟨[], [], []⟩ (fun _ => rfl) (fun _ => rfl) _ 0 hmap).1, fun pl => ?_⟩
  obtain ⟨-, each, hmap', hflat⟩ :=
    mapM_opsOf_apply pl (fun _ => rfl) (fun _ => rfl) f.packets.toList 0 hmap
  simp only [hmap', bind, Except.bind, pure, Except.pure, hflat, Plan.apply]

/-- A routine whose operations are the packets' instructions moved to its
layout replays the forest. -/
theorem replaysForest_of_forall₂ {r : Routine} {f : Forest}
    (h : List.Forall₂ (fun p op => remap r.layout p.instr = .ok op) f.packets.toList r.ops) :
    ReplaysForest r f where
  length := by rw [← h.length_eq, Array.length_toList]
  op k p hp := by
    have hk : k < f.packets.toList.length := by
      simpa using (Array.getElem?_eq_some_iff.mp hp).1
    have hk' : k < r.ops.length := h.length_eq ▸ hk
    refine ⟨r.ops[k], List.getElem?_eq_getElem hk', ?_⟩
    have hget : f.packets.toList[k] = p := by
      simpa [Forest.get?, Array.getElem_toList] using (Array.getElem?_eq_some_iff.mp hp).2
    simpa [hget] using List.forall₂_iff_get.mp h |>.2 k hk hk'

end Synthesis

/-! ### Operations that construct nothing -/

/-- Operation `op` never asks the host to construct an instance: it runs the
same whatever the host's constructor does. -/
def RoutineOp.ConstructsNothing (op : RoutineOp) : Prop :=
  ∀ {m : Type → Type} [Monad m] (host : Host m) (construct : MethodRef → List Value → m (Except String Value))
    (resolver : Resolver m) (r : Routine) (g : Frame),
    Run.operation { host with construct } resolver r g op = Run.operation host resolver r g op

/-- A resolution loads the context, asks the resolver and may unbox: none of
it constructs. -/
theorem resolution_constructsNothing (ty : TypeRef) :
    ∀ op ∈ Synthesis.resolution ty, op.ConstructsNothing := by
  intro op hop m _ host construct resolver r g
  simp only [Synthesis.resolution, List.cons_append, List.mem_cons, List.nil_append] at hop
  rcases hop with rfl | rfl | hop
  · rfl
  · rfl
  · split at hop
    · rw [List.mem_singleton.mp hop]
      rfl
    · simp at hop

/-! ### The two routines of a factory -/

/-- The routine `synthesize` makes for `d` is the routine `Synthesis.verbatim`
makes with the plan for the forest of `d` applied. The verbatim routine replays
that forest. The plan's resolutions construct nothing. Every run of the
verbatim routine that reaches a decimal composite of the forest finds its five
literal values on top of the stack, and constructing it then asks the host for
the decimal whenever one operand is an `ldc.i8` load. Otherwise it pushes the
recognized decimal. -/
theorem substituted_composite_divergence {opts : SynthesisOptions} {d : FactoryDefinition}
    {R R₀ : Routine} (hR : synthesize opts d = .ok R) (hR₀ : Synthesis.verbatim opts d = .ok R₀) :
    ∃ kept f ctor params pl,
      ((decodeBody d.tokens d.body).mapError SynthesisError.decode >>=
        Synthesis.replayable opts) = .ok kept ∧
      Forest.build (!d.returns.isVoid) kept = .ok f ∧ Synthesis.constructed f = .ok ctor ∧
      Synthesis.plan (Recognizer.ofForest f opts.recognizeStructDefaults)
        (Synthesis.duplicated f) (f.childrenOf ctor) params = .ok pl ∧
      Synthesis.ReplaysForest R₀ f ∧ R.ops = pl.apply R₀.ops ∧
      (∀ ty ∈ pl.taken.map Prod.snd, ∀ op ∈ Synthesis.resolution ty, op.ConstructsNothing) ∧
      ∀ a ∈ pl.taken.map Prod.fst, ∀ dec, f.composite a = .ok (some dec) →
        ∀ {m : Type → Type} [Monad m] [LawfulMonad m] (host : Host m) (resolver : Resolver m)
          (g₀ g : Frame), g₀.stack = [] → Run.Reaches host resolver R₀ g₀ R₀.ops g (R₀.ops.drop a) →
          ∃ p ctor rest, f.get? a = some p ∧ R₀.ops[a]? = some (.replay p.instr) ∧
            (∃ t, p.instr.token? = some t ∧ t.method = .ok ctor) ∧ ctor.declaring = .decimal ∧
            g.stack = (f.operandValues p.children).reverse ++ rest ∧
            Run.operation host resolver R₀ g (.replay p.instr) =
              if p.children.any f.isWideLoad then
                (fun v => Step.next ({ g with stack := rest }.push v)) <$>
                  Run.viaHost (host.construct ctor (f.operandValues p.children))
              else pure (.next ({ g with stack := rest }.push (.decimal dec))) := by
  obtain ⟨out, hp, -, -, hops⟩ := Synthesis.routineOf_eq_ok hR
  obtain ⟨out₀, hp₀, hlayout₀, hreturns₀, hops₀⟩ := Synthesis.routineOf_eq_ok hR₀
  obtain ⟨kept, f, ctor, params, pl, hkept, hf, hctor, hpl, hlaid⟩ := Synthesis.parts_stages hp
  obtain ⟨kept₀, f₀, _, _, pl₀, hkept₀, hf₀, _, hpl₀, hlaid₀⟩ := Synthesis.parts_stages hp₀
  -- both flags keep the same body, hence build the same forest
  obtain rfl : kept = kept₀ := Except.ok.inj (hkept.symm.trans hkept₀)
  obtain rfl : f = f₀ := Except.ok.inj (hf.symm.trans hf₀)
  obtain rfl : pl₀ = ⟨[], [], []⟩ := (Except.ok.inj hpl₀).symm
  rw [← hops₀] at hlaid₀
  obtain ⟨hfa, happly⟩ := Synthesis.ops_empty_apply hlaid₀
  have hrep : Synthesis.ReplaysForest R₀ f := Synthesis.replaysForest_of_forall₂ (hlayout₀ ▸ hfa)
  have hw : f.Wf (!R₀.returns.isVoid) kept := hreturns₀ ▸ Forest.build_wf hf
  refine ⟨kept, f, ctor, params, pl, hkept, hf, hctor, hpl, hrep,
    hops.trans (Except.ok.inj (hlaid.symm.trans (happly pl))), ?_, ?_⟩
  · intro ty _
    exact resolution_constructsNothing ty
  · intro a _ dec hd m _ _ host resolver g₀ g h₀ hreach
    exact hrep.replay_composite_reached hw (Forest.build_takesTopmost hf) hd h₀ hreach

/-- The constructions a scripted run asked the host for, by type name and
argument count. -/
def Recording.constructions (rec : Recording) : List (String × Nat) :=
  rec.events.filterMap fun
    | .construct typeName argc => some (typeName, argc)
    | _ => none

/-- A service constructor whose one parameter defaults to the decimal zero. -/
def amountCtor : MethodRef :=
  ⟨MethodRef.ctorName, .classType "App.Service",
    [⟨"amount", .decimal, some (.decimal ⟨0, 0, 0, false, 0⟩)⟩], .void, true⟩

/-- The factory `ctx => new App.Service(new decimal(0L, 0, 0, false, 0))`, whose
low word is loaded with `ldc.i8`. -/
def wideZeroService : FactoryDefinition where
  key := ⟨1, 1⟩
  body := [0x21, 0, 0, 0, 0, 0, 0, 0, 0, 0x16, 0x16, 0x16, 0x16, 0x73, 0x02, 0, 0, 0x0A,
    0x73, 0x01, 0, 0, 0x0A, 0x2A]
  tokens := ⟨[(0x0A000002, .method Forest.decimalParts), (0x0A000001, .method amountCtor)],
    [(0x0A, 2)]⟩
  target := none
  params := [⟨"ctx", .classType "App.Context", none⟩]
  returns := .classType "App.Service"
  locals := []
  localSig := none
  isAsync := false

/-- A call with a null context and a resolver that gives the decimal zero. -/
def wideZeroCall : Invocation :=
  ⟨.null, [.null], ⟨[], [], false⟩, ⟨[("System.Decimal", .decimal ⟨0, 0, 0, false, 0⟩)], []⟩⟩

/-- A computation whose optional result maps to `some b` succeeded, with a
result that maps to `b`. -/
theorem Except.exists_ok_of_toOption_map {ε α β : Type} {x : Except ε α} {F : α → β} {b : β}
    (h : x.toOption.map F = some b) : ∃ a, x = .ok a ∧ F a = b := by
  cases x with
  | error e => simp [Except.toOption] at h
  | ok a => exact ⟨a, rfl, by simpa [Except.toOption] using h⟩

/-- On `wideZeroService` both routines exist and relate as
`substituted_composite_divergence` says. The verbatim routine asks the host
for a five-argument decimal before the service. The partially applied routine
asks for the service only. -/
theorem wideZeroService_substitution :
    ∃ R R₀, synthesize .standard wideZeroService = .ok R ∧
      Synthesis.verbatim .standard wideZeroService = .ok R₀ ∧
      (∃ f, ∃ pl : Synthesis.Plan, Synthesis.ReplaysForest R₀ f ∧ R.ops = pl.apply R₀.ops) ∧
      (wideZeroCall.run R₀ none 0).2.constructions = [("System.Decimal", 5), ("App.Service", 1)] ∧
      (wideZeroCall.run R none 0).2.constructions = [("App.Service", 1)] := by
  have hrun : (synthesize .standard wideZeroService).toOption.map
      (fun R => (wideZeroCall.run R none 0).2.constructions) = some [("App.Service", 1)] := by
    decide +kernel
  have hrun₀ : (Synthesis.verbatim .standard wideZeroService).toOption.map
      (fun R₀ => (wideZeroCall.run R₀ none 0).2.constructions) =
        some [("System.Decimal", 5), ("App.Service", 1)] := by
    decide +kernel
  obtain ⟨R, hR, hev⟩ := Except.exists_ok_of_toOption_map hrun
  obtain ⟨R₀, hR₀, hev₀⟩ := Except.exists_ok_of_toOption_map hrun₀
  obtain ⟨-, f, -, -, pl, -, -, -, -, hrep, happly, -⟩ := substituted_composite_divergence hR hR₀
  exact ⟨R, R₀, hR, hR₀, ⟨f, pl, hrep, happly⟩, hev₀, hev⟩

end CilBind
