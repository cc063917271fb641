import Mathlib

/-!
# `CilBind.Proofs.Outcome`: what a computation can end with

The pipeline is written in `Except`, and a run of a routine in `ExceptT` over
the host's monad, which is arbitrary. This module gives the two vocabularies the
proofs about them share.

* `Except.bind_eq_ok` and its neighbours take a successful `Except` pipeline
  apart, step by step, without unfolding the monad each time.
* `Ensures p x`: every result `x` can give satisfies `p`. It says nothing about
  how `x` gets there, so it holds of computations in any monad, with a host that
  answers anything. It holds exactly when `x` can be rebuilt from a computation
  whose results carry a proof of `p`; `Ensures.bind` and `Ensures.run_bind`
  compose it along a `do` block, and `Ensures.imp` weakens it.
* `Possible x a`: `x` may end with `a`, as no `Ensures` statement rules it out.
  What `x` ensures holds of every possible result (`Ensures.of_possible`).

The readers of method bodies and signature blobs are written in `EStateM`, a
state and error monad whose failures keep the state. `EStateM.bind_apply_eq_ok`
and `EStateM.bind_apply_eq_error` take a run of a `do` block apart at a given
start state, in the same way as `Except.bind_eq_ok`.
-/

set_option autoImplicit false

namespace Except

variable {ε ε' α β : Type}

/-- A pipeline succeeded exactly when its first step did and the rest did on
that step's result. -/
@[simp] theorem bind_eq_ok {x : Except ε α} {f : α → Except ε β} {b : β} :
    x >>= f = .ok b ↔ ∃ a, x = .ok a ∧ f a = .ok b := by
  cases x with
  | error e => simp [bind, Except.bind]
  | ok a => simp [bind, Except.bind]

/-- A returned value is the result. -/
@[simp] theorem pure_eq_ok {a b : α} : (pure a : Except ε α) = .ok b ↔ a = b := by
  simp [pure, Except.pure]

/-- A mapped computation succeeded with the image of a result of the original. -/
@[simp] theorem map_eq_ok {x : Except ε α} {g : α → β} {b : β} :
    g <$> x = .ok b ↔ ∃ a, x = .ok a ∧ g a = b := by
  cases x with
  | error e => simp [Functor.map, Except.map]
  | ok a => simp [Functor.map, Except.map]

/-- Mapping a result keeps the error. -/
@[simp] theorem map_eq_error {x : Except ε α} {g : α → β} {e : ε} :
    g <$> x = .error e ↔ x = .error e := by
  cases x with
  | error e' => simp [Functor.map, Except.map]
  | ok a => simp [Functor.map, Except.map]

/-- Renaming the errors keeps every success as it is. -/
@[simp] theorem mapError_eq_ok {x : Except ε α} {g : ε → ε'} {a : α} :
    x.mapError g = .ok a ↔ x = .ok a := by
  cases x with
  | error e => simp [Except.mapError]
  | ok a => simp [Except.mapError]

/-- A successful `mapM` succeeds on every element, in order. -/
theorem forall₂_of_mapM_eq_ok {g : α → Except ε β} :
    ∀ {l : List α} {out : List β}, l.mapM g = .ok out → List.Forall₂ (fun a b => g a = .ok b) l out
  | [], out, h => by
    rw [List.mapM_nil, pure_eq_ok] at h
    subst h
    exact .nil
  | a :: l, out, h => by
    rw [List.mapM_cons] at h
    obtain ⟨b, hb, h⟩ := bind_eq_ok.mp h
    obtain ⟨bs, hbs, h⟩ := bind_eq_ok.mp h
    rw [pure_eq_ok] at h
    subst h
    exact .cons hb (forall₂_of_mapM_eq_ok hbs)

end Except

namespace EStateM

variable {ε σ α β : Type}

/-- A run of a `do` block succeeded exactly when its first step did, and the
rest did from the state the first step left. -/
@[simp] theorem bind_apply_eq_ok {x : EStateM ε σ α} {f : α → EStateM ε σ β} {s s' : σ} {b : β} :
    (x >>= f) s = .ok b s' ↔ ∃ a s₁, x s = .ok a s₁ ∧ f a s₁ = .ok b s' := by
  show EStateM.bind x f s = _ ↔ _
  unfold EStateM.bind
  cases x s <;> simp [and_assoc]

/-- A failed run failed in the first step, or in the rest after a first step
that succeeded. -/
theorem bind_apply_eq_error {x : EStateM ε σ α} {f : α → EStateM ε σ β} {s s' : σ} {e : ε} :
    (x >>= f) s = .error e s' ↔ x s = .error e s' ∨ ∃ a s₁, x s = .ok a s₁ ∧ f a s₁ = .error e s' := by
  show EStateM.bind x f s = _ ↔ _
  unfold EStateM.bind
  cases x s <;> simp [and_assoc]

/-- A run whose first step succeeds goes on with the rest. -/
theorem bind_apply_of_ok {x : EStateM ε σ α} {f : α → EStateM ε σ β} {s s₁ : σ} {a : α}
    (h : x s = .ok a s₁) : (x >>= f) s = f a s₁ := by
  show EStateM.bind x f s = _
  unfold EStateM.bind
  rw [h]

/-- A returned value leaves the state as it is. -/
@[simp] theorem pure_apply {a : α} {s : σ} : (pure a : EStateM ε σ α) s = .ok a s := rfl

/-- Reading the state returns it and keeps it. -/
@[simp] theorem get_apply {s : σ} : (get : EStateM ε σ σ) s = .ok s s := rfl

/-- A failure keeps the state it happened in. -/
@[simp] theorem throw_apply {e : ε} {s : σ} : (throw e : EStateM ε σ α) s = .error e s := rfl

end EStateM

namespace CilBind

/-- Every result `x` can give satisfies `p`: `x` is the image of a computation
whose results come with a proof of `p`. -/
def Ensures {m : Type → Type} [Functor m] {α : Type} (p : α → Prop) (x : m α) : Prop :=
  ∃ y : m {a // p a}, Subtype.val <$> y = x

/-- `x` may end with `a`: no property of all its results rules `a` out. -/
def Possible {m : Type → Type} [Functor m] {α : Type} (x : m α) (a : α) : Prop :=
  ¬ Ensures (· ≠ a) x

namespace Ensures

variable {m : Type → Type} [Monad m] [LawfulMonad m] {α β : Type}

/-- A returned value that has the property ensures it. -/
theorem pure {p : α → Prop} {a : α} (h : p a) : Ensures p (Pure.pure a : m α) :=
  ⟨Pure.pure ⟨a, h⟩, by simp⟩

/-- A property of every value holds of every result. -/
theorem of_forall {p : α → Prop} (x : m α) (h : ∀ a, p a) : Ensures p x :=
  ⟨(fun a => ⟨a, h a⟩) <$> x, by simp [Functor.map_map]⟩

/-- What a computation ensures, every consequence of it is ensured too. -/
theorem imp {p q : α → Prop} {x : m α} (hx : Ensures p x) (hpq : ∀ a, p a → q a) :
    Ensures q x := by
  obtain ⟨y, rfl⟩ := hx
  exact ⟨(fun a => ⟨a.1, hpq a.1 a.2⟩) <$> y, by simp [Functor.map_map]⟩

/-- Mapping the results carries a property along a function that takes it to
another. -/
theorem map {p : α → Prop} {q : β → Prop} {x : m α} {g : α → β} (hx : Ensures p x)
    (hg : ∀ a, p a → q (g a)) : Ensures q (g <$> x) := by
  obtain ⟨y, rfl⟩ := hx
  exact ⟨(fun a => ⟨g a.1, hg a.1 a.2⟩) <$> y, by simp [Functor.map_map]⟩

/-- Composition along a bind: the continuation need only be sound on results
that have the first step's property. -/
theorem bind {p : α → Prop} {q : β → Prop} {x : m α} {f : α → m β} (hx : Ensures p x)
    (hf : ∀ a, p a → Ensures q (f a)) : Ensures q (x >>= f) := by
  obtain ⟨y, rfl⟩ := hx
  -- Pick, for each result of `y`, a computation that rebuilds the continuation.
  choose g hg using hf
  refine ⟨y >>= fun a => g a.1 a.2, ?_⟩
  simp only [map_bind, bind_map_left, hg]

/-- A property that every result has, and that rules `a` out, rules `a` out. -/
theorem ne_of_not {p : α → Prop} {x : m α} {a : α} (hx : Ensures p x) (ha : ¬ p a) :
    Ensures (· ≠ a) x :=
  hx.imp fun _ hb hba => ha (hba ▸ hb)

/-- What every result satisfies, a possible result satisfies. -/
theorem of_possible {p : α → Prop} {x : m α} {a : α} (hx : Ensures p x) (ha : Possible x a) :
    p a :=
  by_contra fun hp => ha (hx.ne_of_not hp)

section ExceptT

variable {ε : Type}

/-- Composition along a bind of `ExceptT`: the first step's errors end the run
as they are. -/
theorem run_bind {p : Except ε α → Prop} {q : Except ε β → Prop} {x : ExceptT ε m α}
    {f : α → ExceptT ε m β} (hx : Ensures p x.run)
    (hok : ∀ a, p (.ok a) → Ensures q (f a).run) (herr : ∀ e, p (.error e) → q (.error e)) :
    Ensures q (x >>= f).run := by
  rw [ExceptT.run_bind]
  refine hx.bind fun r hr => ?_
  cases r with
  | ok a => exact hok a hr
  | error e => exact Ensures.pure (herr e hr)

/-- A value returned in `ExceptT` ends the run with that success. -/
theorem run_pure {q : Except ε α → Prop} {a : α} (h : q (.ok a)) :
    Ensures q (Pure.pure a : ExceptT ε m α).run := by
  rw [ExceptT.run_pure]
  exact Ensures.pure h

/-- A thrown error in `ExceptT` ends the run with that error. -/
theorem run_throw {q : Except ε α → Prop} {e : ε} (h : q (.error e)) :
    Ensures q (throw e : ExceptT ε m α).run := by
  rw [ExceptT.run_throw]
  exact Ensures.pure h

end ExceptT

end Ensures

end CilBind
