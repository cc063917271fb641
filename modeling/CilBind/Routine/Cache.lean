import CilBind.Routine.Synthesis

/-!
# `CilBind.Routine.Cache`: partially applied factories, each made once

A cache keeps one routine per factory key, under the options it was made with.
A request for a key it holds gets the routine it holds, whatever the body of
the definition asking; a request for a new key synthesizes the routine and
keeps it, unless synthesis fails, which leaves the cache as it was.

Each kept routine carries its serial number: the number of routines kept
before it. Two answers are the same routine exactly when their serials agree.

Main statements:

* `cached_synthesize`: after a successful request, the key holds the answer.
* `synthesize_cached`: a request for a key the cache holds answers with what it
  holds and changes nothing.
-/

set_option autoImplicit false

namespace CilBind

/-- A routine kept by a cache, with its serial number. -/
structure CachedRoutine where
  serial : Nat
  routine : Routine

/-- The routines made so far, oldest first, under one set of options. -/
structure RoutineCache where
  options : SynthesisOptions
  entries : List CachedRoutine

namespace RoutineCache

/-- An empty cache. -/
def empty (options : SynthesisOptions) : RoutineCache := ⟨options, []⟩

/-- How many routines the cache holds. -/
def size (c : RoutineCache) : Nat := c.entries.length

/-- Whether the cache holds no routine. -/
def isEmpty (c : RoutineCache) : Bool := c.entries.isEmpty

/-- The routine kept for a key. -/
def cached (c : RoutineCache) (key : FactoryKey) : Option CachedRoutine :=
  c.entries.find? (fun e => e.routine.key = key)

/-- The routine for a factory: the one kept for its key, else a new one, kept. -/
def synthesize (c : RoutineCache) (d : FactoryDefinition) :
    Except SynthesisError (CachedRoutine × RoutineCache) :=
  match c.cached d.key with
  | some e => .ok (e, c)
  | none => do
    let r ← CilBind.synthesize c.options d
    let e : CachedRoutine := ⟨c.size, r⟩
    return (e, { c with entries := c.entries ++ [e] })

/-- The routine for a factory, bound to the factory's target. -/
def apply (c : RoutineCache) (d : FactoryDefinition) :
    Except SynthesisError ((CachedRoutine × Option Value) × RoutineCache) := do
  let (e, c) ← c.synthesize d
  return ((e, d.target), c)

theorem synthesize_cached (c : RoutineCache) (d : FactoryDefinition) (e : CachedRoutine)
    (h : c.cached d.key = some e) : c.synthesize d = .ok (e, c) := by
  simp [synthesize, h]

theorem cached_synthesize (c c' : RoutineCache) (d : FactoryDefinition) (e : CachedRoutine)
    (h : c.synthesize d = .ok (e, c')) : c'.cached d.key = some e := by
  unfold synthesize at h
  split at h
  · simp only [Except.ok.injEq, Prod.mk.injEq] at h
    obtain ⟨rfl, rfl⟩ := h
    assumption
  · rename_i hnone
    simp only [bind, Except.bind] at h
    split at h
    · contradiction
    · rename_i r hr
      simp only [pure, Except.pure, Except.ok.injEq, Prod.mk.injEq] at h
      obtain ⟨rfl, rfl⟩ := h
      have hk := CilBind.synthesize_key c.options d r hr
      simp only [cached, List.find?_append]
      simp only [cached] at hnone
      simp [hnone, hk]

end RoutineCache

end CilBind
