import CilBind.Proofs.Outcome
import CilBind.Routine.Cache

/-!
# `CilBind.Proofs.CacheSession`: one routine per key, over whole sessions

A session serves requests one at a time from one cache that starts empty:
`synthesize` asks for the routine of a factory, `apply` for that routine bound
to the factory's target. `RoutineCache.serve` answers one request. A failed
request keeps the cache it found, since the cache keeps a routine only once its
synthesis has succeeded. `RoutineCache.serveAll` folds `serve` over the
requests, and `RoutineCache.served` lists the key and routine of every request
that succeeded.

Main statements, over every session:

* `serveAll_memoizes`: once a request for a key has succeeded, every later
  `synthesize` for that key answers with the same routine and changes nothing,
  whatever the factory asking; a failed request changes nothing; the cache
  holds one routine for each key some request succeeded for; routines answered
  for different keys are different routines; and `apply` answers with the
  routine kept for the key, bound to the factory's own target.

## How the proof goes

A request either leaves the cache as it was or appends one routine under a key
no routine had, numbered after the others (`serve_cases`). So routines are only
ever appended (`cached_serve_of_cached`), and every cache a session reaches is
`Numbered`: routine `i` has serial `i`, and no two routines share a key. In a
numbered cache equal serials mean the same routine (`Numbered.eq_of_serial_eq`),
which separates the routines of different keys.
-/

set_option autoImplicit false

namespace CilBind

namespace RoutineCache

/-! ### Sessions -/

/-- A request to a cache. -/
inductive Request where
  /-- The routine of a factory. -/
  | synthesize (d : FactoryDefinition)
  /-- The routine of a factory, bound to the factory's target. -/
  | apply (d : FactoryDefinition)

/-- What a successful request answers. -/
inductive Reply where
  | routine (e : CachedRoutine)
  | bound (e : CachedRoutine) (target : Option Value)

/-- The factory a request names. -/
def Request.definition : Request → FactoryDefinition
  | .synthesize d | .apply d => d

/-- The reply to a request when its factory's routine is `e`. -/
def Request.reply : Request → CachedRoutine → Reply
  | .synthesize _, e => .routine e
  | .apply d, e => .bound e d.target

/-- The routine a reply carries. -/
def Reply.entry : Reply → CachedRoutine
  | .routine e | .bound e _ => e

/-- Serves one request: the reply, and the cache after it. -/
def serve (c : RoutineCache) : Request → Except SynthesisError Reply × RoutineCache
  | .synthesize d =>
    match c.synthesize d with
    | .ok (e, c') => (.ok (.routine e), c')
    | .error err => (.error err, c)
  | .apply d =>
    match c.apply d with
    | .ok ((e, target), c') => (.ok (.bound e target), c')
    | .error err => (.error err, c)

/-- The cache after serving the requests in order. -/
def serveAll (c : RoutineCache) (rs : List Request) : RoutineCache :=
  rs.foldl (fun c r => (c.serve r).2) c

/-- The key and routine of every request that succeeded, in order. -/
def served (c : RoutineCache) : List Request → List (FactoryKey × CachedRoutine)
  | [] => []
  | r :: rs =>
    match c.serve r with
    | (.ok a, c') => (r.definition.key, a.entry) :: served c' rs
    | (.error _, c') => served c' rs

/-- The keys of the routines a cache holds, oldest first. -/
def keys (c : RoutineCache) : List FactoryKey := c.entries.map fun e => e.routine.key

/-- Routine `i` of the cache has serial `i`, and no two routines share a key. -/
structure Numbered (c : RoutineCache) : Prop where
  serials : c.entries.map CachedRoutine.serial = List.range c.size
  keys : c.keys.Nodup

/-! ### Looking a key up -/

/-- A routine the cache finds under a key is one of its entries, made for that key. -/
theorem cached_eq_some {c : RoutineCache} {k : FactoryKey} {e : CachedRoutine}
    (h : c.cached k = some e) : e ∈ c.entries ∧ e.routine.key = k :=
  ⟨List.mem_of_find?_eq_some h, by simpa using List.find?_some h⟩

/-- The cache finds nothing under exactly the keys it holds no routine for. -/
theorem cached_eq_none_iff {c : RoutineCache} {k : FactoryKey} :
    c.cached k = none ↔ k ∉ c.keys := by
  simp [cached, keys, List.find?_eq_none]

/-- A key the cache finds a routine under is one of its keys. -/
theorem mem_keys_of_cached {c : RoutineCache} {k : FactoryKey} {e : CachedRoutine}
    (h : c.cached k = some e) : k ∈ c.keys := by
  obtain ⟨hmem, hkey⟩ := cached_eq_some h
  exact List.mem_map.mpr ⟨e, hmem, hkey⟩

/-- A routine found stays found when routines are appended. -/
theorem cached_append {c : RoutineCache} {k : FactoryKey} {e : CachedRoutine}
    (h : c.cached k = some e) (more : List CachedRoutine) :
    (⟨c.options, c.entries ++ more⟩ : RoutineCache).cached k = some e := by
  simp only [cached] at h ⊢
  rw [List.find?_append, h, Option.some_or]

/-! ### One request -/

/-- A successful synthesis either answers with the routine kept for the key and
keeps the cache, or keeps a new routine, numbered after the others, for a key
the cache did not hold. -/
theorem synthesize_eq_ok {c c' : RoutineCache} {d : FactoryDefinition} {e : CachedRoutine}
    (h : c.synthesize d = .ok (e, c')) :
    (c.cached d.key = some e ∧ c' = c) ∨
      (c.cached d.key = none ∧ e.serial = c.size ∧ e.routine.key = d.key ∧
        c' = ⟨c.options, c.entries ++ [e]⟩) := by
  unfold synthesize at h
  split at h
  · rename_i e₀ hfound
    simp only [Except.ok.injEq, Prod.mk.injEq] at h
    obtain ⟨rfl, rfl⟩ := h
    exact Or.inl ⟨hfound, rfl⟩
  · rename_i hnone
    obtain ⟨r, hr, h⟩ := Except.bind_eq_ok.mp h
    simp only [Except.pure_eq_ok, Prod.mk.injEq] at h
    obtain ⟨rfl, rfl⟩ := h
    exact Or.inr ⟨hnone, rfl, synthesize_key c.options d r hr, rfl⟩

/-- Serving a request runs `synthesize` on its factory. -/
theorem serve_of_ok {c c' : RoutineCache} {r : Request} {e : CachedRoutine}
    (h : c.synthesize r.definition = .ok (e, c')) : c.serve r = (.ok (r.reply e), c') := by
  cases r with
  | synthesize d => simp only [Request.definition] at h; simp [serve, h, Request.reply]
  | apply d => simp only [Request.definition] at h; simp [serve, apply, h, Request.reply]

/-- A request whose synthesis fails answers with the failure and keeps the cache. -/
theorem serve_of_error {c : RoutineCache} {r : Request} {err : SynthesisError}
    (h : c.synthesize r.definition = .error err) : c.serve r = (.error err, c) := by
  cases r with
  | synthesize d => simp only [Request.definition] at h; simp [serve, h]
  | apply d => simp only [Request.definition] at h; simp [serve, apply, h]

/-- A failed request keeps the cache it found. -/
theorem serve_error {c : RoutineCache} {r : Request} {err : SynthesisError}
    (h : (c.serve r).1 = .error err) : (c.serve r).2 = c := by
  cases hs : c.synthesize r.definition with
  | ok p => rw [serve_of_ok hs] at h; cases h
  | error err' => rw [serve_of_error hs]

/-- After a successful request, the cache holds the routine it answered with. -/
theorem cached_serve_of_ok {c : RoutineCache} {r : Request} {a : Reply}
    (h : (c.serve r).1 = .ok a) : (c.serve r).2.cached r.definition.key = some a.entry := by
  cases hs : c.synthesize r.definition with
  | error err => rw [serve_of_error hs] at h; cases h
  | ok p =>
    rw [serve_of_ok hs] at h ⊢
    cases h
    cases r <;> exact cached_synthesize c p.2 _ p.1 hs

/-- A request leaves the cache as it was, or appends one routine, numbered after
the others, under the request's key, which no routine had. -/
theorem serve_cases (c : RoutineCache) (r : Request) :
    (c.serve r).2 = c ∨
      ∃ e, c.cached r.definition.key = none ∧ e.serial = c.size ∧
        e.routine.key = r.definition.key ∧ (c.serve r).2 = ⟨c.options, c.entries ++ [e]⟩ := by
  cases hs : c.synthesize r.definition with
  | error err => exact Or.inl (by rw [serve_of_error hs])
  | ok p =>
    rw [serve_of_ok hs]
    rcases synthesize_eq_ok hs with ⟨-, hsame⟩ | ⟨hnone, hserial, hkey, hnew⟩
    · exact Or.inl hsame
    · exact Or.inr ⟨p.1, hnone, hserial, hkey, hnew⟩

/-- A request never drops or changes a routine the cache holds. -/
theorem cached_serve_of_cached {c : RoutineCache} {k : FactoryKey} {e : CachedRoutine}
    (h : c.cached k = some e) (r : Request) : (c.serve r).2.cached k = some e := by
  rcases serve_cases c r with hsame | ⟨e', -, -, -, hnew⟩
  · rwa [hsame]
  · rw [hnew]
    exact cached_append h [e']

/-- The keys after a request: the keys before, and the request's own if it
succeeded. -/
theorem mem_keys_serve {c : RoutineCache} {r : Request} {k : FactoryKey} :
    k ∈ (c.serve r).2.keys ↔
      k ∈ c.keys ∨ (∃ a, (c.serve r).1 = .ok a) ∧ k = r.definition.key := by
  constructor
  · intro hk
    rcases serve_cases c r with hsame | ⟨e, -, -, hkey, hnew⟩
    · rw [hsame] at hk
      exact Or.inl hk
    · rw [hnew] at hk
      simp only [keys, List.map_append, List.map_singleton, List.mem_append,
        List.mem_singleton] at hk
      rcases hk with hk | rfl
      · exact Or.inl hk
      · -- Only a successful synthesis appends a routine.
        refine Or.inr ⟨?_, hkey⟩
        cases hs : c.synthesize r.definition with
        | ok p => exact ⟨_, by rw [serve_of_ok hs]⟩
        | error err =>
          rw [serve_of_error hs] at hnew
          have hlen := congrArg (fun c : RoutineCache => c.entries.length) hnew
          simp at hlen
  · rintro (hk | ⟨⟨a, ha⟩, rfl⟩)
    · obtain ⟨e, he, rfl⟩ := List.mem_map.mp hk
      have hfound : c.cached e.routine.key ≠ none := by
        rw [Ne, cached_eq_none_iff, not_not]
        exact hk
      obtain ⟨e', he'⟩ := Option.ne_none_iff_exists'.mp hfound
      exact mem_keys_of_cached (cached_serve_of_cached he' r)
    · exact mem_keys_of_cached (cached_serve_of_ok ha)

/-- A request keeps the cache numbered. -/
theorem Numbered.serve {c : RoutineCache} (hc : c.Numbered) (r : Request) :
    (c.serve r).2.Numbered := by
  rcases serve_cases c r with hsame | ⟨e, hnone, hserial, hkey, hnew⟩
  · rwa [hsame]
  · rw [hnew]
    constructor
    · show (c.entries ++ [e]).map CachedRoutine.serial = List.range (c.entries ++ [e]).length
      rw [List.map_append, hc.serials, List.length_append, List.length_singleton,
        List.range_succ, List.map_singleton, hserial]
      rfl
    · have hfresh : e.routine.key ∉ c.keys := by
        rw [hkey]
        exact cached_eq_none_iff.mp hnone
      show ((c.entries ++ [e]).map fun e => e.routine.key).Nodup
      rw [List.map_append, List.map_singleton, List.nodup_append]
      exact ⟨hc.keys, List.nodup_singleton _, fun k hk k' hk' => by
        rw [List.mem_singleton] at hk'
        subst hk'
        exact fun h => hfresh (h ▸ hk)⟩

/-- The empty cache is numbered. -/
theorem numbered_empty (o : SynthesisOptions) : (empty o).Numbered :=
  ⟨rfl, List.nodup_nil⟩

/-- In a numbered cache a serial names one routine. -/
theorem Numbered.eq_of_serial_eq {c : RoutineCache} (hc : c.Numbered) {e e' : CachedRoutine}
    (he : e ∈ c.entries) (he' : e' ∈ c.entries) (hs : e.serial = e'.serial) : e = e' := by
  obtain ⟨i, hi, rfl⟩ := List.getElem_of_mem he
  obtain ⟨j, hj, rfl⟩ := List.getElem_of_mem he'
  have hserial : ∀ n (hn : n < c.entries.length), c.entries[n].serial = n := by
    intro n hn
    have := congrArg (fun l => l[n]?) hc.serials
    simpa [size, hn] using this
  rw [hserial i hi, hserial j hj] at hs
  subst hs
  rfl

/-- `apply` answers with the routine kept for the key, bound to the factory's
own target. -/
theorem serve_apply {c : RoutineCache} {d : FactoryDefinition} {a : Reply}
    (h : (c.serve (.apply d)).1 = .ok a) :
    a = .bound a.entry d.target ∧ (c.serve (.apply d)).2.cached d.key = some a.entry := by
  refine ⟨?_, cached_serve_of_ok h⟩
  cases hs : c.synthesize d with
  | error err =>
    rw [serve_of_error (r := .apply d) hs] at h
    cases h
  | ok p =>
    rw [serve_of_ok (r := .apply d) hs] at h
    cases h
    rfl

/-! ### Whole sessions -/

/-- A session serves its first request, then the rest from the cache it left. -/
theorem serveAll_cons (c : RoutineCache) (r : Request) (rs : List Request) :
    c.serveAll (r :: rs) = (c.serve r).2.serveAll rs := rfl

/-- A session keeps the cache numbered. -/
theorem Numbered.serveAll {c : RoutineCache} (hc : c.Numbered) (rs : List Request) :
    (c.serveAll rs).Numbered := by
  induction rs generalizing c with
  | nil => exact hc
  | cons r rs ih => exact ih (hc.serve r)

/-- A routine the cache holds stays in it for the whole session. -/
theorem cached_serveAll_of_cached {c : RoutineCache} {k : FactoryKey} {e : CachedRoutine}
    (h : c.cached k = some e) (rs : List Request) : (c.serveAll rs).cached k = some e := by
  induction rs generalizing c with
  | nil => exact h
  | cons r rs ih => exact ih (cached_serve_of_cached h r)

/-- Once a request for a key has succeeded, every later `synthesize` for that
key answers with the same routine and keeps the cache, whatever its factory. -/
theorem serve_synthesize_after {c : RoutineCache} {r : Request} {a : Reply}
    (h : (c.serve r).1 = .ok a) (mid : List Request) {d : FactoryDefinition}
    (hkey : d.key = r.definition.key) :
    ((c.serve r).2.serveAll mid).serve (.synthesize d) =
      (.ok (.routine a.entry), (c.serve r).2.serveAll mid) := by
  have hcached := cached_serveAll_of_cached (cached_serve_of_ok h) mid
  rw [← hkey] at hcached
  exact serve_of_ok (r := .synthesize d) (synthesize_cached _ _ _ hcached)

/-- At the end of a session, the cache keeps every routine the session answered
with, under its request's key. -/
theorem cached_serveAll_of_served {c : RoutineCache} {rs : List Request}
    {p : FactoryKey × CachedRoutine} (hp : p ∈ c.served rs) :
    (c.serveAll rs).cached p.1 = some p.2 := by
  induction rs generalizing c with
  | nil => simp [served] at hp
  | cons r rs ih =>
    rw [serveAll_cons]
    rcases hr : c.serve r with ⟨_ | a, c'⟩
    · simp only [served, hr] at hp
      exact ih hp
    · simp only [served, hr, List.mem_cons] at hp
      rcases hp with rfl | hp
      · have hfirst := cached_serve_of_ok (c := c) (r := r) (a := a) (by rw [hr])
        rw [hr] at hfirst
        exact cached_serveAll_of_cached hfirst rs
      · exact ih hp

/-- The keys at the end of a session: the keys at its start, and those of the
requests that succeeded. -/
theorem mem_keys_serveAll {c : RoutineCache} {rs : List Request} {k : FactoryKey} :
    k ∈ (c.serveAll rs).keys ↔ k ∈ c.keys ∨ k ∈ (c.served rs).map Prod.fst := by
  induction rs generalizing c with
  | nil => simp [serveAll, served]
  | cons r rs ih =>
    rw [serveAll_cons, ih, mem_keys_serve]
    rcases hr : c.serve r with ⟨_ | a, c'⟩
    · simp [served, hr]
    · simp [served, hr, or_assoc]

/-- A session from an empty cache keeps one routine for each key some request
succeeded for. -/
theorem size_serveAll_empty (o : SynthesisOptions) (rs : List Request) :
    ((empty o).serveAll rs).size = (((empty o).served rs).map Prod.fst).toFinset.card := by
  have hnodup := ((numbered_empty o).serveAll rs).keys
  have hkeys : ((empty o).serveAll rs).keys.toFinset =
      (((empty o).served rs).map Prod.fst).toFinset := by
    ext k
    rw [List.mem_toFinset, List.mem_toFinset, mem_keys_serveAll]
    simp [keys, empty]
  calc ((empty o).serveAll rs).size
      = ((empty o).serveAll rs).keys.length := by simp [keys, size]
    _ = ((empty o).serveAll rs).keys.toFinset.card := (List.toFinset_card_of_nodup hnodup).symm
    _ = (((empty o).served rs).map Prod.fst).toFinset.card := by rw [hkeys]

/-- Routines answered for different keys in a session from a numbered cache
are different routines. -/
theorem served_serial_ne {c : RoutineCache} (hc : c.Numbered) {rs : List Request}
    {p q : FactoryKey × CachedRoutine} (hp : p ∈ c.served rs) (hq : q ∈ c.served rs)
    (hkey : p.1 ≠ q.1) : p.2.serial ≠ q.2.serial := by
  intro hs
  obtain ⟨hpm, hpk⟩ := cached_eq_some (cached_serveAll_of_served hp)
  obtain ⟨hqm, hqk⟩ := cached_eq_some (cached_serveAll_of_served hq)
  apply hkey
  rw [← hpk, ← hqk, (hc.serveAll rs).eq_of_serial_eq hpm hqm hs]

/-- **A session memoizes.** After any requests from an empty cache: a later
request for a key that succeeded gets the same routine and changes nothing; a
failed request leaves the cache as it was; the cache holds one routine per key
served; distinct keys have distinct serials; and applying a factory binds the
cached routine to its target. -/
theorem serveAll_memoizes (o : SynthesisOptions) (pre : List Request) :
    let c := (empty o).serveAll pre
    (∀ r a mid (d : FactoryDefinition), (c.serve r).1 = .ok a → d.key = r.definition.key →
      ((c.serve r).2.serveAll mid).serve (.synthesize d) =
        (.ok (.routine a.entry), (c.serve r).2.serveAll mid)) ∧
    (∀ r err, (c.serve r).1 = .error err → (c.serve r).2 = c) ∧
    c.size = (((empty o).served pre).map Prod.fst).toFinset.card ∧
    (∀ p ∈ (empty o).served pre, ∀ q ∈ (empty o).served pre,
      p.1 ≠ q.1 → p.2.serial ≠ q.2.serial) ∧
    (∀ d a, (c.serve (.apply d)).1 = .ok a →
      a = .bound a.entry d.target ∧ (c.serve (.apply d)).2.cached d.key = some a.entry) := by
  intro c
  refine ⟨fun r a mid d h hkey => serve_synthesize_after h mid hkey, fun r err h => serve_error h,
    size_serveAll_empty o pre, ?_, fun d a h => serve_apply h⟩
  intro p hp q hq hkey
  exact served_serial_ne (numbered_empty o) hp hq hkey

end RoutineCache

end CilBind
