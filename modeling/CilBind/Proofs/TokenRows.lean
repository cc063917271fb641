import CilBind.Code.Token
import CilBind.Proofs.CompressedForms

/-!
# `CilBind.Proofs.TokenRows`: what a run of writes leaves in a token table

A token table is written in two ways: at the next row of a metadata table
(`insert`), or at an explicit token (`insertAt`). `Write` names the two, `run`
applies a list of them from any table, and `trace` records the token each write
landed at.

* `resolve_run`: after a run, a token resolves to what the last write that landed
  at it stored, and to what it resolved to before the run if no write did.
* `rowLandings_run`: the writes that take rows of a table land, in order, at
  `(table <<< 24) ||| k` for the rows `k` that follow those handed out before.
  Explicit writes move no counter.
* `rowTokens_nodup`, `rowTokens_table`: those tokens are pairwise distinct and
  carry their table in the high byte, while no table hands out `2 ^ 24` rows.

The bound is needed. `nextToken` ors the row into the token without masking it,
so a row of 25 bits spills into the table byte. The `2 ^ 24`-th row of the
field table lands in table 5 (`fieldTable_spills`). The write after `2 ^ 24`
rows of the type-reference table lands at the token of its first row
(`typeRefTable_collides`).
-/

set_option autoImplicit false

namespace CilBind.TokenTable

/-! ### Tokens as a table byte and a row -/

/-- The token of row `k` of table `tbl`. -/
def tokenOf (tbl : UInt8) (k : Nat) : UInt32 := (tbl.toUInt32 <<< 24) ||| k.toUInt32

/-- The next token of a table names the row after its last one. -/
theorem nextToken_eq (t : TokenTable) (tbl : UInt8) : t.nextToken tbl = tokenOf tbl (t.rowsOf tbl + 1) :=
  rfl

/-- Below `2 ^ 24` a row fits under the table byte, and the token is their sum. -/
theorem toNat_tokenOf {tbl : UInt8} {k : Nat} (hk : k < 2 ^ 24) :
    (tokenOf tbl k).toNat = tbl.toNat * 2 ^ 24 + k := by
  have htbl := tbl.toNat_lt
  simp only [tokenOf, UInt32.toNat_or, UInt32.toNat_shiftLeft, UInt8.toNat_toUInt32,
    UInt32.reduceToNat, Nat.reduceMod, Nat.shiftLeft_eq, Nat.toUInt32, UInt32.toNat_ofNat']
  rw [Nat.mod_eq_of_lt (by omega), Nat.mod_eq_of_lt (by omega),
    Compressed.or_eq_add_of_mod (i := 24) (by simp) (by omega)]

/-- The high byte of a token is its table, while the row fits in 24 bits. -/
theorem tokenOf_table {tbl : UInt8} {k : Nat} (hk : k < 2 ^ 24) :
    (tokenOf tbl k >>> 24).toUInt8 = tbl := by
  apply UInt8.toNat_inj.mp
  have htbl := tbl.toNat_lt
  simp only [UInt32.toNat_toUInt8, UInt32.toNat_shiftRight, toNat_tokenOf hk, UInt32.reduceToNat,
    Nat.reduceMod, Nat.shiftRight_eq_div_pow]
  omega

/-- Rows that fit in 24 bits have distinct tokens unless table and row agree. -/
theorem tokenOf_inj {tbl tbl' : UInt8} {k k' : Nat} (hk : k < 2 ^ 24) (hk' : k' < 2 ^ 24)
    (h : tokenOf tbl k = tokenOf tbl' k') : tbl = tbl' ∧ k = k' := by
  have h' := congrArg UInt32.toNat h
  rw [toNat_tokenOf hk, toNat_tokenOf hk'] at h'
  have htbl : tbl.toNat = tbl'.toNat := by omega
  exact ⟨UInt8.toNat_inj.mp htbl, by omega⟩

/-! ### Runs of writes -/

/-- One write to a token table: at the next row of a table, as `insert` makes it, or at
an explicit token, as `insertAt` does. -/
inductive Write where
  | next (tbl : UInt8) (v : Resolved)
  | explicit (token : UInt32) (v : Resolved)

namespace Write

/-- What a write stores. -/
def value : Write → Resolved
  | next _ v => v
  | explicit _ v => v

/-- The table whose next row a write takes, if it takes one. -/
def table? : Write → Option UInt8
  | next tbl _ => some tbl
  | explicit _ _ => none

/-- The token a write lands at in table `t`. -/
def landing (t : TokenTable) : Write → UInt32
  | next tbl _ => t.nextToken tbl
  | explicit token _ => token

/-- The table after a write. -/
def apply (t : TokenTable) : Write → TokenTable
  | next tbl v => (t.insert tbl v).1
  | explicit token v => t.insertAt token v

end Write

/-- The table after a run of writes. -/
def run (t : TokenTable) (ws : List Write) : TokenTable := ws.foldl Write.apply t

/-- Each write of a run, with the token it lands at. -/
def trace (t : TokenTable) : List Write → List (Write × UInt32)
  | [] => []
  | w :: ws => (w, w.landing t) :: trace (w.apply t) ws

/-- How many writes of `ws` take a row of table `tbl`. -/
def rowsIn (tbl : UInt8) (ws : List Write) : Nat := ws.countP (·.table? == some tbl)

/-- The table and the token of each write of a run that takes a row, in order. -/
def rowTokens (t : TokenTable) (ws : List Write) : List (UInt8 × UInt32) :=
  (trace t ws).filterMap fun p => p.1.table?.map (·, p.2)

/-! ### One write -/

/-- A write replaces what its token held and leaves every other token as it was. -/
theorem resolve_apply (t : TokenTable) (w : Write) (token : UInt32) :
    (w.apply t).resolve token = if w.landing t = token then .ok w.value else t.resolve token := by
  -- both kinds of write are an `insertAt`; `insert` also bumps a row counter, which
  -- `resolve` does not read
  have h : (w.apply t).resolve token = (t.insertAt (w.landing t) w.value).resolve token := by
    cases w <;> rfl
  rw [h]
  split
  · subst token
    exact resolve_insertAt t _ _
  · exact resolve_insertAt_of_ne t _ (Ne.symm ‹_›)

/-- Only a write that takes a row of `tbl` moves its counter, by one. -/
theorem rowsOf_apply (t : TokenTable) (w : Write) (tbl : UInt8) :
    (w.apply t).rowsOf tbl = t.rowsOf tbl + if w.table? = some tbl then 1 else 0 := by
  cases w with
  | explicit token v => simp [Write.apply, Write.table?, insertAt, rowsOf]
  | next tbl' v =>
    by_cases h : tbl' = tbl
    · subst h
      simp [Write.apply, Write.table?, insert, insertAt, rowsOf]
    · have hne : (tbl' == tbl) = false := by simpa using h
      simp only [Write.apply, Write.table?, insert, insertAt, rowsOf, List.find?_cons, hne,
        List.find?_filter, Option.some.injEq, h, ↓reduceIte, Nat.add_zero]
      congr 2
      funext e
      by_cases he : e.1 = tbl <;> simp [he, Ne.symm h]

/-! ### Whole runs -/

/-- No writes leave the table as it is. -/
@[simp] theorem run_nil (t : TokenTable) : run t [] = t := rfl

/-- Writes apply one after the other. -/
@[simp] theorem run_cons (t : TokenTable) (w : Write) (ws : List Write) :
    run t (w :: ws) = run (w.apply t) ws := rfl

/-- No writes add no rows. -/
@[simp] theorem rowsIn_nil (tbl : UInt8) : rowsIn tbl [] = 0 := rfl

/-- A write adds a row to the table it writes to. -/
theorem rowsIn_cons (tbl : UInt8) (w : Write) (ws : List Write) :
    rowsIn tbl (w :: ws) = rowsIn tbl ws + if w.table? = some tbl then 1 else 0 := by
  simp [rowsIn, List.countP_cons]

/-- **The last write wins.** After a run, a token resolves to what the last write that
landed at it stored, and as before the run if no write landed at it. -/
theorem resolve_run (t : TokenTable) (ws : List Write) (token : UInt32) :
    (run t ws).resolve token =
      match (trace t ws).reverse.find? (·.2 == token) with
      | some (w, _) => .ok w.value
      | none => t.resolve token := by
  induction ws generalizing t with
  | nil => rfl
  | cons w ws ih =>
    rw [run_cons, ih, trace, List.reverse_cons, List.find?_append]
    -- a later write at the token hides this one; otherwise this one decides
    cases (trace (w.apply t) ws).reverse.find? (·.2 == token) with
    | some p => rfl
    | none =>
      rw [resolve_apply]
      by_cases h : w.landing t = token <;> simp [h]

/-- A table has handed out its rows before the run and one for each write that took one. -/
theorem rowsOf_run (t : TokenTable) (ws : List Write) (tbl : UInt8) :
    (run t ws).rowsOf tbl = t.rowsOf tbl + rowsIn tbl ws := by
  induction ws generalizing t with
  | nil => rfl
  | cons w ws ih =>
    rw [run_cons, ih, rowsOf_apply, rowsIn_cons]
    omega

/-- **The `k`-th write into a table takes its next row.** The writes of a run that take a
row of `tbl` land, in order, at the rows that follow the ones handed out before. -/
theorem rowLandings_run (t : TokenTable) (ws : List Write) (tbl : UInt8) :
    ((trace t ws).filter (·.1.table? == some tbl)).map (·.2) =
      (List.range (rowsIn tbl ws)).map fun k => tokenOf tbl (t.rowsOf tbl + k + 1) := by
  induction ws generalizing t with
  | nil => rfl
  | cons w ws ih =>
    by_cases h : w.table? = some tbl
    · -- this write takes the row after those handed out; the rest start one row later
      obtain ⟨v, rfl⟩ : ∃ v, w = .next tbl v := by
        cases w with
        | next tbl' v => exact ⟨v, by cases h; rfl⟩
        | explicit _ _ => cases h
      rw [trace, List.filter_cons_of_pos (by simpa using h), List.map_cons, ih, rowsIn_cons,
        if_pos h, List.range_succ_eq_map, List.map_cons, List.map_map, rowsOf_apply, if_pos h]
      simp only [Write.landing, nextToken_eq, Function.comp_def, Nat.succ_eq_add_one]
      congr 2
      funext k
      congr 1
      omega
    · rw [trace, List.filter_cons_of_neg (by simpa using h), ih, rowsIn_cons, if_neg h,
        rowsOf_apply, if_neg h, Nat.add_zero, Nat.add_zero]

/-- A write that takes a row of `tbl` lands at one of the rows the run hands out. -/
theorem mem_rowTokens {t : TokenTable} {ws : List Write} {tbl : UInt8} {token : UInt32}
    (h : (tbl, token) ∈ rowTokens t ws) :
    ∃ k < rowsIn tbl ws, token = tokenOf tbl (t.rowsOf tbl + k + 1) := by
  have hmem : token ∈ ((trace t ws).filter (·.1.table? == some tbl)).map (·.2) := by
    simp only [rowTokens, List.mem_filterMap, Option.map_eq_some_iff, Prod.mk.injEq] at h
    obtain ⟨p, hp, _, htbl, rfl, rfl⟩ := h
    exact List.mem_map.mpr ⟨p, List.mem_filter.mpr ⟨hp, by simp [htbl]⟩, rfl⟩
  rw [rowLandings_run] at hmem
  obtain ⟨k, hk, rfl⟩ := List.mem_map.mp hmem
  exact ⟨k, List.mem_range.mp hk, rfl⟩

/-- While no table hands out `2 ^ 24` rows, every token a write took a row for carries
its table in the high byte. -/
theorem rowTokens_table {t : TokenTable} {ws : List Write}
    (hrows : ∀ tbl, t.rowsOf tbl + rowsIn tbl ws < 2 ^ 24) :
    ∀ p ∈ rowTokens t ws, (p.2 >>> 24).toUInt8 = p.1 := by
  rintro ⟨tbl, token⟩ hp
  obtain ⟨k, hk, rfl⟩ := mem_rowTokens hp
  exact tokenOf_table (by have := hrows tbl; omega)

/-- **Distinct writes take distinct tokens** while no table hands out `2 ^ 24` rows. -/
theorem rowTokens_nodup {t : TokenTable} {ws : List Write}
    (hrows : ∀ tbl, t.rowsOf tbl + rowsIn tbl ws < 2 ^ 24) :
    ((rowTokens t ws).map (·.2)).Nodup := by
  induction ws generalizing t with
  | nil => exact List.nodup_nil
  | cons w ws ih =>
    have hrows' : ∀ tbl, (w.apply t).rowsOf tbl + rowsIn tbl ws < 2 ^ 24 := by
      intro tbl
      have := hrows tbl
      rw [rowsOf_apply]
      rw [rowsIn_cons] at this
      omega
    cases w with
    | explicit token v =>
      -- an explicit write takes no row
      exact ih hrows'
    | next tbl v =>
      simp only [rowTokens, trace, List.filterMap_cons, Write.table?, Option.map_some,
        List.map_cons, List.nodup_cons]
      refine ⟨?_, ih hrows'⟩
      -- a later write takes a later row of this table, or a row of another table
      intro hmem
      obtain ⟨⟨tbl', token⟩, hp, heq⟩ := List.mem_map.mp hmem
      obtain ⟨k, hk, rfl⟩ := mem_rowTokens hp
      have hlater := hrows' tbl'
      have hfirst : t.rowsOf tbl + (rowsIn tbl ws + 1) < 2 ^ 24 := by
        simpa [rowsIn_cons, Write.table?] using hrows tbl
      have hnext : (Write.apply t (.next tbl v)).rowsOf tbl = t.rowsOf tbl + 1 := by
        simp [rowsOf_apply, Write.table?]
      obtain ⟨rfl, hrow⟩ := tokenOf_inj (k := _ + k + 1) (by omega) (by omega) heq
      omega

/-- The `2 ^ 24`-th row of the field table spills into the table byte: its token is in
table 5. -/
theorem fieldTable_spills (v : Resolved) :
    ((run empty (List.replicate (2 ^ 24 - 1) (.next fieldTable v))).nextToken fieldTable
      >>> 24).toUInt8 = 0x05 := by
  rw [nextToken_eq, rowsOf_run]
  simp only [rowsIn, List.countP_replicate, Write.table?, beq_self_eq_true, ↓reduceIte]
  decide

/-- The write after `2 ^ 24` rows of the type-reference table lands at the token of its
first row. -/
theorem typeRefTable_collides (v : Resolved) :
    (run empty (List.replicate (2 ^ 24) (.next typeRefTable v))).nextToken typeRefTable =
      empty.nextToken typeRefTable := by
  rw [nextToken_eq, nextToken_eq, rowsOf_run]
  simp only [rowsIn, List.countP_replicate, Write.table?, beq_self_eq_true, ↓reduceIte]
  decide

end CilBind.TokenTable
