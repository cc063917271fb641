import CilBind.Proofs.SignatureRoundTrip
import CilBind.Signature.Resolve

/-!
# `CilBind.Proofs.CodedIndexTokens`: the tokens of coded type rows

A coded index in a signature blob is a compressed integer whose low two bits name
a type table and whose other bits name a row. Its token (`TypeRow.token`) ors the
table number, shifted into the high byte, with the row index. This module says
exactly when that token names the row:

* `typeEncoded_token_exact`: every row the reader returns has an index below
  `2 ^ 27` (and every such row is returned from some blob,
  `readTypeEncoded_of_index_lt`); its token carries the table number in the high
  byte and the index in the low 24 bits exactly when the index is below `2 ^ 24`;
  and below that bound distinct rows have distinct tokens.
* `wideTypeRef_token_collides`: the blob `C4 00 00 05` names row `2 ^ 24 + 1` of
  the type-reference table. The reader returns that row, and its token is the token
  of row 1, so resolving it resolves row 1.

## How the proof goes

The reader's successful runs are taken apart once (`readTypeEncoded_eq_ok`). A
compressed integer has at most 29 bits (`readU32_lt`), so the row has at most 27.
Below `2 ^ 24` the or of the shifted table number and the index is their sum
(`TypeRow.toNat_token`). At or above it, the low 24 bits of any token are smaller
than the index, so the token cannot carry it.
-/

set_option autoImplicit false

namespace CilBind

namespace TypeTable

/-- A table number fits in a byte. -/
theorem number_lt (t : TypeTable) : t.number.toNat < 2 ^ 8 := by
  cases t <;> decide

/-- Distinct tables have distinct numbers. -/
theorem number_inj {t t' : TypeTable} (h : t.number = t'.number) : t = t' := by
  revert h
  cases t <;> cases t' <;> decide

end TypeTable

namespace TypeRow

/-- Below `2 ^ 24` the index fits under the table number, and the token is their
sum. -/
theorem toNat_token {row : TypeRow} (h : row.index.toNat < 2 ^ 24) :
    row.token.toNat = row.table.number.toNat * 2 ^ 24 + row.index.toNat := by
  have hn := row.table.number_lt
  simp only [token, UInt32.toNat_or, UInt32.toNat_shiftLeft, UInt32.reduceToNat, Nat.reduceMod,
    Nat.shiftLeft_eq]
  rw [Nat.mod_eq_of_lt (by omega), Compressed.or_eq_add_of_mod (i := 24) (by simp) h]

/-- A token names its row, with the table number in the high byte and the index in
the low three bytes, exactly when the index fits in 24 bits. -/
theorem token_names_row_iff (row : TypeRow) :
    (row.token >>> 24 = row.table.number ∧ row.token &&& 0xFFFFFF = row.index) ↔
      row.index.toNat < 2 ^ 24 := by
  constructor
  · -- the low three bytes of any token are below `2 ^ 24`
    rintro ⟨-, hlow⟩
    have hle : (row.token &&& 0xFFFFFF).toNat ≤ 0xFFFFFF := by
      rw [UInt32.toNat_and]
      exact Nat.and_le_right
    rw [hlow] at hle
    omega
  · intro h
    have ht := toNat_token h
    have hn := row.table.number_lt
    constructor
    · apply UInt32.toNat_inj.mp
      simp only [UInt32.toNat_shiftRight, ht, UInt32.reduceToNat, Nat.reduceMod,
        Nat.shiftRight_eq_div_pow]
      omega
    · apply UInt32.toNat_inj.mp
      rw [UInt32.toNat_and, ht, show (0xFFFFFF : UInt32).toNat = 2 ^ 24 - 1 from rfl,
        Nat.and_two_pow_sub_one_eq_mod]
      omega

/-- Rows with indices below `2 ^ 24` have tokens of their own. -/
theorem token_inj {row row' : TypeRow} (h : row.index.toNat < 2 ^ 24)
    (h' : row'.index.toNat < 2 ^ 24) (heq : row.token = row'.token) : row = row' := by
  have hn := row.table.number_lt
  have hn' := row'.table.number_lt
  have hsum := congrArg UInt32.toNat heq
  rw [toNat_token h, toNat_token h'] at hsum
  have htable : row.table = row'.table := TypeTable.number_inj (UInt32.toNat_inj.mp (by omega))
  have hindex : row.index = row'.index := UInt32.toNat_inj.mp (by omega)
  cases row
  cases row'
  simp_all

end TypeRow

namespace SigReader

/-- A compressed integer has at most 29 bits. -/
theorem readU32_lt {r r' : SigReader} {v : UInt32} (h : readU32 r = .ok v r') : v.toNat < 2 ^ 29 := by
  unfold readU32 at h
  split at h
  · rename_i next hread
    cases h
    have hlt := Compressed.readAt_lt hread
    have hpow : 2 ^ (Compressed.signBits (next - r.pos) + 1) ≤ 2 ^ 29 :=
      Nat.pow_le_pow_right (by decide) (by have := Compressed.signBits_le (next - r.pos); omega)
    omega
  · cases h

/-- What a successful read of a coded index did: it read a compressed integer, whose
bits above the low two are the row. -/
theorem readTypeEncoded_eq_ok {r r' : SigReader} {row : TypeRow} (h : readTypeEncoded r = .ok row r') :
    ∃ encoded, readU32 r = .ok encoded r' ∧ row.index = encoded >>> 2 := by
  unfold readTypeEncoded at h
  obtain ⟨encoded, s, hread, hrest⟩ := EStateM.bind_apply_eq_ok.mp h
  have htag : (encoded &&& 3).toNat < 4 := by
    rw [UInt32.toNat_and]
    exact Nat.lt_of_le_of_lt Nat.and_le_right (by decide)
  -- the tag is one of four values; three name a table, and the fourth is refused
  have hcases : encoded &&& 3 = 0 ∨ encoded &&& 3 = 1 ∨ encoded &&& 3 = 2 ∨ encoded &&& 3 = 3 := by
    simp only [← UInt32.toNat_inj, UInt32.reduceToNat]
    omega
  rcases hcases with h0 | h0 | h0 | h0 <;> simp [h0] at hrest
  all_goals
    obtain ⟨rfl, rfl⟩ := hrest
    exact ⟨encoded, hread, rfl⟩

/-- Every row the reader returns has an index below `2 ^ 27`. -/
theorem readTypeEncoded_index_lt {r r' : SigReader} {row : TypeRow}
    (h : readTypeEncoded r = .ok row r') : row.index.toNat < 2 ^ 27 := by
  obtain ⟨encoded, hread, hindex⟩ := readTypeEncoded_eq_ok h
  have hlt := readU32_lt hread
  rw [hindex]
  simp only [UInt32.toNat_shiftRight, UInt32.reduceToNat, Nat.reduceMod, Nat.shiftRight_eq_div_pow]
  omega

/-- Every row with an index below `2 ^ 27` is what the reader returns from the blob
of its coded index. -/
theorem readTypeEncoded_of_index_lt {row : TypeRow} (h : row.index.toNat < 2 ^ 27) :
    ∃ (bytes : List UInt8) (l : Option Nat),
      readTypeEncoded (ofBytes bytes) = .ok row ⟨bytes, bytes.length, l⟩ := by
  obtain ⟨bs, hbs⟩ := TypeRow.encode_ok h
  obtain ⟨l, hl⟩ := readTypeEncoded_reads h hbs (ofBytes bs) [] trivial (by simp [ofBytes])
  exact ⟨bs, l, by simpa [ofBytes] using hl⟩

end SigReader

/-- **The tokens of the rows the reader returns.** Every row read from a coded index
has an index below `2 ^ 27`. Its token carries the table number in the high byte and
the index in the low 24 bits exactly when the index is below `2 ^ 24`, and then no
other row below that bound has the same token. -/
theorem typeEncoded_token_exact {r r' : SigReader} {row : TypeRow}
    (h : SigReader.readTypeEncoded r = .ok row r') :
    row.index.toNat < 2 ^ 27 ∧
      (row.token >>> 24 = row.table.number ∧ row.token &&& 0xFFFFFF = row.index ↔
        row.index.toNat < 2 ^ 24) ∧
      (row.index.toNat < 2 ^ 24 → ∀ row' : TypeRow, row'.index.toNat < 2 ^ 24 →
        row'.token = row.token → row' = row) :=
  ⟨SigReader.readTypeEncoded_index_lt h, row.token_names_row_iff,
    fun hrow _ hrow' heq => TypeRow.token_inj hrow' hrow heq⟩

/-- The blob `C4 00 00 05` names row `2 ^ 24 + 1` of the type-reference table. The
reader returns that row, whose index is in the reader's range but not below `2 ^ 24`,
so its token does not carry it: the token is row 1's, and every token table
resolves the row as row 1. -/
theorem wideTypeRef_token_collides :
    SigReader.readTypeEncoded (SigReader.ofBytes [0xC4, 0x00, 0x00, 0x05]) =
        .ok ⟨.typeRef, 0x1000001⟩ ⟨[0xC4, 0x00, 0x00, 0x05], 4, some 0⟩ ∧
      ¬ ((TypeRow.mk .typeRef 0x1000001).token >>> 24 = TypeTable.typeRef.number ∧
        (TypeRow.mk .typeRef 0x1000001).token &&& 0xFFFFFF = 0x1000001) ∧
      (TypeRow.mk .typeRef 0x1000001).token = (TypeRow.mk .typeRef 1).token ∧
      ∀ tbl : TokenTable, tbl.resolveRow ⟨.typeRef, 0x1000001⟩ = tbl.resolveRow ⟨.typeRef, 1⟩ := by
  have hread : SigReader.readTypeEncoded (SigReader.ofBytes [0xC4, 0x00, 0x00, 0x05]) =
      .ok ⟨.typeRef, 0x1000001⟩ ⟨[0xC4, 0x00, 0x00, 0x05], 4, some 0⟩ := rfl
  have htoken : (TypeRow.mk .typeRef 0x1000001).token = (TypeRow.mk .typeRef 1).token := by decide
  have hnames := (typeEncoded_token_exact hread).2.1
  refine ⟨hread, fun h => absurd (hnames.mp h) (by decide), htoken, fun tbl => ?_⟩
  unfold TokenTable.resolveRow
  rw [htoken]

end CilBind
