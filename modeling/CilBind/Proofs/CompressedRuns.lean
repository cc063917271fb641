import CilBind.Proofs.CompressedForms
import CilBind.Proofs.Outcome

/-!
# `CilBind.Proofs.CompressedRuns`: whole blobs of compressed integers

`decode` reads a blob as compressed integers laid end to end, and `encode`
writes a list of values that way. This module says what each does in terms of
the format alone:

* the format cuts a blob greedily into items, each as wide as its lead byte
  says (`items`), and an item stands for its bytes read most significant first,
  less the marker bits (`itemValue`);
* `decode_eq`: reading a blob gives the value of every item of its cut, and
  fails, with a truncation at the blob's end, exactly when the cut runs past
  the end;
* `codec_roundTrip`: writing stops at the first value above `maxValue`;
  otherwise it writes every value in its shortest form, and reading gives the
  values back. A blob that reads as `vs` is what writing `vs` gives exactly
  when each of its items is canonical (`Canonical`): as short as its value
  allows, and with a four-byte lead byte between `0xC0` and `0xDF`. The reader
  tests only the top two bits of a lead byte, so it also takes wide forms of
  small values and four-byte items led by `111xxxxx`.

## How the proof goes

At a position where a lead byte stands, the reader takes one of three paths
(`readAt_lead_one`, `readAt_lead_two`, `readAt_lead_four`, put together in
`readAt_item`); its bit operations come out, on `Nat`, as `itemValue`. A run of
reads with enough fuel then follows the cut one item per read
(`readAllFrom_eq`). On the writing side `write_eq_bytes` gives the written
bytes as numbers; what is written is one item standing for the value
(`write_isItem`), and an item is what writing its value gives exactly when it
is canonical (`write_itemValue_iff`).
-/

set_option autoImplicit false

namespace CilBind.Compressed

/-! ### The cut of a blob into items -/

/-- The width of the item a lead byte starts: `0xxxxxxx` one byte, `10xxxxxx`
two, `11xxxxxx` four. -/
def leadWidth (lead : UInt8) : Nat :=
  if lead < 0x80 then 1 else if lead < 0xC0 then 2 else 4

/-- A blob cut greedily into items from its first byte on, each as wide as its
lead byte says; `none` when the last item runs past the end. -/
def items : List UInt8 → Option (List (List UInt8))
  | [] => some []
  | lead :: rest =>
    if leadWidth lead ≤ rest.length + 1 then
      (items (rest.drop (leadWidth lead - 1))).map ((lead :: rest.take (leadWidth lead - 1)) :: ·)
    else none
termination_by b => b.length

/-- The number of value bits of an item of each width. -/
def valueBits (width : Nat) : Nat :=
  match width with
  | 1 => 7
  | 2 => 14
  | _ => 29

/-- Bytes read as one number, the most significant first. -/
def bigEndian (bs : List UInt8) : Nat := bs.foldl (fun acc b => acc * 256 + b.toNat) 0

/-- The value an item stands for: its bytes read most significant first, less
the marker bits above the value bits. -/
def itemValue (item : List UInt8) : UInt32 :=
  (bigEndian item % 2 ^ valueBits item.length).toUInt32

/-- The fewest bytes that hold a value. -/
def shortestWidth (v : UInt32) : Nat :=
  if v.toNat < 2 ^ 7 then 1 else if v.toNat < 2 ^ 14 then 2 else 4

/-- An item in canonical form: as short as its value allows, and, when four
bytes wide, led by a byte `110xxxxx`, with the bit the reader ignores clear. -/
def Canonical (item : List UInt8) : Prop :=
  item.length = shortestWidth (itemValue item) ∧
    ∀ lead ∈ item.head?, item.length = 4 → 0xC0 ≤ lead ∧ lead ≤ 0xDF

/-- A lead byte and as many more bytes as it says: what the cut makes. -/
def IsItem (item : List UInt8) : Prop :=
  ∃ lead tail, item = lead :: tail ∧ leadWidth lead = tail.length + 1

/-- The width of a lead byte, on its number. -/
theorem leadWidth_eq (lead : UInt8) :
    leadWidth lead = if lead.toNat < 128 then 1 else if lead.toNat < 192 then 2 else 4 := by
  simp [leadWidth, UInt8.lt_iff_toNat_lt]

/-- Every form takes its lead byte. -/
theorem leadWidth_pos (lead : UInt8) : 0 < leadWidth lead := by
  rw [leadWidth_eq]
  split_ifs <;> omega

/-- An item in front of a blob is cut off as it stands. -/
theorem items_item_append {item : List UInt8} (h : IsItem item) (rest : List UInt8) :
    items (item ++ rest) = (items rest).map (item :: ·) := by
  obtain ⟨lead, tail, rfl, hw⟩ := h
  rw [List.cons_append, items.eq_2, if_pos (by simp; omega), hw, Nat.add_sub_cancel,
    List.take_left' rfl, List.drop_left' rfl]

/-- Items laid end to end are cut apart again. -/
theorem items_flatten : ∀ {its : List (List UInt8)}, (∀ it ∈ its, IsItem it) →
    items its.flatten = some its
  | [], _ => by simp [items]
  | it :: its, h => by
    rw [List.flatten_cons, items_item_append (h it List.mem_cons_self),
      items_flatten fun j hj => h j (List.mem_cons_of_mem _ hj)]
    rfl

/-- The cut of a blob is into items, and they make up the blob. -/
theorem items_eq_some {b : List UInt8} {its : List (List UInt8)} (h : items b = some its) :
    (∀ it ∈ its, IsItem it) ∧ its.flatten = b := by
  fun_induction items b generalizing its with
  | case1 =>
    rw [Option.some.injEq] at h
    subst h
    simp
  | case2 lead rest hfit ih =>
    obtain ⟨its', h', rfl⟩ := Option.map_eq_some_iff.mp h
    obtain ⟨hitems, hflat⟩ := ih h'
    refine ⟨?_, ?_⟩
    · intro it hit
      rcases List.mem_cons.mp hit with rfl | hit
      · have := leadWidth_pos lead
        exact ⟨lead, _, rfl, by simp; omega⟩
      · exact hitems it hit
    · rw [List.flatten_cons, hflat, List.cons_append, List.take_append_drop]
  | case3 lead rest hfit => cases h

/-! ### Reading one item -/

set_option maxRecDepth 8000 in
/-- The reader's two marker tests on every byte: the top bit is clear below
`0x80`, and the next bit is clear in the lower half of each half. -/
theorem lead_tests : ∀ k < 256,
    (UInt8.ofNat k &&& 0x80 = 0 ↔ k < 128) ∧ (UInt8.ofNat k &&& 0x40 = 0 ↔ k % 128 < 64) := by
  decide

/-- Masking with `0x3F` keeps the low six bits. -/
theorem toNat_and_3F (b : UInt8) : (b &&& 0x3F).toNat = b.toNat % 2 ^ 6 := by
  rw [UInt8.toNat_and, ← Nat.and_two_pow_sub_one_eq_mod]
  rfl

/-- Masking with `0x1F` keeps the low five bits. -/
theorem toNat_and_1F (b : UInt8) : (b &&& 0x1F).toNat = b.toNat % 2 ^ 5 := by
  rw [UInt8.toNat_and, ← Nat.and_two_pow_sub_one_eq_mod]
  rfl

/-- The value of an item is its bytes read big-endian, less the marker bits. -/
theorem toNat_itemValue (item : List UInt8) :
    (itemValue item).toNat = bigEndian item % 2 ^ valueBits item.length := by
  have hlt : bigEndian item % 2 ^ valueBits item.length < 2 ^ 32 := by
    have : 2 ^ valueBits item.length ≤ 2 ^ 32 :=
      Nat.pow_le_pow_right (by decide) (by unfold valueBits; split <;> omega)
    have := Nat.mod_lt (bigEndian item) (Nat.two_pow_pos (valueBits item.length))
    omega
  rw [itemValue, Nat.toUInt32, UInt32.toNat_ofNat', Nat.mod_eq_of_lt hlt]

variable {bytes rest : List UInt8} {pos : Nat} {lead : UInt8}

/-- The bytes from a position are the run that starts there. -/
theorem getElem?_of_drop_cons (h : bytes.drop pos = lead :: rest) (i : Nat) :
    bytes[pos + i]? = (lead :: rest)[i]? := by
  rw [← List.getElem?_drop, h]

/-- A run that starts at a position ends at the end of the bytes. -/
theorem length_of_drop_cons (h : bytes.drop pos = lead :: rest) :
    bytes.length = pos + rest.length + 1 := by
  have hlen := congrArg List.length h
  have hpos : pos < bytes.length := by
    by_contra hge
    rw [List.drop_of_length_le (by omega)] at h
    cases h
  simp only [List.length_drop, List.length_cons] at hlen
  omega

/-- A lead byte `0xxxxxxx` is an item of its own. -/
theorem readAt_lead_one (h : bytes.drop pos = lead :: rest) (hl : lead.toNat < 128) :
    readAt bytes pos = .ok (itemValue [lead], pos + 1) := by
  have h₀ : bytes[pos]? = some lead := getElem?_of_drop_cons h 0
  have h80 : lead &&& 0x80 = 0 := by
    simpa using ((lead_tests lead.toNat lead.toNat_lt).1).mpr hl
  have hval : lead.toUInt32 = itemValue [lead] := by
    apply UInt32.toNat_inj.mp
    simp [toNat_itemValue, bigEndian, valueBits]
    omega
  simp [readAt, h₀, h80, hval]

/-- A lead byte `10xxxxxx` takes the next byte with it, if there is one. -/
theorem readAt_lead_two (h : bytes.drop pos = lead :: rest) (hl : 128 ≤ lead.toNat ∧ lead.toNat < 192) :
    readAt bytes pos = match rest with
      | a :: _ => .ok (itemValue [lead, a], pos + 2)
      | [] => .error (.truncated bytes.length) := by
  have h₀ : bytes[pos]? = some lead := getElem?_of_drop_cons h 0
  obtain ⟨h80, h40⟩ := lead_tests lead.toNat lead.toNat_lt
  simp only [UInt8.ofNat_toNat] at h80 h40
  have h80' : ¬ lead &&& 0x80 = 0 := by rw [h80]; omega
  have h40' : lead &&& 0x40 = 0 := by rw [h40]; omega
  have hlen := length_of_drop_cons h
  have h₁ := getElem?_of_drop_cons h 1
  cases rest with
  | nil =>
    have h₁' : bytes[pos + 1]? = none := h₁
    simp only [List.length_nil] at hlen
    simp only [readAt, h₀, h80', h40', h₁', hlen, ↓reduceIte]
  | cons a rest =>
    have h₁' : bytes[pos + 1]? = some a := h₁
    have hval : ((lead &&& 0x3F).toUInt32 <<< 8) ||| a.toUInt32 = itemValue [lead, a] := by
      apply UInt32.toNat_inj.mp
      have ha := a.toNat_lt
      simp only [UInt32.toNat_or, UInt32.toNat_shiftLeft, UInt8.toNat_toUInt32, toNat_and_3F,
        UInt32.reduceToNat, Nat.reduceMod, Nat.shiftLeft_eq, toNat_itemValue]
      rw [or_eq_add_of_mod (i := 8) (by omega) (by omega)]
      simp [bigEndian, valueBits]
      omega
    simp only [readAt, h₀, h80', h40', h₁', hval, ↓reduceIte]

/-- A lead byte `11xxxxxx` takes the next three bytes with it, if there are
three. -/
theorem readAt_lead_four (h : bytes.drop pos = lead :: rest) (hl : 192 ≤ lead.toNat) :
    readAt bytes pos = match rest with
      | a :: b :: c :: _ => .ok (itemValue [lead, a, b, c], pos + 4)
      | _ => .error (.truncated bytes.length) := by
  have h₀ : bytes[pos]? = some lead := getElem?_of_drop_cons h 0
  obtain ⟨h80, h40⟩ := lead_tests lead.toNat lead.toNat_lt
  simp only [UInt8.ofNat_toNat] at h80 h40
  have hlt := lead.toNat_lt
  have h80' : ¬ lead &&& 0x80 = 0 := by rw [h80]; omega
  have h40' : ¬ lead &&& 0x40 = 0 := by rw [h40]; omega
  have h₁ := getElem?_of_drop_cons h 1
  have h₂ := getElem?_of_drop_cons h 2
  have h₃ := getElem?_of_drop_cons h 3
  match rest with
  | [] =>
    have h₁' : bytes[pos + 1]? = none := h₁
    simp only [readAt, h₀, h80', h40', h₁', ↓reduceIte]
  | [a] =>
    have h₁' : bytes[pos + 1]? = some a := h₁
    have h₂' : bytes[pos + 2]? = none := h₂
    simp only [readAt, h₀, h80', h40', h₁', h₂', ↓reduceIte]
  | [a, b] =>
    have h₁' : bytes[pos + 1]? = some a := h₁
    have h₂' : bytes[pos + 2]? = some b := h₂
    have h₃' : bytes[pos + 3]? = none := h₃
    simp only [readAt, h₀, h80', h40', h₁', h₂', h₃', ↓reduceIte]
  | a :: b :: c :: rest =>
    have h₁' : bytes[pos + 1]? = some a := h₁
    have h₂' : bytes[pos + 2]? = some b := h₂
    have h₃' : bytes[pos + 3]? = some c := h₃
    have hval : ((lead &&& 0x1F).toUInt32 <<< 24) ||| (a.toUInt32 <<< 16) ||| (b.toUInt32 <<< 8)
        ||| c.toUInt32 = itemValue [lead, a, b, c] := by
      apply UInt32.toNat_inj.mp
      have ha := a.toNat_lt
      have hb := b.toNat_lt
      have hc := c.toNat_lt
      simp only [UInt32.toNat_or, UInt32.toNat_shiftLeft, UInt8.toNat_toUInt32, toNat_and_1F,
        UInt32.reduceToNat, Nat.reduceMod, Nat.shiftLeft_eq, toNat_itemValue]
      simp (disch := omega) only [Nat.mod_eq_of_lt]
      rw [or_bytes_four (by omega) (by omega) (by omega)]
      simp [bigEndian, valueBits]
      omega
    simp only [readAt, h₀, h80', h40', h₁', h₂', h₃', hval, ↓reduceIte]

/-- What the reader makes of the item at a position: its value and the position
after it, or a truncation at the blob's end when the item runs past it. -/
theorem readAt_item (h : bytes.drop pos = lead :: rest) :
    readAt bytes pos = if leadWidth lead ≤ rest.length + 1 then
      .ok (itemValue (lead :: rest.take (leadWidth lead - 1)), pos + leadWidth lead)
    else .error (.truncated bytes.length) := by
  rw [leadWidth_eq]
  by_cases h1 : lead.toNat < 128
  · simp [h1, readAt_lead_one h h1]
  by_cases h2 : lead.toNat < 192
  · rw [readAt_lead_two h ⟨by omega, h2⟩]
    cases rest <;> simp [h1, h2]
  · rw [readAt_lead_four h (by omega)]
    match rest with
    | [] | [_] | [_, _] => simp [h1, h2]
    | _ :: _ :: _ :: _ => simp [h1, h2]

/-! ### Reading a whole blob -/

/-- A run of reads from `pos`, with fuel for a read per byte left, follows the
cut of the rest of the blob. -/
theorem readAllFrom_eq (bytes : List UInt8) : ∀ (fuel pos : Nat), bytes.length - pos ≤ fuel →
    readAllFrom bytes pos fuel = match items (bytes.drop pos) with
      | some its => .ok (its.map itemValue)
      | none => .error (.truncated bytes.length)
  | 0, pos, hfuel => by
    rw [List.drop_of_length_le (by omega)]
    simp [readAllFrom, items]
  | fuel + 1, pos, hfuel => by
    unfold readAllFrom
    split
    · rename_i hpos
      have hdrop := List.drop_eq_getElem_cons hpos
      generalize bytes[pos] = lead at hdrop
      generalize hrest : bytes.drop (pos + 1) = rest at hdrop
      rw [readAt_item hdrop, hdrop, items.eq_2]
      split
      · rename_i hfit
        have hw := leadWidth_pos lead
        -- The next read starts where the item ends, with one read less.
        have hnext : bytes.drop (pos + leadWidth lead) = rest.drop (leadWidth lead - 1) := by
          rw [← hrest, List.drop_drop]
          congr 1
          omega
        have hlen := length_of_drop_cons hdrop
        simp only [bind, Except.bind]
        rw [readAllFrom_eq bytes fuel (pos + leadWidth lead) (by omega), hnext]
        cases items (rest.drop (leadWidth lead - 1)) <;> rfl
      · rfl
    · rename_i hpos
      rw [List.drop_of_length_le (by omega)]
      simp [items]

/-- Reading a blob gives the value of every item of its cut, and a truncation
at its end when the cut runs past the end. -/
theorem decode_eq (b : List UInt8) : decode b = match items b with
    | some its => .ok (its.map itemValue)
    | none => .error (.truncated b.length) := by
  simpa [decode] using readAllFrom_eq b b.length 0 (by omega)

/-- Reading fails exactly when the cut runs past the end, and then at the end. -/
theorem decode_eq_error_iff (b : List UInt8) (e : SigError) :
    decode b = .error e ↔ items b = none ∧ e = .truncated b.length := by
  rw [decode_eq]
  cases items b with
  | none => simp [eq_comm]
  | some its => simp

/-! ### Writing -/

/-- Narrowing to a byte keeps the low eight bits. -/
theorem toUInt8_eq_ofNat (u : UInt32) : u.toUInt8 = UInt8.ofNat u.toNat := by
  apply UInt8.toNat_inj.mp
  rw [UInt32.toNat_toUInt8, UInt8.toNat_ofNat']

/-- A number is a byte exactly when its low eight bits are. -/
theorem ofNat_eq_iff (n : Nat) (b : UInt8) : UInt8.ofNat n = b ↔ n % 2 ^ 8 = b.toNat := by
  rw [← UInt8.toNat_inj, UInt8.toNat_ofNat']

/-- A marker or-ed onto a value below it is added to it. -/
theorem toUInt8_or_of_mod {m x : UInt32} {i : Nat} (hm : m.toNat % 2 ^ i = 0) (hx : x.toNat < 2 ^ i) :
    (m ||| x).toUInt8 = UInt8.ofNat (m.toNat + x.toNat) := by
  rw [toUInt8_eq_ofNat, UInt32.toNat_or, or_eq_add_of_mod hm hx]

/-- The bytes `write` writes, as numbers: the form's marker added to the value's
top part, then the lower bytes, each the value shifted down and cut to eight
bits. -/
theorem write_eq_bytes (v : UInt32) : write v =
    if v.toNat < 2 ^ 7 then .ok [UInt8.ofNat v.toNat]
    else if v.toNat < 2 ^ 14 then .ok [UInt8.ofNat (0x80 + v.toNat / 2 ^ 8), UInt8.ofNat v.toNat]
    else if v.toNat < 2 ^ 29 then
      .ok [UInt8.ofNat (0xC0 + v.toNat / 2 ^ 24), UInt8.ofNat (v.toNat / 2 ^ 16),
        UInt8.ofNat (v.toNat / 2 ^ 8), UInt8.ofNat v.toNat]
    else .error (.overflow v) := by
  have h8 : (v >>> 8).toNat = v.toNat / 2 ^ 8 := by
    simp [UInt32.toNat_shiftRight, Nat.shiftRight_eq_div_pow]
  have h16 : (v >>> 16).toNat = v.toNat / 2 ^ 16 := by
    simp [UInt32.toNat_shiftRight, Nat.shiftRight_eq_div_pow]
  have h24 : (v >>> 24).toNat = v.toNat / 2 ^ 24 := by
    simp [UInt32.toNat_shiftRight, Nat.shiftRight_eq_div_pow]
  -- Both sides test the same three bounds, written with `≤` in `write`.
  have e7 : v.toNat < 2 ^ 7 ↔ v.toNat ≤ 127 := by omega
  have e14 : v.toNat < 2 ^ 14 ↔ v.toNat ≤ 16383 := by omega
  have e29 : v.toNat < 2 ^ 29 ↔ v.toNat ≤ 536870911 := by omega
  unfold write
  simp only [UInt32.le_iff_toNat_le, maxValue, UInt32.reduceToNat, e7, e14, e29]
  split_ifs with h1 h2 h3
  · rw [toUInt8_eq_ofNat]
  · rw [toUInt8_or_of_mod (i := 6) (by simp) (by omega), toUInt8_eq_ofNat, h8]
    rfl
  · rw [toUInt8_or_of_mod (i := 5) (by simp) (by omega), toUInt8_eq_ofNat, toUInt8_eq_ofNat,
      toUInt8_eq_ofNat, h24, h16, h8]
    rfl
  · rfl

/-- What `write` writes is one item, and it stands for the value written. -/
theorem write_isItem {v : UInt32} {it : List UInt8} (h : write v = .ok it) :
    IsItem it ∧ itemValue it = v := by
  rw [write_eq_bytes] at h
  have hval : ∀ n : Nat, n = v.toNat → n.toUInt32 = v := fun n hn => by
    apply UInt32.toNat_inj.mp
    rw [Nat.toUInt32, UInt32.toNat_ofNat', hn, Nat.mod_eq_of_lt v.toNat_lt]
  split_ifs at h with h1 h2 h3 <;> cases h
  · refine ⟨⟨_, [], rfl, ?_⟩, hval _ ?_⟩
    · rw [leadWidth_eq, UInt8.toNat_ofNat', if_pos (by omega)]
      rfl
    · simp [bigEndian, valueBits]
      omega
  · refine ⟨⟨_, [_], rfl, ?_⟩, hval _ ?_⟩
    · rw [leadWidth_eq, UInt8.toNat_ofNat', if_neg (by omega), if_pos (by omega)]
      rfl
    · simp [bigEndian, valueBits, UInt8.toNat_ofNat']
      omega
  · refine ⟨⟨_, [_, _, _], rfl, ?_⟩, hval _ ?_⟩
    · rw [leadWidth_eq, UInt8.toNat_ofNat', if_neg (by omega), if_neg (by omega)]
      rfl
    · simp [bigEndian, valueBits, UInt8.toNat_ofNat']
      omega

/-- An item is what writing its value gives exactly when it is canonical. -/
theorem write_itemValue_iff {it : List UInt8} (h : IsItem it) :
    write (itemValue it) = .ok it ↔ Canonical it := by
  obtain ⟨lead, tail, rfl, hw⟩ := h
  have hl := lead.toNat_lt
  rw [leadWidth_eq] at hw
  unfold Canonical
  split_ifs at hw with h1 h2
  · obtain rfl : tail = [] := List.eq_nil_of_length_eq_zero (by omega)
    have hN : (itemValue [lead]).toNat = lead.toNat := by
      simp [toNat_itemValue, bigEndian, valueBits]
      omega
    simp [write_eq_bytes, shortestWidth, hN, h1]
  · obtain ⟨a, rfl⟩ : ∃ a, tail = [a] := List.length_eq_one_iff.mp (by omega)
    have ha := a.toNat_lt
    have hN : (itemValue [lead, a]).toNat = (lead.toNat - 128) * 2 ^ 8 + a.toNat := by
      simp [toNat_itemValue, bigEndian, valueBits]
      omega
    rw [write_eq_bytes, shortestWidth]
    generalize (itemValue [lead, a]).toNat = N at hN ⊢
    by_cases hs : N < 2 ^ 7
    · rw [if_pos hs, if_pos hs]
      simp
    · rw [if_neg hs, if_neg hs, if_pos (by omega), if_pos (by omega)]
      simp only [Except.ok.injEq, List.cons.injEq, ofNat_eq_iff, and_true, List.length_cons,
        List.length_nil]
      constructor
      · intro _
        simp
      · intro _
        omega
  · obtain ⟨a, b, c, rfl⟩ : ∃ a b c, tail = [a, b, c] := by
      match tail, hw with
      | [a, b, c], _ => exact ⟨a, b, c, rfl⟩
    have ha := a.toNat_lt
    have hb := b.toNat_lt
    have hc := c.toNat_lt
    have hN : (itemValue [lead, a, b, c]).toNat =
        lead.toNat % 2 ^ 5 * 2 ^ 24 + a.toNat * 2 ^ 16 + b.toNat * 2 ^ 8 + c.toNat := by
      simp [toNat_itemValue, bigEndian, valueBits]
      omega
    rw [write_eq_bytes, shortestWidth]
    generalize (itemValue [lead, a, b, c]).toNat = N at hN ⊢
    by_cases hs1 : N < 2 ^ 7
    · rw [if_pos hs1, if_pos hs1]
      simp
    by_cases hs2 : N < 2 ^ 14
    · rw [if_neg hs1, if_neg hs1, if_pos hs2, if_pos hs2]
      simp
    · -- Only the lead byte can differ: the writer clears the bit the reader ignores.
      rw [if_neg hs1, if_neg hs1, if_neg hs2, if_neg hs2, if_pos (by omega)]
      simp only [Except.ok.injEq, List.cons.injEq, ofNat_eq_iff, and_true, List.length_cons,
        List.length_nil, List.head?_cons, Option.mem_def, Option.some.injEq, forall_eq',
        UInt8.le_iff_toNat_le, UInt8.reduceToNat, true_and, forall_const]
      constructor
      · intro h
        omega
      · intro h
        omega

/-! ### Runs of values -/

/-- A value past `maxValue` has no compressed form: the writer reports the overflow. -/
theorem write_overflow {v : UInt32} (hv : maxValue < v) : write v = .error (.overflow v) := by
  have hlt : ¬ v.toNat < 2 ^ 29 := by
    simp only [maxValue, UInt32.lt_iff_toNat_lt, UInt32.reduceToNat] at hv
    omega
  rw [write_eq_bytes, if_neg (by omega), if_neg (by omega), if_neg hlt]

/-- Writing a run stops at the first value above `maxValue`. -/
theorem encode_overflow {v : UInt32} (post : List UInt32) (hv : maxValue < v) :
    ∀ {pre : List UInt32}, (∀ u ∈ pre, u ≤ maxValue) →
      encode (pre ++ v :: post) = .error (.overflow v)
  | [], _ => by simp [encode, write_overflow hv, bind, Except.bind]
  | u :: pre, hpre => by
    obtain ⟨bs, hbs⟩ := write_eq_ok (hpre u List.mem_cons_self)
    rw [List.cons_append, encode, hbs,
      encode_overflow post hv fun w hw => hpre w (List.mem_cons_of_mem _ hw)]
    rfl

/-- A run is written when each of its values is, the items laid end to end. -/
theorem encode_eq_ok_iff : ∀ {vs : List UInt32} {b : List UInt8},
    encode vs = .ok b ↔
      ∃ its, List.Forall₂ (fun v it => write v = .ok it) vs its ∧ its.flatten = b
  | [], b => by
    rw [encode, Except.ok.injEq]
    constructor
    · rintro rfl
      exact ⟨[], .nil, rfl⟩
    · rintro ⟨its, hnil, rfl⟩
      rw [List.forall₂_nil_left_iff.mp hnil, List.flatten_nil]
  | v :: vs, b => by
    constructor
    · intro h
      obtain ⟨head, hhead, h⟩ := Except.bind_eq_ok.mp h
      obtain ⟨tail, htail, h⟩ := Except.bind_eq_ok.mp h
      obtain ⟨its, hits, rfl⟩ := encode_eq_ok_iff.mp htail
      exact ⟨head :: its, .cons hhead hits, by rw [List.flatten_cons, ← Except.pure_eq_ok.mp h]⟩
    · rintro ⟨_ | ⟨it, its⟩, hall, rfl⟩
      · cases hall
      · obtain ⟨hit, hits⟩ := List.forall₂_cons.mp hall
        simp only [encode, hit, encode_eq_ok_iff.mpr ⟨its, hits, rfl⟩, List.flatten_cons]
        rfl

/-- Values written one by one give canonical items that stand for them. -/
theorem written_items {vs : List UInt32} {its : List (List UInt8)}
    (h : List.Forall₂ (fun v it => write v = .ok it) vs its) :
    (∀ it ∈ its, IsItem it ∧ Canonical it) ∧ its.map itemValue = vs := by
  induction h with
  | nil => simp
  | @cons v it vs its hw _ ih =>
    obtain ⟨hitem, hval⟩ := write_isItem hw
    have hcan : Canonical it := (write_itemValue_iff hitem).mp (hval ▸ hw)
    refine ⟨fun j hj => ?_, by rw [List.map_cons, hval, ih.2]⟩
    rcases List.mem_cons.mp hj with rfl | hj
    · exact ⟨hitem, hcan⟩
    · exact ih.1 j hj

/-- Values that all have compressed forms are each written. -/
theorem exists_forall₂_write : ∀ {vs : List UInt32}, (∀ v ∈ vs, v ≤ maxValue) →
    ∃ its, List.Forall₂ (fun v it => write v = .ok it) vs its
  | [], _ => ⟨[], .nil⟩
  | v :: vs, h => by
    obtain ⟨it, hit⟩ := write_eq_ok (h v List.mem_cons_self)
    obtain ⟨its, hits⟩ := exists_forall₂_write fun w hw => h w (List.mem_cons_of_mem _ hw)
    exact ⟨it :: its, .cons hit hits⟩

/-- A run of values that all have a form is written, each value in its shortest
form, and read back. -/
theorem encode_decode {vs : List UInt32} (hvs : ∀ v ∈ vs, v ≤ maxValue) :
    ∃ b, encode vs = .ok b ∧ decode b = .ok vs ∧
      (items b).map (·.map List.length) = some (vs.map shortestWidth) := by
  obtain ⟨its, hw⟩ := exists_forall₂_write hvs
  obtain ⟨hcan, hvals⟩ := written_items hw
  have hcut : items its.flatten = some its := items_flatten fun it hit => (hcan it hit).1
  refine ⟨its.flatten, encode_eq_ok_iff.mpr ⟨its, hw, rfl⟩,
    by rw [decode_eq, hcut]; exact congrArg _ hvals, ?_⟩
  -- Each item is as wide as the shortest form of the value it stands for.
  rw [hcut, Option.map_some, ← hvals, List.map_map]
  congr 1
  exact List.map_congr_left fun it hit => (hcan it hit).2.1

/-- A blob that reads as `vs` is what writing `vs` gives exactly when every item
of its cut is canonical. -/
theorem encode_eq_iff_canonical {b : List UInt8} {vs : List UInt32} {its : List (List UInt8)}
    (hd : decode b = .ok vs) (hits : items b = some its) :
    encode vs = .ok b ↔ ∀ it ∈ its, Canonical it := by
  rw [decode_eq, hits, Except.ok.injEq] at hd
  subst hd
  obtain ⟨hitem, rfl⟩ := items_eq_some hits
  constructor
  · intro h
    obtain ⟨its', hw, hflat⟩ := encode_eq_ok_iff.mp h
    obtain ⟨hcan', -⟩ := written_items hw
    -- What was written is cut into the items it was written as.
    have hsame : its' = its := by
      have hcut := items_flatten fun it hit => (hcan' it hit).1
      rw [hflat, hits] at hcut
      exact (Option.some.inj hcut).symm
    subst hsame
    exact fun it hit => (hcan' it hit).2
  · intro hcan
    refine encode_eq_ok_iff.mpr ⟨its, ?_, rfl⟩
    rw [List.forall₂_map_left_iff, List.forall₂_same]
    exact fun it hit => (write_itemValue_iff (hitem it hit)).mpr (hcan it hit)

/-- **The codec of runs.** Writing stops at the first value above `maxValue`;
otherwise each value is written in its shortest form and read back. A blob that
reads as `vs` is what writing `vs` gives exactly when each of its items is
canonical, and reading fails, at the end of the blob, exactly when its last item
runs past the end. -/
theorem codec_roundTrip :
    (∀ (pre : List UInt32) (v : UInt32) (post : List UInt32), (∀ u ∈ pre, u ≤ maxValue) →
      maxValue < v → encode (pre ++ v :: post) = .error (.overflow v)) ∧
    (∀ vs : List UInt32, (∀ v ∈ vs, v ≤ maxValue) →
      ∃ b, encode vs = .ok b ∧ decode b = .ok vs ∧
        (items b).map (·.map List.length) = some (vs.map shortestWidth)) ∧
    (∀ (b : List UInt8) (vs : List UInt32) (its : List (List UInt8)), decode b = .ok vs →
      items b = some its → (encode vs = .ok b ↔ ∀ it ∈ its, Canonical it)) ∧
    (∀ (b : List UInt8) (e : SigError),
      decode b = .error e ↔ items b = none ∧ e = .truncated b.length) :=
  ⟨fun _ _ post hpre hv => encode_overflow post hv hpre, fun _ hvs => encode_decode hvs,
    fun _ _ _ hd hits => encode_eq_iff_canonical hd hits, decode_eq_error_iff⟩

/-- A value past 29 bits after one that fits; one value of each width; five in
the two-byte form, which reads as five but is not how five is written; and a
four-byte lead with one byte after it. -/
theorem codec_boundaries :
    encode ([0x3FFF] ++ 0x20000000 :: [5]) = .error (.overflow 0x20000000) ∧
    (∃ b, encode [0x7F, 0x80, 0x4000] = .ok b ∧ decode b = .ok [0x7F, 0x80, 0x4000] ∧
      (items b).map (·.map List.length) = some ([0x7F, 0x80, 0x4000].map shortestWidth)) ∧
    (encode [5] = .ok [0x80, 0x05] ↔ ∀ it ∈ [[0x80, 0x05]], Canonical it) ∧
    (decode [0xC0, 0x00] = .error (.truncated 2) ↔
      items [0xC0, 0x00] = none ∧ SigError.truncated 2 = .truncated [0xC0, 0x00].length) :=
  ⟨codec_roundTrip.1 [0x3FFF] 0x20000000 [5] (by simp [maxValue]) (by simp [maxValue]),
    codec_roundTrip.2.1 _ (by simp [maxValue]),
    codec_roundTrip.2.2.1 [0x80, 0x05] [5] [[0x80, 0x05]] rfl (by simp [items, leadWidth]),
    codec_roundTrip.2.2.2 _ _⟩

end CilBind.Compressed
