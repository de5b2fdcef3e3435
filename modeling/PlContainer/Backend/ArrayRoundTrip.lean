import PlContainer.Backend.ArrayDatums
import Mathlib.Data.List.GetD
import Mathlib.Tactic.IntervalCases

set_option autoImplicit false

/-! # Arrays to the client and back

The iterator of `plc_datum_as_array` yields the elements that the bitmap and the data say, and the
blocks that `receive_array` makes of them give `construct_md_array` the same elements again. For the
first, the invariant ties the three pointers of the iterator to the index of the next element; for the
second, it says which entry of the blocks holds which element. -/

namespace PlContainer

open Block ByteStream Cells Checked

/-! ## The bitmap -/

theorem nonNullsBefore_succ (bitmap : Option (List UInt8)) (i : ℕ) :
    nonNullsBefore bitmap (i + 1)
      = nonNullsBefore bitmap i + if isNullAt bitmap i then 0 else 1 := by
  rw [nonNullsBefore, nonNullsBefore, List.range_succ, List.countP_append, List.countP_singleton]
  cases isNullAt bitmap i <;> rfl

theorem nonNullsBefore_le {bitmap : Option (List UInt8)} {i n : ℕ} (h : i ≤ n) :
    nonNullsBefore bitmap i ≤ nonNullsBefore bitmap n :=
  (List.range_sublist.2 h).countP_le

/-- The mask picks one bit of the byte. -/
theorem and_mask_eq_zero (byte : UInt8) {j : ℕ} (h : j < 8) :
    (byte.toBitVec.setWidth 32 &&& BitVec.twoPow 32 j == 0) = !byte.toBitVec.getLsbD j := by
  have hbit : (byte.toBitVec.setWidth 32).getLsbD j = byte.toBitVec.getLsbD j := by
    rw [BitVec.getLsbD_setWidth]
    simp [show j < 32 by omega]
  have hpow : BitVec.twoPow 32 j ≠ 0 := by
    intro hzero
    have hget := congrArg (fun bits => bits.getLsbD j) hzero
    simp [show j < 32 by omega] at hget
  rw [BitVec.and_twoPow, hbit]
  cases byte.toBitVec.getLsbD j with
  | true => simpa using hpow
  | false => rfl

/-! ## The iterator -/

section Iterator

variable {D : Type} {array : ArrayType D}

/-- The pointers of the iterator before it yields element `i`. -/
structure PgArrayIterator.At (array : ArrayType D) (i : ℕ) (it : PgArrayIterator D) : Prop where
  data : it.data = array.stored.drop (nonNullsBefore array.bitmap i)
  bitmap : it.bitmap = array.bitmap.map (List.drop (i / 8))
  bitmask : array.bitmap.isSome → it.bitmask = BitVec.twoPow 32 (i % 8)

theorem ArrayType.at_start (input : ElementInput) : (array.plcDatumAsArray input).At array 0 where
  data := rfl
  bitmap := by
    show array.bitmap = array.bitmap.map (List.drop 0)
    cases array.bitmap <;> rfl
  bitmask _ := rfl

/-- The bit under the two pointers is that of the element. -/
theorem PgArrayIterator.At.atNull {it : PgArrayIterator D} {i : ℕ} (h : it.At array i)
    (hi : (i : ℤ) < elementCount array.dims) : it.atNull = some (isNullAt array.bitmap i) := by
  rw [PgArrayIterator.atNull, h.bitmap]
  cases hbitmap : array.bitmap with
  | none => rfl
  | some bytes =>
      have hlt : i / 8 < bytes.length := by
        have := array.bitmap_length bytes hbitmap
        omega
      have hmask := h.bitmask (by rw [hbitmap]; rfl)
      rw [Option.map_some, List.drop_eq_getElem_cons hlt]
      simp only [isNullAt]
      rw [hmask, and_mask_eq_zero _ (Nat.mod_lt i (by decide)), List.getD_eq_getElem _ _ hlt]

/-- The mask goes to the next bit, or to the first one of the next byte. -/
theorem PgArrayIterator.At.advance {it : PgArrayIterator D} {i : ℕ} (h : it.At array i)
    {data : List D} (hdata : data = array.stored.drop (nonNullsBefore array.bitmap (i + 1))) :
    ({ it with data }.advanceBitmap).At array (i + 1) := by
  rw [PgArrayIterator.advanceBitmap]
  dsimp only
  rw [h.bitmap]
  cases hbitmap : array.bitmap with
  | none => exact ⟨hdata, by simp [hbitmap], by simp [hbitmap]⟩
  | some bytes =>
      have hmask := h.bitmask (by rw [hbitmap]; rfl)
      have hshift : it.bitmask <<< 1 = BitVec.twoPow 32 (i % 8 + 1) := by
        rw [hmask, BitVec.twoPow, ← BitVec.shiftLeft_add, BitVec.twoPow]
      rw [Option.map_some]
      dsimp only
      rw [hshift]
      by_cases hlast : i % 8 = 7
      · have hbyte : (i + 1) / 8 = i / 8 + 1 := by omega
        have hbit : (i + 1) % 8 = 0 := by omega
        rw [if_pos (by rw [hlast]; decide)]
        refine ⟨hdata, ?_, fun _ => by rw [hbit]; rfl⟩
        simp [hbitmap, hbyte]
      · have hbyte : (i + 1) / 8 = i / 8 := by omega
        have hbit : (i + 1) % 8 = i % 8 + 1 := by omega
        have hne : BitVec.twoPow 32 (i % 8 + 1) ≠ 0x100 := by
          have hlt : i % 8 < 7 := by omega
          generalize i % 8 = j at hlt
          interval_cases j <;> decide
        rw [if_neg hne]
        refine ⟨hdata, ?_, fun _ => by rw [hbit]⟩
        rw [hbitmap, hbyte]
        rfl

/-- The elements, as the bitmap and the data say. -/
def ArrayType.element (array : ArrayType D) (i : ℕ) : Option D :=
  if isNullAt array.bitmap i then none else array.stored[nonNullsBefore array.bitmap i]?

/-- There is a datum for every element that is not null. -/
theorem ArrayType.stored_at (array : ArrayType D) {i : ℕ} (hi : (i : ℤ) < elementCount array.dims)
    (hnull : isNullAt array.bitmap i = false) :
    nonNullsBefore array.bitmap i < array.stored.length := by
  have hnext : nonNullsBefore array.bitmap (i + 1) = nonNullsBefore array.bitmap i + 1 := by
    rw [nonNullsBefore_succ, hnull]
    rfl
  have hle : nonNullsBefore array.bitmap (i + 1)
      ≤ nonNullsBefore array.bitmap (elementCount array.dims).toNat :=
    nonNullsBefore_le (by omega)
  rw [array.stored_length]
  omega

/-- One call of `next`. -/
theorem PgArrayIterator.At.next {it : PgArrayIterator D} {i : ℕ} (h : it.At array i)
    (hi : (i : ℤ) < elementCount array.dims) (outfunc : D → Value) :
    ∃ it', plcBackendArrayNext outfunc it = some ((array.element i).map outfunc, it') ∧
      it'.At array (i + 1) := by
  rw [plcBackendArrayNext, h.atNull hi, ArrayType.element]
  have hsucc := nonNullsBefore_succ array.bitmap i
  cases hnull : isNullAt array.bitmap i with
  | true =>
      rw [hnull] at hsucc
      exact ⟨_, rfl, h.advance (h.data.trans (by rw [hsucc]; rfl))⟩
  | false =>
      rw [hnull] at hsucc
      have hlt := array.stored_at hi hnull
      have hdata := h.data
      rw [List.drop_eq_getElem_cons hlt] at hdata
      rw [hdata]
      have hnext : array.stored.drop (nonNullsBefore array.bitmap i + 1)
          = array.stored.drop (nonNullsBefore array.bitmap (i + 1)) := by
        rw [hsucc]
        rfl
      exact ⟨_, by simp [hlt], h.advance hnext⟩

/-- The calls of `next` from element `i` on. -/
theorem PgArrayIterator.At.take {it : PgArrayIterator D} {i n : ℕ} (h : it.At array i)
    (hi : ((i + n : ℕ) : ℤ) ≤ elementCount array.dims) (outfunc : D → Value) :
    ∃ it', it.take outfunc n
      = some ((List.range' i n).map fun j => (array.element j).map outfunc, it') := by
  induction n generalizing i it with
  | zero => exact ⟨it, rfl⟩
  | succ n ih =>
      obtain ⟨it', hnext, hat⟩ := h.next (by omega) outfunc
      obtain ⟨last, htake⟩ := ih hat (by omega)
      refine ⟨last, ?_⟩
      rw [PgArrayIterator.take, hnext, Option.bind_some, htake, Option.map_some, List.range'_succ,
        List.map_cons]

end Iterator

/-! ## Entries of the blocks -/

/-- The cells of an entry hold the value, or a pointer to it. -/
def Entry (heap : List Value) (v : Value) (cells : List Cell) : Prop :=
  match v.entryBytes with
  | some bs => cells = ofBytes bs
  | none => ∃ obj, cells = pointer obj ∧ heap[obj]? = some v

theorem Entry.append {heap more : List Value} {v : Value} {cells : List Cell}
    (h : Entry heap v cells) : Entry (heap ++ more) v cells := by
  unfold Entry at h ⊢
  split at h
  · exact h
  · obtain ⟨obj, hcells, hobj⟩ := h
    exact ⟨obj, hcells, by rw [List.getElem?_append_left (List.getElem?_eq_some_iff.1 hobj).1, hobj]⟩

/-- The value takes the whole entry. -/
def Value.FitsEntry (entrylen : ℕ) (v : Value) : Prop :=
  match v.entryBytes with
  | some bs => bs.length = entrylen
  | none => entrylen = 8

theorem ElementInput.fitsEntry_outfunc {D : Type} (c : Conversions D) (input : ElementInput) {len : ℕ}
    (hlen : plcGetTypeLength input.type = some len) (d : D) : (input.outfunc c d).FitsEntry len := by
  cases input <;> cases hlen <;> simp [Value.FitsEntry, ElementInput.outfunc, Value.entryBytes]

section Blocks

variable {arrMeta : PlcArrayMeta} {entrylen n : ℕ}

/-- The first entries of the blocks hold the elements `elems`. -/
structure PlcArrayBlocks.Holds (arrMeta : PlcArrayMeta) (entrylen n : ℕ) (elems : List RawData)
    (arr : PlcArrayBlocks) : Prop where
  arrMeta_eq : arr.arrMeta = arrMeta
  nulls_length : arr.nulls.length = n
  data_length : arr.data.length = n * entrylen
  flags : ∀ (i : ℕ) (d : RawData), elems[i]? = some d → arr.nulls[i]? = some (some d.isNone)
  entries : ∀ (i : ℕ) (v : Value), elems[i]? = some (some v) →
    Entry arr.heap v (slice arr.data (i * entrylen) entrylen)

theorem getElem?_concat_eq_some {α : Type} {xs : List α} {x y : α} {j : ℕ}
    (h : (xs ++ [x])[j]? = some y) : xs[j]? = some y ∧ j < xs.length ∨ y = x ∧ j = xs.length := by
  rcases Nat.lt_trichotomy j xs.length with hlt | rfl | hgt
  · rw [List.getElem?_append_left hlt] at h
    exact .inl ⟨h, hlt⟩
  · rw [List.getElem?_concat_length, Option.some.injEq] at h
    exact .inr ⟨h.symm, rfl⟩
  · rw [List.getElem?_eq_none (by simp; omega)] at h
    cases h

/-- The flag of the next element. -/
theorem PlcArrayBlocks.Holds.setFlag {elems : List RawData} {arr : PlcArrayBlocks}
    (h : arr.Holds arrMeta entrylen n elems) (hroom : elems.length < n) (d : RawData) (j : ℕ)
    (e : RawData) (hj : (elems ++ [d])[j]? = some e) :
    (arr.nulls.set elems.length (some d.isNone))[j]? = some (some e.isNone) := by
  rcases getElem?_concat_eq_some hj with ⟨hj, hlt⟩ | ⟨rfl, rfl⟩
  · rw [List.getElem?_set_ne hlt.ne', h.flags j e hj]
  · exact List.getElem?_set_self (by rw [h.nulls_length]; exact hroom)

/-- Cells stored as the next entry leave the earlier entries alone. -/
theorem PlcArrayBlocks.Holds.put {elems : List RawData} {arr : PlcArrayBlocks}
    (h : arr.Holds arrMeta entrylen n elems) (hroom : elems.length < n) {v : Value}
    {cells : List Cell} {more : List Value} (hcells : cells.length = entrylen)
    (hnew : Entry (arr.heap ++ more) v cells) :
    PlcArrayBlocks.Holds arrMeta entrylen n (elems ++ [some v])
      { arr with
        nulls := arr.nulls.set elems.length (some false)
        data := overwrite arr.data (elems.length * entrylen) cells
        heap := arr.heap ++ more } := by
  have hend : elems.length * entrylen + entrylen ≤ n * entrylen := by
    rw [← Nat.succ_mul]
    exact Nat.mul_le_mul_right _ hroom
  have hstart : elems.length * entrylen ≤ arr.data.length := by
    rw [h.data_length]
    omega
  refine ⟨h.arrMeta_eq, by simp [h.nulls_length], ?_, h.setFlag hroom (some v), ?_⟩
  · show (overwrite arr.data (elems.length * entrylen) cells).length = n * entrylen
    rw [overwrite_length (by rw [hcells, h.data_length]; exact hend), h.data_length]
  · intro j w hj
    rcases getElem?_concat_eq_some hj with ⟨hj, hlt⟩ | ⟨hw, rfl⟩
    · have hbefore : j * entrylen + entrylen ≤ elems.length * entrylen := by
        rw [← Nat.succ_mul]
        exact Nat.mul_le_mul_right _ hlt
      show Entry _ w (slice (overwrite arr.data (elems.length * entrylen) cells) _ _)
      rw [slice_overwrite_before hbefore hstart]
      exact (h.entries j w hj).append
    · cases hw
      subst hcells
      show Entry _ v (slice (overwrite arr.data (elems.length * cells.length) cells) _ _)
      rw [slice_overwrite_self hstart]
      exact hnew

variable (hlen : plcGetTypeLength arrMeta.type = some entrylen) (hfit : n * entrylen < 2 ^ 31)

include hlen hfit

/-- One round of the element loop. -/
theorem PlcArrayBlocks.Holds.store {elems : List RawData} {arr : PlcArrayBlocks}
    (h : arr.Holds arrMeta entrylen n elems) (hroom : elems.length < n) {d : RawData}
    (hd : ∀ v, d = some v → v.FitsEntry entrylen) :
    (arr.store entrylen elems.length d).Holds arrMeta entrylen n (elems ++ [d]) := by
  cases d with
  | none =>
      refine ⟨h.arrMeta_eq, by simp [PlcArrayBlocks.store, h.nulls_length], h.data_length,
        h.setFlag hroom none, ?_⟩
      intro j v hj
      rcases getElem?_concat_eq_some hj with ⟨hj, -⟩ | ⟨hv, -⟩
      · exact h.entries j v hj
      · cases hv
  | some v =>
      have hv := hd v rfl
      have hoff : (entryOffset arr.arrMeta.type entrylen elems.length).toNat
          = elems.length * entrylen := by
        have hlt : elems.length * entrylen ≤ n * entrylen := Nat.mul_le_mul_right _ hroom.le
        rw [h.arrMeta_eq, entryOffset_eq hlen (by omega), Int.toNat_natCast]
      unfold PlcArrayBlocks.store
      dsimp only
      rw [hoff]
      unfold Value.FitsEntry at hv
      split
      next bs hbytes =>
        rw [hbytes] at hv
        have hnew : Entry (arr.heap ++ []) v (ofBytes bs) := by simp [Entry, hbytes]
        have hput := h.put hroom (by rw [ofBytes_length]; exact hv) hnew
        rw [List.append_nil] at hput
        exact hput
      next hbytes =>
        rw [hbytes] at hv
        refine h.put hroom (by rw [pointer_length]; exact hv.symm) ?_
        rw [Entry, hbytes]
        exact ⟨arr.heap.length, rfl, by simp⟩

theorem PlcArrayBlocks.Holds.storeAll {elems ds : List RawData} {arr : PlcArrayBlocks}
    (h : arr.Holds arrMeta entrylen n elems) (hroom : elems.length + ds.length ≤ n)
    (hds : ∀ v, some v ∈ ds → v.FitsEntry entrylen) :
    (arr.storeAll entrylen elems.length ds).Holds arrMeta entrylen n (elems ++ ds) := by
  induction ds generalizing elems arr with
  | nil =>
      rw [List.append_nil]
      exact h
  | cons d ds ih =>
      rw [List.length_cons] at hroom
      have hstored := h.store hlen hfit (d := d) (by omega)
        fun v hv => hds v (hv ▸ List.mem_cons_self ..)
      have hrest := ih hstored (by simp; omega) fun v hv => hds v (List.mem_cons_of_mem _ hv)
      rw [List.length_append, List.length_singleton, List.append_assoc, List.singleton_append] at hrest
      exact hrest

end Blocks

/-! ## Reading the blocks -/

section Datums

variable {D : Type} (c : Conversions D) (input : ElementInput)

theorem map_word?_eq {w k : ℕ} (hw : w = 8 * k) {x : BitVec w} {block : List Cell} {ptr : ℕ}
    (h : slice block ptr k = ofBytes (leBytes k x.toNat)) (f : BitVec w → D) :
    (word? block ptr k).map (fun n => f (BitVec.ofNat w n)) = some (f x) := by
  rw [word?_eq h, Option.map_some, ofLeBytes_leBytes_bitVec hw]

/-- An `infunc` that is given an entry makes of it what it makes of the value. -/
theorem ElementInput.infunc_entry {len : ℕ} (hlen : plcGetTypeLength input.type = some len)
    {heap : List Value} {block : List Cell} {ptr : ℕ} {v : Value}
    (hentry : Entry heap v (slice block ptr len)) {d : D} (hd : input.datumOf c v = some d) :
    input.infunc c heap block ptr = some d := by
  have hpointer (hbytes : v.entryBytes = none) (h8 : len = 8) :
      (deref? heap block ptr).bind (input.datumOf c) = some d := by
    rw [Entry, hbytes] at hentry
    obtain ⟨obj, hcells, hobj⟩ := hentry
    rw [h8] at hcells
    rw [deref?_eq hcells hobj, Option.bind_some, hd]
  cases input <;> cases v <;> cases hd
  case textPtr.text | byteaPtr.bytea | udtPtr.udt =>
    cases hlen
    exact hpointer rfl rfl
  case int1.int1 v =>
    cases hlen
    have hcells : slice block ptr 1 = ofBytes [v] := hentry
    rw [ElementInput.infunc, word?_eq hcells]
    simp [ofLeBytes]
  all_goals
    cases hlen
    exact map_word?_eq rfl hentry _

theorem ElementInput.datumOf_outfunc (d : D) : ∃ d', input.datumOf c (input.outfunc c d) = some d' := by
  cases input <;> exact ⟨_, rfl⟩

/-- What the loop of `plc_datum_from_array` puts into `elems`. -/
def ElementInput.datumOfRaw : RawData → Option D
  | none => some c.datum0
  | some v => input.datumOf c v

/-- The running pointer of the loop is at the entry of its index. -/
theorem PlcArrayBlocks.Holds.datums {arrMeta : PlcArrayMeta} {len n : ℕ} {elems : List RawData}
    {arr : PlcArrayBlocks} (h : arr.Holds arrMeta len n elems)
    (hlen : plcGetTypeLength input.type = some len)
    (hvalues : ∀ d ∈ elems, (input.datumOfRaw c d).isSome) {m i : ℕ} (hm : i + m = elems.length) :
    ∃ ds, datumsFromBlocks c input arr len m i (i * len) = some ds ∧
      ds.map some = (elems.drop i).map (input.datumOfRaw c) := by
  induction m generalizing i with
  | zero =>
      refine ⟨[], rfl, ?_⟩
      rw [List.drop_of_length_le (by omega)]
      rfl
  | succ m ih =>
      have hlt : i < elems.length := by omega
      have hget : elems[i]? = some elems[i] := List.getElem?_eq_getElem hlt
      obtain ⟨d, hd⟩ := Option.isSome_iff_exists.1 (hvalues _ (List.getElem_mem hlt))
      obtain ⟨ds, hrest, hds⟩ := ih (i := i + 1) (by omega)
      refine ⟨d :: ds, ?_, ?_⟩
      · rw [Nat.succ_mul] at hrest
        rw [datumsFromBlocks, h.flags i _ hget]
        cases hraw : elems[i] with
        | none =>
            rw [hraw] at hd
            cases hd
            simp [hrest]
        | some v =>
            rw [hraw] at hd hget
            have hinfunc := input.infunc_entry c hlen (h.entries i v hget) hd
            simp [hinfunc, hrest]
      · rw [List.drop_eq_getElem_cons hlt, List.map_cons, List.map_cons, hds, hd]

end Datums

/-! ## Types of elements -/

section Elements

variable {cat : Catalog} {record : Option (List PgAttribute)}

/-- The type is that of the elements of some array, which may be an attribute. -/
def IsElementType (cat : Catalog) (record : Option (List PgAttribute)) (elem : PlcTypeInfo) : Prop :=
  ∃ typeOid typeName,
    fillTypeInfo cat record typeOid = .ok (.array typeName elem) ∨
      fillAttribute cat record typeOid = .ok (.array typeName elem)

theorem elementInput_scalarInput (typeOid : Oid) (typeName : Option CString) :
    ∃ input, (PlcTypeInfo.scalar (scalarInput typeOid true) typeName).elementInput = some input := by
  simp only [scalarInput, if_true]
  repeat' split
  all_goals exact ⟨_, rfl⟩

/-- Every type of elements has one of the `infunc`s for elements. -/
theorem IsElementType.elementInput {elem : PlcTypeInfo} (h : IsElementType cat record elem) :
    ∃ input, elem.elementInput = some input := by
  obtain ⟨typeOid, typeName, h | h⟩ := h
  · rcases fillTypeInfoBody_cases h with ⟨-, elemOid, elem', helem, hinfo⟩ | hinfo | ⟨-, _, _, _, -, hinfo⟩
    · cases hinfo
      rcases fillTypeInfoBody_cases helem with ⟨hnot, -⟩ | rfl | ⟨-, _, _, _, -, rfl⟩
      · cases hnot
      · exact elementInput_scalarInput elemOid none
      · exact ⟨.udtPtr, rfl⟩
    · cases hinfo
    · cases hinfo
  · rcases fillTypeInfoBody_cases h with ⟨-, elemOid, elem', helem, hinfo⟩ | hinfo | ⟨hnot, -⟩
    · cases hinfo
      rw [fillAttributeElement_eq_ok helem]
      exact elementInput_scalarInput elemOid none
    · cases hinfo
    · cases hnot

end Elements

/-! ## The round trip -/

section RoundTrip

variable {D : Type} (c : Conversions D) (input : ElementInput) (array : ArrayType D)

/-- The elements that the iterator is expected to yield. -/
def ArrayType.rawElements : List RawData :=
  (List.range (elementCount array.dims).toNat).map fun i =>
    (array.element i).map (input.outfunc c)

@[simp] theorem ArrayType.length_rawElements :
    (array.rawElements c input).length = (elementCount array.dims).toNat := by
  simp [ArrayType.rawElements]

theorem ArrayType.getElem?_rawElements {i : ℕ} {d : RawData}
    (h : (array.rawElements c input)[i]? = some d) :
    (i : ℤ) < elementCount array.dims ∧ d = (array.element i).map (input.outfunc c) := by
  obtain ⟨hlt, hget⟩ := List.getElem?_eq_some_iff.1 h
  rw [array.length_rawElements c input] at hlt
  refine ⟨by omega, ?_⟩
  rw [← hget]
  simp [ArrayType.rawElements]

theorem ElementInput.exists_length : ∃ len, plcGetTypeLength input.type = some len ∧ len ≤ 8 := by
  cases input <;> exact ⟨_, rfl, by decide⟩

theorem ArrayType.toInt_ndims :
    (BitVec.ofNat 32 array.dims.length).toInt.toNat = array.dims.length := by
  rw [toInt_ofNat32 array.ndims_lt, Int.toNat_natCast]

theorem ArrayType.arrMeta_eq :
    (array.plcDatumAsArray input).arrMeta
      = ⟨input.type, BitVec.ofNat 32 array.dims.length, array.dims, arraySize array.dims⟩ := by
  rw [ArrayType.plcDatumAsArray]
  dsimp only
  rw [size_eq_arraySize array.toInt_ndims.symm]

theorem ArrayType.toInt_size : (arraySize array.dims).toInt = elementCount array.dims := by
  have hle := array.count_le
  rw [maxArraySize] at hle
  exact toInt_arraySize array.count_nonneg (by omega)

/-- The whole run of the iterator. -/
theorem ArrayType.take_plcDatumAsArray (outfunc : D → Value) :
    ∃ it, (array.plcDatumAsArray input).take outfunc
        (array.plcDatumAsArray input).arrMeta.size.toInt.toNat
      = some ((List.range (elementCount array.dims).toNat).map fun i =>
          (array.element i).map outfunc, it) := by
  have hcount := array.count_nonneg
  obtain ⟨it, htake⟩ := (array.at_start input).take (n := (elementCount array.dims).toNat) (by omega)
    outfunc
  refine ⟨it, ?_⟩
  rw [array.arrMeta_eq]
  dsimp only
  rw [array.toInt_size, htake, List.range_eq_range']

/-- The array with its elements in place, as the conversions of rows take it. -/
def ArrayType.toPgArray (lbounds : List (BitVec 32)) : PgArray D :=
  ⟨array.dims, lbounds, (List.range (elementCount array.dims).toNat).map array.element⟩

/-- The iterator yields what `plcDatumAsArray` says of the array with its elements in place. -/
theorem arrayIterator_refines (io : ScalarIO D) (elemOid : Oid) (lbounds : List (BitVec 32))
    (htype : input.type = (scalarInput elemOid true).type) :
    ∃ elems it, (array.plcDatumAsArray input).take (io.outfunc elemOid)
        (array.plcDatumAsArray input).arrMeta.size.toInt.toNat = some (elems, it) ∧
      plcDatumAsArray io elemOid (array.toPgArray lbounds)
        = .iterator (array.plcDatumAsArray input).arrMeta elems := by
  obtain ⟨it, htake⟩ := array.take_plcDatumAsArray input (io.outfunc elemOid)
  refine ⟨_, it, htake, ?_⟩
  have hsize : (if 0 < array.dims.length then array.dims.foldl (· * ·) 1 else 0)
      = arraySize array.dims := by
    rw [arraySize]
    cases array.dims <;> rfl
  rw [plcDatumAsArray, array.arrMeta_eq, htype, ArrayType.toPgArray, List.map_map]
  dsimp only
  rw [hsize]
  rfl

/-- The blocks that `receive_array` makes of the elements hold them all. -/
theorem ArrayType.holds_receiveBlocks {len : ℕ} (hlen : plcGetTypeLength input.type = some len)
    (h8 : len ≤ 8) :
    ∃ arr, receiveBlocks input.type (BitVec.ofNat 32 array.dims.length) array.dims
        (array.rawElements c input) = some arr ∧
      arr.Holds (array.plcDatumAsArray input).arrMeta len (elementCount array.dims).toNat
        (array.rawElements c input) := by
  have hle := array.count_le
  have hcount := array.count_nonneg
  have hsize := array.toInt_size
  rw [maxArraySize] at hle
  rw [receiveBlocks, size_eq_arraySize array.toInt_ndims.symm, array.arrMeta_eq]
  by_cases hpos : 0 < (arraySize array.dims).toInt
  · have hfit : (elementCount array.dims).toNat * len < 2 ^ 31 := by
      have := Nat.mul_le_mul_left (elementCount array.dims).toNat h8
      omega
    have hblock : (arraySize array.dims * BitVec.ofNat 32 len).toInt.toNat
        = (elementCount array.dims).toNat * len := by
      obtain ⟨hof, -⟩ := eq_ofNat_of_toInt_pos hpos
      rw [hof, hsize, toInt_ofNat_mul hfit, Int.toNat_natCast]
    rw [if_pos hpos, hlen, Option.map_some, hblock, hsize]
    refine ⟨_, rfl, ?_⟩
    have hstart : PlcArrayBlocks.Holds
        ⟨input.type, BitVec.ofNat 32 array.dims.length, array.dims, arraySize array.dims⟩ len
        (elementCount array.dims).toNat []
        { arrMeta := ⟨input.type, BitVec.ofNat 32 array.dims.length, array.dims, arraySize array.dims⟩
          nulls := List.replicate (elementCount array.dims).toNat none
          data := List.replicate ((elementCount array.dims).toNat * len) (.byte 0)
          heap := [] } :=
      ⟨rfl, by simp, by simp, by simp, by simp⟩
    refine hstart.storeAll hlen hfit (by simp) fun v hv => ?_
    obtain ⟨i, -, hi⟩ := List.mem_map.1 hv
    obtain ⟨d, -, rfl⟩ := Option.map_eq_some_iff.1 hi
    exact input.fitsEntry_outfunc c hlen d
  · have hzero : (elementCount array.dims).toNat = 0 := by omega
    rw [if_neg hpos]
    refine ⟨_, rfl, rfl, hzero.symm, by simp [hzero], ?_, ?_⟩
    all_goals
      intro i d hi
      have := (array.getElem?_rawElements c input hi).1
      omega

/-- What `plc_datum_from_array` hands to `construct_md_array`. -/
theorem ArrayType.exists_constructMdArray {len : ℕ} (hlen : plcGetTypeLength input.type = some len)
    {arr : PlcArrayBlocks}
    (harr : arr.Holds (array.plcDatumAsArray input).arrMeta len (elementCount array.dims).toNat
      (array.rawElements c input)) :
    ∃ ds, arr.plcDatumFromArray c input
        = some ⟨ds, arr.nulls, BitVec.ofNat 32 array.dims.length, array.dims,
          List.replicate array.dims.length 1⟩ ∧
      ds.map some = (array.rawElements c input).map (input.datumOfRaw c) := by
  have hvalues : ∀ d ∈ array.rawElements c input, (input.datumOfRaw c d).isSome := by
    intro d hd
    obtain ⟨i, -, rfl⟩ := List.mem_map.1 hd
    cases array.element i with
    | none => rfl
    | some e =>
        obtain ⟨d', hd'⟩ := input.datumOf_outfunc c e
        simp [ElementInput.datumOfRaw, hd']
  obtain ⟨ds, hds, hmap⟩ := harr.datums c input hlen hvalues (i := 0) (Nat.zero_add _)
  rw [Nat.zero_mul, array.length_rawElements c input] at hds
  refine ⟨ds, ?_, hmap⟩
  rw [PlcArrayBlocks.plcDatumFromArray, hlen, Option.bind_some, harr.arrMeta_eq, array.arrMeta_eq,
    array.toInt_size, hds, Option.map_some, array.toInt_ndims]

/-- The flags that are handed on are those of the elements. -/
theorem PlcArrayBlocks.Holds.nulls_eq {arrMeta : PlcArrayMeta} {len : ℕ} {elems : List RawData}
    {arr : PlcArrayBlocks} (h : arr.Holds arrMeta len elems.length elems) :
    arr.nulls = elems.map fun d => some d.isNone := by
  apply List.ext_getElem?
  intro i
  rw [List.getElem?_map]
  cases hd : elems[i]? with
  | none =>
      have hge : elems.length ≤ i := List.getElem?_eq_none_iff.1 hd
      exact List.getElem?_eq_none (by rw [h.nulls_length]; exact hge)
  | some d => exact h.flags i d hd

end RoundTrip

/-- **Arrays of the database survive the way to the client and back.** For every array, whatever its
dimensions and its bitmap, and every type of elements that the backend supports: the iterator of
`plc_datum_as_array` yields as many elements as the dimensions say; an element is null exactly if the
bitmap says so, and otherwise the `outfunc` of the datum that is stored for it, which is the `k`-th one
after `k` elements that are not null. And from the blocks that `receive_array` makes of these elements,
`plc_datum_from_array` hands to `construct_md_array` the same dimensions, the same null flags and, for
each element that is not null, what the `infunc` makes of it. -/
theorem backend_array_round_trip {D : Type} (c : Conversions D) {cat : Catalog}
    {record : Option (List PgAttribute)} {elem : PlcTypeInfo} (helem : IsElementType cat record elem)
    (array : ArrayType D) :
    ∃ input elems it arr call,
      elem.elementInput = some input ∧
      (array.plcDatumAsArray input).take (input.outfunc c)
          (array.plcDatumAsArray input).arrMeta.size.toInt.toNat = some (elems, it) ∧
      (elems.length : ℤ) = elementCount array.dims ∧
      (∀ (i : ℕ) (d : RawData), elems[i]? = some d →
        if isNullAt array.bitmap i then d = none
        else ∃ datum, array.stored[nonNullsBefore array.bitmap i]? = some datum ∧
          d = some (input.outfunc c datum)) ∧
      receiveBlocks input.type (array.plcDatumAsArray input).arrMeta.ndims
          (array.plcDatumAsArray input).arrMeta.dims elems = some arr ∧
      arr.plcDatumFromArray c input = some call ∧
      call.ndims.toInt = array.dims.length ∧
      call.dims = array.dims ∧
      call.nulls = elems.map (fun d => some d.isNone) ∧
      call.elems.length = elems.length ∧
      ∀ (i : ℕ) (v : Value), elems[i]? = some (some v) →
        ∃ datum, input.datumOf c v = some datum ∧ call.elems[i]? = some datum := by
  obtain ⟨input, hinput⟩ := helem.elementInput
  obtain ⟨len, hlen, h8⟩ := input.exists_length
  obtain ⟨it, htake⟩ := array.take_plcDatumAsArray input (input.outfunc c)
  obtain ⟨arr, hreceive, harr⟩ := array.holds_receiveBlocks c input hlen h8
  obtain ⟨ds, hcall, hds⟩ := array.exists_constructMdArray c input hlen harr
  have hcount := array.count_nonneg
  refine ⟨input, array.rawElements c input, it, arr, _, hinput, htake, ?_, ?_, hreceive, hcall, ?_,
    rfl, ?_, ?_, ?_⟩
  · rw [array.length_rawElements c input]
    omega
  · intro i d hd
    obtain ⟨hi, rfl⟩ := array.getElem?_rawElements c input hd
    rw [ArrayType.element]
    split
    next hnull => rfl
    next hnull =>
      have hlt := array.stored_at hi (by simpa using hnull)
      exact ⟨_, List.getElem?_eq_getElem hlt, by rw [List.getElem?_eq_getElem hlt]; rfl⟩
  · exact toInt_ofNat32 array.ndims_lt
  · rw [← array.length_rawElements c input] at harr
    exact harr.nulls_eq
  · have hlength := congrArg List.length hds
    simpa using hlength
  · intro i v hv
    have hget := congrArg (·[i]?) hds
    simp only [List.getElem?_map, hv, Option.map_some] at hget
    obtain ⟨datum, hdatum, heq⟩ := Option.map_eq_some_iff.1 hget
    exact ⟨datum, heq.symm, hdatum⟩

/-- Datums of 64 bits, with the number itself for every type. -/
def plainConversions : Conversions (BitVec 64) where
  datum0 := 0
  datumGetBool d := UInt8.ofNat d.toNat
  datumGetInt16 d := d.setWidth 16
  datumGetInt32 d := d.setWidth 32
  datumGetInt64 d := d
  datumGetFloat4 d := d.setWidth 32
  datumGetFloat8 d := d
  numericFloat8 d := d
  output d := leBytes 8 d.toNat
  datumGetBytea d := ⟨8, leBytes 8 d.toNat⟩
  attributes d := [some (.int8 d)]
  boolGetDatum v := BitVec.ofNat 64 v.toNat
  int16GetDatum v := v.setWidth 64
  int32GetDatum v := v.setWidth 64
  int64GetDatum v := v
  float4GetDatum v := v.setWidth 64
  float8GetDatum v := v
  float8Numeric v := v
  input s := BitVec.ofNat 64 (ofLeBytes (s.getD []))
  byteaGetDatum b := BitVec.ofNat 64 (ofLeBytes b.data)
  tuple data := BitVec.ofNat 64 data.length

/-- The type `int4` and its array type. -/
def int4ArrayCatalog : Catalog := fun typeOid =>
  if typeOid = int4Oid then some ⟨[105], .other, 0, false, []⟩
  else if typeOid = 1007 then some ⟨[95, 105], .other, int4Oid, true, []⟩
  else none

/-- Three elements, the second of them null. -/
def gappedArray : ArrayType (BitVec 64) where
  dims := [3]
  bitmap := some [5]
  stored := [10, 30]
  ndims_lt := by decide
  count_nonneg := by decide
  count_le := by decide
  bitmap_length := by
    rintro bytes ⟨⟩
    decide
  stored_length := by decide

theorem backend_array_round_trip_gapped :
    IsElementType int4ArrayCatalog none (.scalar .int4 none) ∧
    ∃ input elems it arr call, (PlcTypeInfo.scalar .int4 none).elementInput = some input ∧
      (gappedArray.plcDatumAsArray input).take (input.outfunc plainConversions)
          (gappedArray.plcDatumAsArray input).arrMeta.size.toInt.toNat = some (elems, it) ∧
      (elems.length : ℤ) = 3 ∧
      PlcArrayBlocks.plcDatumFromArray plainConversions input arr = some call ∧
      call.dims = [3] := by
  have helem : IsElementType int4ArrayCatalog none (.scalar .int4 none) := ⟨1007, none, .inl rfl⟩
  obtain ⟨input, elems, it, arr, call, hinput, htake, hlength, -, -, hcall, -, hdims, -⟩ :=
    backend_array_round_trip plainConversions helem gappedArray
  exact ⟨helem, input, elems, it, arr, call, hinput, htake, hlength.trans (by decide), hcall, hdims⟩

end PlContainer
