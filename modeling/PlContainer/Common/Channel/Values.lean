import PlContainer.Common.Channel.WellFormed

set_option autoImplicit false

/-! # Values on the wire

Every `send_*` function transfers to its `receive_*` function: the receiver gets the value back from
exactly the bytes sent, whatever follows them. This module has the primitive types and the values,
by induction over the type tree they are sent with. -/

namespace PlContainer

open ByteStream

/-! ## Primitive types -/

theorem reads_pmalloc {size : ℤ} (h : 0 ≤ size) : Reads (pmalloc size) [] () := by
  intro t
  rw [pmalloc, if_pos h]
  rfl

theorem transfers_sendChar (c : UInt8) : Transfers (sendChar c) receiveChar c := by
  have h := (transfers_readBytes ChannelError.failed [c]).map fun bs : List UInt8 => bs.headD 0
  exact h

theorem transfers_bits {w k : ℕ} (hw : w = 8 * k) (x : BitVec w) :
    Transfers (some (leBytes k x.toNat)) (receiveBits w k) x := by
  have h := (transfers_readBytes ChannelError.failed (leBytes k x.toNat)).map
    fun bs => BitVec.ofNat w (ofLeBytes bs)
  rw [leBytes_length, ofLeBytes_leBytes_bitVec hw] at h
  exact h

theorem transfers_sendInt16 (i : BitVec 16) : Transfers (sendInt16 i) receiveInt16 i :=
  transfers_bits (show 16 = 8 * 2 from rfl) i

theorem transfers_sendInt32 (i : BitVec 32) : Transfers (sendInt32 i) receiveInt32 i :=
  transfers_bits (show 32 = 8 * 4 from rfl) i

theorem transfers_sendUint32 (i : BitVec 32) : Transfers (sendUint32 i) receiveUint32 i :=
  transfers_bits (show 32 = 8 * 4 from rfl) i

theorem transfers_sendInt64 (i : BitVec 64) : Transfers (sendInt64 i) receiveInt64 i :=
  transfers_bits (show 64 = 8 * 8 from rfl) i

theorem transfers_sendFloat4 (f : BitVec 32) : Transfers (sendFloat4 f) receiveFloat4 f :=
  transfers_bits (show 32 = 8 * 4 from rfl) f

theorem transfers_sendFloat8 (f : BitVec 64) : Transfers (sendFloat8 f) receiveFloat8 f :=
  transfers_bits (show 64 = 8 * 8 from rfl) f

/-- A number below 2^31 survives the cut to an `int`. -/
theorem toInt_ofNat32 {n : ℕ} (h : n < 2 ^ 31) : (BitVec.ofNat 32 n).toInt = n := by
  rw [BitVec.toInt_eq_toNat_cond, BitVec.toNat_ofNat]
  split <;> omega

/-- A length below `maxPayload` survives the cut to an `int`. -/
theorem toInt_ofNat_of_lt {n : ℕ} (h : n < maxPayload) :
    (BitVec.ofNat 32 n).toInt = n ∧ (BitVec.ofNat 32 n).toNat = n := by
  have hn : n < 2 ^ 29 := h
  refine ⟨toInt_ofNat32 (by omega), ?_⟩
  rw [BitVec.toNat_ofNat]
  omega

/-- A non-negative `int` is its own natural number. -/
theorem toNat_of_toInt_eq {w n : ℕ} {x : BitVec w} (h : x.toInt = n) : x.toNat = n := by
  rw [BitVec.toInt_eq_toNat_cond] at h
  have hlt := x.isLt
  split at h <;> omega

theorem transfers_sendCstring {s : Option CString} (h : cstringOk s = true) :
    Transfers (sendCstring s) receiveCstring s := by
  cases s with
  | none =>
      rw [sendCstring, ← emit_singleton (sendInt32 (-1))]
      refine Transfers.cons (transfers_sendInt32 (-1)) ?_
      exact Transfers.nil none
  | some s =>
      simp only [cstringOk, Bool.and_eq_true, decide_eq_true_eq, Bool.not_eq_true',
        List.contains_eq_mem, decide_eq_false_iff_not] at h
      obtain ⟨hnul, hlen⟩ := h
      obtain ⟨hint, hnat⟩ := toInt_ofNat_of_lt hlen
      simp only [sendCstring, strlen_of_nul_free hnul]
      refine Transfers.cons (transfers_sendInt32 _) ?_
      have hbytes : (if 0 < (BitVec.ofNat 32 s.length).toInt then
          some (s.take (BitVec.ofNat 32 s.length).toNat) else some []) = some s := by
        rw [hint, hnat]
        split
        · simp
        · next hz =>
            have hs : s = [] := List.length_eq_zero_iff.1 (by omega)
            rw [hs]
      have hne : BitVec.ofNat 32 s.length ≠ -1 := by
        intro he
        rw [he] at hint
        have : ((-1 : BitVec 32)).toInt = -1 := by decide
        omega
      have hpos : ¬ (BitVec.ofNat 32 s.length).toInt < 0 := by omega
      have hsucc : 0 ≤ (BitVec.ofNat 32 s.length + 1).toInt := by
        have hlt : s.length + 1 < 2 ^ 31 := by
          have : s.length < 536870912 := hlen
          omega
        rw [BitVec.toInt_eq_toNat_cond, BitVec.toNat_add, hnat]
        have : (1 : BitVec 32).toNat = 1 := rfl
        rw [this]
        split <;> omega
      rw [hbytes, emit_singleton, if_neg hne, if_neg hpos]
      refine Transfers.skip (reads_pmalloc hsucc) ?_
      rw [hnat]
      exact (transfers_readBytes ChannelError.failed s).map some

theorem transfers_sendBytea {b : Bytea} (h : b.wellFormed = true) :
    Transfers (sendBytea b) receiveBytea b := by
  obtain ⟨len, data⟩ := b
  simp only [Bytea.wellFormed, Bool.and_eq_true, decide_eq_true_eq] at h
  obtain ⟨hint, hlen⟩ := h
  have hnat : len.toNat = data.length := toNat_of_toInt_eq hint
  have hlt : data.length < 536870912 := hlen
  have halloc : 0 ≤ (len + 4).toInt := by
    have hfour : (4 : BitVec 32).toNat = 4 := rfl
    rw [BitVec.toInt_eq_toNat_cond, BitVec.toNat_add, hnat, hfour]
    split <;> omega
  refine Transfers.cons (transfers_sendInt32 len) ?_
  rw [if_pos ⟨by simp only [hint]; omega, by simp only [hnat]; exact le_refl _⟩, emit_singleton]
  refine Transfers.skip (reads_pmalloc halloc) ?_
  simp only [hint, hnat, Int.toNat_natCast, List.take_length]
  exact (transfers_readBytes ChannelError.failed data).map (Bytea.mk len)

/-! ## Values -/

theorem transfers_sendFlat {t : PlcDatatype} {v : Value} (h : flatMatches t v = true) :
    Transfers (sendFlat t v) (receiveFlat t) v := by
  cases t <;> cases v <;> simp only [flatMatches, Bool.false_eq_true] at h
  case int1.int1 v => exact (transfers_sendChar v).map Value.int1
  case int2.int2 v => exact (transfers_sendInt16 v).map Value.int2
  case int4.int4 v => exact (transfers_sendInt32 v).map Value.int4
  case int8.int8 v => exact (transfers_sendInt64 v).map Value.int8
  case float4.float4 v => exact (transfers_sendFloat4 v).map Value.float4
  case float8.float8 v => exact (transfers_sendFloat8 v).map Value.float8
  case text.text s => exact (transfers_sendCstring h).map Value.text
  case bytea.bytea b => exact (transfers_sendBytea h).map Value.bytea

/-- A type without subtypes: the receiver's switch goes to its flat cases. -/
theorem receiveRawObject_flat {t : PlcDatatype} (ht : t.hasSubTypes = false)
    (typeName : Option CString) (n : BitVec 16) (subTypes : List PlcType) :
    receiveRawObject (.mk t typeName n subTypes) = (receiveChar >>= fun isn =>
      if isn = 'N'.toUInt8 then pure none
      else receiveFlat t >>= fun v => pure (some v)) := by
  cases t <;> first | (simp [PlcDatatype.hasSubTypes] at ht; done) | simp only [receiveRawObject]

/-- Elements of an array are received as objects of the element type are. -/
theorem receiveArrayElement_eq {t : PlcType} (ht : t.type ≠ .array) :
    receiveArrayElement t = receiveRawObject t := by
  obtain ⟨type, typeName, n, subTypes⟩ := t
  cases type <;> first | exact absurd rfl ht | simp only [receiveArrayElement, receiveRawObject]

theorem sendRawObject_flat {t : PlcDatatype} {v : Value} (h : flatMatches t v = true)
    (typeName : Option CString) (n : BitVec 16) (subTypes : List PlcType) :
    sendRawObject (.mk t typeName n subTypes) (some v)
      = emit [sendChar 'D'.toUInt8, sendFlat t v] := by
  cases t <;> cases v <;> first | (simp [flatMatches] at h; done) | simp only [sendRawObject]

theorem delivered_of_flatMatches {t : PlcDatatype} {v : Value} (h : flatMatches t v = true) :
    v.delivered = v := by
  cases v <;> first | rfl | (cases t <;> simp [flatMatches] at h)

theorem hasSubTypes_of_flatMatches {t : PlcDatatype} {v : Value} (h : flatMatches t v = true) :
    t.hasSubTypes = false := by
  cases t <;> first | rfl | (cases v <;> simp [flatMatches] at h)

/-- A null object is one byte, for every type. -/
theorem transfers_null (t : PlcType) : Transfers (sendRawObject t none) (receiveRawObject t) none := by
  obtain ⟨type, typeName, n, subTypes⟩ := t
  unfold sendRawObject receiveRawObject
  rw [← emit_singleton (sendChar 'N'.toUInt8)]
  refine Transfers.cons (transfers_sendChar 'N'.toUInt8) ?_
  rw [if_pos rfl]
  exact Transfers.nil none

theorem transfers_flat {t : PlcDatatype} {v : Value} (h : flatMatches t v = true)
    (typeName : Option CString) (n : BitVec 16) (subTypes : List PlcType) :
    Transfers (sendRawObject (.mk t typeName n subTypes) (some v))
      (receiveRawObject (.mk t typeName n subTypes)) (Value.deliveredRaw (some v)) := by
  rw [sendRawObject_flat h, receiveRawObject_flat (hasSubTypes_of_flatMatches h)]
  refine Transfers.cons (transfers_sendChar 'D'.toUInt8) ?_
  rw [if_neg (by decide), emit_singleton, Value.deliveredRaw, delivered_of_flatMatches h]
  exact (transfers_sendFlat h).map some

/-- The size computed with 32-bit products is the true product whenever that fits an `int`. -/
theorem foldl_mul_eq_ofInt (dims : List (BitVec 32)) (acc : BitVec 32) :
    dims.foldl (· * ·) acc = acc * BitVec.ofInt 32 (dims.map BitVec.toInt).prod := by
  induction dims generalizing acc with
  | nil => simp
  | cons d ds ih =>
      rw [List.foldl_cons, ih, List.map_cons, List.prod_cons, BitVec.ofInt_mul, BitVec.ofInt_toInt,
        BitVec.mul_assoc]

/-- The receiver computes the size that a well-formed header announces. -/
theorem received_size {arrMeta : PlcArrayMeta} {t : PlcDatatype} {n : ℕ}
    (h : arrMeta.wellFormed t n = true) :
    (if 0 < arrMeta.ndims.toInt then arrMeta.dims.foldl (· * ·) 1 else 0) = arrMeta.size := by
  simp only [PlcArrayMeta.wellFormed, Bool.and_eq_true, decide_eq_true_eq] at h
  obtain ⟨⟨⟨⟨_, hndims⟩, hsize⟩, hcount⟩, _⟩ := h
  apply BitVec.eq_of_toInt_eq
  by_cases hz : arrMeta.ndims = 0
  · have hzero : arrMeta.ndims.toInt = 0 := by rw [hz]; rfl
    rw [if_neg (by omega), hsize, hcount, PlcArrayMeta.elemCount, if_pos hz]
    rfl
  · have hne : arrMeta.ndims.toInt ≠ 0 := fun he => hz (BitVec.eq_of_toInt_eq he)
    rw [if_pos (by omega), foldl_mul_eq_ofInt]
    show (1#32 * _).toInt = _
    rw [BitVec.one_mul]
    rw [PlcArrayMeta.elemCount, if_neg hz] at hcount
    rw [← hcount, ← hsize, BitVec.ofInt_toInt]

theorem plcGetTypeLength_le {t : PlcDatatype} {l : ℕ} (h : plcGetTypeLength t = some l) :
    l ≤ 8 := by
  cases t <;> simp only [plcGetTypeLength, Option.some.injEq, reduceCtorEq] at h <;> omega

/-- The `int` product of a small array size and an entry length does not overflow. -/
theorem entry_block_nonneg {size : BitVec 32} {n l : ℕ} (hsize : size.toInt = n) (hn : n < 2 ^ 28)
    (hl : l ≤ 8) : 0 ≤ (size * BitVec.ofNat 32 l).toInt := by
  have hnat : size.toNat = n := toNat_of_toInt_eq hsize
  have hmul : n * l < 2 ^ 31 := by
    calc n * l ≤ n * 8 := Nat.mul_le_mul_left n hl
      _ < 2 ^ 31 := by omega
  have hlmod : l % 2 ^ 32 = l := Nat.mod_eq_of_lt (by omega)
  have hprod : n * l % 2 ^ 32 = n * l := Nat.mod_eq_of_lt (by omega)
  rw [BitVec.toInt_eq_toNat_cond, BitVec.toNat_mul, BitVec.toNat_ofNat, hnat, hlmod, hprod]
  split <;> omega

theorem transfers_sendRawArrayIter {sendElem : RawData → Writer} {receiveElem : Receive RawData}
    {arrMeta : PlcArrayMeta} {t : PlcDatatype} {elems : List RawData}
    (hm : arrMeta.wellFormed t elems.length = true)
    (hentry : elems = [] ∨ ∃ l, plcGetTypeLength t = some l)
    (helem : ∀ o ∈ elems, Transfers (sendElem o) receiveElem (Value.deliveredRaw o)) :
    Transfers (sendRawArrayIter sendElem arrMeta elems) (receiveArray t receiveElem)
      (Value.iterator arrMeta elems).delivered := by
  have hreceived := received_size hm
  obtain ⟨type, ndims, dims, size⟩ := arrMeta
  simp only [PlcArrayMeta.wellFormed, Bool.and_eq_true, decide_eq_true_eq] at hm
  obtain ⟨⟨⟨⟨rfl, hndims⟩, hsize⟩, _⟩, hlt⟩ := hm
  have hdims : Transfers (writeN sendInt32 ndims.toInt.toNat dims)
      (readN receiveInt32 ndims.toInt.toNat) dims := by
    have h := transfers_writeN sendInt32 receiveInt32 id dims fun d _ => transfers_sendInt32 d
    rw [List.map_id] at h
    rw [hndims, Int.toNat_natCast]
    exact h
  refine Transfers.cons (transfers_sendInt32 ndims) (Transfers.cons hdims ?_)
  rw [emit_singleton, Value.delivered, Value.deliveredAll_eq_map]
  simp only [hreceived]
  rw [hsize, Int.toNat_natCast]
  by_cases hpos : 0 < (elems.length : ℤ)
  · obtain ⟨l, hl⟩ : ∃ l, plcGetTypeLength type = some l := by
      rcases hentry with rfl | h
      · simp at hpos
      · exact h
    rw [if_pos hpos, hl]
    refine Transfers.skip (reads_pmalloc (by omega)) ?_
    refine Transfers.skip (reads_pmalloc (entry_block_nonneg hsize hlt (plcGetTypeLength_le hl))) ?_
    have h := (transfers_writeN sendElem receiveElem Value.deliveredRaw elems helem).map
      fun ds => Value.array ⟨type, ndims, dims, size⟩ (ds.map Option.isNone) ds
    have hnulls : (elems.map Value.deliveredRaw).map Option.isNone = elems.map Option.isNone := by
      rw [List.map_map]
      exact List.map_congr_left fun d _ => Value.deliveredRaw_isNone d
    rw [hnulls] at h
    exact h
  · have hnil : elems = [] := List.length_eq_zero_iff.1 (by omega)
    subst hnil
    rw [if_neg hpos]
    exact Transfers.nil _

theorem allWellFormed_iff (ts : List PlcType) :
    PlcType.allWellFormed ts = true ↔ ∀ t ∈ ts, t.wellFormed = true := by
  induction ts with
  | nil => simp [PlcType.allWellFormed]
  | cons t ts ih => simp [PlcType.allWellFormed, ih]

/-- The fields of a composite value, given that each of its types transfers. -/
theorem transfers_sendUdt (ts : List PlcType)
    (h : ∀ t ∈ ts, ∀ o, rawMatches t o = true →
      Transfers (sendRawObject t o) (receiveRawObject t) (Value.deliveredRaw o)) :
    ∀ ds, fieldsMatch ts ds = true →
      Transfers (sendUdt ts.length ts ds) (receiveUdt ts.length ts) (Value.deliveredAll ds) := by
  induction ts with
  | nil =>
      intro ds hds
      cases ds with
      | nil => exact Transfers.nil []
      | cons d ds => simp [fieldsMatch] at hds
  | cons t ts ih =>
      intro ds hds
      cases ds with
      | nil => simp [fieldsMatch] at hds
      | cons d ds =>
          simp only [fieldsMatch, Bool.and_eq_true] at hds
          have hd := h t (List.mem_cons_self ..) d hds.1
          have htail := ih (fun s hs => h s (List.mem_cons_of_mem _ hs)) ds hds.2
          rw [List.length_cons, sendUdt, receiveUdt, Value.deliveredAll]
          refine Transfers.cons hd ?_
          rw [emit_singleton]
          exact htail.map (Value.deliveredRaw d :: ·)

theorem rawMatches_flat {t : PlcDatatype} (ht : t.hasSubTypes = false) {v : Value}
    {typeName : Option CString} {n : BitVec 16} {subTypes : List PlcType}
    (h : rawMatches (.mk t typeName n subTypes) (some v) = true) : flatMatches t v = true := by
  cases t <;> simp_all [PlcDatatype.hasSubTypes, rawMatches]

theorem hasSubTypes_cases {t : PlcDatatype} (ht : t.hasSubTypes ≠ false) :
    t = .array ∨ t = .udt := by
  cases t <;> simp_all [PlcDatatype.hasSubTypes]

/-- What a non-null object of an array type is. -/
theorem rawMatches_array {typeName : Option CString} {n : BitVec 16} {subTypes : List PlcType}
    {v : Value} (hshape : subTypesOk .array subTypes = true)
    (h : rawMatches (.mk .array typeName n subTypes) (some v) = true) :
    ∃ e arrMeta elems, subTypes = [e] ∧ v = .iterator arrMeta elems ∧ e.type ≠ .array ∧
      arrMeta.wellFormed e.type elems.length = true ∧
      (elems = [] ∨ ∃ l, plcGetTypeLength e.type = some l) ∧
      ∀ o ∈ elems, rawMatches e o = true := by
  match subTypes with
  | [] => simp [subTypesOk] at hshape
  | _ :: _ :: _ => simp [subTypesOk] at hshape
  | [e] =>
      have hne : e.type ≠ .array := by simpa [subTypesOk] using hshape
      cases v <;> simp only [rawMatches, flatMatches, Bool.false_eq_true] at h
      case iterator arrMeta elems =>
        simp only [Bool.and_eq_true, Bool.or_eq_true, List.all_eq_true, List.isEmpty_iff,
          Option.isSome_iff_exists] at h
        exact ⟨e, arrMeta, elems, rfl, rfl, hne, h.1.1, h.2, h.1.2⟩

/-- What a non-null object of a composite type is. -/
theorem rawMatches_udt {typeName : Option CString} {n : BitVec 16} {subTypes : List PlcType}
    {v : Value} (h : rawMatches (.mk .udt typeName n subTypes) (some v) = true) :
    ∃ data, v = .udt data ∧ fieldsMatch subTypes data = true := by
  cases v <;> simp only [rawMatches, flatMatches, Bool.false_eq_true] at h
  case udt data => exact ⟨data, rfl, h⟩

/-- **Every object is received as it was sent**, for every type tree. -/
theorem transfers_sendRawObject (t : PlcType) (ht : t.wellFormed = true) :
    ∀ o, rawMatches t o = true →
      Transfers (sendRawObject t o) (receiveRawObject t) (Value.deliveredRaw o) := by
  induction t using PlcType.induct with
  | mk type typeName nSubTypes subTypes ih =>
      intro o ho
      simp only [PlcType.wellFormed, Bool.and_eq_true, decide_eq_true_eq] at ht
      obtain ⟨⟨⟨_, hcount⟩, hshape⟩, hsubs⟩ := ht
      rw [allWellFormed_iff] at hsubs
      cases o with
      | none => exact transfers_null _
      | some v =>
          by_cases hflat : type.hasSubTypes = false
          · exact transfers_flat (rawMatches_flat hflat ho) typeName nSubTypes subTypes
          · rcases hasSubTypes_cases hflat with rfl | rfl
            · obtain ⟨e, arrMeta, elems, rfl, rfl, hne, hm, hentry, hall⟩ :=
                rawMatches_array hshape ho
              simp only [sendRawObject, receiveRawObject, receiveArrayElement_eq hne]
              refine Transfers.cons (transfers_sendChar 'D'.toUInt8) ?_
              rw [if_neg (by decide), emit_singleton, Value.deliveredRaw]
              refine (transfers_sendRawArrayIter hm hentry fun o ho => ?_).map some
              exact ih e (List.mem_cons_self ..) (hsubs e (List.mem_cons_self ..)) o (hall o ho)
            · obtain ⟨data, rfl, hdata⟩ := rawMatches_udt ho
              simp only [sendRawObject, receiveRawObject]
              refine Transfers.cons (transfers_sendChar 'D'.toUInt8) ?_
              rw [if_neg (by decide), emit_singleton, Value.deliveredRaw, Value.delivered, hcount,
                Int.toNat_natCast]
              refine Transfers.skip (reads_pmalloc (by omega)) ?_
              have hfields := transfers_sendUdt subTypes
                (fun s hs => ih s hs (hsubs s hs)) data hdata
              exact hfields.map fun ds => some (Value.udt ds)

end PlContainer
