import PlContainer.Clients.Python.StreamedReply

set_option autoImplicit false

/-! # Numbers and texts that arrive unchanged

The conversions to integers cast what `PyLong_AsLongLong` returns to the width of the type, and the one
to text copies the encoded bytes up to the first NUL. Neither compares the outcome with the object, so
the value is exact only where the object fits. The same conversions are used for the elements of arrays
and the fields of composite values. -/

namespace PlContainer

open Odometer Checked

section

variable {α : Type} (api : PyApi α)

/-- `PyLong_Check` or `PyInt_Check` of any object. -/
def PyApi.int? : PyObj α → Option ℤ
  | .leaf a => api.int a
  | _ => none

/-- The text of a string in the encoding of the server, which may have no bytes for it. The `str` of
    Python 2 is bytes already; `PyObject_Str` returns it as it is. -/
def PyApi.text? (input : PyObj α) : Option (Option (List UInt8)) :=
  match api.unicode? input with
  | some s => some (api.encode s)
  | none => if api.python3 then none else (api.byteStr input).map some

/-! ## Values that are exact -/

/-- The value of a type without subtypes is exact: an integer is that of the object, `bool` (the type
    behind int1) says whether it is not zero, and a text is all of the object's text in the encoding of
    the server. -/
def PyApi.ScalarExact (input : PyObj α) (type : PlcDatatype) (v : Value) : Prop :=
  match type with
  | .int1 => ∀ n, api.int? input = some n → ∃ x, v = .int1 x ∧ (x ≠ 0 ↔ n ≠ 0)
  | .int2 => ∀ n, api.int? input = some n → ∃ x, v = .int2 x ∧ x.toInt = n
  | .int4 => ∀ n, api.int? input = some n → ∃ x, v = .int4 x ∧ x.toInt = n
  | .int8 => ∀ n, api.int? input = some n → ∃ x, v = .int8 x ∧ x.toInt = n
  | .text => ∀ s, api.text? input = some s → ∃ bytes, s = some bytes ∧ v = .text (some bytes)
  | _ => True

/-- The elements of an array are exact. -/
def PyApi.ArrayExact (exact : PyObj α → Value → Prop) (input : PyObj α) (v : Value) : Prop :=
  ∃ dims ptrs arrMeta elems, plcPyobjectAsArray input = .iterator dims ptrs ∧
    v = .iterator arrMeta elems ∧
    List.Forall₂ (fun o d => ∀ x, o = some x → x ≠ .none → ∃ w, d = some w ∧ exact x w)
      (input.atPlaces api.item dims) elems

mutual

/-- The value is exact wherever an integer or a text is converted. -/
def PyApi.Exact : PlcType → PyObj α → Value → Prop
  | .mk type _ _ subTypes, input, v =>
      match type with
      | .array =>
          match subTypes with
          | [] => True
          | elemType :: _ => api.ArrayExact (PyApi.Exact elemType) input v
      | .udt => ∃ get data, api.dict? input = some get ∧ v = .udt data ∧
          PyApi.FieldsExact subTypes get data
      | t => api.ScalarExact input t v

def PyApi.FieldsExact : List PlcType → (CString → Option (PyObj α)) → List RawData → Prop
  | [], _, [] => True
  | t :: ts, get, d :: ds =>
      (∀ key value, t.typeName = some key → get key = some value → value ≠ .none →
        ∃ w, d = some w ∧ PyApi.Exact t value w) ∧ PyApi.FieldsExact ts get ds
  | _, _, _ => False

end

/-! ## Objects that fit -/

/-- The object fits a type without subtypes: integers are in the range of the type, for `bool` a number
    whose low byte is zero is zero, and the encoded text has no NUL. -/
def PyApi.ScalarFits (input : PyObj α) (type : PlcDatatype) : Prop :=
  match type with
  | .int1 => ∀ n, api.int? input = some n → n = 0 ∨ ¬ (-2 ^ 63 ≤ n ∧ n < 2 ^ 63 ∧ n % 256 = 0)
  | .int2 => ∀ n, api.int? input = some n → -2 ^ 15 ≤ n ∧ n < 2 ^ 15
  | .int4 => ∀ n, api.int? input = some n → -2 ^ 31 ≤ n ∧ n < 2 ^ 31
  | .int8 => ∀ n, api.int? input = some n → -2 ^ 63 ≤ n ∧ n < 2 ^ 63
  | .text => ∀ bytes, api.text? input = some (some bytes) → (0 : UInt8) ∉ bytes
  | _ => True

mutual

/-- The object fits wherever an integer or a text is converted. -/
def PyApi.Fits : PlcType → PyObj α → Prop
  | .mk type _ _ subTypes, input =>
      match type with
      | .array =>
          match subTypes with
          | [] => True
          | elemType :: _ => ∀ dims ptrs, plcPyobjectAsArray input = .iterator dims ptrs →
              ∀ x, some x ∈ input.atPlaces api.item dims → x ≠ .none → PyApi.Fits elemType x
      | .udt => ∀ get, api.dict? input = some get → PyApi.FieldsFit subTypes get
      | t => api.ScalarFits input t

def PyApi.FieldsFit : List PlcType → (CString → Option (PyObj α)) → Prop
  | [], _ => True
  | t :: ts, get =>
      (∀ key value, t.typeName = some key → get key = some value → value ≠ .none →
        PyApi.Fits t value) ∧ PyApi.FieldsFit ts get

end

variable {api}

/-! ## Integers -/

/-- The cast gives the number back exactly if it is in the range of the type. -/
theorem toInt_narrowed {w : ℕ} (hw : w = 16 ∨ w = 32 ∨ w = 64) (n : ℤ) :
    ((pyLongAsLongLong n).setWidth w).toInt = n ↔ -2 ^ (w - 1) ≤ n ∧ n < 2 ^ (w - 1) := by
  rw [pyLongAsLongLong, BitVec.toInt_setWidth]
  split
  · rw [BitVec.toNat_ofInt]
    rcases hw with rfl | rfl | rfl
    all_goals
      simp only [Int.bmod]
      omega
  · have hminus : (-1 : BitVec 64).toNat = 2 ^ 64 - 1 := by decide
    rw [hminus]
    rcases hw with rfl | rfl | rfl
    all_goals
      simp only [Int.bmod]
      omega

/-- The low byte is zero for the multiples of 256, among the numbers that fit 64 bits. -/
theorem byte_eq_zero_iff (n : ℤ) :
    UInt8.ofBitVec ((pyLongAsLongLong n).setWidth 8) = 0
      ↔ -2 ^ 63 ≤ n ∧ n < 2 ^ 63 ∧ n % 256 = 0 := by
  rw [pyLongAsLongLong, ← UInt8.toBitVec_inj, ← BitVec.toNat_inj]
  show ((if _ then _ else _ : BitVec 64).setWidth 8).toNat = 0 ↔ _
  rw [BitVec.toNat_setWidth]
  split
  next h =>
    rw [BitVec.toNat_ofInt]
    omega
  next h =>
    have hminus : (-1 : BitVec 64).toNat = 2 ^ 64 - 1 := by decide
    rw [hminus]
    omega

theorem integer_of_int {input : PyObj α} {n : ℤ} (h : api.int? input = some n) (w : ℕ) :
    api.integer w input = some ((pyLongAsLongLong n).setWidth w) := by
  cases input with
  | leaf a =>
      have hint : api.int a = some n := h
      rw [PyApi.integer, hint]
  | _ => cases h

/-- A conversion to an integer type, when it is exact where the cast satisfies `p`. -/
theorem integer_exact_iff {w : ℕ} {f : BitVec w → Value} (hf : Function.Injective f)
    {input : PyObj α} {v : Value} (h : (api.integer w input).map f = some v)
    (p : BitVec w → ℤ → Prop) {q : ℤ → Prop}
    (hpq : ∀ n, p ((pyLongAsLongLong n).setWidth w) n ↔ q n) :
    (∀ n, api.int? input = some n → ∃ x, v = f x ∧ p x n)
      ↔ ∀ n, api.int? input = some n → q n := by
  refine forall_congr' fun n => imp_congr_right fun hn => ?_
  rw [integer_of_int hn, Option.map_some, Option.some.injEq] at h
  rw [← hpq n, ← h]
  constructor
  · rintro ⟨x, hx, hp⟩
    rwa [hf hx]
  · exact fun hp => ⟨_, rfl, hp⟩

/-! ## Texts -/

theorem takeWhile_eq_self_iff_nul_free (bytes : List UInt8) :
    bytes.takeWhile (· ≠ 0) = bytes ↔ (0 : UInt8) ∉ bytes := by
  rw [List.takeWhile_eq_self_iff]
  constructor
  · intro h h0
    simpa using h 0 h0
  · intro h b hb
    have hne : b ≠ 0 := fun he => h (he ▸ hb)
    simpa using hne

/-- What the conversion to text copies from is the text of the string. -/
theorem plrvBo_eq_text {input : PyObj α} {bytes : Option (List UInt8)}
    (h : api.plrvBo input = .ok bytes) {s : Option (List UInt8)} (hs : api.text? input = some s) :
    ∃ encoded, s = some encoded ∧ bytes = some encoded := by
  unfold PyApi.text? at hs
  unfold PyApi.plrvBo at h
  cases hunicode : api.unicode? input with
  | some u =>
      rw [hunicode] at h hs
      simp only [PyApi.plyUnicodeBytes] at h
      cases hs
      cases hencode : api.encode u with
      | none =>
          rw [hencode] at h
          cases h
      | some encoded =>
          rw [hencode] at h
          cases h
          exact ⟨encoded, rfl, rfl⟩
  | none =>
      rw [hunicode] at h hs
      cases hpython : api.python3 with
      | true => simp [hpython] at hs
      | false =>
          simp only [hpython, Bool.false_eq_true, ↓reduceIte, Option.map_eq_some_iff] at h hs
          obtain ⟨encoded, hbytes, rfl⟩ := hs
          split at h
          · cases h
          · cases h
            exact ⟨encoded, rfl, hbytes⟩

theorem text_exact_iff {input : PyObj α} {bytes : Option (List UInt8)}
    (h : api.plrvBo input = .ok bytes) :
    (∀ s, api.text? input = some s →
        ∃ encoded, s = some encoded ∧ (textSent input bytes).1 = .text (some encoded))
      ↔ ∀ encoded, api.text? input = some (some encoded) → (0 : UInt8) ∉ encoded := by
  constructor
  · intro hexact encoded hs
    obtain ⟨_, ⟨⟩, rfl⟩ := plrvBo_eq_text h hs
    obtain ⟨_, ⟨⟩, hsent⟩ := hexact _ hs
    rw [textSent] at hsent
    exact (takeWhile_eq_self_iff_nul_free encoded).1 (Option.some.inj (Value.text.inj hsent))
  · intro hfits s hs
    obtain ⟨encoded, rfl, rfl⟩ := plrvBo_eq_text h hs
    refine ⟨encoded, rfl, ?_⟩
    rw [textSent, (takeWhile_eq_self_iff_nul_free encoded).2 (hfits encoded hs)]

/-! ## Any value -/

theorem scalar_exact_iff {type : PlcDatatype} (htype : type.hasSubTypes = false)
    {typeName : Option CString} {n : BitVec 16} {subTypes : List PlcType} {input : PyObj α} {v : Value}
    {errors : List (ConvError α)}
    (h : api.convertAndSend (.mk type typeName n subTypes) input = .ok (v, errors)) :
    api.ScalarExact input type v ↔ api.ScalarFits input type := by
  have hnumber (hn : type.isNumber = true) : api.number input type = some v := by
    rw [convertAndSend_number hn] at h
    cases hv : api.number input type with
    | none =>
        rw [hv] at h
        cases h
    | some x =>
        rw [hv] at h
        cases h
        rfl
  cases type with
  | int1 =>
      have hbyte (n : ℤ) : (UInt8.ofBitVec ((pyLongAsLongLong n).setWidth 8) ≠ 0 ↔ n ≠ 0)
          ↔ n = 0 ∨ ¬ (-2 ^ 63 ≤ n ∧ n < 2 ^ 63 ∧ n % 256 = 0) := by
        rw [Ne, byte_eq_zero_iff]
        omega
      have hiff := integer_exact_iff (w := 8) (f := fun x => .int1 (UInt8.ofBitVec x))
        (fun x y hxy => UInt8.ofBitVec.inj (Value.int1.inj hxy)) (hnumber rfl)
        (fun x n => UInt8.ofBitVec x ≠ 0 ↔ n ≠ 0) hbyte
      refine Iff.trans ?_ hiff
      refine forall_congr' fun n => imp_congr_right fun _ => ?_
      exact ⟨fun ⟨x, hx⟩ => ⟨x.toBitVec, hx⟩, fun ⟨x, hx⟩ => ⟨UInt8.ofBitVec x, hx⟩⟩
  | int2 =>
      exact integer_exact_iff (fun _ _ => Value.int2.inj) (hnumber rfl) (fun x n => x.toInt = n)
        (toInt_narrowed (.inl rfl))
  | int4 =>
      exact integer_exact_iff (fun _ _ => Value.int4.inj) (hnumber rfl) (fun x n => x.toInt = n)
        (toInt_narrowed (.inr (.inl rfl)))
  | int8 =>
      exact integer_exact_iff (fun _ _ => Value.int8.inj) (hnumber rfl) (fun x n => x.toInt = n)
        (toInt_narrowed (.inr (.inr rfl)))
  | text =>
      rw [convertAndSend_text] at h
      obtain ⟨bytes, hbytes, h⟩ := bind_eq_ok.1 h
      rw [pure_eq_ok] at h
      obtain rfl : (textSent input bytes).1 = v := congrArg Prod.fst h
      exact text_exact_iff hbytes
  | array | udt => cases htype
  | _ => exact Iff.rfl

/-- The fields of a composite value, one by one. -/
theorem fieldsExact_iff (ts : List PlcType) (get : CString → Option (PyObj α)) (ds : List RawData) :
    api.FieldsExact ts get ds ↔ List.Forall₂ (fun t d => ∀ key value, t.typeName = some key →
      get key = some value → value ≠ .none → ∃ w, d = some w ∧ api.Exact t value w) ts ds := by
  induction ts generalizing ds with
  | nil => cases ds <;> simp [PyApi.FieldsExact]
  | cons t ts ih => cases ds <;> simp [PyApi.FieldsExact, ih]

theorem fieldsFit_iff (ts : List PlcType) (get : CString → Option (PyObj α)) :
    api.FieldsFit ts get ↔ ∀ t ∈ ts, ∀ key value, t.typeName = some key → get key = some value →
      value ≠ .none → api.Fits t value := by
  induction ts with
  | nil => simp [PyApi.FieldsFit]
  | cons t ts ih => rw [PyApi.FieldsFit, List.forall_mem_cons, ih]

/-- An array that was sent without an error, when this is known of its elements. -/
theorem array_exact_iff {typeName : Option CString} {n : BitVec 16} {elemType : PlcType}
    {subTypes : List PlcType} {input : PyObj α} {v : Value}
    (ih : ∀ {x : PyObj α} {w : Value}, api.convertAndSend elemType x = .ok (w, []) →
      (api.Exact elemType x w ↔ api.Fits elemType x))
    (h : api.convertAndSend (.mk .array typeName n (elemType :: subTypes)) input = .ok (v, [])) :
    api.Exact (.mk .array typeName n (elemType :: subTypes)) input v
      ↔ api.Fits (.mk .array typeName n (elemType :: subTypes)) input := by
  obtain ⟨dims, ptrs, elems, harray, rfl, herrors, helems⟩ := array_sent h
  have hnil : ∀ e ∈ elems, e.2 = [] := List.flatMap_eq_nil_iff.1 herrors.symm
  have hsent : List.Forall₂ (fun o e =>
        streamElement (api.outputfunc elemType) (api.sendValue elemType) o = .ok e ∧ e.2 = [])
      (input.atPlaces api.item dims) elems :=
    List.forall₂_iff_zip.2 ⟨helems.length_eq, fun hoe =>
      ⟨List.forall₂_zip helems hoe, hnil _ (List.of_mem_zip hoe).2⟩⟩
  have hplaces : List.Forall₂ (fun o d => ∀ x, o = some x → x ≠ .none →
        ∃ w, d = some w ∧ api.Exact elemType x w) (input.atPlaces api.item dims) (elems.map Prod.fst)
      ↔ ∀ o ∈ input.atPlaces api.item dims, ∀ x, o = some x → x ≠ .none → api.Fits elemType x := by
    rw [List.forall₂_map_right_iff]
    refine forall₂_iff_forall_left hsent fun o _ e he => ?_
    refine forall_congr' fun x => imp_congr_right fun hx => imp_congr_right fun hne => ?_
    subst hx
    rcases element_sent he.1 with ⟨hnull, -⟩ | ⟨o, w, errs, ho, -, hw, rfl⟩
    · exact absurd hnull hne
    · obtain rfl : errs = [] := he.2
      cases ho
      rw [← ih hw]
      exact ⟨by rintro ⟨_, ⟨⟩, hexact⟩; exact hexact, fun hexact => ⟨w, rfl, hexact⟩⟩
  rw [PyApi.Exact, PyApi.Fits]
  constructor
  · rintro ⟨_, _, _, _, harray', hv, hall⟩ _ _ hdims x hx
    cases harray.symm.trans harray'
    cases harray.symm.trans hdims
    cases hv
    exact hplaces.1 hall _ hx x rfl
  · intro hfits
    refine ⟨dims, ptrs, _, _, harray, rfl, hplaces.2 ?_⟩
    rintro _ ho x rfl
    exact hfits dims ptrs harray x ho

/-- What was sent without an error is exact where the object fits. -/
theorem exact_iff_fits {type : PlcType} {input : PyObj α} {v : Value}
    (h : api.convertAndSend type input = .ok (v, [])) :
    api.Exact type input v ↔ api.Fits type input := by
  induction type using PlcType.induct generalizing input v with
  | mk type typeName nSubTypes subTypes ih =>
      by_cases hflat : type.hasSubTypes = false
      · have hscalar := scalar_exact_iff hflat h
        cases type with
        | array | udt => cases hflat
        | _ => exact hscalar
      · rcases hasSubTypes_cases hflat with rfl | rfl
        · cases subTypes with
          | nil => exact absurd ⟨_, h⟩ (not_succeeds_array_nil typeName nSubTypes input)
          | cons elemType rest => exact array_exact_iff (ih elemType (List.mem_cons_self ..)) h
        · obtain ⟨get, data, hget, rfl, hfields⟩ := udt_sent h
          have hall : api.FieldsExact subTypes get data ↔ api.FieldsFit subTypes get := by
            rw [fieldsExact_iff, fieldsFit_iff]
            refine forall₂_iff_forall_left hfields fun t ht d hsent => ?_
            refine forall_congr' fun key => forall_congr' fun value => imp_congr_right fun hkey =>
              imp_congr_right fun hvalue => imp_congr_right fun hne => ?_
            obtain ⟨key', hkey', hfield⟩ := hsent
            cases hkey.symm.trans hkey'
            rw [hvalue] at hfield
            rcases hfield with ⟨⟨⟩, -⟩ | ⟨hnull, -⟩ | ⟨value', w, errs, hvalue', -, hw, rfl, hnil⟩
            · exact absurd (Option.some.inj hnull) hne
            · cases hvalue'
              obtain rfl : errs = [] := List.subset_nil.1 hnil
              rw [← ih t ht hw]
              exact ⟨by rintro ⟨_, ⟨⟩, hexact⟩; exact hexact, fun hexact => ⟨w, rfl, hexact⟩⟩
          rw [PyApi.Exact, PyApi.Fits]
          constructor
          · rintro ⟨get', data', hget', hv, hexact⟩ _ hget''
            cases hget.symm.trans hget'
            cases hget.symm.trans hget''
            cases hv
            exact hall.1 hexact
          · exact fun hfits => ⟨get, data, hget, rfl, hall.2 (hfits get hget)⟩

/-! ## The value that a function returns -/

variable (api)

/-- The value is sent for the object, and no error is reported: neither by the conversion, nor while
    elements are converted. -/
def PyApi.Delivered (type : PlcType) (input : PyObj α) (v : Value) : Prop :=
  ∃ c, api.outputfunc type input = .ok c ∧ c.ok = true ∧ c.errors = [] ∧
    api.sendValue type c.output = .ok (v, [])

/-- An error is reported, or the value that is sent is exact and the backend gets it: it reads the
    RESULT to its end and finds the value in it, element by element. -/
def PyApi.ConvertsExactly (type : PlcType) (input : PyObj α) : Prop :=
  ∀ v, api.Delivered type input v → api.Exact type input v ∧
    (v.withinLimits = true → ∀ mask, MsgType.allowedBy .result mask = true →
      ∃ bytes m, plcontainerChannelSend (.result (api.resultMessage type v [])) = some bytes ∧
        (∀ rest, (plcontainerChannelReceive mask).run (bytes ++ rest) = .ok (m, rest)) ∧
        m.readBack = .result { api.resultMessage type v [] with exceptionCallback := none })

variable {api}

theorem PyApi.Delivered.convertAndSend {type : PlcType} {input : PyObj α} {v : Value}
    (h : api.Delivered type input v) : api.convertAndSend type input = .ok (v, []) := by
  obtain ⟨c, hc, -, herrors, hsend⟩ := h
  rw [PyApi.convertAndSend, hc]
  show api.sendValue type c.output >>= _ = _
  rw [hsend, herrors]
  rfl

end

end PlContainer
