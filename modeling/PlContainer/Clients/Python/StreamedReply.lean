import PlContainer.Clients.Python.Streaming
import Mathlib.Algebra.BigOperators.Ring.Finset

set_option autoImplicit false

/-! # The reply that carries a streamed array

Where an array can be streamed, what is sent is a RESULT that fits its type. So the backend reads it to
its end, and gets the first error that was reported meanwhile, or the result if there was none. -/

namespace PlContainer

open Odometer Format Checked

/-! ## Sizes -/

mutual

/-- The texts, bytes and arrays of the value are not too large for the channel. -/
def Value.withinLimits : Value → Bool
  | .text (some s) => decide (s.length < maxPayload)
  | .bytea b => decide (b.data.length < maxPayload)
  | .iterator arrMeta elems =>
      decide ((arrMeta.dims.map BitVec.toNat).prod < 2 ^ 28) && Value.allWithinLimits elems
  | .udt data => Value.allWithinLimits data
  | _ => true

def Value.rawWithinLimits : RawData → Bool
  | none => true
  | some v => v.withinLimits

def Value.allWithinLimits : List RawData → Bool
  | [] => true
  | d :: ds => Value.rawWithinLimits d && Value.allWithinLimits ds

end

theorem allWithinLimits_iff (ds : List RawData) :
    Value.allWithinLimits ds = true ↔ ∀ d ∈ ds, Value.rawWithinLimits d = true := by
  induction ds with
  | nil => simp [Value.allWithinLimits]
  | cons d ds ih => simp [Value.allWithinLimits, ih]

/-- The types that have an output function. -/
def PlcDatatype.hasOutput : PlcDatatype → Bool
  | .invalid => false
  | .unknown _ => false
  | _ => true

mutual

def PlcType.hasOutputs : PlcType → Bool
  | .mk type _ _ subTypes => type.hasOutput && PlcType.allHaveOutputs subTypes

def PlcType.allHaveOutputs : List PlcType → Bool
  | [] => true
  | t :: ts => t.hasOutputs && PlcType.allHaveOutputs ts

end

theorem allHaveOutputs_iff (ts : List PlcType) :
    PlcType.allHaveOutputs ts = true ↔ ∀ t ∈ ts, t.hasOutputs = true := by
  induction ts with
  | nil => simp [PlcType.allHaveOutputs]
  | cons t ts ih => simp [PlcType.allHaveOutputs, ih]

section

variable {α : Type}

/-! ## Headers of arrays -/

theorem pyLength_lt (items : List (PyObj α)) : pyLength items < 2 ^ 31 := by
  rw [pyLength]
  have := BitVec.toInt_lt (x := BitVec.ofNat 32 items.length)
  simpa using this

mutual

theorem PyObj.stack_lt : ∀ (o : PyObj α), ∀ l ∈ o.stack, l.1 < 2 ^ 31
  | .none => by simp [PyObj.stack]
  | .leaf _ => by simp [PyObj.stack]
  | .list items => by
      rw [PyObj.stack, List.forall_mem_cons]
      refine ⟨pyLength_lt items, ?_⟩
      split
      · exact PyObj.stackBelow_lt items
      · simp

theorem PyObj.stackBelow_lt : ∀ (items : List (PyObj α)), ∀ l ∈ PyObj.stackBelow items, l.1 < 2 ^ 31
  | [] => by simp [PyObj.stackBelow]
  | x :: _ => x.stack_lt

end

/-- The dimensions of an iterator are lengths, and there are at most ten. -/
theorem iterator_dims {input : PyObj α} {dims : List ℕ} {ptrs : List (Level (PyObj α))}
    (h : plcPyobjectAsArray input = .iterator dims ptrs) :
    dims.length ≤ plcMaxArrayDims ∧ ∀ d ∈ dims, d < 2 ^ 31 := by
  cases input with
  | list items =>
      rw [plcPyobjectAsArray] at h
      split at h
      · cases h
      next hmax =>
        split at h
        · cases h
        · cases h
          refine ⟨by simpa using hmax, fun d hd => ?_⟩
          obtain ⟨l, hl, rfl⟩ := List.mem_map.1 hd
          have hlt := PyObj.stack_lt _ l ((List.takeWhile_prefix _).subset hl)
          omega
  | _ => cases h

/-- The header of an iterator announces the elements that are fetched. -/
theorem iteratorMeta_wellFormed {dims : List ℕ} (hne : dims ≠ [])
    (hlen : dims.length ≤ plcMaxArrayDims) (hdims : ∀ d ∈ dims, d < 2 ^ 31) (t : PlcDatatype)
    (hprod : ((iteratorMeta t dims).dims.map BitVec.toNat).prod < 2 ^ 28) :
    (iteratorMeta t dims).wellFormed t (places dims).length = true := by
  have htoInt : (dims.map (BitVec.ofNat 32)).map BitVec.toInt = dims.map Nat.cast := by
    rw [List.map_map]
    exact List.map_congr_left fun d hd => toInt_ofNat32 (hdims d hd)
  have htoNat : (dims.map (BitVec.ofNat 32)).map BitVec.toNat = dims := by
    rw [List.map_map]
    conv_rhs => rw [← List.map_id dims]
    exact List.map_congr_left fun d hd => toNat_of_toInt_eq (toInt_ofNat32 (hdims d hd))
  rw [iteratorMeta, htoNat] at hprod
  have hsize : (iteratorSize dims).toInt = (dims.prod : ℕ) := toInt_iteratorSize hne (by omega)
  have hplaces : (places dims).length = dims.prod := by
    rw [places, List.length_take, length_box, hsize, Int.toNat_natCast, Nat.min_self]
  have hndims : (BitVec.ofNat 32 dims.length).toInt = dims.length :=
    toInt_ofNat32 (hlen.trans_lt (by decide))
  have hzero : BitVec.ofNat 32 dims.length ≠ 0 := by
    intro h0
    rw [h0] at hndims
    exact hne (List.length_eq_zero_iff.1 (by simpa using hndims.symm))
  simp only [PlcArrayMeta.wellFormed, PlcArrayMeta.elemCount, iteratorMeta, hplaces, hsize, htoInt,
    if_neg hzero, hndims, List.length_map, Bool.and_eq_true, decide_eq_true_eq, true_and]
  exact ⟨Nat.cast_list_prod dims, hprod⟩

/-! ## Values fit their types -/

variable {api : PyApi α}

theorem rawMatches_of_flat {type : PlcDatatype} (htype : type.hasSubTypes = false)
    {typeName : Option CString} {n : BitVec 16} {subTypes : List PlcType} {v : Value}
    (h : flatMatches type v = true) : rawMatches (.mk type typeName n subTypes) (some v) = true := by
  cases type <;> simp_all [PlcDatatype.hasSubTypes, rawMatches]

theorem flatMatches_number {input : PyObj α} {type : PlcDatatype} {v : Value}
    (h : api.number input type = some v) : flatMatches type v = true := by
  cases type with
  | int1 | int2 | int4 | int8 | float4 | float8 =>
      obtain ⟨x, -, rfl⟩ := Option.map_eq_some_iff.1 h
      rfl
  | _ => cases h

/-- What stands before the first NUL is a string that the channel carries. -/
theorem cstringOk_takeWhile {bytes : List UInt8}
    (h : (bytes.takeWhile (· ≠ 0)).length < maxPayload) :
    cstringOk (some (bytes.takeWhile (· ≠ 0))) = true := by
  have hnul : (0 : UInt8) ∉ bytes.takeWhile (· ≠ 0) := fun h0 => by
    simpa using List.mem_takeWhile_imp h0
  simp only [cstringOk, Bool.and_eq_true, Bool.not_eq_true', List.contains_eq_mem,
    decide_eq_false_iff_not, decide_eq_true_eq]
  exact ⟨hnul, h⟩

theorem flatMatches_text {input : PyObj α} {bytes : Option (List UInt8)}
    (h : (textSent input bytes).1.withinLimits = true) :
    flatMatches .text (textSent input bytes).1 = true := by
  cases bytes with
  | none => rfl
  | some bytes =>
      rw [textSent, Value.withinLimits] at h
      exact cstringOk_takeWhile (of_decide_eq_true h)

theorem flatMatches_bytea {bytes : List UInt8} (h : bytes.length < maxPayload) :
    flatMatches .bytea (.bytea ⟨BitVec.ofNat 32 bytes.length, bytes⟩) = true := by
  simp [flatMatches, Bytea.wellFormed, h, (toInt_ofNat_of_lt h).1]

theorem fieldsMatch_iff (ts : List PlcType) (ds : List RawData) :
    fieldsMatch ts ds = true ↔ List.Forall₂ (fun t d => rawMatches t d = true) ts ds := by
  induction ts generalizing ds with
  | nil => cases ds <;> simp [fieldsMatch]
  | cons t ts ih => cases ds <;> simp [fieldsMatch, ih]

theorem isSome_plcGetTypeLength {type : PlcDatatype} (hout : type.hasOutput = true)
    (hne : type ≠ .array) : (plcGetTypeLength type).isSome = true := by
  cases type with
  | array => exact absurd rfl hne
  | invalid | unknown c => cases hout
  | _ => rfl

/-- An array that was sent, when what was sent for its elements fits. -/
theorem rawMatches_array_sent {typeName : Option CString} {n : BitVec 16} {elemType : PlcType}
    (hne : elemType.type ≠ .array) (hout : elemType.hasOutputs = true)
    (helem : ∀ {o : PyObj α} {v : Value} {errors : List (ConvError α)},
      api.convertAndSend elemType o = .ok (v, errors) → v.withinLimits = true →
        rawMatches elemType (some v) = true)
    {input : PyObj α} {v : Value} {errors : List (ConvError α)}
    (h : api.convertAndSend (.mk .array typeName n [elemType]) input = .ok (v, errors))
    (hv : v.withinLimits = true) :
    rawMatches (.mk .array typeName n [elemType]) (some v) = true := by
  obtain ⟨dims, ptrs, elems, harray, rfl, rfl, helems⟩ := array_sent h
  rw [Value.withinLimits, Bool.and_eq_true, decide_eq_true_eq, allWithinLimits_iff,
    List.forall_mem_map] at hv
  have hlength : (elems.map Prod.fst).length = (places dims).length := by
    rw [List.length_map, ← helems.length_eq, PyObj.atPlaces, List.length_map]
  have hmeta : (iteratorMeta elemType.type dims).wellFormed elemType.type
      (elems.map Prod.fst).length = true := by
    rw [hlength]
    exact iteratorMeta_wellFormed (fetchAll_of_iterator api.item harray).1 (iterator_dims harray).1
      (iterator_dims harray).2 _ hv.1
  have hall : ∀ e ∈ elems, Value.rawWithinLimits e.1 = true → rawMatches elemType e.1 = true := by
    refine forall_mem_of_forall₂ helems fun o e he hlimits => ?_
    rcases element_sent he with ⟨-, rfl⟩ | ⟨o', v, errs, -, -, hsent, rfl⟩
    · rw [rawMatches]
    · exact helem hsent hlimits
  have htype : (plcGetTypeLength elemType.type).isSome = true := by
    obtain ⟨type, name, m, subTypes⟩ := elemType
    rw [PlcType.hasOutputs, Bool.and_eq_true] at hout
    exact isSome_plcGetTypeLength hout.1 hne
  rw [rawMatches, hmeta, htype, Bool.or_true, Bool.and_true, Bool.true_and, List.all_eq_true,
    List.forall_mem_map]
  exact fun e he => hall e he (hv.2 e he)

/-- **What was sent fits its type**, as far as it is not too large. -/
theorem rawMatches_sent {type : PlcType} (ht : type.wellFormed = true) (hout : type.hasOutputs = true)
    {input : PyObj α} {v : Value} {errors : List (ConvError α)}
    (h : api.convertAndSend type input = .ok (v, errors)) (hv : v.withinLimits = true) :
    rawMatches type (some v) = true := by
  induction type using PlcType.induct generalizing input v errors with
  | mk type typeName nSubTypes subTypes ih =>
      simp only [PlcType.wellFormed, Bool.and_eq_true, decide_eq_true_eq, allWellFormed_iff] at ht
      obtain ⟨⟨-, hshape⟩, hsubs⟩ := ht
      rw [PlcType.hasOutputs, Bool.and_eq_true, allHaveOutputs_iff] at hout
      by_cases hnumber : type.isNumber = true
      · rw [convertAndSend_number hnumber] at h
        cases hvalue : api.number input type with
        | none =>
            rw [hvalue] at h
            cases h
        | some x =>
            rw [hvalue] at h
            cases h
            refine rawMatches_of_flat ?_ (flatMatches_number hvalue)
            cases type <;> first | rfl | cases hnumber
      · cases type with
        | text =>
            rw [convertAndSend_text] at h
            obtain ⟨bytes, -, h⟩ := bind_eq_ok.1 h
            rw [pure_eq_ok] at h
            obtain rfl : (textSent input bytes).1 = v := congrArg Prod.fst h
            exact rawMatches_of_flat rfl (flatMatches_text hv)
        | bytea =>
            rw [convertAndSend_bytea] at h
            obtain ⟨bytes, -, h⟩ := bind_eq_ok.1 h
            cases bytes with
            | none => cases h
            | some bytes =>
                cases h
                refine rawMatches_of_flat rfl (flatMatches_bytea ?_)
                simpa [Value.withinLimits] using hv
        | array =>
            obtain ⟨elemType, rfl, hne⟩ : ∃ e, subTypes = [e] ∧ e.type ≠ .array := by
              rcases subTypes with _ | ⟨e, _ | ⟨e', rest⟩⟩
              · cases hshape
              · exact ⟨e, rfl, by simpa [subTypesOk] using hshape⟩
              · cases hshape
            have hmem := List.mem_singleton_self elemType
            exact rawMatches_array_sent hne (hout.2 _ hmem)
              (ih elemType hmem (hsubs _ hmem) (hout.2 _ hmem)) h hv
        | udt =>
            obtain ⟨get, data, -, rfl, hfields⟩ := udt_sent h
            rw [Value.withinLimits, allWithinLimits_iff] at hv
            rw [rawMatches, fieldsMatch_iff]
            refine List.forall₂_iff_zip.2 ⟨hfields.length_eq, fun {t d} htd => ?_⟩
            obtain ⟨ht, hd⟩ := List.of_mem_zip htd
            obtain ⟨key, -, ⟨-, rfl, -⟩ | ⟨-, rfl⟩ | ⟨value, v, errs, -, -, hsent, rfl, -⟩⟩ :=
              List.forall₂_zip hfields htd
            · rw [rawMatches]
            · rw [rawMatches]
            · exact ih t ht (hsubs t ht) (hout.2 t ht) hsent (hv _ hd)
        | invalid | unknown c => cases hout.1
        | _ => exact absurd rfl hnumber

/-! ## Messages of errors -/

theorem ConvFormat.formatLength_le (format : ConvFormat) : formatLength format.parts ≤ 100 := by
  rw [formatLength_eq]
  cases format with
  | transforming type =>
      have hname : type.transformedTo.utf8ByteSize ≤ 6 := by
        cases type with
        | unknown c => exact (by decide : "text".utf8ByteSize ≤ 6)
        | _ => decide
      have hlit : "Exception occurred transforming result object to ".utf8ByteSize ≤ 50 := by decide
      simp only [ConvFormat.parts, List.map_cons, List.map_nil, List.sum_cons, List.sum_nil]
      omega
  | _ => decide

/-- The message of an error is a string that the channel carries, whatever is printed into it. -/
theorem cstringOk_errorMessage (format : ConvFormat) (args : List CString) :
    cstringOk (some (errorMessage format.parts args)) = true := by
  have hformat := format.formatLength_le
  rw [errorMessage]
  split
  next hfits =>
    refine cstringOk_takeWhile (hfits.trans_le ?_)
    rw [maxPayload]
    omega
  next => decide

/-! ## The reply -/

variable (api)

/-- The RESULT: one row and one column, and the error that was parked first (`plc_error_callback`). -/
def PyApi.resultMessage (type : PlcType) (v : Value) (errors : List (ConvError α)) : PlcMsgResult where
  rows := 1
  cols := 1
  types := [type]
  names := [some (Json.utf8 "result".toList)]
  data := [[some v]]
  exceptionCallback := some (errors.head?.map api.exception)

/-- A RESULT with any number of rows. -/
def PyApi.rowsMessage (type : PlcType) (rows : List RawData) (parked : List (ConvError α)) :
    PlcMsgResult where
  rows := BitVec.ofNat 32 rows.length
  cols := 1
  types := [type]
  names := [some (Json.utf8 "result".toList)]
  data := rows.map fun d => [d]
  exceptionCallback := some (parked.head?.map api.exception)

/-- What the backend gets: the first error, or the result if there is none. -/
def PyApi.backendGets (type : PlcType) (v : Value) : List (ConvError α) → PlcMessage
  | [] => .result { api.resultMessage type v [] with
      data := [[some v.delivered]], exceptionCallback := none }
  | err :: _ => .exception (api.exception err)

/-- A value of an array type leads to one complete RESULT of values that were assigned, which the
    backend reads to its end and of which it gets the first error that was reported; or its conversion
    fails and nothing is sent yet. -/
def PyApi.RepliesInFull (type : PlcType) (input : PyObj α) : Prop :=
  ∃ reply, api.streamed type input = .ok reply ∧
    ∀ v errors, reply = some (v, errors) → v.withinLimits = true →
      (∀ err ∈ errors.head?, cstringOk (api.trace err.input) = true) →
      ∀ mask, MsgType.allowedBy .result mask = true →
        ∃ bytes, plcontainerChannelSend (.result (api.resultMessage type v errors)) = some bytes ∧
          ∀ rest, (plcontainerChannelReceive mask).run (bytes ++ rest)
            = .ok (api.backendGets type v errors, rest)

variable {api}

theorem rowsMessage_wellFormed {type : PlcType} (ht : type.wellFormed = true) {rows : List RawData}
    (hlength : rows.length < 2 ^ 32) (hrows : ∀ d ∈ rows, rawMatches type d = true)
    {parked : List (ConvError α)}
    (hparked : ∀ err ∈ parked.head?, cstringOk (api.trace err.input) = true) :
    (api.rowsMessage type rows parked).wellFormed = true := by
  have hname : cstringOk (some (Json.utf8 "result".toList)) = true := by decide
  have hcount : (BitVec.ofNat 32 rows.length).toNat = rows.length := by
    rw [BitVec.toNat_ofNat, Nat.mod_eq_of_lt hlength]
  have hdata : (rows.map fun d => [d]).all (fieldsMatch [type]) = true := by
    rw [List.all_eq_true, List.forall_mem_map]
    intro d hd
    rw [fieldsMatch, hrows d hd, fieldsMatch]
    rfl
  have herror : (parked.head?.map api.exception).all PlcMsgError.wellFormed = true := by
    cases hhead : parked.head? with
    | none => rfl
    | some err =>
        show (api.exception err).wellFormed = true
        rw [PlcMsgError.wellFormed, PyApi.exception, cstringOk_errorMessage, Bool.true_and]
        exact hparked err hhead
  simp only [PlcMsgResult.wellFormed, PyApi.rowsMessage, PlcType.allWellFormed, ht, hname, hcount,
    hdata, List.all_cons, List.all_nil, List.length_map, List.length_cons, List.length_nil,
    Bool.and_true, decide_true]
  exact herror

theorem resultMessage_wellFormed {type : PlcType} (ht : type.wellFormed = true) {v : Value}
    (hv : rawMatches type (some v) = true) {errors : List (ConvError α)}
    (herrors : ∀ err ∈ errors.head?, cstringOk (api.trace err.input) = true) :
    (api.resultMessage type v errors).wellFormed = true := by
  have hone : api.resultMessage type v errors = api.rowsMessage type [some v] errors := rfl
  rw [hone]
  exact rowsMessage_wellFormed ht (by simp) (by simpa using hv) herrors

theorem answer_resultMessage (type : PlcType) (v : Value) (errors : List (ConvError α)) :
    (PlcMessage.result (api.resultMessage type v errors)).answer.mapData Value.deliveredRaw
      = api.backendGets type v errors := by
  cases errors <;> rfl

/-- A list that can be streamed leads to a complete reply. -/
theorem repliesInFull_of_streams {type : PlcType} (ht : type.wellFormed = true)
    (hout : type.hasOutputs = true) {input : PyObj α} {reply : Option (Value × List (ConvError α))}
    (hreply : api.streamed type input = .ok reply)
    (hsent : ∀ v errors, reply = some (v, errors) → api.convertAndSend type input = .ok (v, errors)) :
    api.RepliesInFull type input := by
  refine ⟨reply, hreply, fun v errors hr hv herrors mask hmask => ?_⟩
  have hmatches := rawMatches_sent ht hout (hsent v errors hr) hv
  have htransfers := transfers_plcontainerChannelSend (.result (api.resultMessage type v errors)) mask
    (resultMessage_wellFormed ht hmatches herrors) hmask
  rw [answer_resultMessage] at htransfers
  exact htransfers

/-- What `process_call_results` sends for an array type. -/
theorem streamed_array (typeName : Option CString) (n : BitVec 16) (subTypes : List PlcType)
    (input : PyObj α) :
    api.streamed (.mk .array typeName n subTypes) input
      = match plcPyobjectAsArray input with
        | .refused => pure none
        | _ => some <$> api.convertAndSend (.mk .array typeName n subTypes) input := by
  rw [PyApi.streamed, PyApi.convertAndSend, PyApi.outputfunc]
  unfold plcPyobjectAsArrayOutput
  cases plcPyobjectAsArray input with
  | overflow => rfl
  | refused => cases input <;> rfl
  | iterator dims ptrs => simp only [pure_bind, if_true, List.nil_append, Prod.mk.eta, bind_pure]

end

/-- Some objects: numbers, texts, dictionaries of numbers, and one that is none of these. -/
inductive PyLeaf where
  | int (n : ℤ)
  | str (s : PyStr)
  | dict (entries : List (CString × ℤ))
  | object

/-- Python 3 for these objects, with a server whose encoding is ASCII. -/
def asciiServer : PyApi PyLeaf where
  python3 := true
  item
    | .str s, i => s[i]?.map fun c => .leaf (.str [c])
    | _, _ => none
  int
    | .int n => some n
    | _ => none
  float _ := none
  unicode
    | .str s => some s
    | _ => none
  str _ := some [63]
  byteStr _ := none
  encode s := if s.all (· < 128) then some (s.map UInt8.ofNat) else none
  utf8 s := some (Json.utf8 (s.map Char.ofNat))
  bytes _ := none
  dict
    | .dict entries => some fun key => (entries.find? (·.1 = key)).map fun e => .leaf (.int e.2)
    | _ => none
  sends _ := false
  trace _ := none
  doubleToInt _ _ := 0
  doubleToFloat _ := 0
  longToFloat _ := 0
  longToDouble d := d

/-- An array type with elements of a type without subtypes. -/
def scalarArray (type : PlcDatatype) : PlcType := .mk .array none 1 [.mk type none 0 []]

/-- An array type with elements that have fields of type int4, whose names are single letters. -/
def rowArray (fields : List UInt8) : PlcType :=
  .mk .array none 1 [.mk .udt (some [116]) (BitVec.ofNat 16 fields.length)
    (fields.map fun c => .mk .int4 (some [c]) 0 [])]

end PlContainer
