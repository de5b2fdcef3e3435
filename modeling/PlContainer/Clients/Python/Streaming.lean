import PlContainer.Clients.Python.Outputs

set_option autoImplicit false

/-! # An array that is streamed

The elements of a list that is returned for an array type are converted while the RESULT is being sent.
The sender does not look at what a conversion returns, but at what it has left behind. Errors that are
reported meanwhile are parked, and the first of them is sent as the end of the RESULT. -/

namespace PlContainer

open Odometer Checked

section

variable {α : Type} (api : PyApi α)

/-! ## The sender -/

/-- The `plcArrayMeta` of an iterator. -/
def iteratorMeta (elemType : PlcDatatype) (dims : List ℕ) : PlcArrayMeta :=
  ⟨elemType, BitVec.ofNat 32 dims.length, dims.map (BitVec.ofNat 32), iteratorSize dims⟩

/-- An element: what is sent for it, and the errors that are reported meanwhile. -/
def streamElement (convert : PyObj α → Except Broken (Converted α))
    (send : Out α → Except Broken (Value × List (ConvError α))) :
    Option (PyObj α) → Except Broken (RawData × List (ConvError α))
  | none => pure (none, [])
  | some .none => pure (none, [])
  | some o => do
      let c ← convert o
      let r ← send c.output
      pure (some r.1, c.errors ++ r.2)

mutual

/-- What `send_raw_object` reads for a value that is not null. -/
def PyApi.sendValue : PlcType → Out α → Except Broken (Value × List (ConvError α))
  | .mk type _ _ subTypes, output =>
      match type, output with
      | .array, .iterator dims ptrs =>
          match subTypes with
          | [] => throw .nullPointer
          | elemType :: _ =>
              match fetchAll api.item dims ptrs with
              | none => throw .nullPointer
              | some fetched => do
                  let elems ← (fetched.1.map Prod.snd).mapM
                    (streamElement (api.outputfunc elemType) (PyApi.sendValue elemType))
                  pure (.iterator (iteratorMeta elemType.type dims) (elems.map Prod.fst),
                    elems.flatMap Prod.snd)
      | .udt, .udt data => do
          let fields ← PyApi.sendFields subTypes data
          pure (.udt (fields.map Prod.fst), fields.flatMap Prod.snd)
      -- `send_cstring` sends a length of -1
      | .text, .null => pure (.text none, [])
      | _, .flat v => pure (v, [])
      | _, .unassigned => throw .unassigned
      | _, _ => throw .nullPointer

def PyApi.sendFields : List PlcType → List (Option (Option (Out α))) →
    Except Broken (List (RawData × List (ConvError α)))
  | [], _ => pure []
  | _ :: ts, some none :: data => do
      let rest ← PyApi.sendFields ts data
      pure ((none, []) :: rest)
  | t :: ts, some (some output) :: data => do
      let r ← PyApi.sendValue t output
      let rest ← PyApi.sendFields ts data
      pure ((some r.1, r.2) :: rest)
  | _ :: _, _ => throw .unassigned

end

/-- A value of an array type in `process_call_results`: nothing is sent if its conversion fails. -/
def PyApi.streamed (type : PlcType) (input : PyObj α) :
    Except Broken (Option (Value × List (ConvError α))) := do
  let c ← api.outputfunc type input
  if c.ok then some <$> api.sendValue type c.output else pure none

/-! ## When a list can be streamed -/

def PyApi.isNumber : PyObj α → Bool
  | .leaf a => (api.int a).isSome || (api.float a).isSome
  | _ => false

/-- The text of the object can be encoded; in Python 2 it may also have none. -/
def PyApi.TextStreams (input : PyObj α) : Prop :=
  match api.unicode? input with
  | some s => (api.encode s).isSome
  | none => api.sends input = false ∧
      (api.python3 = true → ((api.str input).bind api.encode).isSome)

/-- The object has bytes. -/
def PyApi.BytesStream (input : PyObj α) : Prop :=
  match if api.python3 then api.unicode? input else none with
  | some s => (api.utf8 s).isSome
  | none => api.sends input = false ∧ (api.bytes input).isSome

/-- The object is a list that has its finished rows, and what stands at its places can be streamed. -/
def PyApi.ListStreams (streams : PyObj α → Prop) (input : PyObj α) : Prop :=
  match plcPyobjectAsArray input with
  | .iterator dims _ =>
      (∀ path ∈ places dims, GivesBack (PyObj.getItem api.item) (some input) dims path) ∧
        ∀ o, some o ∈ input.atPlaces api.item dims → o ≠ .none → streams o
  | _ => False

/-- The conversion of the object succeeds. -/
def PyApi.Converts (type : PlcType) (input : PyObj α) : Prop :=
  ∃ c, api.outputfunc type input = .ok c ∧ c.ok = true

mutual

/-- The conversion of the object leaves something behind that can be sent, whether it succeeds or
    not. -/
def PyApi.Streams : PlcType → PyObj α → Prop
  | .mk type _ _ subTypes, input =>
      match type with
      | .int1 | .int2 | .int4 | .int8 | .float4 | .float8 => api.isNumber input = true
      | .text => api.TextStreams input
      | .bytea => api.BytesStream input
      | .array =>
          match subTypes with
          | elemType :: _ => api.ListStreams (PyApi.Streams elemType) input
          | [] => False
      | .udt =>
          match api.dict? input with
          | some get => PyApi.FieldsStream subTypes get
          | none => False
      | .invalid => False
      | .unknown _ => False

/-- Each field has its key and can be streamed, and only the last one may be missing or fail. -/
def PyApi.FieldsStream : List PlcType → (CString → Option (PyObj α)) → Prop
  | [], _ => True
  | t :: ts, get =>
      ∃ key, t.typeName = some key ∧
        match get key with
        | none => ts = []
        | some .none => PyApi.FieldsStream ts get
        | some value =>
            PyApi.Streams t value ∧ (ts = [] ∨ api.Converts t value ∧ PyApi.FieldsStream ts get)

end

/-- An object that is converted and sent. -/
def PyApi.convertAndSend (type : PlcType) (input : PyObj α) :
    Except Broken (Value × List (ConvError α)) := do
  let c ← api.outputfunc type input
  let r ← api.sendValue type c.output
  pure (r.1, c.errors ++ r.2)

variable {api}

/-! ### Values without subtypes -/

theorem sendValue_flat (type : PlcDatatype) (typeName : Option CString) (n : BitVec 16)
    (subTypes : List PlcType) (v : Value) :
    api.sendValue (.mk type typeName n subTypes) (.flat v) = pure (v, []) := by
  cases type <;> rw [PyApi.sendValue]

theorem sendValue_unassigned (type : PlcDatatype) (typeName : Option CString) (n : BitVec 16)
    (subTypes : List PlcType) :
    api.sendValue (.mk type typeName n subTypes) .unassigned = throw .unassigned := by
  cases type <;> rw [PyApi.sendValue]

/-- A null pointer cannot be sent as an array or a composite value. -/
theorem sendValue_null {type : PlcDatatype} (h : type.hasSubTypes = true)
    (typeName : Option CString) (n : BitVec 16) (subTypes : List PlcType) :
    api.sendValue (.mk type typeName n subTypes) .null = throw .nullPointer := by
  cases type with
  | array | udt => rw [PyApi.sendValue] <;> simp
  | _ => cases h

/-- The types of numbers. -/
def PlcDatatype.isNumber : PlcDatatype → Bool
  | .int1 | .int2 | .int4 | .int8 | .float4 | .float8 => true
  | _ => false

variable (api) in
/-- The number that the object is converted to. -/
def PyApi.number (input : PyObj α) : PlcDatatype → Option Value
  | .int1 => (api.integer 8 input).map fun v => .int1 (UInt8.ofBitVec v)
  | .int2 => (api.integer 16 input).map .int2
  | .int4 => (api.integer 32 input).map .int4
  | .int8 => (api.integer 64 input).map .int8
  | .float4 => (api.floating api.doubleToFloat api.longToFloat input).map .float4
  | .float8 => (api.floating id api.longToDouble input).map .float8
  | _ => none

theorem isSome_integer (w : ℕ) (input : PyObj α) :
    (api.integer w input).isSome = api.isNumber input := by
  cases input with
  | leaf a =>
      rw [PyApi.integer, PyApi.isNumber]
      cases api.int a <;> simp
  | _ => rfl

theorem isSome_floating {w : ℕ} (ofDouble ofLong : BitVec 64 → BitVec w) (input : PyObj α) :
    (api.floating ofDouble ofLong input).isSome = api.isNumber input := by
  cases input with
  | leaf a =>
      rw [PyApi.floating, PyApi.isNumber]
      cases api.float a <;> simp
  | _ => rfl

theorem isSome_number {type : PlcDatatype} (h : type.isNumber = true) (input : PyObj α) :
    (api.number input type).isSome = api.isNumber input := by
  cases type with
  | int1 | int2 | int4 | int8 => exact (Option.isSome_map ..).trans (isSome_integer _ input)
  | float4 | float8 => exact (Option.isSome_map ..).trans (isSome_floating _ _ input)
  | _ => cases h

theorem outputfunc_number {type : PlcDatatype} (h : type.isNumber = true)
    (typeName : Option CString) (n : BitVec 16) (subTypes : List PlcType) (input : PyObj α) :
    api.outputfunc (.mk type typeName n subTypes) input
      = pure (asNumber type (api.number input type) input) := by
  cases type with
  | int1 | int2 | int4 | int8 | float4 | float8 => rw [PyApi.outputfunc]; rfl
  | _ => cases h

/-- A number is converted and sent. -/
theorem convertAndSend_number {type : PlcDatatype} (h : type.isNumber = true)
    (typeName : Option CString) (n : BitVec 16) (subTypes : List PlcType) (input : PyObj α) :
    api.convertAndSend (.mk type typeName n subTypes) input
      = match api.number input type with
        | some v => pure (v, [])
        | none => throw .unassigned := by
  rw [PyApi.convertAndSend, outputfunc_number h, pure_bind]
  cases api.number input type with
  | some v => simp only [asNumber, sendValue_flat, pure_bind, List.append_nil]
  | none =>
      simp only [asNumber, sendValue_unassigned]
      rfl

/-- What is sent for a text. -/
def textSent (input : PyObj α) : Option (List UInt8) → Value × List (ConvError α)
  | some bytes => (.text (some (bytes.takeWhile (· ≠ 0))), [])
  | none => (.text none, [⟨.transforming .text, [], input⟩])

theorem convertAndSend_text (typeName : Option CString) (n : BitVec 16) (subTypes : List PlcType)
    (input : PyObj α) :
    api.convertAndSend (.mk .text typeName n subTypes) input
      = (do let plrvBo ← api.plrvBo input; pure (textSent input plrvBo)) := by
  rw [PyApi.convertAndSend, PyApi.outputfunc, PyApi.plcPyobjectAsText, bind_assoc]
  refine bind_congr fun plrvBo => ?_
  cases plrvBo with
  | none =>
      rw [pure_bind, PyApi.sendValue]
      rfl
  | some bytes =>
      rw [pure_bind, sendValue_flat]
      rfl

theorem succeeds_text (typeName : Option CString) (n : BitVec 16) (subTypes : List PlcType)
    (input : PyObj α) :
    Succeeds (api.convertAndSend (.mk .text typeName n subTypes) input) ↔ api.TextStreams input := by
  rw [convertAndSend_text, succeeds_bind_pure, PyApi.plrvBo, PyApi.TextStreams]
  have hencode (s : PyStr) :
      Succeeds (some <$> api.plyUnicodeBytes s) ↔ (api.encode s).isSome := by
    rw [PyApi.plyUnicodeBytes]
    cases api.encode s with
    | none => exact iff_of_false (not_succeeds_throw _) (by simp)
    | some bytes => exact iff_of_true (succeeds_pure _) rfl
  cases api.unicode? input with
  | some s => exact hencode s
  | none =>
      cases api.sends input with
      | true => exact iff_of_false (not_succeeds_throw _) (by simp)
      | false =>
          cases api.python3 with
          | false => exact iff_of_true (succeeds_pure _) (by simp)
          | true =>
              cases api.str input with
              | none => exact iff_of_false (not_succeeds_throw _) (by simp)
              | some s => simpa using hencode s

variable (api) in
/-- The bytes of an object; nothing where their conversion fails. -/
def PyApi.byteaSource (input : PyObj α) : Except Broken (Option (List UInt8)) :=
  match if api.python3 then api.unicode? input else none with
  | some s => pure (api.utf8 s)
  | none => if api.sends input then throw .interleaved else pure (api.bytes input)

/-- What is sent for bytes. -/
def byteaSent : Option (List UInt8) → Except Broken (Value × List (ConvError α))
  | some bytes => pure (.bytea ⟨BitVec.ofNat 32 bytes.length, bytes⟩, [])
  | none => throw .unassigned

theorem convertAndSend_bytea (typeName : Option CString) (n : BitVec 16) (subTypes : List PlcType)
    (input : PyObj α) :
    api.convertAndSend (.mk .bytea typeName n subTypes) input
      = api.byteaSource input >>= byteaSent := by
  have hsent (format : ConvFormat) (bytes : Option (List UInt8)) :
      (do
        let r ← api.sendValue (.mk .bytea typeName n subTypes)
          (byteaOutput format input bytes).output
        pure (r.1, (byteaOutput format input bytes).errors ++ r.2)) = byteaSent bytes := by
    cases bytes with
    | none =>
        rw [byteaOutput, sendValue_unassigned]
        rfl
    | some bytes =>
        rw [byteaOutput, sendValue_flat]
        rfl
  rw [PyApi.convertAndSend, PyApi.outputfunc, PyApi.plcPyobjectAsBytea, PyApi.byteaSource]
  cases (if api.python3 then api.unicode? input else none) with
  | some s => exact hsent .unicodeBytes (api.utf8 s)
  | none =>
      cases api.sends input with
      | true => rfl
      | false => exact hsent .objectBytes (api.bytes input)

theorem succeeds_bytea (typeName : Option CString) (n : BitVec 16) (subTypes : List PlcType)
    (input : PyObj α) :
    Succeeds (api.convertAndSend (.mk .bytea typeName n subTypes) input)
      ↔ api.BytesStream input := by
  have hbytes (bytes : Option (List UInt8)) :
      Succeeds (byteaSent bytes : Except Broken (Value × List (ConvError α))) ↔ bytes.isSome := by
    cases bytes with
    | none => exact iff_of_false (not_succeeds_throw _) (by simp)
    | some bytes => exact iff_of_true (succeeds_pure _) rfl
  rw [convertAndSend_bytea, PyApi.byteaSource, PyApi.BytesStream]
  cases (if api.python3 then api.unicode? input else none) with
  | some s => exact hbytes (api.utf8 s)
  | none =>
      cases api.sends input with
      | true => exact iff_of_false (not_succeeds_throw _) (by simp)
      | false => exact (hbytes (api.bytes input)).trans (and_iff_right rfl).symm

/-! ### Arrays -/

variable (api) in
/-- The elements of an array, given what was fetched. -/
def PyApi.sendElements (elemType : PlcType) (dims : List ℕ) (fetched : List (Option (PyObj α))) :
    Except Broken (Value × List (ConvError α)) := do
  let elems ← fetched.mapM (streamElement (api.outputfunc elemType) (api.sendValue elemType))
  pure (.iterator (iteratorMeta elemType.type dims) (elems.map Prod.fst), elems.flatMap Prod.snd)

theorem convertAndSend_array (typeName : Option CString) (n : BitVec 16) (elemType : PlcType)
    (subTypes : List PlcType) (input : PyObj α) :
    api.convertAndSend (.mk .array typeName n (elemType :: subTypes)) input
      = match plcPyobjectAsArray input with
        | .iterator dims ptrs =>
            match fetchAll api.item dims ptrs with
            | none => throw .nullPointer
            | some fetched => api.sendElements elemType dims (fetched.1.map Prod.snd)
        | .overflow => throw .overflow
        | .refused => throw .nullPointer := by
  rw [PyApi.convertAndSend, PyApi.outputfunc]
  unfold plcPyobjectAsArrayOutput
  cases plcPyobjectAsArray input with
  | overflow => rfl
  | refused =>
      cases input <;>
      · rw [pure_bind, sendValue_null rfl]
        rfl
  | iterator dims ptrs =>
      simp only [pure_bind, PyApi.sendValue]
      cases fetchAll api.item dims ptrs with
      | none => rfl
      | some fetched => simp only [PyApi.sendElements, bind_assoc, pure_bind, List.nil_append]

theorem streamElement_eq (type : PlcType) {o : PyObj α} (ho : o ≠ .none) :
    streamElement (api.outputfunc type) (api.sendValue type) (some o)
      = (fun r => (some r.1, r.2)) <$> api.convertAndSend type o := by
  cases o with
  | none => exact absurd rfl ho
  | _ => simp only [streamElement, PyApi.convertAndSend, map_bind, map_pure]

/-- An element can be sent if it is null, or if its object can be. -/
theorem succeeds_streamElement {type : PlcType}
    (h : ∀ o, Succeeds (api.convertAndSend type o) ↔ api.Streams type o) (fetched : Option (PyObj α)) :
    Succeeds (streamElement (api.outputfunc type) (api.sendValue type) fetched)
      ↔ ∀ o, fetched = some o → o ≠ .none → api.Streams type o := by
  by_cases hnull : ∃ o, fetched = some o ∧ o ≠ .none
  · obtain ⟨o, rfl, ho⟩ := hnull
    rw [streamElement_eq type ho, succeeds_map, h]
    exact ⟨by rintro hs _ ⟨⟩ -; exact hs, fun hs => hs o rfl ho⟩
  · refine iff_of_true ?_ fun o hf ho => absurd ⟨o, hf, ho⟩ hnull
    rcases fetched with _ | (_ | _ | _)
    · exact succeeds_pure _
    · exact succeeds_pure _
    · exact absurd ⟨_, rfl, by simp⟩ hnull
    · exact absurd ⟨_, rfl, by simp⟩ hnull

theorem succeeds_array {typeName : Option CString} {n : BitVec 16} {elemType : PlcType}
    {subTypes : List PlcType}
    (h : ∀ o, Succeeds (api.convertAndSend elemType o) ↔ api.Streams elemType o) (input : PyObj α) :
    Succeeds (api.convertAndSend (.mk .array typeName n (elemType :: subTypes)) input)
      ↔ api.Streams (.mk .array typeName n (elemType :: subTypes)) input := by
  rw [convertAndSend_array, PyApi.Streams, PyApi.ListStreams]
  cases harray : plcPyobjectAsArray input with
  | refused => exact iff_of_false (not_succeeds_throw _) id
  | overflow => exact iff_of_false (not_succeeds_throw _) id
  | iterator dims ptrs =>
      obtain ⟨-, hplaces, hsome⟩ := fetchAll_of_iterator api.item harray
      simp only [← hsome]
      cases hfetched : fetchAll api.item dims ptrs with
      | none => exact iff_of_false (not_succeeds_throw _) (by simp)
      | some fetched =>
          rw [← hplaces fetched hfetched]
          simp only [PyApi.sendElements, succeeds_bind_pure, succeeds_mapM, succeeds_streamElement h,
            Option.isSome_some, true_and]
          exact ⟨fun hs o ho => hs _ ho o rfl, by rintro hs _ ho o rfl; exact hs o ho⟩

/-- An array type without an element type has no values. -/
theorem not_succeeds_array_nil (typeName : Option CString) (n : BitVec 16) (input : PyObj α) :
    ¬ Succeeds (api.convertAndSend (.mk .array typeName n []) input) := by
  rw [PyApi.convertAndSend, PyApi.outputfunc]
  unfold plcPyobjectAsArrayOutput
  cases plcPyobjectAsArray input with
  | overflow => exact not_succeeds_throw _
  | refused =>
      cases input <;>
      · rw [pure_bind, sendValue_null rfl]
        exact not_succeeds_throw _
  | iterator dims ptrs =>
      simp only [pure_bind, PyApi.sendValue]
      exact not_succeeds_throw _

/-! ### Composite values -/

theorem convertAndSend_udt (typeName : Option CString) (n : BitVec 16) (subTypes : List PlcType)
    (input : PyObj α) :
    api.convertAndSend (.mk .udt typeName n subTypes) input
      = match api.dict? input with
        | none => throw .nullPointer
        | some get => (do
            let r ← api.udtFields subTypes input get
            let fields ← api.sendFields subTypes r.data
            pure (.udt (fields.map Prod.fst), r.errors ++ fields.flatMap Prod.snd)) := by
  rw [PyApi.convertAndSend, PyApi.outputfunc]
  cases api.dict? input with
  | none =>
      simp only [pure_bind]
      rw [sendValue_null rfl]
      rfl
  | some get => simp only [bind_assoc, pure_bind, PyApi.sendValue]

/-- Fields that are not assigned cannot be sent. -/
theorem succeeds_sendFields_unassigned (ts : List PlcType) :
    Succeeds (api.sendFields ts (ts.map fun _ => none)) ↔ ts = [] := by
  cases ts with
  | nil => exact iff_of_true (succeeds_pure _) rfl
  | cons t ts =>
      rw [List.map_cons, PyApi.sendFields]
      · exact iff_of_false (not_succeeds_throw _) (List.cons_ne_nil t ts)
      · simp
      · simp

theorem succeeds_sendFields_null (t : PlcType) (ts : List PlcType)
    (data : List (Option (Option (Out α)))) :
    Succeeds (api.sendFields (t :: ts) (some none :: data)) ↔ Succeeds (api.sendFields ts data) := by
  rw [PyApi.sendFields]
  exact succeeds_bind_pure

theorem succeeds_sendFields_cons (t : PlcType) (ts : List PlcType) (output : Out α)
    (data : List (Option (Option (Out α)))) :
    Succeeds (api.sendFields (t :: ts) (some (some output) :: data))
      ↔ Succeeds (api.sendValue t output) ∧ Succeeds (api.sendFields ts data) := by
  rw [PyApi.sendFields]
  exact succeeds_bind_of fun r _ => succeeds_bind_pure

variable (api) in
/-- The rest of the loop over the fields, from one that has a value. -/
def PyApi.udtField (t : PlcType) (ts : List PlcType) (input : PyObj α)
    (get : CString → Option (PyObj α)) (value : PyObj α) : Except Broken (ConvertedFields α) := do
  let c ← api.outputfunc t value
  if c.ok then .cons (some c.output) c.errors <$> api.udtFields ts input get
  else pure (.failed ts (some c.output) c.errors)

theorem udtFields_cons (t : PlcType) (ts : List PlcType) (input : PyObj α)
    (get : CString → Option (PyObj α)) {key : CString} (hkey : t.typeName = some key) :
    api.udtFields (t :: ts) input get
      = match get key with
        | none => pure (.failed ts none [⟨.cannotFindKey, [key], input⟩])
        | some .none => .cons none [] <$> api.udtFields ts input get
        | some value => api.udtField t ts input get value := by
  rw [PyApi.udtFields, hkey]
  rfl

/-- A field that has a value can be sent, with those after it. -/
theorem succeeds_udtField {t : PlcType} {ts : List PlcType} {input : PyObj α}
    {get : CString → Option (PyObj α)}
    (ht : ∀ o, Succeeds (api.convertAndSend t o) ↔ api.Streams t o)
    (hts : Succeeds (api.udtFields ts input get >>= fun r => api.sendFields ts r.data)
      ↔ api.FieldsStream ts get) (value : PyObj α) :
    Succeeds (api.udtField t ts input get value >>= fun r => api.sendFields (t :: ts) r.data)
      ↔ api.Streams t value ∧ (ts = [] ∨ api.Converts t value ∧ api.FieldsStream ts get) := by
  rw [← ht, PyApi.convertAndSend, PyApi.Converts, PyApi.udtField, bind_assoc]
  cases api.outputfunc t value with
  | error e => exact iff_of_false (not_succeeds_throw _) fun h => not_succeeds_throw _ h.1
  | ok c =>
      have hconverts : (∃ c', (Except.ok c : Except Broken (Converted α)) = .ok c' ∧ c'.ok = true)
          ↔ c.ok = true :=
        ⟨by rintro ⟨_, ⟨⟩, h⟩; exact h, fun h => ⟨c, rfl, h⟩⟩
      have hsend : Succeeds (do
            let c ← (Except.ok c : Except Broken (Converted α))
            let r ← api.sendValue t c.output
            pure (r.1, c.errors ++ r.2)) ↔ Succeeds (api.sendValue t c.output) :=
        succeeds_bind_pure
      rw [hconverts, hsend]
      show Succeeds ((if c.ok then _ else _) >>= _) ↔ _
      cases c.ok with
      | false =>
          rw [if_neg (by simp), pure_bind, ConvertedFields.failed, succeeds_sendFields_cons,
            succeeds_sendFields_unassigned]
          simp
      | true =>
          rw [if_pos rfl, bind_map_left, ← hts]
          simp only [ConvertedFields.cons]
          have hsplit : Succeeds (api.udtFields ts input get >>= fun r =>
                api.sendFields (t :: ts) (some (some c.output) :: r.data))
              ↔ Succeeds (api.sendValue t c.output) ∧
                Succeeds (api.udtFields ts input get >>= fun r => api.sendFields ts r.data) := by
            simp only [succeeds_bind, succeeds_sendFields_cons]
            constructor
            · rintro ⟨r, hr, hvalue, hfields⟩
              exact ⟨hvalue, r, hr, hfields⟩
            · rintro ⟨hvalue, r, hr, hfields⟩
              exact ⟨r, hr, hvalue, hfields⟩
          rw [hsplit, true_and, or_iff_right_of_imp]
          rintro rfl
          exact hts.2 trivial

/-- The fields can be sent after they have been converted. -/
theorem succeeds_fields (ts : List PlcType) (input : PyObj α) (get : CString → Option (PyObj α))
    (h : ∀ t ∈ ts, ∀ o, Succeeds (api.convertAndSend t o) ↔ api.Streams t o) :
    Succeeds (api.udtFields ts input get >>= fun r => api.sendFields ts r.data)
      ↔ api.FieldsStream ts get := by
  induction ts with
  | nil =>
      rw [PyApi.udtFields, PyApi.FieldsStream]
      exact iff_of_true (succeeds_pure _) trivial
  | cons t ts ih =>
      have ih := ih fun s hs => h s (List.mem_cons_of_mem _ hs)
      have ht := h t (List.mem_cons_self ..)
      rw [PyApi.FieldsStream]
      cases hkey : t.typeName with
      | none =>
          rw [PyApi.udtFields, hkey]
          exact iff_of_false (not_succeeds_throw _) (by simp)
      | some key =>
          rw [udtFields_cons t ts input get hkey]
          simp only [Option.some.injEq, exists_eq_left']
          rcases get key with _ | (_ | _ | _)
          · -- the key is missing: the field is null, and the others are not assigned
            exact (succeeds_sendFields_null t ts _).trans (succeeds_sendFields_unassigned ts)
          · rw [bind_map_left]
            exact (succeeds_bind_congr fun r => succeeds_sendFields_null ..).trans ih
          · exact succeeds_udtField ht ih _
          · exact succeeds_udtField ht ih _

/-- **An object can be converted and sent exactly if what is said of it by `Streams` holds.** -/
theorem succeeds_convertAndSend (type : PlcType) (input : PyObj α) :
    Succeeds (api.convertAndSend type input) ↔ api.Streams type input := by
  induction type using PlcType.induct generalizing input with
  | mk type typeName nSubTypes subTypes ih =>
      by_cases hnumber : type.isNumber = true
      · have hstreams : api.Streams (.mk type typeName nSubTypes subTypes) input
            = (api.isNumber input = true) := by
          cases type with
          | int1 | int2 | int4 | int8 | float4 | float8 => rw [PyApi.Streams]
          | _ => cases hnumber
        rw [hstreams, convertAndSend_number hnumber, ← isSome_number hnumber]
        cases api.number input type with
        | none => exact iff_of_false (not_succeeds_throw _) (by simp)
        | some v => exact iff_of_true (succeeds_pure _) rfl
      · cases type with
        | text =>
            rw [PyApi.Streams]
            exact succeeds_text typeName nSubTypes subTypes input
        | bytea =>
            rw [PyApi.Streams]
            exact succeeds_bytea typeName nSubTypes subTypes input
        | array =>
            cases subTypes with
            | nil =>
                rw [PyApi.Streams]
                exact iff_of_false (not_succeeds_array_nil typeName nSubTypes input) id
            | cons elemType rest => exact succeeds_array (ih elemType (List.mem_cons_self ..)) input
        | udt =>
            rw [convertAndSend_udt, PyApi.Streams]
            cases api.dict? input with
            | none => exact iff_of_false (not_succeeds_throw _) id
            | some get =>
                exact (succeeds_bind_congr fun r => succeeds_bind_pure).trans
                  (succeeds_fields subTypes input get ih)
        | invalid | unknown c =>
            rw [PyApi.convertAndSend, PyApi.outputfunc, PyApi.Streams]
            exact iff_of_false (not_succeeds_throw _) id
        | _ => exact absurd rfl hnumber

/-! ## What was sent -/

/-- An array that was sent: the value has the elements that stand at the places of the list. -/
theorem array_sent {typeName : Option CString} {n : BitVec 16} {elemType : PlcType}
    {subTypes : List PlcType} {input : PyObj α} {v : Value} {errors : List (ConvError α)}
    (h : api.convertAndSend (.mk .array typeName n (elemType :: subTypes)) input = .ok (v, errors)) :
    ∃ dims ptrs elems, plcPyobjectAsArray input = .iterator dims ptrs ∧
      v = .iterator (iteratorMeta elemType.type dims) (elems.map Prod.fst) ∧
      errors = elems.flatMap Prod.snd ∧
      List.Forall₂ (fun o e =>
          streamElement (api.outputfunc elemType) (api.sendValue elemType) o = .ok e)
        (input.atPlaces api.item dims) elems := by
  rw [convertAndSend_array] at h
  cases harray : plcPyobjectAsArray input with
  | refused =>
      rw [harray] at h
      cases h
  | overflow =>
      rw [harray] at h
      cases h
  | iterator dims ptrs =>
      obtain ⟨hne, hplaces, -⟩ := fetchAll_of_iterator api.item harray
      rw [harray] at h
      cases hfetched : fetchAll api.item dims ptrs with
      | none =>
          simp only [hfetched] at h
          cases h
      | some fetched =>
          simp only [hfetched, hplaces fetched hfetched, PyApi.sendElements] at h
          obtain ⟨elems, helems, h⟩ := bind_eq_ok.1 h
          cases h
          exact ⟨dims, ptrs, elems, rfl, rfl, rfl, forall₂_of_mapM helems⟩

/-- An element that was sent is null, or the value of an object. -/
theorem element_sent {type : PlcType} {fetched : Option (PyObj α)} {e : RawData × List (ConvError α)}
    (h : streamElement (api.outputfunc type) (api.sendValue type) fetched = .ok e) :
    (fetched.getD .none = .none ∧ e = (none, [])) ∨
      ∃ o v errors, fetched = some o ∧ o ≠ .none ∧ api.convertAndSend type o = .ok (v, errors) ∧
        e = (some v, errors) := by
  by_cases hnull : ∃ o, fetched = some o ∧ o ≠ .none
  · obtain ⟨o, rfl, ho⟩ := hnull
    rw [streamElement_eq type ho] at h
    cases hsent : api.convertAndSend type o with
    | error b =>
        rw [hsent] at h
        cases h
    | ok r =>
        rw [hsent] at h
        cases h
        exact .inr ⟨o, r.1, r.2, rfl, ho, hsent, rfl⟩
  · left
    rcases fetched with _ | (_ | _ | _)
    · cases h
      exact ⟨rfl, rfl⟩
    · cases h
      exact ⟨rfl, rfl⟩
    · exact absurd ⟨_, rfl, by simp⟩ hnull
    · exact absurd ⟨_, rfl, by simp⟩ hnull

variable (api) in
/-- What was sent for a field, when all the errors are `errors`: a null for a key that is missing or for
    `None`, or the value of the object. -/
def PyApi.FieldSent (get : CString → Option (PyObj α)) (errors : List (ConvError α)) (t : PlcType)
    (d : RawData) : Prop :=
  ∃ key, t.typeName = some key ∧
    ((get key = none ∧ d = none ∧ ∃ err, err ∈ errors) ∨ (get key = some .none ∧ d = none) ∨
      ∃ value v errs, get key = some value ∧ value ≠ .none ∧
        api.convertAndSend t value = .ok (v, errs) ∧ d = some v ∧ errs ⊆ errors)

theorem PyApi.FieldSent.mono {get : CString → Option (PyObj α)} {errors errors' : List (ConvError α)}
    {t : PlcType} {d : RawData} (hsub : errors ⊆ errors') (h : api.FieldSent get errors t d) :
    api.FieldSent get errors' t d := by
  obtain ⟨key, hkey, ⟨hget, hd, err, herr⟩ | hnull | ⟨value, v, errs, hget, hvalue, hsent, hd, hsubs⟩⟩ := h
  · exact ⟨key, hkey, .inl ⟨hget, hd, err, hsub herr⟩⟩
  · exact ⟨key, hkey, .inr (.inl hnull)⟩
  · exact ⟨key, hkey, .inr (.inr ⟨value, v, errs, hget, hvalue, hsent, hd, List.Subset.trans hsubs hsub⟩)⟩

theorem sendFields_cons_ok {t : PlcType} {ts : List PlcType} {output : Out α}
    {data : List (Option (Option (Out α)))} {fields : List (RawData × List (ConvError α))}
    (h : api.sendFields (t :: ts) (some (some output) :: data) = .ok fields) :
    ∃ r rest, api.sendValue t output = .ok r ∧ api.sendFields ts data = .ok rest ∧
      fields = (some r.1, r.2) :: rest := by
  rw [PyApi.sendFields] at h
  obtain ⟨r, hr, h⟩ := bind_eq_ok.1 h
  obtain ⟨rest, hrest, h⟩ := bind_eq_ok.1 h
  cases h
  exact ⟨r, rest, hr, hrest, rfl⟩

theorem sendFields_null_ok {t : PlcType} {ts : List PlcType}
    {data : List (Option (Option (Out α)))} {fields : List (RawData × List (ConvError α))}
    (h : api.sendFields (t :: ts) (some none :: data) = .ok fields) :
    ∃ rest, api.sendFields ts data = .ok rest ∧ fields = (none, []) :: rest := by
  rw [PyApi.sendFields] at h
  obtain ⟨rest, hrest, h⟩ := bind_eq_ok.1 h
  cases h
  exact ⟨rest, hrest, rfl⟩

/-- If the fields after a failed one can be sent, there are none. -/
theorem sendFields_unassigned_ok {ts : List PlcType} {rest : List (RawData × List (ConvError α))}
    (h : api.sendFields ts (ts.map fun _ => none) = .ok rest) : ts = [] ∧ rest = [] := by
  obtain rfl := (succeeds_sendFields_unassigned ts).1 ⟨rest, h⟩
  cases h
  exact ⟨rfl, rfl⟩

/-- A field that has a value, and the fields after it. -/
theorem udtField_sent {t : PlcType} {ts : List PlcType} {input : PyObj α}
    {get : CString → Option (PyObj α)} {key : CString} (hkey : t.typeName = some key)
    {value : PyObj α} (hget : get key = some value) (hne : value ≠ .none)
    {r : ConvertedFields α} {fields : List (RawData × List (ConvError α))}
    (hr : api.udtField t ts input get value = .ok r)
    (hfields : api.sendFields (t :: ts) r.data = .ok fields)
    (ih : ∀ r' rest, api.udtFields ts input get = .ok r' → api.sendFields ts r'.data = .ok rest →
      List.Forall₂ (api.FieldSent get (r'.errors ++ rest.flatMap Prod.snd)) ts (rest.map Prod.fst)) :
    List.Forall₂ (api.FieldSent get (r.errors ++ fields.flatMap Prod.snd)) (t :: ts)
      (fields.map Prod.fst) := by
  obtain ⟨c, hc, hr⟩ := bind_eq_ok.1 hr
  have hsent (s : Value × List (ConvError α)) (hs : api.sendValue t c.output = .ok s) :
      api.convertAndSend t value = .ok (s.1, c.errors ++ s.2) := by
    rw [PyApi.convertAndSend, hc]
    show api.sendValue t c.output >>= _ = _
    rw [hs]
    rfl
  split at hr
  · cases hrest : api.udtFields ts input get with
    | error b =>
        rw [hrest] at hr
        cases hr
    | ok r' =>
        rw [hrest] at hr
        cases hr
        obtain ⟨s, rest, hs, hrest', rfl⟩ := sendFields_cons_ok hfields
        refine .cons ⟨key, hkey, .inr (.inr ⟨value, s.1, c.errors ++ s.2, hget, hne, hsent s hs, rfl, ?_⟩)⟩
          ((ih r' rest hrest hrest').imp fun t d hd => hd.mono ?_)
        all_goals
          intro err herr
          simp only [ConvertedFields.cons, List.flatMap_cons, List.mem_append] at herr ⊢
          tauto
  · -- the field fails, so there are no others
    cases hr
    obtain ⟨s, rest, hs, hrest, rfl⟩ := sendFields_cons_ok hfields
    obtain ⟨rfl, rfl⟩ := sendFields_unassigned_ok hrest
    refine .cons ⟨key, hkey, .inr (.inr ⟨value, s.1, c.errors ++ s.2, hget, hne, hsent s hs, rfl, ?_⟩)⟩ .nil
    simp [ConvertedFields.failed]

/-- The fields that were sent. -/
theorem fields_sent {ts : List PlcType} {input : PyObj α} {get : CString → Option (PyObj α)}
    {r : ConvertedFields α} {fields : List (RawData × List (ConvError α))}
    (hr : api.udtFields ts input get = .ok r) (hfields : api.sendFields ts r.data = .ok fields) :
    List.Forall₂ (api.FieldSent get (r.errors ++ fields.flatMap Prod.snd)) ts
      (fields.map Prod.fst) := by
  induction ts generalizing r fields with
  | nil =>
      rw [PyApi.sendFields] at hfields
      cases hfields
      exact .nil
  | cons t ts ih =>
      cases hkey : t.typeName with
      | none =>
          rw [PyApi.udtFields, hkey] at hr
          cases hr
      | some key =>
          rw [udtFields_cons t ts input get hkey] at hr
          rcases hget : get key with _ | (_ | _ | _)
          · simp only [hget] at hr
            cases hr
            obtain ⟨rest, hrest, rfl⟩ := sendFields_null_ok hfields
            obtain ⟨rfl, rfl⟩ := sendFields_unassigned_ok hrest
            exact .cons ⟨key, hkey, .inl ⟨hget, rfl, _, List.mem_append_left _
              (List.mem_singleton_self _)⟩⟩ .nil
          · simp only [hget] at hr
            cases hrest : api.udtFields ts input get with
            | error b =>
                rw [hrest] at hr
                cases hr
            | ok r' =>
                rw [hrest] at hr
                cases hr
                obtain ⟨rest, hrest', rfl⟩ := sendFields_null_ok hfields
                exact .cons ⟨key, hkey, .inr (.inl ⟨hget, rfl⟩)⟩ (ih hrest hrest')
          · simp only [hget] at hr
            exact udtField_sent hkey hget (by simp) hr hfields fun _ _ => ih
          · simp only [hget] at hr
            exact udtField_sent hkey hget (by simp) hr hfields fun _ _ => ih

/-- A composite value that was sent. -/
theorem udt_sent {typeName : Option CString} {n : BitVec 16} {subTypes : List PlcType}
    {input : PyObj α} {v : Value} {errors : List (ConvError α)}
    (h : api.convertAndSend (.mk .udt typeName n subTypes) input = .ok (v, errors)) :
    ∃ get data, api.dict? input = some get ∧ v = .udt data ∧
      List.Forall₂ (api.FieldSent get errors) subTypes data := by
  rw [convertAndSend_udt] at h
  cases hdict : api.dict? input with
  | none =>
      rw [hdict] at h
      cases h
  | some get =>
      simp only [hdict] at h
      obtain ⟨r, hr, h⟩ := bind_eq_ok.1 h
      obtain ⟨fields, hfields, h⟩ := bind_eq_ok.1 h
      cases h
      exact ⟨get, _, rfl, rfl, fields_sent hr hfields⟩

end

end PlContainer
