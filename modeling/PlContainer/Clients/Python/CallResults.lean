import PlContainer.Clients.Python.StreamedReply
import PlContainer.Clients.Python.Terminal

set_option autoImplicit false

/-! # The rows that the Python client sends

`process_call_results` makes one row of the value of a function, or one of each object that the value of
a set-returning function gives: those of a sequence by their index, all others from an iterator until
`PyIter_Next` returns `NULL`. All rows are converted before the RESULT is sent; what is streamed, such as
the elements of arrays, is converted while it is. -/

namespace PlContainer

open Odometer Format Checked

/-! ## Errors -/

/-- `plc_get_type_name` -/
def plcGetTypeName : PlcDatatype → String
  | .int1 => "PLC_DATA_INT1"
  | .int2 => "PLC_DATA_INT2"
  | .int4 => "PLC_DATA_INT4"
  | .int8 => "PLC_DATA_INT8"
  | .float4 => "PLC_DATA_FLOAT4"
  | .float8 => "PLC_DATA_FLOAT8"
  | .text => "PLC_DATA_TEXT"
  | .array => "PLC_DATA_ARRAY"
  | .udt => "PLC_DATA_UDT"
  | .bytea => "PLC_DATA_BYTEA"
  | .invalid => "PLC_DATA_INVALID"
  | .unknown _ => "UNKNOWN"

/-- What `process_call_results` and `fill_rawdata` report themselves. -/
inductive CallFormat where
  | noIterator
  | iteratorData
  | notSupported (type : PlcDatatype)
  | converting (type : PlcDatatype)

def CallFormat.parts : CallFormat → List Part
  | .noIterator => [.lit "Cannot get iterator out of the returned object"]
  | .iteratorData => [.lit "Error receiving result data from Python iterator"]
  | .notSupported _ => [.lit "Type ", .arg "%d", .lit " is not yet supported by Python container"]
  | .converting _ =>
      [.lit "Exception raised converting function output to type ", .arg "%s", .lit " [", .arg "%d",
        .lit "]"]

def CallFormat.args : CallFormat → List CString
  | .noIterator => []
  | .iteratorData => []
  | .notSupported type => [Json.utf8 (decimal type.code.toNat)]
  | .converting type =>
      [Json.utf8 (plcGetTypeName type).toList, Json.utf8 (decimal type.code.toNat)]

/-- The exception that is made of it; `stack` is what `get_python_error` returns. -/
def CallFormat.exception (format : CallFormat) (stack : Option CString) : PlcMsgError :=
  ⟨some (errorMessage format.parts format.args), stack⟩

/-- Why there is no RESULT. -/
inductive CallFailure where
  /-- the client sends something else, or crashes -/
  | broken (b : Broken)
  /-- these errors were reported -/
  | reported (errors : List PlcMsgError)

/-! ## What a function returns -/

section

variable {α : Type}

/-- How an iteration goes: the objects that `PyIter_Next` returns until it returns `NULL`, and why it
    does. An iterator that never ends keeps the client in its loop. -/
inductive Iteration (α : Type) where
  | stop
  | raise
  | next (o : PyObj α) (rest : Iteration α)

/-- The objects that the iterator produces. -/
def Iteration.items : Iteration α → List (PyObj α)
  | .stop => []
  | .raise => []
  | .next o rest => o :: rest.items

/-- The iterator ends normally. -/
def Iteration.ended : Iteration α → Bool
  | .stop => true
  | .raise => false
  | .next _ rest => rest.ended

/-- The loop that collects the objects; `append` says whether `PyList_Append` succeeds after `len`
    objects. -/
def Iteration.collect (append : ℕ → Bool) (len : ℕ) : Iteration α → Option (List (PyObj α))
  | .stop => some []
  -- `PyErr_Occurred` is not called, so this `NULL` is taken for the end
  | .raise => some []
  | .next o rest => if append len then (o :: ·) <$> rest.collect append (len + 1) else none

/-- What a function returned, as `process_call_results` looks at it. -/
structure Retval (α : Type) where
  object : PyObj α
  /-- `PySequence_Check`; then `PySequence_Length`, which may raise, and `PySequence_GetItem` -/
  sequence : Option (Option ℕ × (ℕ → Option (PyObj α)))
  /-- `PyObject_GetIter`, which may raise, and what the iterator does -/
  iteration : Option (Iteration α)
  /-- there is memory for one object more in the list of those that were collected -/
  append : ℕ → Bool
  /-- `get_python_error` for what is reported of the value as a whole -/
  stack : Option CString

/-- The objects of the first `len` rows, where `len` is an `int`. They are `NULL` where
    `PySequence_GetItem` raises. -/
def rowObjects (len : BitVec 32) (item : ℕ → Option (PyObj α)) :
    Except CallFailure (List (Option (PyObj α))) :=
  -- no row is filled then, but the RESULT has more than 2^31 of them
  if len.toInt < 0 then throw (.broken .nullPointer)
  else pure ((List.range len.toInt.toNat).map item)

/-- The objects that the rows of a set are made of. -/
def Retval.objects (retval : Retval α) : Except CallFailure (List (Option (PyObj α))) :=
  match retval.sequence with
  | some (some n, item) => rowObjects (BitVec.ofNat 32 n) item
  | some (none, item) => rowObjects (-1) item
  | none =>
      match retval.iteration with
      | none => throw (.reported [CallFormat.noIterator.exception retval.stack])
      | some it =>
          match it.collect retval.append 0 with
          | none => throw (.reported [CallFormat.iteratorData.exception retval.stack])
          | some list => rowObjects (BitVec.ofNat 32 list.length) (list[·]?)

/-! ## Rows -/

variable (api : PyApi α)

/-- While no RESULT is being sent, code of the objects may send messages. -/
def PyApi.beforeSending : PyApi α := { api with sends := fun _ => false }

/-- The output function of a type, for `NULL`. It looks at the type of the object, except that in
    Python 2 `PySequence_Check` accepts `NULL`, and so does `PyObject_Str`. -/
def PyApi.outputfuncNull (type : PlcDatatype) (stack : Option CString) :
    Except CallFailure (Option (Out α)) :=
  match api.python3, type with
  | false, .array => throw (.reported [⟨some (errorMessage ConvFormat.nonSequence.parts []), stack⟩,
      (CallFormat.converting .array).exception none])
  | false, .bytea =>
      let bytes := Json.utf8 "<NULL>".toList
      pure (some (.flat (.bytea ⟨BitVec.ofNat 32 bytes.length, bytes⟩)))
  | _, _ => throw (.broken .nullPointer)

/-- The end of `fill_rawdata`. -/
def PyApi.filled (type : PlcDatatype) (stack : Option CString) (c : Converted α) :
    Except CallFailure (Option (Out α)) :=
  if c.ok then pure (some c.output)
  else throw (.reported
    (c.errors.map api.exception ++ [(CallFormat.converting type).exception stack]))

/-- `fill_rawdata` -/
def PyApi.fillRawdata (type : PlcType) (stack : Option CString) :
    Option (PyObj α) → Except CallFailure (Option (Out α))
  | some .none => pure none
  | o =>
      if type.type.hasOutput then
        match o with
        | none => api.outputfuncNull type.type stack
        | some o =>
            match api.beforeSending.outputfunc type o with
            | .error b => throw (.broken b)
            | .ok c => api.filled type.type stack c
      else throw (.reported [(CallFormat.notSupported type.type).exception stack])

/-- A row, as `send_result` sends it, and the errors that are reported meanwhile. -/
def PyApi.sendRow (type : PlcType) :
    Option (Out α) → Except CallFailure (RawData × List (ConvError α))
  | none => pure (none, [])
  | some output =>
      match api.sendValue type output with
      | .error b => throw (.broken b)
      | .ok r => pure (some r.1, r.2)

/-- The rows that are sent. -/
def PyApi.callRows (retset : Bool) (type : PlcType) (retval : Retval α) :
    Except CallFailure (List (RawData × List (ConvError α))) := do
  let objs ← if retset then retval.objects else pure [some retval.object]
  let rows ← objs.mapM (api.fillRawdata type retval.stack)
  rows.mapM (api.sendRow type)

/-- One `raise_execution_error` after the other. -/
def PyState.raiseAll (s : PyState) (errors : List PlcMsgError) : PyState :=
  errors.foldl (fun s _ => s.raiseExecutionError) s

/-- `process_call_results`: the RESULT, if one is sent, and the client after that. The client is given as
    it is when the rows have been looked at: code of the returned objects may have sent messages by
    then. -/
def PyApi.processCallResults (s : PyState) (retset : Bool) (type : PlcType) (retval : Retval α) :
    Except Broken (Option PlcMsgResult × PyState) :=
  match api.callRows retset type retval with
  | .error (.broken b) => throw b
  | .error (.reported errors) => pure (none, s.raiseAll errors)
  | .ok rows =>
      let errors := rows.flatMap Prod.snd
      -- once the flag is set, an error is not parked
      let parked := if s.terminated then [] else errors
      pure (some (api.rowsMessage type (rows.map Prod.fst) parked),
        PyResult.process s (.sends (errors.map fun _ => .report [])))

variable {api}

/-! ## Conversions report an error or succeed -/

theorem errors_of_asNumber {type : PlcDatatype} {v : Option Value} {input : PyObj α}
    (hok : (asNumber type v input).ok = true) : (asNumber type v input).errors = [] := by
  cases v with
  | none => cases hok
  | some v => rfl

theorem errors_of_byteaOutput {format : ConvFormat} {bytes : Option (List UInt8)} {input : PyObj α}
    (hok : (byteaOutput format input bytes).ok = true) :
    (byteaOutput format input bytes).errors = [] := by
  cases bytes with
  | none => cases hok
  | some bytes => rfl

theorem errors_of_udtFields {ts : List PlcType}
    (ih : ∀ t ∈ ts, ∀ {o : PyObj α} {c : Converted α},
      api.outputfunc t o = .ok c → c.ok = true → c.errors = [])
    {input : PyObj α} {get : CString → Option (PyObj α)} {r : ConvertedFields α}
    (h : api.udtFields ts input get = .ok r) (hok : r.ok = true) : r.errors = [] := by
  induction ts generalizing r with
  | nil =>
      rw [PyApi.udtFields] at h
      cases h
      rfl
  | cons t ts ihts =>
      rw [List.forall_mem_cons] at ih
      have hvalue {value : PyObj α} (h : api.udtField t ts input get value = .ok r) : r.errors = [] := by
        obtain ⟨c, hc, h⟩ := bind_eq_ok.1 h
        split at h
        next hcok =>
          obtain ⟨rest, hrest, rfl⟩ := map_eq_ok.1 h
          rw [ConvertedFields.cons, ih.1 hc hcok, ihts ih.2 hrest hok]
          rfl
        next =>
          cases h
          cases hok
      cases hkey : t.typeName with
      | none =>
          rw [PyApi.udtFields, hkey] at h
          cases h
      | some key =>
          rw [udtFields_cons t ts input get hkey] at h
          rcases hget : get key with _ | (_ | _ | _)
          · simp only [hget] at h
            cases h
            cases hok
          · simp only [hget] at h
            obtain ⟨rest, hrest, rfl⟩ := map_eq_ok.1 h
            have hnone : rest.errors = [] := ihts ih.2 hrest hok
            exact hnone
          · simp only [hget] at h
            exact hvalue h
          · simp only [hget] at h
            exact hvalue h

/-- A conversion that succeeds has reported no error. -/
theorem errors_of_ok {type : PlcType} {input : PyObj α} {c : Converted α}
    (h : api.outputfunc type input = .ok c) (hok : c.ok = true) : c.errors = [] := by
  induction type using PlcType.induct generalizing input c with
  | mk type typeName nSubTypes subTypes ih =>
      cases type with
      | int1 | int2 | int4 | int8 | float4 | float8 =>
          rw [PyApi.outputfunc] at h
          cases h
          exact errors_of_asNumber hok
      | text =>
          rw [PyApi.outputfunc] at h
          obtain ⟨bytes, -, h⟩ := bind_eq_ok.1 h
          cases bytes with
          | none =>
              cases h
              cases hok
          | some bytes =>
              cases h
              rfl
      | bytea =>
          rw [PyApi.outputfunc, PyApi.plcPyobjectAsBytea] at h
          split at h
          · cases h
            exact errors_of_byteaOutput hok
          · split at h
            · cases h
            · cases h
              exact errors_of_byteaOutput hok
      | array =>
          rw [PyApi.outputfunc] at h
          unfold plcPyobjectAsArrayOutput at h
          split at h
          · cases h
            rfl
          · cases h
          · split at h
            · cases h
              cases hok
            · cases h
              cases hok
      | udt =>
          rw [PyApi.outputfunc] at h
          cases hdict : api.dict? input with
          | none =>
              rw [hdict] at h
              cases h
              cases hok
          | some get =>
              simp only [hdict] at h
              obtain ⟨r, hr, h⟩ := bind_eq_ok.1 h
              cases h
              exact errors_of_udtFields (fun t ht _ _ => ih t ht) hr hok
      | invalid | unknown code =>
          rw [PyApi.outputfunc] at h
          cases h

/-! ## Code that sends messages -/

theorem plrvBo_beforeSending (input : PyObj α) :
    Extends (api.plrvBo input) (api.beforeSending.plrvBo input) := by
  have hunicode : api.beforeSending.unicode? input = api.unicode? input := rfl
  unfold PyApi.plrvBo
  rw [hunicode]
  cases api.unicode? input with
  | some s => exact .refl _
  | none =>
      cases hsends : api.sends input with
      | true => exact extends_throw _ _
      | false => exact .refl _

theorem plcPyobjectAsBytea_beforeSending (input : PyObj α) :
    Extends (api.plcPyobjectAsBytea input) (api.beforeSending.plcPyobjectAsBytea input) := by
  have hunicode : (if api.beforeSending.python3 then api.beforeSending.unicode? input else none)
      = if api.python3 then api.unicode? input else none := rfl
  unfold PyApi.plcPyobjectAsBytea
  rw [hunicode]
  cases if api.python3 then api.unicode? input else none with
  | some s => exact .refl _
  | none =>
      cases hsends : api.sends input with
      | true => exact extends_throw _ _
      | false => exact .refl _

theorem udtFields_beforeSending {ts : List PlcType}
    (ih : ∀ t ∈ ts, ∀ o, Extends (api.outputfunc t o) (api.beforeSending.outputfunc t o))
    (input : PyObj α) (get : CString → Option (PyObj α)) :
    Extends (api.udtFields ts input get) (api.beforeSending.udtFields ts input get) := by
  induction ts with
  | nil =>
      rw [PyApi.udtFields, PyApi.udtFields]
      exact .refl _
  | cons t ts ihts =>
      rw [List.forall_mem_cons] at ih
      have hrest := ihts ih.2
      have hvalue (value : PyObj α) : Extends (api.udtField t ts input get value)
          (api.beforeSending.udtField t ts input get value) := by
        refine (ih.1 value).bind fun c => ?_
        split
        · exact hrest.map _
        · exact .refl _
      cases hkey : t.typeName with
      | none =>
          rw [PyApi.udtFields, hkey]
          exact extends_throw _ _
      | some key =>
          rw [udtFields_cons t ts input get hkey, udtFields_cons t ts input get hkey]
          rcases get key with _ | (_ | _ | _)
          · exact .refl _
          · exact hrest.map _
          · exact hvalue _
          · exact hvalue _

/-- A conversion that succeeds although code that sends messages is refused, succeeds. -/
theorem outputfunc_beforeSending (type : PlcType) (input : PyObj α) :
    Extends (api.outputfunc type input) (api.beforeSending.outputfunc type input) := by
  induction type using PlcType.induct generalizing input with
  | mk type typeName nSubTypes subTypes ih =>
      cases type with
      | text =>
          rw [PyApi.outputfunc, PyApi.outputfunc]
          exact (plrvBo_beforeSending input).bind fun bytes => .refl _
      | bytea =>
          rw [PyApi.outputfunc, PyApi.outputfunc]
          exact plcPyobjectAsBytea_beforeSending input
      | udt =>
          have hdict : api.beforeSending.dict? input = api.dict? input := rfl
          rw [PyApi.outputfunc, PyApi.outputfunc, hdict]
          cases api.dict? input with
          | none => exact .refl _
          | some get =>
              exact (udtFields_beforeSending ih input get).bind fun r => .refl _
      | _ =>
          rw [PyApi.outputfunc, PyApi.outputfunc]
          exact .refl _

theorem sendFields_beforeSending {ts : List PlcType}
    (ih : ∀ t ∈ ts, ∀ out, Extends (api.sendValue t out) (api.beforeSending.sendValue t out))
    (data : List (Option (Option (Out α)))) :
    Extends (api.sendFields ts data) (api.beforeSending.sendFields ts data) := by
  induction ts generalizing data with
  | nil =>
      rw [PyApi.sendFields, PyApi.sendFields]
      exact .refl _
  | cons t ts ihts =>
      rw [List.forall_mem_cons] at ih
      rcases data with _ | ⟨_ | _ | out, data⟩
      · rw [PyApi.sendFields]
        · exact extends_throw _ _
        all_goals simp
      · rw [PyApi.sendFields]
        · exact extends_throw _ _
        all_goals simp
      · rw [PyApi.sendFields, PyApi.sendFields]
        exact (ihts ih.2 data).bind fun _ => .refl _
      · rw [PyApi.sendFields, PyApi.sendFields]
        exact (ih.1 out).bind fun _ => (ihts ih.2 data).bind fun _ => .refl _

theorem sendValue_beforeSending (type : PlcType) (output : Out α) :
    Extends (api.sendValue type output) (api.beforeSending.sendValue type output) := by
  induction type using PlcType.induct generalizing output with
  | mk type typeName nSubTypes subTypes ih =>
      cases type with
      | array =>
          cases output with
          | iterator dims ptrs =>
              cases subTypes with
              | nil =>
                  rw [PyApi.sendValue]
                  exact extends_throw _ _
              | cons elemType rest =>
                  have hitem : fetchAll api.beforeSending.item dims ptrs = fetchAll api.item dims ptrs :=
                    rfl
                  rw [PyApi.sendValue, PyApi.sendValue, hitem]
                  cases fetchAll api.item dims ptrs with
                  | none => exact extends_throw _ _
                  | some fetched =>
                      have helem := ih elemType (List.mem_cons_self ..)
                      refine Extends.bind (.mapM fun o _ => ?_) fun _ => .refl _
                      rcases o with _ | (_ | _ | _)
                      · exact .refl _
                      · exact .refl _
                      all_goals
                        exact (outputfunc_beforeSending elemType _).bind fun c =>
                          (helem c.output).bind fun _ => .refl _
          | _ =>
              unfold PyApi.sendValue
              exact .refl _
      | udt =>
          cases output with
          | udt data =>
              rw [PyApi.sendValue, PyApi.sendValue]
              exact (sendFields_beforeSending ih data).bind fun _ => .refl _
          | _ =>
              unfold PyApi.sendValue
              exact .refl _
      | _ =>
          unfold PyApi.sendValue
          cases output <;> exact .refl _

/-! ## What becomes of an object -/

variable (api) in
/-- The conversion of the object succeeds before anything is sent. In Python 2 that of `NULL` to bytea
    does. -/
def PyApi.RowConverts (type : PlcType) : Option (PyObj α) → Prop
  | some .none => True
  | some o => api.beforeSending.Converts type o
  | none => api.python3 = false ∧ type.type = .bytea

variable (api) in
/-- The conversion of the object fails before anything is sent, and an error is reported. -/
def PyApi.RowRefused (type : PlcType) : Option (PyObj α) → Prop
  | some .none => False
  | some o => ∃ c, api.beforeSending.outputfunc type o = .ok c ∧ c.ok = false
  | none => api.python3 = false ∧ type.type = .array

variable (api) in
/-- The row that the object is converted to, and the errors that are found while it is sent. -/
def PyApi.RowOf (type : PlcType) (r : RawData × List (ConvError α)) : PyObj α → Prop
  | .none => r = (none, [])
  | o => ∃ c v, api.beforeSending.outputfunc type o = .ok c ∧ c.ok = true ∧ c.errors = [] ∧
      api.sendValue type c.output = .ok (v, r.2) ∧ r.1 = some v

variable (api) in
/-- The row that is made of the object, or of `NULL`. -/
def PyApi.RowSent (type : PlcType) (o : Option (PyObj α)) (r : RawData × List (ConvError α)) : Prop :=
  match o with
  | some o => api.RowOf type r o
  | none => api.python3 = false ∧ type.type = .bytea ∧
      r = (some (.bytea ⟨6, Json.utf8 "<NULL>".toList⟩), [])

variable (api) in
theorem outputfuncNull_cases (type : PlcDatatype) (stack : Option CString) :
    (api.python3 = false ∧ type = .array ∧ ∃ errors, errors ≠ [] ∧
        api.outputfuncNull type stack = .error (.reported errors)) ∨
      (api.python3 = false ∧ type = .bytea ∧ api.outputfuncNull type stack
        = .ok (some (.flat (.bytea ⟨6, Json.utf8 "<NULL>".toList⟩)))) ∨
      (¬ (api.python3 = false ∧ (type = .array ∨ type = .bytea)) ∧
        api.outputfuncNull type stack = .error (.broken .nullPointer)) := by
  unfold PyApi.outputfuncNull
  cases api.python3 with
  | true => exact .inr (.inr ⟨by simp, rfl⟩)
  | false =>
      cases type with
      | array => exact .inl ⟨rfl, rfl, _, by simp, rfl⟩
      | bytea =>
          have hlength : BitVec.ofNat 32 (Json.utf8 "<NULL>".toList).length = 6 := by decide
          refine .inr (.inl ⟨rfl, rfl, ?_⟩)
          simp only [hlength]
          rfl
      | _ => exact .inr (.inr ⟨by simp, rfl⟩)

theorem fillRawdata_value {type : PlcType} (hout : type.type.hasOutput = true) (stack : Option CString)
    {o : PyObj α} (ho : o ≠ .none) :
    api.fillRawdata type stack (some o)
      = match api.beforeSending.outputfunc type o with
        | .error b => throw (.broken b)
        | .ok c => api.filled type.type stack c := by
  cases o with
  | none => exact absurd rfl ho
  | _ =>
      rw [PyApi.fillRawdata, if_pos hout]
      simp

theorem fillRawdata_null {type : PlcType} (hout : type.type.hasOutput = true) (stack : Option CString) :
    api.fillRawdata type stack none = api.outputfuncNull type.type stack := by
  rw [PyApi.fillRawdata, if_pos hout]

theorem rowConverts_value (type : PlcType) {o : PyObj α} (ho : o ≠ .none) :
    api.RowConverts type (some o) ↔ ∃ c, api.beforeSending.outputfunc type o = .ok c ∧ c.ok = true := by
  cases o with
  | none => exact absurd rfl ho
  | _ => exact Iff.rfl

theorem rowRefused_value (type : PlcType) {o : PyObj α} (ho : o ≠ .none) :
    api.RowRefused type (some o) ↔ ∃ c, api.beforeSending.outputfunc type o = .ok c ∧ c.ok = false := by
  cases o with
  | none => exact absurd rfl ho
  | _ => exact Iff.rfl

theorem rowOf_value (type : PlcType) (r : RawData × List (ConvError α)) {o : PyObj α} (ho : o ≠ .none) :
    api.RowOf type r o ↔ ∃ c v, api.beforeSending.outputfunc type o = .ok c ∧ c.ok = true ∧
      c.errors = [] ∧ api.sendValue type c.output = .ok (v, r.2) ∧ r.1 = some v := by
  cases o with
  | none => exact absurd rfl ho
  | _ => exact Iff.rfl

theorem sendRow_eq_ok {type : PlcType} {output : Out α} {r : RawData × List (ConvError α)} :
    api.sendRow type (some output) = .ok r
      ↔ ∃ v, api.sendValue type output = .ok (v, r.2) ∧ r.1 = some v := by
  rw [PyApi.sendRow]
  cases api.sendValue type output with
  | error b => exact iff_of_false (fun h => nomatch h) (by simp)
  | ok x =>
      obtain ⟨v, errors⟩ := x
      obtain ⟨d, errors'⟩ := r
      simp only [pure_eq_ok, Prod.mk.injEq, Except.ok.injEq]
      constructor
      · rintro ⟨rfl, rfl⟩
        exact ⟨v, ⟨rfl, rfl⟩, rfl⟩
      · rintro ⟨_, ⟨rfl, rfl⟩, rfl⟩
        exact ⟨rfl, rfl⟩

/-- An error is reported only where the conversion does not succeed. -/
theorem not_rowConverts_of_refused {type : PlcType} {o : Option (PyObj α)} (h : api.RowRefused type o) :
    ¬ api.RowConverts type o := by
  cases o with
  | none =>
      rintro ⟨-, htype⟩
      cases h.2.symm.trans htype
  | some o =>
      by_cases ho : o = .none
      · subst ho
        exact h.elim
      · rw [rowRefused_value type ho] at h
        rw [rowConverts_value type ho]
        obtain ⟨c, hc, hok⟩ := h
        rintro ⟨c', hc', hok'⟩
        cases hc.symm.trans hc'
        cases hok.symm.trans hok'

theorem rowConverts_of_sent {type : PlcType} {o : Option (PyObj α)}
    {r : RawData × List (ConvError α)} (h : api.RowSent type o r) : api.RowConverts type o := by
  cases o with
  | none => exact ⟨h.1, h.2.1⟩
  | some o =>
      by_cases ho : o = .none
      · subst ho
        trivial
      · obtain ⟨c, v, hc, hok, -⟩ := (rowOf_value type r ho).1 h
        exact (rowConverts_value type ho).2 ⟨c, hc, hok⟩

/-- **What becomes of an object**, or of `NULL`: a row, an error that is reported, or neither. -/
theorem fillRawdata_cases {type : PlcType} (hout : type.type.hasOutput = true) (stack : Option CString)
    (o : Option (PyObj α)) :
    (api.RowConverts type o ∧ ∃ f, api.fillRawdata type stack o = .ok f ∧
        ∀ r, api.sendRow type f = .ok r ↔ api.RowSent type o r) ∨
      (api.RowRefused type o ∧ ∃ errors, errors ≠ [] ∧
        api.fillRawdata type stack o = .error (.reported errors)) ∨
      (¬ api.RowConverts type o ∧ ¬ api.RowRefused type o ∧ ∃ b,
        api.fillRawdata type stack o = .error (.broken b)) := by
  cases o with
  | none =>
      rw [fillRawdata_null hout]
      rcases outputfuncNull_cases api type.type stack with
        ⟨hpython, htype, herrors⟩ | ⟨hpython, htype, h⟩ | ⟨hnot, h⟩
      · exact .inr (.inl ⟨⟨hpython, htype⟩, herrors⟩)
      · refine .inl ⟨⟨hpython, htype⟩, _, h, fun r => ?_⟩
        obtain ⟨type, typeName, n, subTypes⟩ := type
        have hrow : api.RowSent (.mk type typeName n subTypes) none r
            ↔ r = (some (.bytea ⟨6, Json.utf8 "<NULL>".toList⟩), []) :=
          ⟨fun h => h.2.2, fun h => ⟨hpython, htype, h⟩⟩
        rw [hrow, PyApi.sendRow, sendValue_flat]
        exact pure_eq_ok.trans eq_comm
      · exact .inr (.inr ⟨fun hc => hnot ⟨hc.1, .inr hc.2⟩, fun hr => hnot ⟨hr.1, .inl hr.2⟩, _, h⟩)
  | some o =>
      by_cases ho : o = .none
      · subst ho
        refine .inl ⟨trivial, none, rfl, fun r => ?_⟩
        exact pure_eq_ok.trans eq_comm
      · rw [rowConverts_value type ho, rowRefused_value type ho, fillRawdata_value hout stack ho]
        cases hc : api.beforeSending.outputfunc type o with
        | error b => exact .inr (.inr ⟨by simp, by simp, b, rfl⟩)
        | ok c =>
            simp only [PyApi.filled]
            cases hok : c.ok with
            | true =>
                refine .inl ⟨⟨c, rfl, hok⟩, _, rfl, fun r => ?_⟩
                show _ ↔ api.RowOf type r o
                rw [sendRow_eq_ok, rowOf_value type r ho, hc]
                constructor
                · rintro ⟨v, hv, hr⟩
                  exact ⟨c, v, rfl, hok, errors_of_ok hc hok, hv, hr⟩
                · rintro ⟨_, v, ⟨⟩, -, -, hv, hr⟩
                  exact ⟨v, hv, hr⟩
            | false =>
                exact .inr (.inl ⟨⟨c, rfl, hok⟩, _, by simp, rfl⟩)

theorem succeeds_fillRawdata {type : PlcType} (hout : type.type.hasOutput = true)
    (stack : Option CString) (o : Option (PyObj α)) :
    Succeeds (api.fillRawdata type stack o) ↔ api.RowConverts type o := by
  rcases fillRawdata_cases hout stack o with ⟨hconv, f, h, -⟩ | ⟨href, errors, -, h⟩ | ⟨hconv, -, b, h⟩
  · exact iff_of_true ⟨f, h⟩ hconv
  · rw [h]
    exact iff_of_false (not_succeeds_throw _) (not_rowConverts_of_refused href)
  · rw [h]
    exact iff_of_false (not_succeeds_throw _) hconv

theorem fillRawdata_reported {type : PlcType} (hout : type.type.hasOutput = true)
    (stack : Option CString) (o : Option (PyObj α)) :
    (∃ errors, api.fillRawdata type stack o = .error (.reported errors)) ↔ api.RowRefused type o := by
  rcases fillRawdata_cases hout stack o with ⟨hconv, f, h, -⟩ | ⟨href, errors, -, h⟩ | ⟨-, href, b, h⟩
  · rw [h]
    exact iff_of_false (by simp) fun href => not_rowConverts_of_refused href hconv
  · exact iff_of_true ⟨errors, h⟩ href
  · rw [h]
    exact iff_of_false (by simp) href

theorem fillRawdata_errors {type : PlcType} (hout : type.type.hasOutput = true)
    {stack : Option CString} {o : Option (PyObj α)} {errors : List PlcMsgError}
    (h : api.fillRawdata type stack o = .error (.reported errors)) : errors ≠ [] := by
  rcases fillRawdata_cases hout stack o with ⟨-, f, h', -⟩ | ⟨-, errors', hne, h'⟩ | ⟨-, -, b, h'⟩
  · cases h.symm.trans h'
  · cases h.symm.trans h'
    exact hne
  · cases h.symm.trans h'

/-- A row that is filled and sent. -/
theorem rowSent_iff {type : PlcType} (hout : type.type.hasOutput = true) (stack : Option CString)
    (o : Option (PyObj α)) (r : RawData × List (ConvError α)) :
    (∃ f, api.fillRawdata type stack o = .ok f ∧ api.sendRow type f = .ok r)
      ↔ api.RowSent type o r := by
  rcases fillRawdata_cases hout stack o with ⟨-, f, h, hsent⟩ | ⟨href, errors, -, h⟩ | ⟨hconv, -, b, h⟩
  · rw [h, ← hsent r]
    exact ⟨by rintro ⟨_, ⟨⟩, hr⟩; exact hr, fun hr => ⟨f, rfl, hr⟩⟩
  · rw [h]
    exact iff_of_false (by simp) fun hr => not_rowConverts_of_refused href (rowConverts_of_sent hr)
  · rw [h]
    exact iff_of_false (by simp) fun hr => hconv (rowConverts_of_sent hr)

/-! ## All rows -/

/-- The rows are made of the items of some sequence, unless an error is reported. -/
theorem objects_cases (retval : Retval α) :
    (∃ err, retval.objects = .error (.reported [err])) ∨
      ∃ len item, retval.objects = rowObjects len item := by
  unfold Retval.objects
  split
  · exact .inr ⟨_, _, rfl⟩
  · exact .inr ⟨_, _, rfl⟩
  · split
    · exact .inl ⟨_, rfl⟩
    · split
      · exact .inl ⟨_, rfl⟩
      · exact .inr ⟨_, _, rfl⟩

theorem objects_errors {retval : Retval α} {errors : List PlcMsgError}
    (h : retval.objects = .error (.reported errors)) : errors ≠ [] := by
  rcases objects_cases retval with ⟨err, h'⟩ | ⟨len, item, h'⟩
  · cases h.symm.trans h'
    simp
  · rw [h', rowObjects] at h
    split at h <;> cases h

/-- The rows are not more than an `int` counts. -/
theorem length_objects {retval : Retval α} {objs : List (Option (PyObj α))}
    (h : retval.objects = .ok objs) : objs.length < 2 ^ 31 := by
  rcases objects_cases retval with ⟨err, h'⟩ | ⟨len, item, h'⟩
  · cases h.symm.trans h'
  · rw [h', rowObjects] at h
    split at h
    · cases h
    · cases h
      have hlt := BitVec.toInt_lt (x := len)
      rw [List.length_map, List.length_range]
      omega

variable (api) in
/-- An error is reported before anything is sent: of the value as a whole, or of the first of its
    objects that is not converted. -/
def PyApi.SetRefused (type : PlcType) (retval : Retval α) : Prop :=
  (∃ errors, retval.objects = .error (.reported errors)) ∨
    ∃ before o after, retval.objects = .ok (before ++ o :: after) ∧
      (∀ b ∈ before, api.RowConverts type b) ∧ api.RowRefused type o

/-- Nothing is reported, but parked, while the rows are sent. -/
theorem sendRow_ne_reported (type : PlcType) (f : Option (Out α)) (errors : List PlcMsgError) :
    api.sendRow type f ≠ .error (.reported errors) := by
  cases f with
  | none => exact fun h => nomatch h
  | some output =>
      rw [PyApi.sendRow]
      cases api.sendValue type output with
      | error b => exact fun h => nomatch h
      | ok r => exact fun h => nomatch h

/-- An error is reported by the value or while the rows are filled. -/
theorem callRows_reported_iff {type : PlcType} {retval : Retval α} {errors : List PlcMsgError} :
    api.callRows true type retval = .error (.reported errors)
      ↔ retval.objects = .error (.reported errors) ∨ ∃ objs, retval.objects = .ok objs ∧
        objs.mapM (api.fillRawdata type retval.stack) = .error (.reported errors) := by
  rw [PyApi.callRows, if_pos rfl]
  cases hobjs : retval.objects with
  | error e => simp [Bind.bind, Except.bind]
  | ok objs =>
      cases hfill : objs.mapM (api.fillRawdata type retval.stack) with
      | error e => simp [Bind.bind, Except.bind, hfill]
      | ok rows =>
          have hsend : rows.mapM (api.sendRow type) ≠ .error (.reported errors) := by
            rw [Ne, mapM_eq_error_iff]
            rintro ⟨-, f, -, -, -, h⟩
            exact sendRow_ne_reported type f errors h
          simp [Bind.bind, Except.bind, hfill, hsend]

theorem callRows_errors {type : PlcType} (hout : type.type.hasOutput = true) {retval : Retval α}
    {errors : List PlcMsgError} (h : api.callRows true type retval = .error (.reported errors)) :
    errors ≠ [] := by
  rcases callRows_reported_iff.1 h with h | ⟨objs, -, h⟩
  · exact objects_errors h
  · obtain ⟨-, o, -, -, -, h⟩ := mapM_eq_error_iff.1 h
    exact fillRawdata_errors hout h

/-- Errors are reported exactly for the values that are refused. -/
theorem callRows_reported {type : PlcType} (hout : type.type.hasOutput = true) (retval : Retval α) :
    (∃ errors, api.callRows true type retval = .error (.reported errors))
      ↔ api.SetRefused type retval := by
  simp only [callRows_reported_iff, mapM_eq_error_iff, succeeds_fillRawdata hout, PyApi.SetRefused]
  constructor
  · rintro ⟨errors, h | ⟨_, hobjs, before, o, after, rfl, hbefore, h⟩⟩
    · exact .inl ⟨errors, h⟩
    · exact .inr ⟨before, o, after, hobjs, hbefore, (fillRawdata_reported hout _ o).1 ⟨errors, h⟩⟩
  · rintro (⟨errors, h⟩ | ⟨before, o, after, hobjs, hbefore, h⟩)
    · exact ⟨errors, .inl h⟩
    · obtain ⟨errors, h⟩ := (fillRawdata_reported hout retval.stack o).2 h
      exact ⟨errors, .inr ⟨_, hobjs, before, o, after, rfl, hbefore, h⟩⟩

/-- The rows that are sent, object by object. -/
theorem callRows_eq_ok {type : PlcType} (hout : type.type.hasOutput = true) (retval : Retval α)
    {rows : List (RawData × List (ConvError α))} :
    api.callRows true type retval = .ok rows
      ↔ ∃ objs, retval.objects = .ok objs ∧ List.Forall₂ (api.RowSent type) objs rows := by
  rw [PyApi.callRows, if_pos rfl, bind_eq_ok]
  refine exists_congr fun objs => and_congr_right fun _ => ?_
  simp only [bind_eq_ok, mapM_eq_ok_iff, forall₂_comp, rowSent_iff hout]

end

end PlContainer
