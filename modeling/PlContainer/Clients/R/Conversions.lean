import PlContainer.Clients.R.Objects
import PlContainer.Library.Checked

set_option autoImplicit false

/-! # The output conversions of the R client

An R function returns a vector, a list, a matrix or a data frame, and the client takes it apart with
`plc_r_vector_element_rawdata`: for an element of an array, for a row of a set, for a field of a
composite value. The conversions are followed up to the first error that is reported. -/

namespace PlContainer

/-! ## What the conversions make -/

/-- `rawdata` -/
structure RawDatum (ν : Type) where
  isnull : Bool
  value : ν

/-- What the `value` of a `rawdata` points to. -/
inductive RValue where
  /-- `NULL` -/
  | null
  | int (v : BitVec 32)
  | int64 (v : BitVec 64)
  | float4 (v : BitVec 32)
  | float8 (v : BitVec 64)
  | text (s : CString)
  /-- an iterator over a vector from an index on, with the dimensions of the array -/
  | iterator (input : RObj) (start : ℕ) (dims : List ℕ)
  /-- a `plcUDT`, with the fields that were assigned -/
  | udt (data : List (RawDatum RValue))

abbrev RRaw := RawDatum RValue

/-- Why a conversion goes no further. -/
inductive RStop where
  /-- `raise_execution_error` -/
  | reported
  /-- an error of the interpreter: an accessor was applied to another type of object -/
  | raised
  /-- an index outside a vector, a list or the subtypes of a type -/
  | outside
  /-- an index outside a local array of the client -/
  | overflow
  /-- a null pointer is followed -/
  | nullPointer
deriving DecidableEq, Repr

/-! ## Arrays -/

/-- `PLC_MAX_ARRAY_DIMS` of the R client -/
def plcMaxArrayDimsR : ℕ := 2

/-- The rank of the array that an object is converted to, `ndims`. -/
def RObj.rank (input : RObj) : ℕ :=
  match input.dim with
  | some rdims => rdims.length
  | none => 1

/-- The indices at which `plc_r_object_as_array` writes to `dims`. -/
def RObj.dimsWritten (input : RObj) : List ℕ :=
  match input.dim with
  | some rdims => List.range rdims.length
  | none => [0]

/-- `plc_r_object_as_array`: the dimensions of the iterator; nothing if it returns -1. -/
def plcRObjectAsArray (input : RObj) : Except RStop (Option (List ℕ)) :=
  if input.isVector || input.isMatrix then
    if ∀ i ∈ input.dimsWritten, i < plcMaxArrayDimsR then .ok (some (input.dim.getD [input.length]))
    else .error .overflow
  else .ok none

theorem RObj.isVector_or_isMatrix (input : RObj) :
    (input.isVector || input.isMatrix) = input.isVector := by
  rw [isMatrix]
  cases input.isVector <;> rfl

theorem RObj.forall_dimsWritten_lt_iff (input : RObj) (n : ℕ) :
    (∀ i ∈ input.dimsWritten, i < n) ↔ input.rank ≤ n := by
  have hrange : input.dimsWritten = List.range input.rank := by
    unfold dimsWritten rank
    cases input.dim <;> rfl
  rw [hrange]
  simp only [List.mem_range]
  exact ⟨fun h => not_lt.1 fun hlt => lt_irrefl n (h n hlt), fun h i hi => hi.trans_le h⟩

theorem plcRObjectAsArray_eq (input : RObj) :
    plcRObjectAsArray input =
      if input.isVector then
        if input.rank ≤ plcMaxArrayDimsR then .ok (some (input.dim.getD [input.length]))
        else .error .overflow
      else .ok none := by
  simp only [plcRObjectAsArray, input.isVector_or_isMatrix, input.forall_dimsWritten_lt_iff]

/-- What is assigned to `value`, whatever `plc_r_object_as_array` returns. -/
def arrayValue (input : RObj) : Except RStop RValue :=
  (plcRObjectAsArray input).map fun dims => dims.elim .null (.iterator input 0)

/-! ## Elements -/

section

variable (api : RApi)

/-- The test of `plc_r_vector_element_rawdata` on the vector as a whole. -/
def RApi.isNAVector : RObj → Bool
  | .nil => true
  | .vec (.logical v) _ _ => firstOrNA v = naInteger
  | .vec (.integer v) _ _ => firstOrNA v = naInteger
  | .vec (.real v) _ _ => doubleEq (api.intToDouble (api.asInteger v)) naReal
  -- no vector of strings is `NA_STRING`
  | _ => false

/-- The common form of the scalar cases: the element is tested, and a null has a value all the same. -/
def element {β : Type} (v : List β) (idx : ℕ) (isNA : β → Bool) (zero : RValue) (value : β → RValue) :
    Except RStop RRaw :=
  match v[idx]? with
  | none => .error .outside
  | some b => .ok (if isNA b then ⟨true, zero⟩ else ⟨false, value b⟩)

/-- The scalar cases of `plc_r_vector_element_rawdata`. -/
def RApi.scalarElement (vector : RObj) (idx : ℕ) : PlcDatatype → Except RStop RRaw
  | .int1 =>
      match vector with
      | .vec (.logical v) _ _ => element v idx (· = naInteger) (.int 0) .int
      | _ => .error .reported
  | .int2 | .int4 =>
      match vector with
      | .vec (.integer v) _ none => element v idx (· = naInteger) (.int 0) .int
      | _ => .error .reported
  | .int8 =>
      match vector with
      | .vec (.integer v) _ none =>
          element v idx (· = naInteger) (.int64 0) fun n => .int64 (n.signExtend 64)
      | .vec (.real v) _ _ => element v idx rIsNA (.int64 0) fun d => .int64 (api.doubleToLong d)
      | _ => .error .reported
  | .float4 =>
      match vector with
      | .vec (.real v) _ _ => element v idx rIsNA (.float4 0) fun d => .float4 (api.doubleToFloat d)
      | _ => .error .reported
  | .float8 =>
      match vector with
      | .vec (.real v) _ _ => element v idx rIsNA (.float8 0) .float8
      | _ => .error .reported
  -- "Arrays cannot handle element type"
  | .invalid | .bytea => .error .reported
  | _ =>
      match vector with
      | .vec (.character v) _ _ => element v idx Option.isNone .null fun s => .text (s.getD [])
      | _ => .error .raised

/-- `VECTOR_ELT` -/
def vectorElt (vector : RObj) (idx : ℕ) : Except RStop RObj :=
  match vector with
  | .list items _ _ =>
      match items[idx]? with
      | some o => .ok o
      | none => .error .outside
  | _ => .error .raised

/-- What an item of a list is converted to; `R_NilValue` is a null. -/
def itemElement (convert : RObj → Except RStop RValue) : RObj → Except RStop RRaw
  | .nil => .ok ⟨true, .int 0⟩
  | o => (convert o).map fun value => ⟨false, value⟩

/-- `Rf_asCharacterFactor`; a code without a level is an error. -/
def asCharacterFactor (codes : List (BitVec 32)) (levels : List (Option CString)) :
    Except RStop (List (Option CString)) :=
  codes.mapM fun code =>
    if code = naInteger then .ok none
    else if 1 ≤ code.toInt then
      match levels[code.toInt.toNat - 1]? with
      | some level => .ok level
      | none => .error .raised
    else .error .raised

/-- The entry of a column, with `convert` for what is not a factor. R stores strings in factors; the
    element of a factor at the index `tested` is compared with `NA`, and the strings are converted. -/
def columnDatum (dfcol : RObj) (tested : ℕ) (convert : RObj → Except RStop RRaw) : Except RStop RRaw :=
  match dfcol with
  | .vec (.integer codes) _ (some levels) =>
      match codes[tested]? with
      | none => .error .outside
      | some code =>
          if code ≠ naInteger then do
            let c ← asCharacterFactor codes levels
            convert (.vec (.character c) none none)
          else .ok ⟨true, .null⟩
  | _ => convert dfcol

/-- `plc_r_object_as_udt`, given what its loop over the fields does. -/
def RApi.asUdt (input : RObj) (fields : Except RStop (List RRaw)) : Except RStop RValue :=
  -- "Output entry for plcRType must be a named list"
  if api.getColNamesNull input then .error .reported else fields.map .udt

mutual

def RApi.plcRVectorElementRawdata (vector : RObj) (idx : ℕ) : PlcType → Except RStop RRaw
  | .mk type _ _ subTypes =>
      if api.isNAVector vector then .ok ⟨true, .null⟩
      else
        match type with
        | .udt => do
            let item ← vectorElt vector idx
            itemElement (fun o => api.asUdt o (RApi.udtFields o 0 subTypes)) item
        | .array =>
            match vector with
            | .vec _ _ _ => itemElement arrayValue vector
            | _ => do
                let item ← vectorElt vector idx
                itemElement arrayValue item
        | type => api.scalarElement vector idx type

/-- The loop of `plc_r_object_as_udt` over the fields, from field `i` on. A factor is tested at the
    index of the field. -/
def RApi.udtFields (input : RObj) (i : ℕ) : List PlcType → Except RStop (List RRaw)
  | [] => .ok []
  | t :: ts => do
      let dfcol ← vectorElt input i
      let datum ← columnDatum dfcol i fun c => RApi.plcRVectorElementRawdata c 0 t
      let data ← RApi.udtFields input (i + 1) ts
      .ok (datum :: data)

end

/-- `plc_r_object_as_udt` -/
def RApi.plcRObjectAsUdt (input : RObj) (subTypes : List PlcType) : Except RStop RValue :=
  api.asUdt input (api.udtFields input 0 subTypes)

/-- The elements of a scalar type. -/
theorem RApi.plcRVectorElementRawdata_scalar {type : PlcDatatype} (hudt : type ≠ .udt)
    (harray : type ≠ .array) (vector : RObj) (idx : ℕ) (typeName : Option CString) (n : BitVec 16)
    (subTypes : List PlcType) :
    api.plcRVectorElementRawdata vector idx (.mk type typeName n subTypes) =
      if api.isNAVector vector then .ok ⟨true, .null⟩ else api.scalarElement vector idx type := by
  rw [plcRVectorElementRawdata]
  · exact hudt
  · exact harray

/-! ## Iterators -/

/-- `plc_r_object_as_array_next`, with the position of the last dimension; those of the others are never
    looked at. -/
def RApi.plcRObjectAsArrayNext (input : RObj) (elemType : PlcType) (pos : ℕ) :
    Except RStop (RRaw × ℕ) := do
  let res ← api.plcRVectorElementRawdata input pos elemType
  .ok (res, pos + 1)

/-- `n` elements of an iterator. -/
def RApi.nexts (input : RObj) (elemType : PlcType) : ℕ → ℕ → Except RStop (List RRaw)
  | 0, _ => .ok []
  | n + 1, pos => do
      let (res, pos) ← api.plcRObjectAsArrayNext input elemType pos
      let rest ← RApi.nexts input elemType n pos
      .ok (res :: rest)

/-! ## Sets -/

/-- `handle_matrix_set`: each row is an array of as many elements as there are columns. -/
def handleMatrixSet (retval : RObj) (subTypes : List PlcType) : Except RStop (List RRaw) :=
  match retval.dim, subTypes with
  | some (rows :: cols :: _), _ :: _ =>
      .ok ((List.range rows).map fun i => ⟨false, .iterator retval (i * cols) [cols]⟩)
  | _, _ => .error .outside

/-- One row of `handle_frame`, with the index of each column. -/
def RApi.frameRow (subTypes : List PlcType) (row : ℕ) : List (RObj × ℕ) → Except RStop (List RRaw)
  | [] => .ok []
  | (dfcol, col) :: cols => do
      let datum ← columnDatum dfcol row fun c =>
        match subTypes[col]? with
        | some t => api.plcRVectorElementRawdata c row t
        | none => .error .outside
      let data ← RApi.frameRow subTypes row cols
      .ok (datum :: data)

/-- `handle_frame`: the number of rows is the length of the first column. -/
def RApi.handleFrame (df : RObj) (subTypes : List PlcType) : Except RStop (List RRaw) := do
  match df with
  | .list [] _ _ => .error .outside
  | .list (dfcol :: dfcols) _ _ =>
      (List.range dfcol.length).mapM fun row => do
        let data ← api.frameRow subTypes row (dfcol :: dfcols).zipIdx
        .ok ⟨false, .udt data⟩
  | _ => .error .raised

/-- `plc_get_output_function` has a function for the type. -/
def PlcDatatype.hasOutputFunction : PlcDatatype → Bool
  | .invalid | .unknown _ => false
  | _ => true

/-- `handle_retset`: the value of each row. -/
def RApi.handleRetset (retval : RObj) : PlcType → Except RStop (List RRaw)
  | .mk type typeName n subTypes =>
      if retval.isMatrix || (retval.isCharacter && retval.dim.isSome) then
        handleMatrixSet retval subTypes
      else if retval.isFrame then api.handleFrame retval subTypes
      else
        -- the elements of other vectors are the rows
        (List.range retval.length).mapM fun i =>
          -- "Type %d is not yet supported by R container"
          if type.hasOutputFunction then
            api.plcRVectorElementRawdata retval i (.mk type typeName n subTypes)
          else .error .reported

end

end PlContainer
