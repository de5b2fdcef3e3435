import PlContainer.Clients.R.NaPattern
import PlContainer.Library.Verdict

set_option autoImplicit false

/-! # Composite values from R objects

For a composite type an R function returns a data frame or a named list. The items are the columns of one
record; if the function returns a set, each row of a data frame is a record, and each item of another
list is. Two functions build the records: `handle_frame` goes through the columns that the frame has,
`plc_r_object_as_udt` through the fields that the type has. The sender goes through the fields. -/

namespace PlContainer

open Checked Judging

/-- A composite type. -/
structure CompositeType where
  typeName : Option CString
  nSubTypes : BitVec 16
  fields : List PlcType
  counted : nSubTypes.toInt = fields.length

def CompositeType.type (t : CompositeType) : PlcType := .mk .udt t.typeName t.nSubTypes t.fields

/-- A data frame or a named list. -/
structure RRecord where
  columns : List RObj
  frame : Bool

def RRecord.obj (r : RRecord) : RObj := .list r.columns none r.frame

/-- An error of the client or of the interpreter. -/
def RStop.IsError (e : RStop) : Prop := e = .reported ∨ e = .raised

theorem RStop.isError_reported : RStop.reported.IsError := .inl rfl

theorem RStop.isError_raised : RStop.raised.IsError := .inr rfl

theorem RStop.not_isError_outside : ¬ RStop.outside.IsError := by simp [IsError]

theorem RStop.not_isError_overflow : ¬ RStop.overflow.IsError := by simp [IsError]

/-! ## Entries of columns -/

/-- Where an entry stands: in a record of its own, or in a row of a data frame. -/
inductive Place where
  | record
  | row (r : ℕ)

/-- Its index in the column. -/
def Place.index : Place → ℕ
  | .record => 0
  | .row r => r

/-- The string that a code of a factor stands for. -/
def levelOf (levels : List (Option CString)) (code : BitVec 32) : Option CString :=
  if 1 ≤ code.toInt then levels[code.toInt.toNat - 1]?.join else none

/-- A column with the strings of a factor in place of its codes. -/
def RObj.shown : RObj → RObj
  | .vec (.integer codes) _ (some levels) => .vec (.character (codes.map (levelOf levels))) none none
  | x => x

def RObj.items : RObj → List RObj
  | .list items _ _ => items
  | _ => []

def RObj.isNil : RObj → Bool
  | .nil => true
  | _ => false

/-- There is nothing at an index, or it is missing. -/
def RObj.isNAAt (x : RObj) (i : ℕ) : Bool :=
  match x with
  | .nil => true
  | .vec data _ _ => (data.get? i).all (· = .na)
  | .list items _ _ => items[i]?.all RObj.isNil
  | .other _ _ _ => false

/-- The entry is missing. For an array a vector is the entry of a record as a whole. -/
def RObj.isNAEntry (x : RObj) (place : Place) (type : PlcDatatype) : Bool :=
  match x, place, type with
  | .vec data _ _, .record, .array => data.length = 1 && data.get? 0 = some .na
  | x, place, _ => x.isNAAt place.index

/-- "Everything else is defaulted to string" -/
def PlcDatatype.orText : PlcDatatype → PlcDatatype
  | .unknown _ => .text
  | type => type

/-- A vector whose values are converted to a scalar type. -/
def RObj.suits (x : RObj) (type : PlcDatatype) : Bool :=
  match x with
  | .vec (.integer _) _ (some _) => false
  | .vec data _ _ => data.matchesType type.orText
  | _ => false

/-- The dimensions of an array. -/
def RObj.dims (x : RObj) : List ℕ := x.dim.getD [x.length]

/-- The entry as an array: the vector in a record, one value of it in a row of a data frame. -/
def RObj.array? (x : RObj) (place : Place) : Option RValue :=
  match x, place with
  | .vec data dim levels, .record =>
      some (.iterator (.vec data dim levels) 0 (RObj.vec data dim levels).dims)
  | .vec data dim levels, .row r => some (.iterator (.vec data dim levels) r [1])
  | x, place =>
      x.items[place.index]?.bind fun o => if o.isVector then some (.iterator o 0 o.dims) else none

section

variable (api : RApi)

/-- The entry as a value of a scalar type. -/
def RApi.scalar? (x : RObj) (i : ℕ) (type : PlcDatatype) : Option RValue :=
  match x with
  | .vec data _ _ =>
      (data.get? i).bind fun atom =>
        if atom ≠ .na ∧ x.suits type then some (api.valueOf type.orText atom) else none
  | _ => none

mutual

/-- The datum is the entry of a column as a value of a type. -/
def RApi.Holds (x : RObj) (place : Place) : PlcType → RRaw → Prop
  | .mk type _ _ subTypes, raw =>
      (raw.isnull = true ∧ x.isNAEntry place type = true) ∨
      (raw.isnull = false ∧
        match type with
        | .udt => ∃ o data, x.items[place.index]? = some o ∧ raw.value = .udt data ∧
            RApi.FieldsHold .record o.items subTypes data
        | .array => x.array? place = some raw.value
        | type => api.scalar? x place.index type = some raw.value)

/-- There are as many data as types, and each is the entry of its column. -/
def RApi.FieldsHold (place : Place) : List RObj → List PlcType → List RRaw → Prop
  | _, [], [] => True
  | column :: columns, t :: ts, datum :: data =>
      RApi.Holds column.shown place t datum ∧ RApi.FieldsHold place columns ts data
  | _, _, _ => False

end

/-! ## What must hold -/

/-- `process_call_results` for a composite type: the value of each row. -/
def RApi.processCompositeResults (retset : Bool) (retval : RObj) (t : CompositeType) :
    Except RStop (List RRaw) :=
  if retset then api.handleRetset retval t.type
  else
    match retval with
    | .nil => .ok [⟨true, .null⟩]
    | retval => (api.plcRObjectAsUdt retval t.fields).map fun value => [⟨false, value⟩]

/-- A `plcUDT` with the entries of a record. -/
def RApi.IsRecord (place : Place) (columns : List RObj) (t : CompositeType) (raw : RRaw) : Prop :=
  raw.isnull = false ∧ ∃ data, raw.value = .udt data ∧ api.FieldsHold place columns t.fields data

/-- The rows of a data frame are as many as the first column has entries. -/
def RRecord.rows (r : RRecord) : ℕ := (r.columns.head?.map RObj.length).getD 0

/-- The rows are the records that the object stands for. -/
def RApi.RowsMatch (retset : Bool) (r : RRecord) (t : CompositeType) (rows : List RRaw) : Prop :=
  if retset then
    if r.frame then
      List.Forall₂ (fun i raw => api.IsRecord (.row i) r.columns t raw) (List.range r.rows) rows
    else
      List.Forall₂ (fun i raw => api.Holds r.obj (.row i) t.type raw) (List.range r.columns.length)
        rows
  else ∃ raw, rows = [raw] ∧ api.IsRecord .record r.columns t raw

/-- Either there is an error, or the rows match the type. -/
def RApi.CompositesMatch (retset : Bool) (r : RRecord) (t : CompositeType) : Prop :=
  (∃ e, api.processCompositeResults retset r.obj t = .error e ∧ e.IsError) ∨
  ∃ rows, api.processCompositeResults retset r.obj t = .ok rows ∧ api.RowsMatch retset r t rows

/-! ## The verdict on a record -/

/-- Vectors that count as `NA` as a whole. -/
def RObj.startsWithNA : RObj → Bool
  | .nil => true
  | .vec (.logical v) _ _ => firstOrNA v = naInteger
  | .vec (.integer v) _ _ => firstOrNA v = naInteger
  | _ => false

/-- A null is right for a missing entry. -/
def nullVerdict (x : RObj) (place : Place) (type : PlcDatatype) : Verdict :=
  if x.isNAEntry place type then .right else .wrong

def itemVerdict (x : RObj) (i : ℕ) (verdict : RObj → Verdict) : Verdict :=
  match x with
  | .list items _ _ => items[i]?.elim .stuck verdict
  | _ => .refused

/-- An index outside the vector is used without a check. -/
def scalarVerdict (x : RObj) (i : ℕ) (type : PlcDatatype) : Verdict :=
  if x.suits type then if i < x.length then .right else .stuck else .refused

/-- The array of an object: its dimensions must fit, and what is not a vector becomes a null pointer. -/
def objectVerdict (o : RObj) (right : Bool) : Verdict :=
  if o.isVector then
    if o.rank ≤ plcMaxArrayDimsR then if right then .right else .wrong else .stuck
  else .wrong

/-- A vector is converted as a whole, in a row of a data frame too. -/
def arrayVerdict (x : RObj) (place : Place) : Verdict :=
  match x, place with
  | .vec data dim levels, .record => objectVerdict (.vec data dim levels) true
  | .vec data dim levels, .row r =>
      objectVerdict (.vec data dim levels) (r = 0 ∧ (RObj.vec data dim levels).dims = [1])
  | x, place => itemVerdict x place.index fun o => if o.isNil then .right else objectVerdict o true

/-- Every code of a factor has a level or is `NA`. -/
def wellFormed (codes : List (BitVec 32)) (levels : List (Option CString)) : Bool :=
  codes.all fun code =>
    code = naInteger || (1 ≤ code.toInt && decide (code.toInt.toNat - 1 < levels.length))

/-- The verdict on a column: `null` if the factor is `NA` where it is tested, and `rest` if it is not. -/
def columnVerdict (column : RObj) (tested : ℕ) (null rest : Verdict) : Verdict :=
  match column with
  | .vec (.integer codes) _ (some levels) =>
      codes[tested]?.elim .stuck fun code =>
        if code = naInteger then null else if wellFormed codes levels then rest else .refused
  | _ => rest

mutual

def RApi.elementVerdict (x : RObj) (place : Place) : PlcType → Verdict
  | .mk type _ _ subTypes =>
      if x.startsWithNA then nullVerdict x place type
      else
        match type with
        | .udt => itemVerdict x place.index fun o =>
            if o.isNil then .right
            else if api.getColNamesNull o then .refused else RApi.fieldsVerdict o 0 subTypes
        | .array => arrayVerdict x place
        | type => scalarVerdict x place.index type

/-- The verdict on the fields from `i` on; factors are tested at the index of the field. -/
def RApi.fieldsVerdict (input : RObj) (i : ℕ) : List PlcType → Verdict
  | [] => .right
  | t :: ts =>
      (itemVerdict input i fun column =>
        columnVerdict column i (nullVerdict column.shown .record t.type)
          (RApi.elementVerdict column.shown .record t)).seq (RApi.fieldsVerdict input (i + 1) ts)

end

/-- The verdict on a row of a data frame. Fields without a column stay as they were allocated; for a
    column without a field there is no type. -/
def RApi.frameRowVerdict (row : ℕ) : List RObj → List PlcType → Verdict
  | [], [] => .right
  | [], _ :: _ => .wrong
  | column :: columns, t :: ts =>
      (columnVerdict column row (nullVerdict column.shown (.row row) t.type)
        (api.elementVerdict column.shown (.row row) t)).seq (RApi.frameRowVerdict row columns ts)
  | column :: columns, [] =>
      (columnVerdict column row .wrong .stuck).seq (RApi.frameRowVerdict row columns [])

/-- The verdict on all rows. -/
def RApi.compositeVerdict (retset : Bool) (r : RRecord) (t : CompositeType) : Verdict :=
  if retset then
    if r.frame then
      if r.columns = [] then .stuck
      else Verdict.all ((List.range r.rows).map fun i => api.frameRowVerdict i r.columns t.fields)
    else
      Verdict.all ((List.range r.columns.length).map fun i => api.elementVerdict r.obj (.row i) t.type)
  else if api.getColNamesNull r.obj then .refused
  else api.fieldsVerdict r.obj 0 t.fields

/-! ## Columns -/

theorem asCharacterFactor_eq (codes : List (BitVec 32)) (levels : List (Option CString)) :
    asCharacterFactor codes levels =
      if wellFormed codes levels then .ok (codes.map (levelOf levels)) else .error .raised := by
  unfold asCharacterFactor wellFormed
  rw [← mapM_ite_error]
  congr 1
  funext code
  by_cases hna : code = naInteger
  · subst hna
    rfl
  by_cases hpos : 1 ≤ code.toInt
  · by_cases hlt : code.toInt.toNat - 1 < levels.length
    · simp [hna, hpos, hlt, levelOf]
    · simp [hna, hpos, hlt]
  · simp [hna, hpos]

/-- A factor is tested first, then its strings are converted. -/
theorem judged_factor {H : RRaw → Prop} {codes : List (BitVec 32)} {dim : Option (List ℕ)}
    {levels : List (Option CString)} {tested : ℕ} {convert : RObj → Except RStop RRaw}
    {null rest : Verdict} (hnull : Judged RStop.IsError H (.ok ⟨true, .null⟩) null)
    (hrest : Judged RStop.IsError H
      (convert (.vec (.character (codes.map (levelOf levels))) none none)) rest) :
    Judged RStop.IsError H (columnDatum (.vec (.integer codes) dim (some levels)) tested convert)
      (columnVerdict (.vec (.integer codes) dim (some levels)) tested null rest) := by
  unfold columnDatum columnVerdict
  dsimp only
  cases codes[tested]? with
  | none => exact .stuck RStop.not_isError_outside
  | some code =>
    rw [asCharacterFactor_eq]
    dsimp only [Option.elim_some]
    by_cases hna : code = naInteger
    · rwa [if_neg (not_not.2 hna), if_pos hna]
    · rw [if_pos hna, if_neg hna]
      cases wellFormed codes levels with
      | false => exact .refused RStop.isError_raised
      | true => exact hrest

theorem judged_columnDatum {H : RRaw → Prop} {column : RObj} {tested : ℕ}
    {convert : RObj → Except RStop RRaw} {null rest : Verdict}
    (hnull : Judged RStop.IsError H (.ok ⟨true, .null⟩) null)
    (hrest : Judged RStop.IsError H (convert column.shown) rest) :
    Judged RStop.IsError H (columnDatum column tested convert)
      (columnVerdict column tested null rest) := by
  cases column with
  | nil => exact hrest
  | list items dim frame => exact hrest
  | other isVector length dim => exact hrest
  | vec data dim levels =>
    cases data with
    | logical v => exact hrest
    | real v => exact hrest
    | character v => exact hrest
    | integer codes =>
      cases levels with
      | none => exact hrest
      | some levels => exact judged_factor hnull hrest

theorem RApi.isNAVector_eq (x : RObj) : api.isNAVector x = x.startsWithNA := by
  unfold isNAVector RObj.startsWithNA
  split <;> simp_all [doubleEq_naReal]

/-! ## Entries -/

theorem RApi.holds_null {x : RObj} {place : Place} {t : PlcType} {value : RValue} :
    api.Holds x place t ⟨true, value⟩ ↔ x.isNAEntry place t.type = true := by
  obtain ⟨type, typeName, n, subTypes⟩ := t
  simp [Holds, PlcType.type]

theorem RApi.holds_scalar {type : PlcDatatype} (hudt : type ≠ .udt) (harray : type ≠ .array)
    {x : RObj} {place : Place} {typeName : Option CString} {n : BitVec 16} {subTypes : List PlcType}
    {raw : RRaw} :
    api.Holds x place (.mk type typeName n subTypes) raw ↔
      (raw.isnull = true ∧ x.isNAEntry place type = true) ∨
      (raw.isnull = false ∧ api.scalar? x place.index type = some raw.value) := by
  rw [Holds]
  · exact hudt
  · exact harray

theorem RObj.isNAEntry_of_ne_array {type : PlcDatatype} (h : type ≠ .array) {x : RObj}
    {place : Place} : x.isNAEntry place type = x.isNAAt place.index := by
  unfold isNAEntry
  split
  · exact absurd rfl h
  · rfl

/-- An item of a list that is `R_NilValue`. -/
theorem RObj.isNAEntry_of_item {x o : RObj} {place : Place} (ho : x.items[place.index]? = some o)
    (hnil : o.isNil = true) (type : PlcDatatype) : x.isNAEntry place type = true := by
  cases x with
  | list items dim frame =>
    change items[place.index]?.all RObj.isNil = true
    change items[place.index]? = some o at ho
    rw [ho]
    exact hnil
  | _ => simp [RObj.items] at ho

theorem RApi.judged_null (x : RObj) (place : Place) (t : PlcType) :
    Judged RStop.IsError (api.Holds x place t) (.ok ⟨true, .null⟩) (nullVerdict x place t.type) :=
  .of_ok api.holds_null

theorem judged_item {α : Type} {H : α → Prop} {x : RObj} {i : ℕ} {f : RObj → Except RStop α}
    {verdict : RObj → Verdict}
    (h : ∀ o, x.items[i]? = some o → Judged RStop.IsError H (f o) (verdict o)) :
    Judged RStop.IsError H (vectorElt x i >>= f) (itemVerdict x i verdict) := by
  unfold vectorElt itemVerdict
  cases x with
  | list items dim frame =>
    change ∀ o, items[i]? = some o → _ at h
    dsimp only
    cases hitem : items[i]? with
    | none => exact .stuck RStop.not_isError_outside
    | some o => exact h o hitem
  | _ => exact .refused RStop.isError_raised

theorem judged_itemElement {H : RRaw → Prop} {convert : RObj → Except RStop RValue} {o : RObj}
    {verdict : Verdict} (hnil : o.isNil = true → H ⟨true, .int 0⟩)
    (hvalue : Judged RStop.IsError (fun value => H ⟨false, value⟩) (convert o) verdict) :
    Judged RStop.IsError H (itemElement convert o) (if o.isNil then .right else verdict) := by
  cases o with
  | nil => exact .right (hnil rfl)
  | _ => exact hvalue.map fun value => Iff.rfl

/-- The scalar cases refuse what does not suit the type. -/
theorem RApi.scalarElement_of_not_suits {x : RObj} {type : PlcDatatype} (hudt : type ≠ .udt)
    (harray : type ≠ .array) (h : x.suits type = false) (i : ℕ) :
    ∃ e, api.scalarElement x i type = .error e ∧ e.IsError := by
  cases x with
  | vec data dim levels =>
    cases data <;> cases levels <;> cases type <;>
      simp_all [RObj.suits, PlcDatatype.orText, RAtoms.matchesType, scalarElement, RStop.IsError]
  | _ => cases type <;> simp_all [scalarElement, RStop.IsError]

theorem RApi.scalarElement_outside {x : RObj} {type : PlcDatatype} (h : x.suits type = true) {i : ℕ}
    (hi : x.length ≤ i) : api.scalarElement x i type = .error .outside := by
  cases x with
  | vec data dim levels =>
    cases data <;> cases levels <;> cases type <;>
      simp_all [RObj.suits, PlcDatatype.orText, RAtoms.matchesType, scalarElement, element,
        RObj.length, RAtoms.length]
  | _ => simp [RObj.suits] at h

/-- The scalar cases, with `Denotes` for what they return. -/
theorem RApi.scalarElement_inside {x : RObj} {type : PlcDatatype} (h : x.suits type = true) {i : ℕ}
    (hi : i < x.length) :
    ∃ data dim levels atom raw, x = .vec data dim levels ∧ data.get? i = some atom ∧
      api.scalarElement x i type = .ok raw ∧ api.Denotes type.orText raw atom := by
  cases x with
  | vec data dim levels =>
    obtain ⟨atom, hatom⟩ := Option.isSome_iff_exists.1 ((data.isSome_get? i).2 hi)
    have hplain : ∀ codes, data = .integer codes → levels = none := by
      rintro codes rfl
      cases levels <;> simp_all [RObj.suits]
    have htype : data.matchesType type.orText = true := by
      unfold RObj.suits at h
      split at h <;> simp_all
    obtain ⟨raw, hraw, hdenotes⟩ : ∃ raw,
        api.scalarElement (.vec data dim levels) i type.orText = .ok raw ∧
          api.Denotes type.orText raw atom := api.denotes_scalarElement hplain htype hatom
    have htext : api.scalarElement (.vec data dim levels) i type =
        api.scalarElement (.vec data dim levels) i type.orText := by
      cases type <;> rfl
    exact ⟨data, dim, levels, atom, raw, rfl, hatom, htext ▸ hraw, hdenotes⟩
  | _ => simp [RObj.suits] at h

theorem RApi.judged_scalar {type : PlcDatatype} (hudt : type ≠ .udt) (harray : type ≠ .array)
    (x : RObj) (place : Place) (typeName : Option CString) (n : BitVec 16) (subTypes : List PlcType) :
    Judged RStop.IsError (api.Holds x place (.mk type typeName n subTypes))
      (api.scalarElement x place.index type) (scalarVerdict x place.index type) := by
  unfold scalarVerdict
  cases hsuits : x.suits type with
  | false =>
    obtain ⟨e, he, herror⟩ := api.scalarElement_of_not_suits hudt harray hsuits place.index
    rw [he]
    exact .refused herror
  | true =>
    rw [if_pos rfl]
    split
    case isFalse hi =>
      rw [api.scalarElement_outside hsuits (Nat.le_of_not_lt hi)]
      exact .stuck RStop.not_isError_outside
    case isTrue hi =>
      obtain ⟨data, dim, levels, atom, raw, rfl, hatom, hraw, hdenotes⟩ :=
        api.scalarElement_inside hsuits hi
      rw [hraw]
      refine .right ?_
      rw [api.holds_scalar hudt harray]
      by_cases hna : atom = .na
      · refine .inl ⟨hdenotes.1.2 hna, ?_⟩
        rw [RObj.isNAEntry_of_ne_array harray, RObj.isNAAt, hatom, hna]
        rfl
      · have hnull : raw.isnull = false := Bool.eq_false_iff.2 fun h => hna (hdenotes.1.1 h)
        have hscalar : api.scalar? (.vec data dim levels) place.index type = some raw.value := by
          simp [scalar?, hatom, hna, hsuits, hdenotes.2 hna]
        exact .inr ⟨hnull, hscalar⟩

/-- An object as an array; `p` says whether the array is the right one. -/
theorem judged_arrayValue {H : RValue → Prop} {o : RObj} {p : Bool}
    (hiterator : o.isVector = true → (H (.iterator o 0 o.dims) ↔ p = true))
    (hnull : o.isVector = false → ¬ H .null) :
    Judged RStop.IsError H (arrayValue o) (objectVerdict o p) := by
  unfold arrayValue objectVerdict
  rw [plcRObjectAsArray_eq]
  cases hvector : o.isVector with
  | false => exact .wrong (hnull hvector)
  | true =>
    by_cases hrank : o.rank ≤ plcMaxArrayDimsR
    · rw [if_pos rfl, if_pos rfl, if_pos hrank, if_pos hrank]
      exact .of_ok (hiterator hvector)
    · rw [if_pos rfl, if_pos rfl, if_neg hrank, if_neg hrank]
      exact .stuck RStop.not_isError_overflow

theorem RApi.holds_array {x : RObj} {place : Place} {typeName : Option CString} {n : BitVec 16}
    {subTypes : List PlcType} {value : RValue} :
    api.Holds x place (.mk .array typeName n subTypes) ⟨false, value⟩ ↔
      x.array? place = some value := by
  simp [Holds]

/-- A vector is converted to an array as a whole. -/
theorem RApi.judged_vector (data : RAtoms) (dim : Option (List ℕ))
    (levels : Option (List (Option CString))) (place : Place) (typeName : Option CString)
    (n : BitVec 16) (subTypes : List PlcType) :
    Judged RStop.IsError (api.Holds (.vec data dim levels) place (.mk .array typeName n subTypes))
      (itemElement arrayValue (.vec data dim levels)) (arrayVerdict (.vec data dim levels) place) := by
  have hvector : (RObj.vec data dim levels).isVector = true := rfl
  have hnil : (RObj.vec data dim levels).isNil = true → api.Holds (.vec data dim levels) place
      (.mk .array typeName n subTypes) ⟨true, .int 0⟩ := by
    simp [RObj.isNil]
  cases place with
  | record =>
    refine judged_itemElement hnil (judged_arrayValue (fun _ => ?_) fun h => by simp [hvector] at h)
    simp [holds_array, RObj.array?]
  | row r =>
    refine judged_itemElement hnil (judged_arrayValue (fun _ => ?_) fun h => by simp [hvector] at h)
    simp [holds_array, RObj.array?, eq_comm (a := [1])]

/-- The array of an item of a list. -/
theorem RApi.judged_itemArray (x : RObj) (hvec : ∀ data dim levels, x ≠ .vec data dim levels)
    (place : Place) (typeName : Option CString) (n : BitVec 16) (subTypes : List PlcType) :
    Judged RStop.IsError (api.Holds x place (.mk .array typeName n subTypes))
      (vectorElt x place.index >>= itemElement arrayValue) (arrayVerdict x place) := by
  have harray : x.array? place = x.items[place.index]?.bind fun o =>
      if o.isVector then some (.iterator o 0 o.dims) else none := by
    cases x <;> simp_all [RObj.array?]
  have hverdict : arrayVerdict x place =
      itemVerdict x place.index fun o => if o.isNil then .right else objectVerdict o true := by
    cases x <;> simp_all [arrayVerdict]
  rw [hverdict]
  refine judged_item fun o ho => judged_itemElement
    (fun hnil => api.holds_null.2 (RObj.isNAEntry_of_item ho hnil _))
    (judged_arrayValue (fun hvector => ?_) fun hvector => ?_)
  · simp [holds_array, harray, ho, hvector]
  · simp [holds_array, harray, ho, hvector]

/-! ## Records -/

theorem RApi.judged_asUdt {H : RValue → Prop} {o : RObj} {fields : Except RStop (List RRaw)}
    {K : List RRaw → Prop} {verdict : Verdict} (hfields : Judged RStop.IsError K fields verdict)
    (hH : ∀ data, H (.udt data) ↔ K data) :
    Judged RStop.IsError H (api.asUdt o fields)
      (if api.getColNamesNull o then .refused else verdict) := by
  unfold asUdt
  cases api.getColNamesNull o with
  | true => exact .refused RStop.isError_reported
  | false => exact hfields.map hH

/-- The column of a field. -/
theorem RApi.fieldsHold_cons {place : Place} {columns : List RObj} {i : ℕ} {t : PlcType}
    {ts : List PlcType} {datum : RRaw} {data : List RRaw} :
    api.FieldsHold place (columns.drop i) (t :: ts) (datum :: data) ↔
      (∃ column, columns[i]? = some column ∧ api.Holds column.shown place t datum) ∧
        api.FieldsHold place (columns.drop (i + 1)) ts data := by
  by_cases hi : i < columns.length
  · rw [List.drop_eq_getElem_cons hi, FieldsHold, List.getElem?_eq_getElem hi]
    simp
  · rw [List.drop_eq_nil_of_le (Nat.le_of_not_lt hi), List.getElem?_eq_none (Nat.le_of_not_lt hi)]
    simp [FieldsHold]

/-- The fields of a record, given the verdict on each entry. -/
theorem RApi.judged_fields {types : List PlcType}
    (hentry : ∀ t ∈ types, ∀ x place, Judged RStop.IsError (api.Holds x place t)
      (api.plcRVectorElementRawdata x place.index t) (api.elementVerdict x place t))
    (input : RObj) (i : ℕ) :
    Judged RStop.IsError (api.FieldsHold .record (input.items.drop i) types)
      (api.udtFields input i types) (api.fieldsVerdict input i types) := by
  induction types generalizing i with
  | nil => exact .right (by simp [FieldsHold])
  | cons t ts ih =>
    rw [List.forall_mem_cons] at hentry
    have hloop : api.udtFields input i (t :: ts) = (do
        let datum ← vectorElt input i >>= fun dfcol =>
          columnDatum dfcol i fun c => api.plcRVectorElementRawdata c 0 t
        let data ← api.udtFields input (i + 1) ts
        .ok (datum :: data)) := by
      rw [udtFields]
      cases vectorElt input i <;> rfl
    rw [hloop, fieldsVerdict]
    refine Judged.seq (judged_item fun column hcolumn => ?_) (ih hentry.2 (i + 1))
      fun datum data => api.fieldsHold_cons
    refine (judged_columnDatum (api.judged_null column.shown .record t)
      (hentry.1 column.shown .record)).congr fun datum => ?_
    simp [hcolumn]

theorem RApi.elementVerdict_scalar {type : PlcDatatype} (hudt : type ≠ .udt) (harray : type ≠ .array)
    (x : RObj) (place : Place) (typeName : Option CString) (n : BitVec 16) (subTypes : List PlcType) :
    api.elementVerdict x place (.mk type typeName n subTypes) =
      if x.startsWithNA then nullVerdict x place type else scalarVerdict x place.index type := by
  rw [elementVerdict]
  · exact hudt
  · exact harray

/-- The verdict on an entry, by induction on the type. -/
theorem RApi.judged_element (t : PlcType) (x : RObj) (place : Place) :
    Judged RStop.IsError (api.Holds x place t) (api.plcRVectorElementRawdata x place.index t)
      (api.elementVerdict x place t) := by
  induction t using PlcType.induct generalizing x place with
  | mk type typeName n subTypes ih =>
    have hnull := api.judged_null x place (.mk type typeName n subTypes)
    by_cases hudt : type = .udt
    · subst hudt
      unfold plcRVectorElementRawdata elementVerdict
      rw [api.isNAVector_eq]
      cases x.startsWithNA with
      | true => exact hnull
      | false =>
        refine judged_item fun o ho => judged_itemElement
          (fun hnil => api.holds_null.2 (RObj.isNAEntry_of_item ho hnil _))
          (api.judged_asUdt (api.judged_fields ih o 0) fun data => ?_)
        simp [Holds, ho]
    by_cases harray : type = .array
    · subst harray
      unfold plcRVectorElementRawdata elementVerdict
      rw [api.isNAVector_eq]
      cases x.startsWithNA with
      | true => exact hnull
      | false =>
        cases x with
        | vec data dim levels => exact api.judged_vector data dim levels place typeName n subTypes
        | _ => exact api.judged_itemArray _ (by simp) place typeName n subTypes
    rw [api.plcRVectorElementRawdata_scalar hudt harray, api.elementVerdict_scalar hudt harray,
      api.isNAVector_eq]
    cases x.startsWithNA with
    | true => exact hnull
    | false => exact api.judged_scalar hudt harray x place typeName n subTypes

/-! ## Sets -/

/-- A row of a data frame, from column `k` on. -/
theorem RApi.judged_frameRow (subTypes : List PlcType) (row : ℕ) (columns : List RObj) (k : ℕ) :
    Judged RStop.IsError (api.FieldsHold (.row row) columns (subTypes.drop k))
      (api.frameRow subTypes row (columns.zipIdx k))
      (api.frameRowVerdict row columns (subTypes.drop k)) := by
  induction columns generalizing k with
  | nil =>
    cases subTypes.drop k with
    | nil => exact .right (by simp [FieldsHold])
    | cons t ts => exact .wrong (by simp [FieldsHold])
  | cons column columns ih =>
    rw [List.zipIdx_cons, frameRow]
    by_cases hk : k < subTypes.length
    · -- the column has a type
      rw [List.drop_eq_getElem_cons hk, frameRowVerdict]
      refine Judged.seq (judged_columnDatum (api.judged_null column.shown (.row row) _) ?_) (ih (k + 1))
        fun datum data => by rw [FieldsHold]
      rw [List.getElem?_eq_getElem hk]
      exact api.judged_element _ column.shown (.row row)
    · -- no field is right for a column without a type
      have hdrop : subTypes.drop k = [] := List.drop_eq_nil_of_le (Nat.le_of_not_lt hk)
      have hrest := ih (k + 1)
      rw [List.drop_eq_nil_of_le (by omega)] at hrest
      rw [hdrop, frameRowVerdict]
      refine Judged.seq (H := fun _ => False) (judged_columnDatum (.wrong id) ?_) hrest
        fun datum data => by simp [FieldsHold]
      rw [List.getElem?_eq_none (Nat.le_of_not_lt hk)]
      exact .stuck RStop.not_isError_outside

/-- One row, as a `plcUDT`. -/
theorem RApi.judged_frameRecord (t : CompositeType) (columns : List RObj) (row : ℕ) :
    Judged RStop.IsError (api.IsRecord (.row row) columns t)
      (do let data ← api.frameRow t.fields row columns.zipIdx; .ok ⟨false, .udt data⟩)
      (api.frameRowVerdict row columns t.fields) := by
  have hmap : (do let data ← api.frameRow t.fields row columns.zipIdx; .ok ⟨false, .udt data⟩) =
      (api.frameRow t.fields row columns.zipIdx).map fun data => (⟨false, .udt data⟩ : RRaw) := by
    cases api.frameRow t.fields row columns.zipIdx <;> rfl
  rw [hmap]
  exact (api.judged_frameRow t.fields row columns 0).map fun data => by simp [IsRecord]

theorem RApi.handleRetset_record (r : RRecord) (t : CompositeType) :
    api.handleRetset r.obj t.type =
      if r.frame then api.handleFrame r.obj t.fields
      else (List.range r.columns.length).mapM fun i => api.plcRVectorElementRawdata r.obj i t.type := by
  have hmatrix : (r.obj.isMatrix || (r.obj.isCharacter && r.obj.dim.isSome)) = false := by
    simp [RObj.isMatrix, RRecord.obj, RObj.dim]
  rw [CompositeType.type, handleRetset, hmatrix]
  rfl

/-- What is handed to the channel, or why nothing is. -/
theorem RApi.judged_results (retset : Bool) (r : RRecord) (t : CompositeType) :
    Judged RStop.IsError (api.RowsMatch retset r t) (api.processCompositeResults retset r.obj t)
      (api.compositeVerdict retset r t) := by
  unfold RowsMatch processCompositeResults compositeVerdict
  obtain ⟨columns, frame⟩ := r
  cases retset with
  | false =>
    have hudt : Judged RStop.IsError
        (fun value => ∃ data, value = .udt data ∧ api.FieldsHold .record columns t.fields data)
        (api.plcRObjectAsUdt (.list columns none frame) t.fields)
        (if api.getColNamesNull (.list columns none frame) then .refused
          else api.fieldsVerdict (.list columns none frame) 0 t.fields) :=
      api.judged_asUdt (api.judged_fields (fun s _ => api.judged_element s) _ 0) fun data => by
        simp [RObj.items]
    exact hudt.map fun value => by simp [IsRecord]
  | true =>
    rw [api.handleRetset_record]
    cases frame with
    | false => exact Judged.mapM fun i _ => api.judged_element t.type _ (.row i)
    | true =>
      cases columns with
      | nil => exact .stuck RStop.not_isError_outside
      | cons column columns => exact Judged.mapM fun i _ => api.judged_frameRecord t _ i

/-- A column with an entry of a scalar type for each row. -/
structure RObj.Regular (rows : ℕ) (column : RObj) (t : PlcType) : Prop where
  scalar : t.type ≠ .udt ∧ t.type ≠ .array
  suits : column.shown.suits t.type = true
  first : column.shown.startsWithNA = false
  long : rows ≤ column.length
  levels : ∀ codes dim levels, column = .vec (.integer codes) dim (some levels) →
    wellFormed codes levels = true

theorem RApi.elementVerdict_regular {rows row : ℕ} {column : RObj} {t : PlcType}
    (h : column.Regular rows t) (hrow : row < rows) :
    api.elementVerdict column.shown (.row row) t = .right := by
  obtain ⟨type, typeName, n, subTypes⟩ := t
  have hlength : column.shown.length = column.length := by
    unfold RObj.shown
    split <;> simp [RObj.length, RAtoms.length]
  have hlt : row < column.shown.length := by
    rw [hlength]
    exact hrow.trans_le h.long
  obtain ⟨hudt, harray⟩ : type ≠ .udt ∧ type ≠ .array := h.scalar
  have hsuits : column.shown.suits type = true := h.suits
  rw [api.elementVerdict_scalar hudt harray, h.first, if_neg Bool.false_ne_true, scalarVerdict,
    if_pos hsuits]
  exact if_pos hlt

/-- Where a factor is tested, its string is missing if the code is `NA`. -/
theorem isNAEntry_shown_of_na {codes : List (BitVec 32)} {dim : Option (List ℕ)}
    {levels : List (Option CString)} {row : ℕ} {type : PlcDatatype} (htype : type ≠ .array)
    (h : codes[row]? = some naInteger) :
    (RObj.vec (.integer codes) dim (some levels)).shown.isNAEntry (.row row) type = true := by
  rw [RObj.isNAEntry_of_ne_array htype]
  have hlevel : levelOf levels naInteger = none := rfl
  simp [RObj.shown, RObj.isNAAt, Place.index, RAtoms.get?, h, hlevel]

theorem RApi.columnVerdict_regular {rows row : ℕ} {column : RObj} {t : PlcType}
    (h : column.Regular rows t) (hrow : row < rows) :
    columnVerdict column row (nullVerdict column.shown (.row row) t.type)
      (api.elementVerdict column.shown (.row row) t) = .right := by
  rw [api.elementVerdict_regular h hrow]
  unfold columnVerdict
  split
  case h_1 codes dim levels =>
    have hlt : row < codes.length := hrow.trans_le h.long
    rw [List.getElem?_eq_getElem hlt, Option.elim_some, h.levels codes dim levels rfl]
    split
    case isTrue hna =>
      have hcode : codes[row]? = some naInteger := by rw [List.getElem?_eq_getElem hlt, hna]
      rw [nullVerdict, if_pos (isNAEntry_shown_of_na h.scalar.2 hcode)]
    case isFalse => rfl
  case h_2 => rfl

theorem RApi.frameRowVerdict_regular {rows row : ℕ} {columns : List RObj} {types : List PlcType}
    (h : List.Forall₂ (RObj.Regular rows) columns types) (hrow : row < rows) :
    api.frameRowVerdict row columns types = .right := by
  induction h with
  | nil => rfl
  | cons hcolumn _ ih => rw [frameRowVerdict, api.columnVerdict_regular hcolumn hrow, ih, Verdict.seq]

/-- A set of records from a data frame with a regular column for each field. -/
theorem RApi.frame_matches {r : RRecord} {t : CompositeType} (hframe : r.frame = true)
    (hne : r.columns ≠ []) (h : List.Forall₂ (RObj.Regular r.rows) r.columns t.fields) :
    api.CompositesMatch true r t := by
  rw [CompositesMatch, (api.judged_results true r t).settled_iff, compositeVerdict, hframe]
  rw [if_pos rfl, if_pos rfl, if_neg hne]
  refine .inl (Verdict.all_eq_right ?_)
  simp only [List.mem_map, List.mem_range, forall_exists_index, and_imp]
  rintro v row hrow rfl
  exact api.frameRowVerdict_regular h hrow

end

/-- A composite type with two fields. -/
def twoFields : CompositeType := ⟨none, 2, [.mk .int4 none 0 [], .mk .text none 0 []], by decide⟩

/-- A vector of one element. -/
def oneNumber : RObj := .vec (.integer [7]) none none

/-- A factor of one element. -/
def oneLevel : RObj := .vec (.integer [1]) none (some [some [97]])

end PlContainer
