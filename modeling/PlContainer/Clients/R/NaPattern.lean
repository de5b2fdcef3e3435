import PlContainer.Clients.Python.Arrays
import PlContainer.Clients.R.Conversions

set_option autoImplicit false

/-! # The missing values of R vectors

`plc_r_vector_element_rawdata` is asked for one element, but looks at the vector as a whole first. For
logical and integer vectors it looks at the first element there: if that is `NA`, every element is a
null. -/

namespace PlContainer

open Checked

/-! ## Vectors and the types that match them -/

/-- A vector without attributes; its length is an `int`. -/
structure RVector where
  data : RAtoms
  short : data.length < 2 ^ 31

def RVector.obj (v : RVector) : RObj := .vec v.data none none

/-- The scalar types that the values of a vector are converted to. -/
def RAtoms.matchesType : RAtoms → PlcDatatype → Bool
  | .logical _, .int1 => true
  | .integer _, .int2 => true
  | .integer _, .int4 => true
  | .integer _, .int8 => true
  | .real _, .int8 => true
  | .real _, .float4 => true
  | .real _, .float8 => true
  | .character _, .text => true
  | _, _ => false

theorem RAtoms.ne_of_matchesType {a : RAtoms} {type : PlcDatatype} (h : a.matchesType type = true) :
    type ≠ .udt ∧ type ≠ .array ∧ type.hasOutputFunction = true := by
  cases a <;> cases type <;> simp_all [RAtoms.matchesType, PlcDatatype.hasOutputFunction]

/-- The positions of `NA`. -/
def RAtoms.nas (a : RAtoms) : List Bool := (List.range a.length).map fun i => a.get? i = some .na

section

variable (api : RApi)

/-- A value of a vector, as a value of a type. -/
def RApi.valueOf : PlcDatatype → RAtom → RValue
  | .int1, .logical b => .int b
  | .int2, .integer n => .int n
  | .int4, .integer n => .int n
  | .int8, .integer n => .int64 (n.signExtend 64)
  | .int8, .real d => .int64 (api.doubleToLong d)
  | .float4, .real d => .float4 (api.doubleToFloat d)
  | .float8, .real d => .float8 d
  | .text, .text s => .text s
  | _, _ => .null

/-- A null for `NA`, and the value of anything else. -/
def RApi.Denotes (type : PlcDatatype) (raw : RRaw) (atom : RAtom) : Prop :=
  (raw.isnull = true ↔ atom = .na) ∧ (atom ≠ .na → raw.value = api.valueOf type atom)

/-- The element at each index is the one of the vector. -/
def RApi.ElementsDenote (v : RVector) (elemType : PlcType) : Prop :=
  ∀ idx atom, v.data.get? idx = some atom →
    ∃ raw, api.plcRVectorElementRawdata v.obj idx elemType = .ok raw ∧
      api.Denotes elemType.type raw atom

/-- What `send_raw_array_iter` takes from the iterator of an array. -/
def RApi.arrayElements (input : RObj) (elemType : PlcType) : Except RStop (List RRaw) := do
  match ← plcRObjectAsArray input with
  | some dims => api.nexts input elemType (iteratorSize dims).toInt.toNat 0
  | none => .ok []

/-- Each element is the one of the vector; the array and the rows that are built have their nulls at the
    positions of `NA`. -/
def RApi.KeepsNAs (v : RVector) (elemType : PlcType) : Prop :=
  api.ElementsDenote v elemType ∧
  (∃ elems, api.arrayElements v.obj elemType = .ok elems ∧ elems.map RawDatum.isnull = v.data.nas) ∧
  (∃ rows, api.handleRetset v.obj elemType = .ok rows ∧ rows.map RawDatum.isnull = v.data.nas)

/-! ## One element -/

/-- Whether the whole vector counts as `NA`. -/
theorem RApi.isNAVector_obj (v : RVector) (h : 0 < v.data.length) :
    api.isNAVector v.obj = true ↔
      (∃ b, v.data = .logical b ∨ v.data = .integer b) ∧ v.data.get? 0 = some .na := by
  obtain ⟨data, short⟩ := v
  cases data with
  | logical b =>
    cases b with
    | nil => simp [RAtoms.length] at h
    | cons x xs =>
      rw [RVector.obj, isNAVector, decide_eq_true_iff]
      simp [firstOrNA, RAtoms.get?]
  | integer b =>
    cases b with
    | nil => simp [RAtoms.length] at h
    | cons x xs =>
      rw [RVector.obj, isNAVector, decide_eq_true_iff]
      simp [firstOrNA, RAtoms.get?]
  | real d => simp [RVector.obj, isNAVector, doubleEq_naReal]
  | character s => simp [RVector.obj, isNAVector]

theorem RApi.denotes_element {β : Type} {v : List β} {idx : ℕ} {isNA : β → Bool} {zero : RValue}
    {value : β → RValue} {type : PlcDatatype} {atomOf : β → RAtom} {atom : RAtom}
    (hatom : v[idx]?.map atomOf = some atom) (hna : ∀ b, atomOf b = .na ↔ isNA b = true)
    (hvalue : ∀ b, isNA b = false → value b = api.valueOf type (atomOf b)) :
    ∃ raw, element v idx isNA zero value = .ok raw ∧ api.Denotes type raw atom := by
  obtain ⟨b, hb, rfl⟩ := Option.map_eq_some_iff.1 hatom
  refine ⟨_, by rw [element, hb], ?_⟩
  cases hisNA : isNA b with
  | true => exact ⟨by simp [(hna b).2 hisNA], fun h => absurd ((hna b).2 hisNA) h⟩
  | false =>
    have hne : atomOf b ≠ .na := fun h => by simp [(hna b).1 h] at hisNA
    exact ⟨by simp [hne], fun _ => hvalue b hisNA⟩

/-- The scalar cases give the element of the vector; a factor is not a vector of integers to them. -/
theorem RApi.denotes_scalarElement {data : RAtoms} {dim : Option (List ℕ)}
    {levels : Option (List (Option CString))} (hplain : ∀ codes, data = .integer codes → levels = none)
    {type : PlcDatatype} (htype : data.matchesType type = true) {idx : ℕ} {atom : RAtom}
    (hatom : data.get? idx = some atom) :
    ∃ raw, api.scalarElement (.vec data dim levels) idx type = .ok raw ∧ api.Denotes type raw atom := by
  have hint : ∀ b : BitVec 32, (if b = naInteger then RAtom.na else .integer b) = .na ↔
      decide (b = naInteger) = true := by
    intro b
    split <;> simp_all
  cases data with
  | logical b =>
    cases type <;> simp only [RAtoms.matchesType, Bool.false_eq_true] at htype
    refine api.denotes_element hatom (fun b => ?_) fun b hb => ?_
    · split <;> simp_all
    · simp_all [valueOf]
  | integer n =>
    obtain rfl := hplain n rfl
    cases type <;> simp only [RAtoms.matchesType, Bool.false_eq_true] at htype
    all_goals
      refine api.denotes_element hatom hint fun b hb => ?_
      simp_all [valueOf]
  | real d =>
    cases type <;> simp only [RAtoms.matchesType, Bool.false_eq_true] at htype
    all_goals
      refine api.denotes_element hatom (fun b => ?_) fun b hb => ?_
      · split <;> simp_all
      · simp_all [valueOf]
  | character s =>
    cases type <;> simp only [RAtoms.matchesType, Bool.false_eq_true] at htype
    refine api.denotes_element hatom (fun b => ?_) fun b hb => ?_
    · cases b <;> simp
    · cases b <;> simp_all [valueOf]

/-- What the function returns for an element of a matching vector. -/
theorem RApi.elementsDenote_iff {v : RVector} {elemType : PlcType}
    (htype : v.data.matchesType elemType.type = true) :
    api.ElementsDenote v elemType ↔
      (api.isNAVector v.obj = true → ∀ idx atom, v.data.get? idx = some atom → atom = .na) := by
  obtain ⟨type, typeName, n, subTypes⟩ := elemType
  change v.data.matchesType type = true at htype
  obtain ⟨hudt, harray, -⟩ := RAtoms.ne_of_matchesType htype
  have helement (idx : ℕ) :=
    api.plcRVectorElementRawdata_scalar hudt harray v.obj idx typeName n subTypes
  unfold ElementsDenote
  cases hwhole : api.isNAVector v.obj with
  | true =>
    refine ⟨fun h _ idx atom hatom => ?_, fun h idx atom hatom => ?_⟩
    · obtain ⟨raw, hraw, hdenotes⟩ := h idx atom hatom
      rw [helement, hwhole] at hraw
      obtain rfl : (⟨true, .null⟩ : RRaw) = raw := Except.ok.inj hraw
      exact hdenotes.1.1 rfl
    · have hna := h rfl idx atom hatom
      exact ⟨_, by rw [helement, hwhole]; rfl, by simp [hna], fun hne => absurd hna hne⟩
  | false =>
    refine iff_of_true (fun idx atom hatom => ?_) fun h => by simp at h
    rw [helement, hwhole]
    exact api.denotes_scalarElement (fun _ _ => rfl) htype hatom

/-! ## All elements -/

theorem RApi.nexts_eq_mapM (input : RObj) (elemType : PlcType) (n pos : ℕ) :
    api.nexts input elemType n pos =
      (List.range' pos n).mapM fun i => api.plcRVectorElementRawdata input i elemType := by
  induction n generalizing pos with
  | zero => rfl
  | succ n ih =>
    rw [nexts, plcRObjectAsArrayNext, List.range'_succ, List.mapM_cons]
    cases api.plcRVectorElementRawdata input pos elemType with
    | error e => rfl
    | ok raw =>
      simp only [ok_bind, ih]
      rfl

/-- Elements that are fetched one by one. -/
theorem exists_mapM_isnull {f : ℕ → Except RStop RRaw} {isNA : ℕ → Bool} {l : List ℕ}
    (h : ∀ i ∈ l, ∃ raw, f i = .ok raw ∧ raw.isnull = isNA i) :
    ∃ raws, l.mapM f = .ok raws ∧ raws.map RawDatum.isnull = l.map isNA := by
  induction l with
  | nil => exact ⟨[], rfl, rfl⟩
  | cons i l ih =>
    obtain ⟨raw, hraw, hnull⟩ := h i List.mem_cons_self
    obtain ⟨raws, hraws, hnulls⟩ := ih fun j hj => h j (List.mem_cons_of_mem i hj)
    refine ⟨raw :: raws, ?_, ?_⟩
    · rw [List.mapM_cons, hraw, hraws]
      rfl
    · rw [List.map_cons, List.map_cons, hnull, hnulls]

/-- If the elements are right, those that are fetched have their nulls at the positions of `NA`. -/
theorem RApi.ElementsDenote.exists_mapM {v : RVector} {elemType : PlcType}
    (h : api.ElementsDenote v elemType) :
    ∃ raws, ((List.range v.data.length).mapM fun i =>
        api.plcRVectorElementRawdata v.obj i elemType) = .ok raws ∧
      raws.map RawDatum.isnull = v.data.nas := by
  refine exists_mapM_isnull fun i hi => ?_
  obtain ⟨atom, hatom⟩ := Option.isSome_iff_exists.1
    ((v.data.isSome_get? i).2 (List.mem_range.1 hi))
  obtain ⟨raw, hraw, hdenotes⟩ := h i atom hatom
  refine ⟨raw, hraw, ?_⟩
  rw [hatom, Bool.eq_iff_iff, hdenotes.1]
  simp

theorem RVector.iteratorSize_length (v : RVector) :
    (iteratorSize [v.data.length]).toInt.toNat = v.data.length := by
  have hshort := v.short
  rw [iteratorSize_eq (by simp), List.prod_singleton, BitVec.toInt_eq_toNat_cond, BitVec.toNat_ofNat]
  split <;> omega

/-- The array is built from the elements of the vector. -/
theorem RApi.arrayElements_obj (v : RVector) (elemType : PlcType) :
    api.arrayElements v.obj elemType =
      (List.range v.data.length).mapM fun i => api.plcRVectorElementRawdata v.obj i elemType := by
  have harray : plcRObjectAsArray v.obj = .ok (some [v.data.length]) := by
    have hrank : v.obj.rank ≤ plcMaxArrayDimsR := by
      change 1 ≤ 2
      decide
    rw [plcRObjectAsArray_eq, if_pos hrank]
    rfl
  rw [arrayElements, harray, ok_bind]
  simp only [v.iteratorSize_length, nexts_eq_mapM, List.range_eq_range']

/-- The rows are built from the elements of the vector. -/
theorem RApi.handleRetset_obj {v : RVector} {elemType : PlcType}
    (htype : v.data.matchesType elemType.type = true) :
    api.handleRetset v.obj elemType =
      (List.range v.data.length).mapM fun i => api.plcRVectorElementRawdata v.obj i elemType := by
  obtain ⟨type, typeName, n, subTypes⟩ := elemType
  have hmatrix : (v.obj.isMatrix || (v.obj.isCharacter && v.obj.dim.isSome)) = false := by
    simp [RObj.isMatrix, RVector.obj, RObj.dim]
  have hframe : v.obj.isFrame = false := rfl
  have houtput : type.hasOutputFunction = true := (RAtoms.ne_of_matchesType htype).2.2
  rw [handleRetset, hmatrix, hframe, houtput]
  rfl

/-- The vector keeps its missing values if and only if its first element is not `NA`, or every element
    is; numbers and strings always do. -/
theorem na_pattern_kept_iff (v : RVector) (elemType : PlcType)
    (htype : v.data.matchesType elemType.type = true) :
    api.KeepsNAs v elemType ↔
      ((∃ b, v.data = .logical b ∨ v.data = .integer b) → v.data.get? 0 = some .na →
        ∀ idx atom, v.data.get? idx = some atom → atom = .na) := by
  have hkeeps : api.KeepsNAs v elemType ↔ api.ElementsDenote v elemType := by
    rw [RApi.KeepsNAs, api.arrayElements_obj, api.handleRetset_obj htype]
    exact ⟨fun h => h.1, fun h => ⟨h, h.exists_mapM, h.exists_mapM⟩⟩
  rw [hkeeps, api.elementsDenote_iff htype]
  rcases Nat.eq_zero_or_pos v.data.length with hempty | hpos
  · -- an empty vector has no elements
    have hnone (idx : ℕ) (atom : RAtom) : v.data.get? idx ≠ some atom := by
      intro hatom
      have hlt := (v.data.isSome_get? idx).1 (Option.isSome_of_mem hatom)
      omega
    exact iff_of_true (fun _ idx atom hatom => absurd hatom (hnone idx atom))
      fun _ hfirst => absurd hfirst (hnone 0 .na)
  · rw [api.isNAVector_obj v hpos, and_imp]

end

/-- Numbers as they are converted for the tests. -/
def plainRApi : RApi := ⟨fun _ => 0, fun _ => 0, id, fun _ => 0, fun _ => false⟩

/-- A vector of numbers may begin with `NA`. -/
theorem na_pattern_kept_iff_real :
    plainRApi.KeepsNAs ⟨.real [naReal, 0x3FF0000000000000#64], by decide⟩ (.mk .float8 none 0 []) :=
  (na_pattern_kept_iff plainRApi _ _ rfl).2 (by rintro ⟨b, h | h⟩ <;> cases h)

/-- In `c(NA, 1L)` the second element becomes a null too. -/
theorem na_pattern_lost :
    let v : RVector := ⟨.integer [naInteger, 1], by decide⟩
    v.data.get? 1 = some (.integer 1) ∧
    plainRApi.plcRVectorElementRawdata v.obj 1 (.mk .int4 none 0 []) = .ok ⟨true, .null⟩ ∧
    ¬ plainRApi.KeepsNAs v (.mk .int4 none 0 []) := by
  intro v
  have hnull : plainRApi.plcRVectorElementRawdata v.obj 1 (.mk .int4 none 0 []) = .ok ⟨true, .null⟩ := rfl
  refine ⟨rfl, hnull, fun h => ?_⟩
  obtain ⟨raw, hraw, hdenotes⟩ := h.1 1 (.integer 1) rfl
  rw [hnull] at hraw
  obtain rfl : (⟨true, .null⟩ : RRaw) = raw := Except.ok.inj hraw
  exact absurd (hdenotes.1.1 rfl) (by decide)

end PlContainer
