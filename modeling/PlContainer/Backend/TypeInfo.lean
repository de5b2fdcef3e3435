import PlContainer.Common.Messages
import PlContainer.Library.Checked

set_option autoImplicit false

/-! # The backend's own types

`plcTypeInfo` and how `fill_type_info` makes one from the catalog. The fields `type`, `infunc` and
`nSubTypes` are always set together, so a constructor stands for each way of setting them; of the
other fields only the name is kept, the output functions and what the type's own in- and output
functions need are left out. -/

namespace PlContainer

open Checked

/-! ## The catalog -/

def boolOid : Oid := 16
def byteaOid : Oid := 17
def int8Oid : Oid := 20
def int2Oid : Oid := 21
def int4Oid : Oid := 23
def float4Oid : Oid := 700
def float8Oid : Oid := 701
def numericOid : Oid := 1700
def recordOid : Oid := 2249

/-- An attribute of a row type. -/
structure PgAttribute where
  attname : CString
  atttypid : Oid
  attisdropped : Bool

/-- The values of `typtype` that are told apart. -/
inductive TypType where
  | domain
  | composite
  | other
deriving DecidableEq, Repr

/-- A row of `pg_type`; `isArray` says that `typoutput` is `array_out`, and `attrs` is the row type
    that `lookup_rowtype_tupdesc` finds for a composite type. -/
structure PgType where
  typname : CString
  typtype : TypType
  typelem : Oid
  isArray : Bool
  attrs : List PgAttribute

abbrev Catalog := Oid → Option PgType

/-! ## Types -/

/-- The `plc_datum_from_*` functions for types without subtypes. -/
inductive ScalarInput where
  | int1
  | int2
  | int4
  | int8
  | float4
  | float8
  | float8Numeric
  | text
  | textPtr
  | bytea
  | byteaPtr
deriving DecidableEq, Repr

/-- The `type` that is set with the function. -/
def ScalarInput.type : ScalarInput → PlcDatatype
  | .int1 => .int1
  | .int2 => .int2
  | .int4 => .int4
  | .int8 => .int8
  | .float4 => .float4
  | .float8 | .float8Numeric => .float8
  | .text | .textPtr => .text
  | .bytea | .byteaPtr => .bytea

/-- `plcTypeInfo`. -/
inductive PlcTypeInfo where
  | scalar (infunc : ScalarInput) (typeName : Option CString)
  /-- `plc_datum_from_array` -/
  | array (typeName : Option CString) (elem : PlcTypeInfo)
  /-- `plc_datum_from_udt`, or `plc_datum_from_udt_ptr` in an array; an attribute that has been
      dropped (`none`) keeps its place, with all fields but the name zero -/
  | udt (ptr : Bool) (typeName : Option CString) (subTypes : List (Option PlcTypeInfo))

def PlcTypeInfo.type : PlcTypeInfo → PlcDatatype
  | .scalar infunc _ => infunc.type
  | .array _ _ => .array
  | .udt _ _ _ => .udt

def PlcTypeInfo.withName (name : CString) : PlcTypeInfo → PlcTypeInfo
  | .scalar infunc _ => .scalar infunc (some name)
  | .array _ elem => .array (some name) elem
  | .udt ptr _ subTypes => .udt ptr (some name) subTypes

/-! ## From the catalog -/

inductive TypeInfoError where
  | domainType
  | lookupFailed (typeOid : Oid)
  /-- "function returning record called in context that cannot accept type record" -/
  | recordContext
deriving DecidableEq, Repr

/-- The `switch (typeOid)` of `fill_type_info_inner`. -/
def scalarInput (typeOid : Oid) (isArrayElement : Bool) : ScalarInput :=
  if typeOid = boolOid then .int1
  else if typeOid = int2Oid then .int2
  else if typeOid = int4Oid then .int4
  else if typeOid = int8Oid then .int8
  else if typeOid = float4Oid then .float4
  else if typeOid = float8Oid then .float8
  else if typeOid = numericOid then .float8Numeric
  else if typeOid = byteaOid then (if isArrayElement then .byteaPtr else .bytea)
  else if isArrayElement then .textPtr
  else .text

section

variable (cat : Catalog) (record : Option (List PgAttribute))

/-- The body of `fill_type_info_inner`, given what its recursive calls do. `record` is the row type
    that `get_call_result_type` finds, if any. -/
def fillTypeInfoBody (isArrayElement isUDTElement : Bool)
    (fillElem fillAttr : Oid → Except TypeInfoError PlcTypeInfo) (typeOid : Oid) :
    Except TypeInfoError PlcTypeInfo :=
  match cat typeOid with
  | none => throw (.lookupFailed typeOid)
  | some typeStruct =>
      if typeStruct.typtype = .domain then throw .domainType
      else do
        let info ←
          if !isArrayElement && typeStruct.typelem != 0 && typeStruct.isArray then do
            let elem ← fillElem typeStruct.typelem
            pure (.array none elem)
          else pure (.scalar (scalarInput typeOid isArrayElement) none)
        -- composite types: only the first level is supported
        if isUDTElement then pure info
        else do
          let desc ←
            if typeOid = recordOid then
              match record with
              | none => throw .recordContext
              | some attrs => pure (some (none, attrs))
            else if typeStruct.typtype = .composite then
              pure (some (some typeStruct.typname, typeStruct.attrs))
            else pure none
          match desc with
          | none => pure info
          | some (typeName, attrs) => do
              let subTypes ← attrs.mapM fun attr =>
                if attr.attisdropped then pure none
                else do
                  let sub ← fillAttr attr.atttypid
                  pure (some (sub.withName attr.attname))
              pure (.udt isArrayElement typeName subTypes)

/-- A recursive call that the flags rule out. -/
def fillNothing (typeOid : Oid) : Except TypeInfoError PlcTypeInfo := throw (.lookupFailed typeOid)

/-- `fill_type_info_inner` for an element of an array that is an attribute. -/
def fillAttributeElement : Oid → Except TypeInfoError PlcTypeInfo :=
  fillTypeInfoBody cat record true true fillNothing fillNothing

/-- `fill_type_info_inner` for an attribute. -/
def fillAttribute : Oid → Except TypeInfoError PlcTypeInfo :=
  fillTypeInfoBody cat record false true (fillAttributeElement cat record) fillNothing

/-- `fill_type_info_inner` for an element of an array. -/
def fillElement : Oid → Except TypeInfoError PlcTypeInfo :=
  fillTypeInfoBody cat record true false fillNothing (fillAttribute cat record)

def fillTypeInfo : Oid → Except TypeInfoError PlcTypeInfo :=
  fillTypeInfoBody cat record false false (fillElement cat record) (fillAttribute cat record)

end

/-! ## What it can make -/

section

variable {cat : Catalog} {record : Option (List PgAttribute)} {isArrayElement isUDTElement : Bool}
  {elemInfo attrInfo : Oid → Except TypeInfoError PlcTypeInfo}

/-- The loop over the attributes. -/
def fillSubInfos (attrInfo : Oid → Except TypeInfoError PlcTypeInfo) (attrs : List PgAttribute) :
    Except TypeInfoError (List (Option PlcTypeInfo)) :=
  attrs.mapM fun attr =>
    if attr.attisdropped then pure none
    else do
      let sub ← attrInfo attr.atttypid
      pure (some (sub.withName attr.attname))

/-- `fillTypeInfoBody` as the base type followed by the row type. -/
theorem fillTypeInfoBody_eq {typeOid : Oid} {typeStruct : PgType} (hcat : cat typeOid = some typeStruct)
    (hdomain : typeStruct.typtype ≠ .domain) :
    fillTypeInfoBody cat record isArrayElement isUDTElement elemInfo attrInfo typeOid =
      (if !isArrayElement && typeStruct.typelem != 0 && typeStruct.isArray then
        elemInfo typeStruct.typelem >>= fun elem => pure (.array none elem)
      else pure (.scalar (scalarInput typeOid isArrayElement) none)) >>= fun info =>
        if isUDTElement then pure info
        else if typeOid = recordOid then
          match record with
          | none => throw .recordContext
          | some attrs =>
              fillSubInfos attrInfo attrs >>= fun subTypes => pure (.udt isArrayElement none subTypes)
        else if typeStruct.typtype = .composite then
          fillSubInfos attrInfo typeStruct.attrs >>= fun subTypes =>
            pure (.udt isArrayElement (some typeStruct.typname) subTypes)
        else pure info := by
  rw [fillTypeInfoBody, hcat]
  simp only [hdomain, if_false, fillSubInfos]
  -- the same splits on both sides, with the row type after the base type
  cases isUDTElement with
  | true => split <;> simp
  | false =>
      by_cases hrecord : typeOid = recordOid
      · cases record with
        | none =>
            subst hrecord
            split
            · cases elemInfo typeStruct.typelem <;> rfl
            · rfl
        | some attrs => split <;> simp [hrecord]
      · by_cases hcomposite : typeStruct.typtype = .composite
        · simp only [hrecord, hcomposite, if_false, if_true]
          split <;> simp
        · simp only [hrecord, hcomposite, if_false]
          split <;> simp

/-- An array, unless it is itself for an element; a type without subtypes; or a row type, unless it is
    for an attribute. -/
theorem fillTypeInfoBody_cases {typeOid : Oid} {info : PlcTypeInfo}
    (h : fillTypeInfoBody cat record isArrayElement isUDTElement elemInfo attrInfo typeOid = .ok info) :
    (isArrayElement = false ∧ ∃ elemOid elem, elemInfo elemOid = .ok elem ∧ info = .array none elem) ∨
      info = .scalar (scalarInput typeOid isArrayElement) none ∨
      (isUDTElement = false ∧ ∃ typeName attrs subTypes, fillSubInfos attrInfo attrs = .ok subTypes ∧
        info = .udt isArrayElement typeName subTypes) := by
  cases hcat : cat typeOid with
  | none =>
      rw [fillTypeInfoBody, hcat] at h
      exact (throw_eq_ok.1 h).elim
  | some typeStruct =>
      by_cases hdomain : typeStruct.typtype = .domain
      · simp only [fillTypeInfoBody, hcat, hdomain, if_true] at h
        exact (throw_eq_ok.1 h).elim
      rw [fillTypeInfoBody_eq hcat hdomain] at h
      obtain ⟨base, hbase, h⟩ := bind_eq_ok.1 h
      have hmade : (isArrayElement = false ∧
          ∃ elemOid elem, elemInfo elemOid = .ok elem ∧ base = .array none elem) ∨
          base = .scalar (scalarInput typeOid isArrayElement) none := by
        split at hbase
        next harray =>
          obtain ⟨elem, helem, hbase⟩ := bind_eq_ok.1 hbase
          have hnot : isArrayElement = false := by
            simp only [Bool.and_eq_true, Bool.not_eq_true'] at harray
            exact harray.1.1
          exact .inl ⟨hnot, _, elem, helem, (pure_eq_ok.1 hbase).symm⟩
        · exact .inr (pure_eq_ok.1 hbase).symm
      have hrow {typeName : Option CString} {attrs : List PgAttribute} (hudt : isUDTElement ≠ true)
          (h : (fillSubInfos attrInfo attrs >>= fun subTypes =>
            pure (PlcTypeInfo.udt isArrayElement typeName subTypes)) = .ok info) :
          isUDTElement = false ∧ ∃ typeName attrs subTypes,
            fillSubInfos attrInfo attrs = .ok subTypes ∧
              info = .udt isArrayElement typeName subTypes := by
        obtain ⟨subTypes, hsub, h⟩ := bind_eq_ok.1 h
        exact ⟨by simpa using hudt, typeName, attrs, subTypes, hsub, (pure_eq_ok.1 h).symm⟩
      split at h
      · cases pure_eq_ok.1 h
        exact hmade.imp_right .inl
      next hudt =>
        split at h
        · split at h
          · exact (throw_eq_ok.1 h).elim
          · exact .inr (.inr (hrow hudt h))
        · split at h
          · exact .inr (.inr (hrow hudt h))
          · cases pure_eq_ok.1 h
            exact hmade.imp_right .inl

end

/-! ## The type on the wire -/

mutual

/-- `copy_type_info` -/
def copyTypeInfo : PlcTypeInfo → PlcType
  | .scalar infunc typeName => .mk infunc.type typeName 0 []
  | .array typeName elem => .mk .array typeName 1 [copyTypeInfo elem]
  | .udt _ typeName subTypes =>
      let copies := copySubTypes subTypes
      .mk .udt typeName (BitVec.ofNat 16 copies.length) copies

def copySubTypes : List (Option PlcTypeInfo) → List PlcType
  | [] => []
  | none :: subTypes => copySubTypes subTypes
  | some sub :: subTypes => copyTypeInfo sub :: copySubTypes subTypes

end

/-- A type without its names. -/
inductive TypeTree where
  | mk (type : PlcDatatype) (subTypes : List TypeTree)

mutual

def PlcType.tree : PlcType → TypeTree
  | .mk type _ _ subTypes => .mk type (PlcType.trees subTypes)

def PlcType.trees : List PlcType → List TypeTree
  | [] => []
  | t :: ts => t.tree :: PlcType.trees ts

end

theorem PlcType.trees_eq_map (ts : List PlcType) : PlcType.trees ts = ts.map PlcType.tree := by
  induction ts with
  | nil => rfl
  | cons t ts ih => simp only [PlcType.trees, List.map_cons, ih]

/-- The type tree that the backend itself would put on the wire. -/
def PlcTypeInfo.tree (info : PlcTypeInfo) : TypeTree := (copyTypeInfo info).tree

theorem copySubTypes_eq_map (subTypes : List (Option PlcTypeInfo)) :
    copySubTypes subTypes = (subTypes.filterMap id).map copyTypeInfo := by
  induction subTypes with
  | nil => rfl
  | cons sub subTypes ih =>
      cases sub with
      | none => simpa [copySubTypes] using ih
      | some sub => simp [copySubTypes, ih]

theorem PlcTypeInfo.tree_array (typeName : Option CString) (elem : PlcTypeInfo) :
    (PlcTypeInfo.array typeName elem).tree = .mk .array [elem.tree] := by
  simp [PlcTypeInfo.tree, copyTypeInfo, PlcType.tree, PlcType.trees]

theorem PlcTypeInfo.tree_udt (ptr : Bool) (typeName : Option CString)
    (subTypes : List (Option PlcTypeInfo)) :
    (PlcTypeInfo.udt ptr typeName subTypes).tree
      = .mk .udt ((subTypes.filterMap id).map PlcTypeInfo.tree) := by
  simp [PlcTypeInfo.tree, copyTypeInfo, PlcType.tree, PlcType.trees_eq_map, copySubTypes_eq_map,
    Function.comp_def]

end PlContainer
