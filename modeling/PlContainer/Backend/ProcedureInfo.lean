import PlContainer.Backend.TypeInfo
import PlContainer.FunctionCache
import PlContainer.Library.Lookup

set_option autoImplicit false

/-! # What the backend caches of a function

`plcontainer_procedure_get` composes a `plcProcInfo` from rows of `pg_proc`, `pg_type`, `pg_class` and
`pg_attribute`, and `plc_procedure_valid` decides later whether it still holds by looking at the
versions of some of these rows. Here the catalog is the current version of each row with what each
version holds, the builder is a program that reads rows, and its type trees carry the versions that
the validator compares. -/

namespace PlContainer

/-! ## The catalog -/

/-- What a build reads: the rows of four catalogs, and the row type that `get_call_result_type` finds
    for the call. -/
inductive CatalogRow where
  | proc (oid : Oid)
  | cls (oid : Oid)
  | attr (relid : Oid) (attnum : ℕ)
  | typ (oid : Oid)
  | callResult
deriving DecidableEq, Repr

structure PgProcRow where
  proname : CString
  prosrc : CString
  prorettype : Oid
  proargtypes : List Oid
  /-- an array of text, whose elements may be null, or null itself -/
  proargnames : Option (List (Option CString))
deriving DecidableEq, Repr

/-- The values of `typtype` that are told apart. -/
inductive RowTypType where
  | domain
  | composite (typrelid : Oid)
  | pseudo
  | other
deriving DecidableEq, Repr

/-- A row of `pg_type`; `elem` is `typelem` if that is not zero and `typoutput` is `array_out`. -/
structure PgTypeRow where
  typname : CString
  typtype : RowTypType
  elem : Option Oid
  elem_ne_zero : elem ≠ some 0
  not_both : ∀ relid, typtype = .composite relid → elem = none

/-- What a version of the row holds; of `pg_class` it is `relnatts`. -/
def CatalogRow.Content : CatalogRow → Type
  | .proc _ => PgProcRow
  | .cls _ => ℕ
  | .attr _ _ => PgAttribute
  | .typ _ => PgTypeRow
  | .callResult => List PgAttribute

/-- What every version of every row holds. -/
abbrev Contents := ∀ r : CatalogRow, RowVersion → r.Content

/-- The current version of each row that is there. An update gives its row another version. -/
abbrev Versions := CatalogRow → Option RowVersion

/-- What `SearchSysCache` finds. -/
def catalogAt (c : Contents) (s : Versions) (r : CatalogRow) : Option (RowVersion × r.Content) :=
  (s r).map fun v => (v, c r v)

inductive CatalogError where
  | procLookupFailed (oid : Oid)
  /-- "trigger functions can only be called as triggers" -/
  | triggerResult
  /-- "PLContainer functions cannot return type %s" -/
  | pseudoResult (typeOid : Oid)
  | domainType
  | typeLookupFailed (typeOid : Oid)
  | relationLookupFailed (relid : Oid)
  | attributeMissing (relid : Oid) (attnum : ℕ)
  | recordContext
  /-- the list of argument names is shorter, or longer, than the number of arguments -/
  | argumentNames
deriving DecidableEq, Repr

abbrev Build (α : Type) : Type :=
  Lookup CatalogRow (fun r => Option (RowVersion × r.Content)) CatalogError α

/-! The four lookups, and that of the call's row type. -/

abbrev fetchProc (oid : Oid) : Build (RowVersion × PgProcRow) :=
  Lookup.fetch (CatalogRow.proc oid) (CatalogError.procLookupFailed oid)

abbrev fetchType (typeOid : Oid) : Build (RowVersion × PgTypeRow) :=
  Lookup.fetch (CatalogRow.typ typeOid) (CatalogError.typeLookupFailed typeOid)

abbrev fetchRelation (relid : Oid) : Build (RowVersion × ℕ) :=
  Lookup.fetch (CatalogRow.cls relid) (CatalogError.relationLookupFailed relid)

abbrev fetchAttribute (relid : Oid) (attnum : ℕ) : Build (RowVersion × PgAttribute) :=
  Lookup.fetch (CatalogRow.attr relid attnum) (CatalogError.attributeMissing relid attnum)

abbrev fetchCallResult : Build (RowVersion × List PgAttribute) :=
  Lookup.fetch CatalogRow.callResult CatalogError.recordContext

section Trace

variable {store : ∀ r : CatalogRow, Option (RowVersion × r.Content)}

@[simp] theorem trace_fetchProc (oid : Oid) : (fetchProc oid).trace store = [.proc oid] :=
  Lookup.trace_fetch

@[simp] theorem trace_fetchType (typeOid : Oid) : (fetchType typeOid).trace store = [.typ typeOid] :=
  Lookup.trace_fetch

@[simp] theorem trace_fetchRelation (relid : Oid) :
    (fetchRelation relid).trace store = [.cls relid] := Lookup.trace_fetch

@[simp] theorem trace_fetchAttribute (relid : Oid) (attnum : ℕ) :
    (fetchAttribute relid attnum).trace store = [.attr relid attnum] := Lookup.trace_fetch

end Trace

/-! ## Type trees -/

/-- `plcTypeInfo` with `typ_relid`, `typrel_xmin` and `typrel_tid`. -/
inductive CachedType where
  | scalar (infunc : ScalarInput) (typeName : Option CString)
  | array (typeName : Option CString) (elem : CachedType)
  /-- a row type: of a relation in the version it was read in, or a record -/
  | udt (ptr : Bool) (rel : Option (Oid × RowVersion)) (typeName : Option CString)
      (subTypes : List CachedType)
  /-- a dropped attribute, of which only the name is set -/
  | dropped (typeName : CString)

namespace CachedType

def withName (name : CString) : CachedType → CachedType
  | .scalar infunc _ => .scalar infunc (some name)
  | .array _ elem => .array (some name) elem
  | .udt ptr rel _ subTypes => .udt ptr rel (some name) subTypes
  | .dropped _ => .dropped name

mutual

/-- The tree without the versions: wire types, names, number of subtypes and dropped attributes. -/
def tree : CachedType → CachedType
  | .scalar infunc typeName => .scalar infunc typeName
  | .array typeName elem => .array typeName elem.tree
  | .udt ptr _ typeName subTypes => .udt ptr none typeName (trees subTypes)
  | .dropped typeName => .dropped typeName

def trees : List CachedType → List CachedType
  | [] => []
  | t :: ts => t.tree :: trees ts

end

theorem trees_eq_map (ts : List CachedType) : trees ts = ts.map tree := by
  induction ts with
  | nil => rfl
  | cons t ts ih => simp only [trees, List.map_cons, ih]

theorem tree_withName (name : CString) (t : CachedType) :
    (t.withName name).tree = t.tree.withName name := by
  cases t <;> simp [withName, tree]

end CachedType

/-! ## `fill_type_info` -/

section Fill

variable (isArrayElement isUDTElement : Bool) (fillElem fillAttr : Oid → Build CachedType)

/-- The base type or the array, given what the call for the element does. -/
def fillBase (typeOid : Oid) (typeStruct : PgTypeRow) : Build CachedType :=
  match (if isArrayElement then none else typeStruct.elem) with
  | some typelem => fillElem typelem >>= fun elem => pure (.array none elem)
  | none => pure (.scalar (scalarInput typeOid isArrayElement) none)

/-- One round of the loop over the attributes. -/
def fillSubType (attr : PgAttribute) : Build CachedType :=
  if attr.attisdropped then pure (.dropped attr.attname)
  else fillAttr attr.atttypid >>= fun sub => pure (sub.withName attr.attname)

/-- A record, whose row type is that of the call. -/
def fillRecord : Build CachedType :=
  fetchCallResult >>= fun attrs =>
    Lookup.each (fillSubType fillAttr) attrs.2 >>= fun subTypes =>
      pure (.udt isArrayElement none none subTypes)

/-- A composite type, whose row type is that of its relation. -/
def fillComposite (typname : CString) (relid : Oid) : Build CachedType :=
  fetchRelation relid >>= fun relation =>
    Lookup.each (fetchAttribute relid) (List.range relation.2) >>= fun attrs =>
      Lookup.each (fillSubType fillAttr) (attrs.map Prod.snd) >>= fun subTypes =>
        pure (.udt isArrayElement (some (relid, relation.1)) (some typname) subTypes)

/-- `fill_type_info_inner` for a type whose row has been read, given what its recursive calls do. -/
def fillStruct (typeOid : Oid) (typeStruct : PgTypeRow) : Build CachedType :=
  if typeStruct.typtype = .domain then .fail .domainType
  else
    fillBase isArrayElement fillElem typeOid typeStruct >>= fun info =>
      if isUDTElement then pure info
      else if typeOid = recordOid then fillRecord isArrayElement fillAttr
      else
        match typeStruct.typtype with
        | .composite relid => fillComposite isArrayElement fillAttr typeStruct.typname relid
        | _ => pure info

def fillInner (typeOid : Oid) : Build CachedType :=
  fetchType typeOid >>= fun typeStruct =>
    fillStruct isArrayElement isUDTElement fillElem fillAttr typeOid typeStruct.2

end Fill

/-- A recursive call that the flags rule out. -/
def fillNone (typeOid : Oid) : Build CachedType := .fail (.typeLookupFailed typeOid)

/-- `fill_type_info_inner` for an element of an array that is an attribute. -/
def fillCachedAttributeElement : Oid → Build CachedType := fillInner true true fillNone fillNone

/-- `fill_type_info_inner` for an attribute. -/
def fillCachedAttribute : Oid → Build CachedType :=
  fillInner false true fillCachedAttributeElement fillNone

/-- `fill_type_info_inner` for an element of an array. -/
def fillCachedElement : Oid → Build CachedType := fillInner true false fillNone fillCachedAttribute

/-- `fill_type_info` -/
def fillCachedType : Oid → Build CachedType :=
  fillInner false false fillCachedElement fillCachedAttribute

/-! ## The types without the versions -/

namespace CachedType

mutual

/-- The type as the conversions use it; a dropped attribute has none. -/
def info : CachedType → Option PlcTypeInfo
  | .scalar infunc typeName => some (.scalar infunc typeName)
  | .array typeName elem => elem.info.map (.array typeName)
  | .udt ptr _ typeName subTypes => some (.udt ptr typeName (infos subTypes))
  | .dropped _ => none

def infos : List CachedType → List (Option PlcTypeInfo)
  | [] => []
  | t :: ts => t.info :: infos ts

end

theorem info_withName (name : CString) (t : CachedType) :
    (t.withName name).info = t.info.map (PlcTypeInfo.withName name) := by
  cases t with
  | scalar infunc typeName => simp [withName, info, PlcTypeInfo.withName]
  | array typeName elem =>
      cases helem : elem.info <;> simp [withName, info, helem, PlcTypeInfo.withName]
  | udt ptr rel typeName subTypes => simp [withName, info, PlcTypeInfo.withName]
  | dropped typeName => simp [withName, info]

end CachedType

/-- The row type of a relation. -/
def attributesAt (c : Contents) (s : Versions) (relid : Oid) : List PgAttribute :=
  match catalogAt c s (.cls relid) with
  | none => []
  | some relation =>
      (List.range relation.2).filterMap fun attnum => (catalogAt c s (.attr relid attnum)).map Prod.snd

/-- The type that a row describes. -/
def pgTypeOf (c : Contents) (s : Versions) (typeStruct : PgTypeRow) : PgType where
  typname := typeStruct.typname
  typtype :=
    match typeStruct.typtype with
    | .domain => .domain
    | .composite _ => .composite
    | _ => .other
  typelem := typeStruct.elem.getD 0
  isArray := typeStruct.elem.isSome
  attrs :=
    match typeStruct.typtype with
    | .composite relid => attributesAt c s relid
    | _ => []

/-- The types that the current rows describe. -/
def typesAt (c : Contents) (s : Versions) : Catalog := fun typeOid =>
  (catalogAt c s (.typ typeOid)).map fun x => pgTypeOf c s x.2

/-- The row type that `get_call_result_type` finds. -/
def callResultAt (c : Contents) (s : Versions) : Option (List PgAttribute) :=
  (catalogAt c s .callResult).map Prod.snd

section

variable {c : Contents} {s : Versions} {isArrayElement isUDTElement : Bool}
  {fillElem fillAttr : Oid → Build CachedType}
  {elemInfo attrInfo : Oid → Except TypeInfoError PlcTypeInfo}

variable (c s) in
/-- What the program builds, without the versions, is the given type. -/
def Yields (p : Build CachedType) (q : Except TypeInfoError PlcTypeInfo) : Prop :=
  ∀ t, p.run (catalogAt c s) = .ok t → ∃ info, t.info = some info ∧ q = .ok info

theorem attributesAt_eq {relid : Oid} {relation : RowVersion × ℕ}
    {attrs : List (RowVersion × PgAttribute)}
    (hrel : (fetchRelation relid).run (catalogAt c s) = .ok relation)
    (h : (Lookup.each (fetchAttribute relid) (List.range relation.2)).run (catalogAt c s) = .ok attrs) :
    attributesAt c s relid = attrs.map Prod.snd := by
  have hfound : catalogAt c s (.cls relid) = some relation := Lookup.run_fetch_eq_ok.1 hrel
  rw [attributesAt, hfound]
  have hall := Lookup.run_each_eq_ok.1 h
  dsimp only
  generalize List.range relation.2 = attnums at hall
  clear h hfound hrel
  induction hall with
  | nil => rfl
  | cons hx _ ih =>
      have hattr := Lookup.run_fetch_eq_ok.1 hx
      rw [List.filterMap_cons, hattr, ih]
      rfl

theorem subTypes_eq (hattr : ∀ oid, Yields c s (fillAttr oid) (attrInfo oid))
    {attrs : List PgAttribute} {ts : List CachedType}
    (h : (Lookup.each (fillSubType fillAttr) attrs).run (catalogAt c s) = .ok ts) :
    fillSubInfos attrInfo attrs = .ok (CachedType.infos ts) := by
  have hall := Lookup.run_each_eq_ok.1 h
  clear h
  induction hall with
  | nil => rfl
  | cons hsub _ ih =>
      rw [fillSubInfos, List.mapM_cons, ← fillSubInfos, ih]
      rw [fillSubType] at hsub
      split at hsub
      next hdropped =>
        cases hsub
        rw [if_pos hdropped]
        rfl
      next hdropped =>
        obtain ⟨sub, hrun, hsub⟩ := Lookup.run_bind_eq_ok.1 hsub
        cases hsub
        obtain ⟨info, hinfo, heq⟩ := hattr _ sub hrun
        rw [if_neg hdropped, heq, CachedType.infos, CachedType.info_withName, hinfo]
        rfl

theorem yields_fillBase (helem : ∀ oid, Yields c s (fillElem oid) (elemInfo oid)) (typeOid : Oid)
    (typeStruct : PgTypeRow) :
    Yields c s (fillBase isArrayElement fillElem typeOid typeStruct)
      (if !isArrayElement && (pgTypeOf c s typeStruct).typelem != 0
          && (pgTypeOf c s typeStruct).isArray then
        elemInfo (pgTypeOf c s typeStruct).typelem >>= fun elem => pure (.array none elem)
      else pure (.scalar (scalarInput typeOid isArrayElement) none)) := by
  intro t h
  have hne := typeStruct.elem_ne_zero
  rw [fillBase] at h
  cases isArrayElement with
  | true =>
      cases h
      exact ⟨_, by rw [CachedType.info], rfl⟩
  | false =>
      cases hel : typeStruct.elem with
      | none =>
          simp only [hel] at h
          cases h
          refine ⟨_, by rw [CachedType.info], ?_⟩
          rw [if_neg (by simp [pgTypeOf, hel])]
          rfl
      | some typelem =>
          simp only [hel] at h
          obtain ⟨elem, hrun, h⟩ := Lookup.run_bind_eq_ok.1 h
          cases h
          obtain ⟨info, hinfo, heq⟩ := helem typelem elem hrun
          have hzero : (typelem != 0) = true := bne_iff_ne.2 fun hzero => hne (by rw [hel, hzero])
          refine ⟨_, by rw [CachedType.info, hinfo, Option.map_some], ?_⟩
          simp only [pgTypeOf, hel, Option.getD_some, hzero, Option.isSome_some, Bool.not_false,
            Bool.and_self, if_true, heq]
          rfl

theorem yields_fillInner (helem : ∀ oid, Yields c s (fillElem oid) (elemInfo oid))
    (hattr : ∀ oid, Yields c s (fillAttr oid) (attrInfo oid)) (typeOid : Oid) :
    Yields c s (fillInner isArrayElement isUDTElement fillElem fillAttr typeOid)
      (fillTypeInfoBody (typesAt c s) (callResultAt c s) isArrayElement isUDTElement elemInfo attrInfo
        typeOid) := by
  intro t h
  obtain ⟨⟨v, typeStruct⟩, hx, h⟩ := Lookup.run_bind_eq_ok.1 h
  have hfound : catalogAt c s (.typ typeOid) = some (v, typeStruct) := Lookup.run_fetch_eq_ok.1 hx
  have hcat : typesAt c s typeOid = some (pgTypeOf c s typeStruct) := by
    rw [typesAt, hfound]
    rfl
  rw [fillStruct] at h
  split at h
  · cases h
  next hdomain =>
    have hnot : (pgTypeOf c s typeStruct).typtype ≠ .domain := by
      rw [pgTypeOf]
      cases htyp : typeStruct.typtype <;> simp_all
    obtain ⟨base, hbase, h⟩ := Lookup.run_bind_eq_ok.1 h
    obtain ⟨info, hinfo, heq⟩ := yields_fillBase helem typeOid typeStruct base hbase
    rw [fillTypeInfoBody_eq hcat hnot, heq]
    dsimp only [Bind.bind, Except.bind]
    split at h
    next hudt =>
      cases h
      rw [if_pos hudt]
      exact ⟨info, hinfo, rfl⟩
    next hudt =>
      rw [if_neg hudt]
      split at h
      next hrecord =>
        rw [if_pos hrecord]
        obtain ⟨attrs, hattrs, h⟩ := Lookup.run_bind_eq_ok.1 h
        obtain ⟨subs, hsubs, h⟩ := Lookup.run_bind_eq_ok.1 h
        cases h
        have hcall : callResultAt c s = some attrs.2 := by
          rw [callResultAt, Lookup.run_fetch_eq_ok.1 hattrs]
          rfl
        rw [hcall]
        dsimp only
        rw [subTypes_eq hattr hsubs]
        exact ⟨_, by rw [CachedType.info], rfl⟩
      next hrecord =>
        rw [if_neg hrecord]
        cases htyp : typeStruct.typtype with
        | composite relid =>
            simp only [htyp] at h
            obtain ⟨relation, hrel, h⟩ := Lookup.run_bind_eq_ok.1 h
            obtain ⟨attrs, hattrs, h⟩ := Lookup.run_bind_eq_ok.1 h
            obtain ⟨subs, hsubs, h⟩ := Lookup.run_bind_eq_ok.1 h
            cases h
            have hattrsAt : (pgTypeOf c s typeStruct).attrs = attrs.map Prod.snd := by
              simp [pgTypeOf, htyp, attributesAt_eq hrel hattrs]
            rw [if_pos (by simp [pgTypeOf, htyp]), hattrsAt, subTypes_eq hattr hsubs]
            exact ⟨_, by rw [CachedType.info]; rfl, rfl⟩
        | domain | pseudo | other =>
            simp only [htyp] at h
            cases h
            rw [if_neg (by simp [pgTypeOf, htyp])]
            exact ⟨info, hinfo, rfl⟩

/-- **The cached types are those of `fillTypeInfo`** on the types that the rows describe. -/
theorem fillTypeInfo_of_fillCachedType (typeOid : Oid) :
    Yields c s (fillCachedType typeOid)
      (fillTypeInfo (typesAt c s) (callResultAt c s) typeOid) := by
  have hnone (oid : Oid) : Yields c s (fillNone oid) (fillNothing oid) := by
    intro t h
    cases h
  have hattribute : ∀ oid, Yields c s (fillCachedAttribute oid)
      (fillAttribute (typesAt c s) (callResultAt c s) oid) :=
    yields_fillInner (yields_fillInner hnone hnone) hnone
  have helement : ∀ oid, Yields c s (fillCachedElement oid)
      (fillElement (typesAt c s) (callResultAt c s) oid) := yields_fillInner hnone hattribute
  exact yields_fillInner helement hattribute typeOid

end

/-! ## `plcontainer_procedure_get` -/

/-- The part of `plcProcInfo` that a build sets from the catalog. -/
structure PlcProcEntry where
  funcOid : Oid
  fnVersion : RowVersion
  name : CString
  src : CString
  argnames : List (Option CString)
  args : List CachedType
  result : CachedType

def voidOid : Oid := 2278
def triggerOid : Oid := 2279

/-- The check that disallows pseudotypes as results. -/
def checkResult (prorettype : Oid) (rvTypeStruct : PgTypeRow) : Build Unit :=
  if rvTypeStruct.typtype = .pseudo then
    if prorettype = triggerOid then .fail .triggerResult
    else if prorettype ≠ voidOid ∧ prorettype ≠ recordOid then .fail (.pseudoResult prorettype)
    else pure ()
  else pure ()

/-- The names of the arguments; one that is null or empty is none. -/
def argumentNames (nargs : ℕ) : Option (List (Option CString)) → Build (List (Option CString))
  | none => pure (List.replicate nargs none)
  | some names =>
      if nargs = 0 then pure []
      else if names.length ≠ nargs then .fail .argumentNames
      else pure (names.map fun name => name.filter (· ≠ []))

/-- The information composed from the catalog. -/
def composeProcedure (funcOid : Oid) : Build PlcProcEntry :=
  fetchProc funcOid >>= fun proc =>
    fetchType proc.2.prorettype >>= fun rvType =>
      checkResult proc.2.prorettype rvType.2 >>= fun _ =>
        fillCachedType proc.2.prorettype >>= fun result =>
          Lookup.each fillCachedType proc.2.proargtypes >>= fun args =>
            argumentNames proc.2.proargtypes.length proc.2.proargnames >>= fun argnames =>
              pure ⟨funcOid, proc.1, proc.2.proname, proc.2.prosrc, argnames, args, result⟩

/-! ## `plc_procedure_valid` -/

section Valid

variable (s : Versions)

mutual

def plcTypeValid : CachedType → Except CatalogError Bool
  | .scalar _ _ => pure true
  | .dropped _ => pure true
  | .array _ elem => plcTypeValid elem
  | .udt _ rel _ subTypes => do
      let valid ← plcSubTypesValid subTypes
      if valid then
        match rel with
        -- a record may have changed with the query
        | none => pure false
        | some (relid, version) =>
            match s (.cls relid) with
            | none => throw (.relationLookupFailed relid)
            | some current => pure (decide (version = current))
      else pure false

/-- The loop over the subtypes, which ends at the first one that is not valid. -/
def plcSubTypesValid : List CachedType → Except CatalogError Bool
  | [] => pure true
  | t :: ts => do
      let valid ← plcTypeValid t
      if valid then plcSubTypesValid ts else pure false

end

/-- The types of the arguments and then that of the result. -/
def PlcProcEntry.typesValid (proc : PlcProcEntry) : Except CatalogError Bool := do
  let valid ← plcSubTypesValid s proc.args
  if valid then plcTypeValid s proc.result else pure false

/-- `plc_procedure_valid` for an entry, given the version of the row of `pg_proc`. -/
def PlcProcEntry.procedureValid (proc : PlcProcEntry) (version : RowVersion) :
    Except CatalogError Bool :=
  if proc.fnVersion = version then proc.typesValid s else pure false

end Valid

/-- The entry in the cache. -/
def PlcProcEntry.procInfo (proc : PlcProcEntry) (hasChanged : Bool) : PlcProcInfo :=
  ⟨proc.funcOid, proc.fnVersion, proc.name, proc.src, hasChanged⟩

/-- What the sessions of the cache take as given of the types is this check. -/
theorem PlcProcEntry.procedureValid_eq {s : Versions} {proc : PlcProcEntry} {typesValid : Bool}
    (h : proc.typesValid s = .ok typesValid) (hasChanged : Bool) (version : RowVersion) :
    proc.procedureValid s version
      = .ok (plcProcedureValid (some (proc.procInfo hasChanged)) version typesValid) := by
  rw [procedureValid, plcProcedureValid, procInfo]
  by_cases hversion : proc.fnVersion = version
  · simp [hversion, h]
  · simp [hversion, pure, Except.pure]

end PlContainer
