import PlContainer.Backend.ProcedureInfo

set_option autoImplicit false

/-! # Whether a cached function is up to date

The builder reads rows of four catalogs, the validator compares the versions of `pg_proc` and
`pg_class` rows only. A row of `pg_type` or `pg_attribute` that is updated alone, as when an attribute
is renamed, goes unnoticed. `accepted_current_iff` says that this is the only gap: an accepted entry is
what the builder would make now, whatever the updated rows hold, exactly when no row that was read has
been updated. -/

namespace PlContainer

/-- What the cached information says about a call: the source, the names of the arguments, and the
    type trees. -/
structure PlcProcEntry.SameAs (proc' proc : PlcProcEntry) : Prop where
  src : proc'.src = proc.src
  argnames : proc'.argnames = proc.argnames
  args : proc'.args.map CachedType.tree = proc.args.map CachedType.tree
  result : proc'.result.tree = proc.result.tree

/-- `plc_procedure_valid` accepts the entry. -/
def PlcProcEntry.Accepted (s : Versions) (proc : PlcProcEntry) : Prop :=
  ∃ version, s (.proc proc.funcOid) = some version ∧ proc.procedureValid s version = .ok true

/-- The rows read to compose the information of a function. -/
def rowsRead (c : Contents) (s : Versions) (funcOid : Oid) : List CatalogRow :=
  (composeProcedure funcOid).trace (catalogAt c s)

/-- The contents agree on the versions that are current in `s`. -/
def AgreeAt (s : Versions) (c c' : Contents) : Prop := ∀ r v, s r = some v → c' r v = c r v

/-! ## Rows that have not been updated -/

theorem catalogAt_congr {c c' : Contents} {s s' : Versions} (hc : AgreeAt s c c') {r : CatalogRow}
    (hr : s' r = s r) : catalogAt c' s' r = catalogAt c s r := by
  rw [catalogAt, catalogAt, hr]
  cases hv : s r with
  | none => rfl
  | some v => simp [hc r v hv]

theorem run_fetch_catalogAt {c : Contents} {s : Versions} {r : CatalogRow} {e : CatalogError}
    {x : RowVersion × r.Content} :
    (Lookup.fetch r e : Build (RowVersion × r.Content)).run (catalogAt c s) = .ok x ↔
      s r = some x.1 ∧ c r x.1 = x.2 := by
  rw [Lookup.run_fetch_eq_ok, catalogAt, Option.map_eq_some_iff]
  constructor
  · rintro ⟨v, hv, rfl⟩
    exact ⟨hv, rfl⟩
  · rintro ⟨hv, hx⟩
    exact ⟨x.1, hv, by rw [hx]⟩

/-! ## What the validator has compared -/

section Valid

variable {s : Versions}

theorem plcSubTypesValid_cons {t : CachedType} {ts : List CachedType}
    (h : plcSubTypesValid s (t :: ts) = .ok true) :
    plcTypeValid s t = .ok true ∧ plcSubTypesValid s ts = .ok true := by
  rw [plcSubTypesValid] at h
  cases ht : plcTypeValid s t with
  | error e =>
      rw [ht] at h
      cases h
  | ok valid =>
      rw [ht] at h
      cases valid with
      | true => exact ⟨rfl, h⟩
      | false => cases h

/-- A valid row type is that of a relation in the version it was read in, and its subtypes are
    valid. -/
theorem plcTypeValid_udt {ptr : Bool} {rel : Option (Oid × RowVersion)} {typeName : Option CString}
    {subTypes : List CachedType}
    (h : plcTypeValid s (.udt ptr rel typeName subTypes) = .ok true) :
    ∃ relid version, rel = some (relid, version) ∧ s (.cls relid) = some version ∧
      plcSubTypesValid s subTypes = .ok true := by
  unfold plcTypeValid at h
  cases hsub : plcSubTypesValid s subTypes with
  | error e =>
      rw [hsub] at h
      cases h
  | ok valid =>
      rw [hsub] at h
      cases valid with
      | false => cases h
      | true =>
          rcases rel with _ | ⟨relid, version⟩
          · cases h
          · cases hcls : s (.cls relid) with
            | none =>
                simp only [Bind.bind, Except.bind, if_true, hcls] at h
                cases h
            | some current =>
                simp only [Bind.bind, Except.bind, if_true, hcls] at h
                have hsame : version = current := of_decide_eq_true (Except.ok.inj h)
                exact ⟨relid, version, rfl, hsame ▸ hcls, rfl⟩

theorem plcTypeValid_withName (name : CString) (t : CachedType) :
    plcTypeValid s (t.withName name) = plcTypeValid s t := by
  cases t <;> simp [CachedType.withName, plcTypeValid]

theorem PlcProcEntry.Accepted.valid {proc : PlcProcEntry} (h : proc.Accepted s) :
    s (.proc proc.funcOid) = some proc.fnVersion ∧ plcSubTypesValid s proc.args = .ok true ∧
      plcTypeValid s proc.result = .ok true := by
  obtain ⟨version, hproc, hvalid⟩ := h
  rw [PlcProcEntry.procedureValid] at hvalid
  split at hvalid
  next hversion =>
    rw [PlcProcEntry.typesValid] at hvalid
    cases hargs : plcSubTypesValid s proc.args with
    | error e =>
        rw [hargs] at hvalid
        cases hvalid
    | ok valid =>
        rw [hargs] at hvalid
        cases valid with
        | false => cases hvalid
        | true => exact ⟨hversion ▸ hproc, rfl, hvalid⟩
  next => cases hvalid

end Valid

/-! ## Names in a tree -/

namespace CachedType

def name : CachedType → Option CString
  | .scalar _ typeName => typeName
  | .array typeName _ => typeName
  | .udt _ _ typeName _ => typeName
  | .dropped typeName => some typeName

theorem name_tree (t : CachedType) : t.tree.name = t.name := by
  cases t <;> simp [tree, name]

theorem name_withName (n : CString) (t : CachedType) : (t.withName n).name = some n := by
  cases t <;> rfl

theorem withName_withName (n n' : CString) (t : CachedType) :
    (t.withName n).withName n' = t.withName n' := by
  cases t <;> rfl

end CachedType

theorem name_of_fillSubType {fillAttr : Oid → Build CachedType} {attr : PgAttribute}
    {c : Contents} {s : Versions} {t : CachedType}
    (h : (fillSubType fillAttr attr).run (catalogAt c s) = .ok t) : t.name = some attr.attname := by
  rw [fillSubType] at h
  split at h
  · cases h
    rfl
  · obtain ⟨sub, -, h⟩ := Lookup.run_bind_eq_ok.1 h
    cases h
    exact sub.name_withName _

/-! ## Rows that have been updated -/

/-- Contents that show every update: a version of a type that is not the current one is a domain, and
    such a version of an attribute has another name. -/
def updatedContents (c : Contents) (s : Versions) : Contents
  | .typ oid, v =>
      if s (.typ oid) = some v then c (.typ oid) v else ⟨[], .domain, none, by simp, by simp⟩
  | .attr relid attnum, v =>
      match s (.attr relid attnum) with
      | none => c (.attr relid attnum) v
      | some current =>
          if current = v then c (.attr relid attnum) v
          else
            let attr : PgAttribute := c (.attr relid attnum) current
            { attr with attname := 0 :: attr.attname }
  | .proc oid, v => c (.proc oid) v
  | .cls oid, v => c (.cls oid) v
  | .callResult, v => c .callResult v

theorem agreeAt_updatedContents (c : Contents) (s : Versions) : AgreeAt s c (updatedContents c s) := by
  intro r v hv
  cases r with
  | proc oid => rfl
  | cls oid => rfl
  | callResult => rfl
  | typ oid => simp [updatedContents, hv]
  | attr relid attnum => simp [updatedContents, hv]

section Pins

variable {c : Contents} {s s' : Versions}

/-- A type that is still no domain has not been updated. -/
theorem pinned_type {typeOid : Oid} {x x' : RowVersion × PgTypeRow}
    (h : (fetchType typeOid).run (catalogAt c s) = .ok x)
    (h' : (fetchType typeOid).run (catalogAt (updatedContents c s) s') = .ok x')
    (hdomain : x'.2.typtype ≠ .domain) : x' = x ∧ s' (.typ typeOid) = s (.typ typeOid) := by
  obtain ⟨hv, hc⟩ := run_fetch_catalogAt.1 h
  obtain ⟨hv', hc'⟩ := run_fetch_catalogAt.1 h'
  by_cases hsame : s (.typ typeOid) = some x'.1
  · have hversion : x'.1 = x.1 := Option.some.inj (hsame.symm.trans hv)
    refine ⟨Prod.ext hversion ?_, hv'.trans hsame.symm⟩
    rw [← hc, ← hc', ← hversion]
    exact agreeAt_updatedContents c s _ _ hsame
  · refine absurd ?_ hdomain
    rw [← hc']
    simp [updatedContents, hsame]

/-- An attribute that still has its name has not been updated. -/
theorem pinned_attribute {relid : Oid} {attnum : ℕ} {x x' : RowVersion × PgAttribute}
    (h : (fetchAttribute relid attnum).run (catalogAt c s) = .ok x)
    (h' : (fetchAttribute relid attnum).run (catalogAt (updatedContents c s) s') = .ok x')
    (hname : x'.2.attname = x.2.attname) :
    x' = x ∧ s' (.attr relid attnum) = s (.attr relid attnum) := by
  obtain ⟨hv, hc⟩ := run_fetch_catalogAt.1 h
  obtain ⟨hv', hc'⟩ := run_fetch_catalogAt.1 h'
  by_cases hsame : x'.1 = x.1
  · have hcurrent : s (.attr relid attnum) = some x'.1 := by rw [hsame, hv]
    refine ⟨Prod.ext hsame ?_, hv'.trans hcurrent.symm⟩
    rw [← hc, ← hc', ← hsame]
    exact agreeAt_updatedContents c s _ _ hcurrent
  · have hrenamed : x'.2.attname = 0 :: x.2.attname := by
      rw [← hc', ← hc]
      simp [updatedContents, hv, Ne.symm hsame]
    rw [hname] at hrenamed
    exact absurd hrenamed (List.ne_cons_self)

variable (c s s') in
/-- The program shows every update: if it makes the same tree of the updated rows, and the validator
    finds the tree valid, then no row that it read has been updated. The name at the top of the tree
    is left out, since it is set afterwards. -/
def Pins (p : Build CachedType) : Prop :=
  ∀ t t' name, p.run (catalogAt c s) = .ok t → p.run (catalogAt (updatedContents c s) s') = .ok t' →
    (t'.withName name).tree = (t.withName name).tree → plcTypeValid s' t = .ok true →
      ∀ r ∈ p.trace (catalogAt c s), s' r = s r

theorem pins_pure (t : CachedType) : Pins c s s' (pure t) := by
  intro _ _ _ _ _ _ _ r hr
  exact absurd hr List.not_mem_nil

theorem pins_each {α : Type} {f : α → Build CachedType} (hf : ∀ a, Pins c s s' (f a)) (as : List α)
    {ts ts' : List CachedType} (h : (Lookup.each f as).run (catalogAt c s) = .ok ts)
    (h' : (Lookup.each f as).run (catalogAt (updatedContents c s) s') = .ok ts')
    (htrees : ts'.map CachedType.tree = ts.map CachedType.tree)
    (hvalid : plcSubTypesValid s' ts = .ok true) :
    ∀ r ∈ (Lookup.each f as).trace (catalogAt c s), s' r = s r := by
  induction as generalizing ts ts' with
  | nil =>
      intro r hr
      exact absurd hr List.not_mem_nil
  | cons a as ih =>
      intro r hr
      obtain ⟨t, ht, h⟩ := Lookup.run_bind_eq_ok.1 h
      obtain ⟨ts, hts, h⟩ := Lookup.run_bind_eq_ok.1 h
      obtain ⟨t', ht', h'⟩ := Lookup.run_bind_eq_ok.1 h'
      obtain ⟨ts', hts', h'⟩ := Lookup.run_bind_eq_ok.1 h'
      cases h
      cases h'
      obtain ⟨hvalid, hvalids⟩ := plcSubTypesValid_cons hvalid
      obtain ⟨htree, htrees⟩ := List.cons.inj htrees
      rw [Lookup.each, Lookup.trace_bind ht, Lookup.trace_bind hts, Lookup.trace_done,
        List.append_nil, List.mem_append] at hr
      rcases hr with hr | hr
      · refine hf a t t' [] ht ht' ?_ hvalid r hr
        rw [CachedType.tree_withName, CachedType.tree_withName, htree]
      · exact ih hts hts' htrees hvalids r hr

variable {isArrayElement isUDTElement : Bool} {fillElem fillAttr : Oid → Build CachedType}

theorem pins_fillSubType (hattr : ∀ oid, Pins c s s' (fillAttr oid)) (attr : PgAttribute) :
    Pins c s s' (fillSubType fillAttr attr) := by
  rw [fillSubType]
  split
  · exact pins_pure _
  · intro t t' name h h' htree hvalid r hr
    obtain ⟨sub, hsub, h⟩ := Lookup.run_bind_eq_ok.1 h
    obtain ⟨sub', hsub', h'⟩ := Lookup.run_bind_eq_ok.1 h'
    cases h
    cases h'
    rw [CachedType.withName_withName, CachedType.withName_withName] at htree
    rw [plcTypeValid_withName] at hvalid
    rw [Lookup.trace_bind hsub, Lookup.trace_pure, List.append_nil] at hr
    exact hattr attr.atttypid sub sub' name hsub hsub' htree hvalid r hr

theorem pins_fillBase (helem : ∀ oid, Pins c s s' (fillElem oid)) (typeOid : Oid)
    (typeStruct : PgTypeRow) : Pins c s s' (fillBase isArrayElement fillElem typeOid typeStruct) := by
  rw [fillBase]
  split
  next typelem _ =>
    intro t t' name h h' htree hvalid r hr
    obtain ⟨elem, he, h⟩ := Lookup.run_bind_eq_ok.1 h
    obtain ⟨elem', he', h'⟩ := Lookup.run_bind_eq_ok.1 h'
    cases h
    cases h'
    rw [Lookup.trace_bind he, Lookup.trace_pure, List.append_nil] at hr
    simp only [CachedType.withName, CachedType.tree, CachedType.array.injEq, true_and] at htree
    rw [plcTypeValid] at hvalid
    refine helem typelem elem elem' [] he he' ?_ hvalid r hr
    rw [CachedType.tree_withName, CachedType.tree_withName, htree]
  next => exact pins_pure _

/-- The attributes from which trees of the same names were made. -/
theorem names_of_trees {attrs attrs' : List PgAttribute} {ts ts' : List CachedType}
    {c' : Contents} (h : (Lookup.each (fillSubType fillAttr) attrs).run (catalogAt c s) = .ok ts)
    (h' : (Lookup.each (fillSubType fillAttr) attrs').run (catalogAt c' s') = .ok ts')
    (htrees : ts'.map CachedType.tree = ts.map CachedType.tree) :
    attrs'.map PgAttribute.attname = attrs.map PgAttribute.attname := by
  have hnames {attrs : List PgAttribute} {ts : List CachedType} {c : Contents} {s : Versions}
      (h : (Lookup.each (fillSubType fillAttr) attrs).run (catalogAt c s) = .ok ts) :
      (ts.map CachedType.tree).map CachedType.name = attrs.map fun a => some a.attname := by
    rw [List.map_map]
    have hall := Lookup.run_each_eq_ok.1 h
    clear h
    induction hall with
    | nil => rfl
    | cons hsub _ ih =>
        rw [List.map_cons, List.map_cons, ih, Function.comp_apply, CachedType.name_tree,
          name_of_fillSubType hsub]
  have hsome := (hnames h').symm.trans ((congrArg (List.map CachedType.name) htrees).trans (hnames h))
  have hinj : Function.Injective (List.map (some : CString → Option CString)) :=
    List.map_injective_iff.2 (Option.some_injective _)
  apply hinj
  simpa [Function.comp_def] using hsome

/-- The attributes that were read and still have their names. -/
theorem pinned_attributes {relid : Oid} {attnums : List ℕ} {attrs attrs' : List (RowVersion × PgAttribute)}
    (h : (Lookup.each (fetchAttribute relid) attnums).run (catalogAt c s) = .ok attrs)
    (h' : (Lookup.each (fetchAttribute relid) attnums).run (catalogAt (updatedContents c s) s')
      = .ok attrs')
    (hnames : (attrs'.map Prod.snd).map PgAttribute.attname
      = (attrs.map Prod.snd).map PgAttribute.attname) :
    attrs' = attrs ∧ ∀ r ∈ (Lookup.each (fetchAttribute relid) attnums).trace (catalogAt c s),
      s' r = s r := by
  induction attnums generalizing attrs attrs' with
  | nil =>
      cases h
      cases h'
      exact ⟨rfl, fun r hr => absurd hr List.not_mem_nil⟩
  | cons attnum attnums ih =>
      obtain ⟨x, hx, h⟩ := Lookup.run_bind_eq_ok.1 h
      obtain ⟨attrs, hattrs, h⟩ := Lookup.run_bind_eq_ok.1 h
      obtain ⟨x', hx', h'⟩ := Lookup.run_bind_eq_ok.1 h'
      obtain ⟨attrs', hattrs', h'⟩ := Lookup.run_bind_eq_ok.1 h'
      cases h
      cases h'
      simp only [List.map_cons, List.cons.injEq] at hnames
      obtain ⟨rfl, hrow⟩ := pinned_attribute hx hx' hnames.1
      obtain ⟨rfl, hrows⟩ := ih hattrs hattrs' hnames.2
      refine ⟨rfl, fun r hr => ?_⟩
      rw [Lookup.each, Lookup.trace_bind hx, Lookup.trace_bind hattrs, Lookup.trace_done,
        List.append_nil, List.mem_append, trace_fetchAttribute, List.mem_singleton] at hr
      rcases hr with rfl | hr
      · exact hrow
      · exact hrows r hr

theorem pins_fillComposite (hattr : ∀ oid, Pins c s s' (fillAttr oid)) (typname : CString)
    (relid : Oid) : Pins c s s' (fillComposite isArrayElement fillAttr typname relid) := by
  intro t t' name h h' htree hvalid r hr
  obtain ⟨relation, hrel, h⟩ := Lookup.run_bind_eq_ok.1 h
  obtain ⟨attrs, hattrs, h⟩ := Lookup.run_bind_eq_ok.1 h
  obtain ⟨subs, hsubs, h⟩ := Lookup.run_bind_eq_ok.1 h
  obtain ⟨relation', hrel', h'⟩ := Lookup.run_bind_eq_ok.1 h'
  obtain ⟨attrs', hattrs', h'⟩ := Lookup.run_bind_eq_ok.1 h'
  obtain ⟨subs', hsubs', h'⟩ := Lookup.run_bind_eq_ok.1 h'
  cases h
  cases h'
  -- the validator has compared the version of the relation, and with it the number of attributes
  obtain ⟨_, _, hsome, hcls, hvalids⟩ := plcTypeValid_udt hvalid
  cases hsome
  obtain ⟨hv, hn⟩ := run_fetch_catalogAt.1 hrel
  obtain ⟨hv', hn'⟩ := run_fetch_catalogAt.1 hrel'
  have hversion : relation'.1 = relation.1 := Option.some.inj (hv'.symm.trans hcls)
  have hrelation : relation' = relation := by
    refine Prod.ext hversion ?_
    rw [← hn, ← hn', hversion]
    rfl
  subst hrelation
  -- the names in the trees are those of the attributes, which shows their updates
  simp only [CachedType.withName, CachedType.tree, CachedType.udt.injEq, true_and,
    CachedType.trees_eq_map] at htree
  obtain ⟨rfl, hrows⟩ := pinned_attributes hattrs hattrs' (names_of_trees hsubs hsubs' htree)
  have hsubrows := pins_each (pins_fillSubType hattr) _ hsubs hsubs' htree hvalids
  rw [fillComposite, Lookup.trace_bind hrel, Lookup.trace_bind hattrs, Lookup.trace_bind hsubs,
    Lookup.trace_pure, List.append_nil, List.mem_append, List.mem_append, trace_fetchRelation,
    List.mem_singleton] at hr
  rcases hr with rfl | hr | hr
  · exact hcls.trans hv.symm
  · exact hrows r hr
  · exact hsubrows r hr

theorem pins_fillStruct (helem : ∀ oid, Pins c s s' (fillElem oid))
    (hattr : ∀ oid, Pins c s s' (fillAttr oid)) (typeOid : Oid) (typeStruct : PgTypeRow) :
    Pins c s s'
      (fillStruct isArrayElement isUDTElement fillElem fillAttr typeOid typeStruct) := by
  rw [fillStruct]
  split
  · intro t t' name h
    cases h
  · intro t t' name h h' htree hvalid r hr
    obtain ⟨info, hinfo, h⟩ := Lookup.run_bind_eq_ok.1 h
    obtain ⟨info', hinfo', h'⟩ := Lookup.run_bind_eq_ok.1 h'
    rw [Lookup.trace_bind hinfo, List.mem_append] at hr
    -- without a row type the base type is the result
    have hbase (ht : t = info) (ht' : t' = info')
        (hread : r ∈ (fillBase isArrayElement fillElem typeOid typeStruct).trace (catalogAt c s)) :
        s' r = s r := by
      subst ht ht'
      exact pins_fillBase helem typeOid typeStruct t t' name hinfo hinfo' htree hvalid r hread
    split at h
    next hudt =>
      rw [if_pos hudt] at h' hr
      cases h
      cases h'
      simp only [Lookup.trace_pure, List.not_mem_nil, or_false] at hr
      exact hbase rfl rfl hr
    next hudt =>
      rw [if_neg hudt] at h' hr
      split at h
      next hrecord =>
        -- the validator accepts no record
        obtain ⟨attrs, -, h⟩ := Lookup.run_bind_eq_ok.1 h
        obtain ⟨subs, -, h⟩ := Lookup.run_bind_eq_ok.1 h
        cases h
        obtain ⟨_, _, hrel, -⟩ := plcTypeValid_udt hvalid
        cases hrel
      next hrecord =>
        rw [if_neg hrecord] at h' hr
        cases htyp : typeStruct.typtype with
        | composite relid =>
            rw [htyp] at h h' hr
            -- a composite type is no array, so nothing else has been read
            have hscalar : (fillBase isArrayElement fillElem typeOid typeStruct).trace (catalogAt c s)
                = [] := by
              rw [fillBase, typeStruct.not_both relid htyp, ite_self]
              rfl
            rw [hscalar] at hr
            rcases hr with hr | hr
            · exact absurd hr List.not_mem_nil
            · exact pins_fillComposite hattr typeStruct.typname relid t t' name h h' htree hvalid r hr
        | domain | pseudo | other =>
            rw [htyp] at h h' hr
            cases h
            cases h'
            simp only [Lookup.trace_pure, List.not_mem_nil, or_false] at hr
            exact hbase rfl rfl hr

theorem pins_fillInner (helem : ∀ oid, Pins c s s' (fillElem oid))
    (hattr : ∀ oid, Pins c s s' (fillAttr oid)) (typeOid : Oid) :
    Pins c s s' (fillInner isArrayElement isUDTElement fillElem fillAttr typeOid) := by
  intro t t' name h h' htree hvalid r hr
  obtain ⟨x, hx, h⟩ := Lookup.run_bind_eq_ok.1 h
  obtain ⟨x', hx', h'⟩ := Lookup.run_bind_eq_ok.1 h'
  have hdomain : x'.2.typtype ≠ .domain := by
    intro hdomain
    rw [fillStruct, if_pos hdomain] at h'
    cases h'
  obtain ⟨rfl, hrow⟩ := pinned_type hx hx' hdomain
  rw [fillInner, Lookup.trace_bind hx, trace_fetchType, List.mem_append, List.mem_singleton] at hr
  rcases hr with rfl | hr
  · exact hrow
  · exact pins_fillStruct helem hattr typeOid x'.2 t t' name h h' htree hvalid r hr

theorem pins_fillNone (typeOid : Oid) : Pins c s s' (fillNone typeOid) := by
  intro t t' name h
  cases h

theorem pins_fillCachedType (typeOid : Oid) : Pins c s s' (fillCachedType typeOid) := by
  have hattribute : ∀ oid, Pins c s s' (fillCachedAttribute oid) :=
    pins_fillInner (pins_fillInner pins_fillNone pins_fillNone) pins_fillNone
  have helement : ∀ oid, Pins c s s' (fillCachedElement oid) :=
    pins_fillInner pins_fillNone hattribute
  exact pins_fillInner helement hattribute typeOid

end Pins

/-! ## The whole entry -/

section

variable {c : Contents} {s s' : Versions}

theorem trace_checkResult (prorettype : Oid) (rvTypeStruct : PgTypeRow) :
    (checkResult prorettype rvTypeStruct).trace (catalogAt c s) = [] := by
  rw [checkResult]
  split
  · split
    · rfl
    · split <;> rfl
  · rfl

theorem trace_argumentNames (nargs : ℕ) (names : Option (List (Option CString))) :
    (argumentNames nargs names).trace (catalogAt c s) = [] := by
  rw [argumentNames.eq_def]
  split
  · rfl
  · split
    · rfl
    · split <;> rfl

/-- What is composed of the updated rows differs, unless none of them was read. -/
theorem unchanged_of_sameAs {funcOid : Oid} {proc proc' : PlcProcEntry}
    (h : (composeProcedure funcOid).run (catalogAt c s) = .ok proc)
    (h' : (composeProcedure funcOid).run (catalogAt (updatedContents c s) s') = .ok proc')
    (hsame : proc'.SameAs proc) (haccepted : proc.Accepted s') :
    ∀ r ∈ rowsRead c s funcOid, s' r = s r := by
  intro r hr
  obtain ⟨hversion, hargsValid, hresultValid⟩ := haccepted.valid
  obtain ⟨row, hrow, h⟩ := Lookup.run_bind_eq_ok.1 h
  obtain ⟨rv, hrv, h⟩ := Lookup.run_bind_eq_ok.1 h
  obtain ⟨_, hcheck, h⟩ := Lookup.run_bind_eq_ok.1 h
  obtain ⟨result, hresult, h⟩ := Lookup.run_bind_eq_ok.1 h
  obtain ⟨args, hargs, h⟩ := Lookup.run_bind_eq_ok.1 h
  obtain ⟨argnames, hnames, h⟩ := Lookup.run_bind_eq_ok.1 h
  obtain ⟨row', hrow', h'⟩ := Lookup.run_bind_eq_ok.1 h'
  obtain ⟨rv', -, h'⟩ := Lookup.run_bind_eq_ok.1 h'
  obtain ⟨_, -, h'⟩ := Lookup.run_bind_eq_ok.1 h'
  obtain ⟨result', hresult', h'⟩ := Lookup.run_bind_eq_ok.1 h'
  obtain ⟨args', hargs', h'⟩ := Lookup.run_bind_eq_ok.1 h'
  obtain ⟨argnames', -, h'⟩ := Lookup.run_bind_eq_ok.1 h'
  cases h
  cases h'
  -- the validator has compared the version of the row of `pg_proc`
  obtain ⟨hv, hproc⟩ := run_fetch_catalogAt.1 hrow
  obtain ⟨hv', hproc'⟩ := run_fetch_catalogAt.1 hrow'
  have hsameRow : row' = row := by
    have hsameVersion : row'.1 = row.1 := Option.some.inj (hv'.symm.trans hversion)
    refine Prod.ext hsameVersion ?_
    rw [← hproc, ← hproc', hsameVersion]
    rfl
  subst hsameRow
  have hresultRows := pins_fillCachedType row'.2.prorettype result result' [] hresult hresult'
    (by rw [CachedType.tree_withName, CachedType.tree_withName, hsame.result]) hresultValid
  have hargsRows := pins_each pins_fillCachedType _ hargs hargs' hsame.args hargsValid
  have hrvRow : CatalogRow.typ row'.2.prorettype ∈
      (fillCachedType row'.2.prorettype).trace (catalogAt c s) := by
    rw [fillCachedType, fillInner, Lookup.trace_bind hrv, trace_fetchType]
    exact List.mem_cons_self ..
  rw [rowsRead, composeProcedure, Lookup.trace_bind hrow, Lookup.trace_bind hrv,
    Lookup.trace_bind hcheck, Lookup.trace_bind hresult, Lookup.trace_bind hargs,
    Lookup.trace_bind hnames, trace_fetchProc, trace_fetchType, trace_checkResult,
    trace_argumentNames, Lookup.trace_pure, List.append_nil, List.append_nil, List.nil_append] at hr
  simp only [List.mem_append, List.mem_singleton] at hr
  rcases hr with rfl | rfl | hr | hr
  · exact hversion.trans hv.symm
  · exact hresultRows _ hrvRow
  · exact hresultRows r hr
  · exact hargsRows r hr

end

/-- **An accepted entry is up to date**, whatever the updated rows hold, exactly when no row that it
    was composed of has been updated. The rows of `pg_proc` and `pg_class` among them are those that
    the validator compares; those of `pg_type` and `pg_attribute` it does not look at. -/
theorem accepted_current_iff (c : Contents) (s s' : Versions) (funcOid : Oid) (proc : PlcProcEntry)
    (h : (composeProcedure funcOid).run (catalogAt c s) = .ok proc) :
    (∀ c', AgreeAt s c c' → proc.Accepted s' →
      ∃ proc', (composeProcedure funcOid).run (catalogAt c' s') = .ok proc' ∧ proc'.SameAs proc) ↔
    (proc.Accepted s' → ∀ r ∈ rowsRead c s funcOid, s' r = s r) := by
  constructor
  · intro hcurrent haccepted
    obtain ⟨proc', h', hsame⟩ := hcurrent _ (agreeAt_updatedContents c s) haccepted
    exact unchanged_of_sameAs h h' hsame haccepted
  · intro hrows c' hc haccepted
    refine ⟨proc, ?_, rfl, rfl, rfl, rfl⟩
    rw [← h]
    exact Lookup.run_congr _ fun r hr => catalogAt_congr hc (hrows haccepted r hr)

/-- A function of one argument, of a composite type with one attribute. The second version of the
    attribute has another name. -/
def onePairContents : Contents
  | .proc _, _ => ⟨[102], [1], int4Oid, [100], none⟩
  | .cls _, _ => (1 : ℕ)
  | .attr _ _, v => ⟨if v.tid = 1 then [97] else [98], int4Oid, false⟩
  | .typ oid, _ =>
      if oid = 100 then ⟨[116], .composite 200, none, by simp, by simp⟩
      else ⟨[], .other, none, by simp, by simp⟩
  | .callResult, _ => ([] : List PgAttribute)

def firstVersions : Versions := fun _ => some ⟨1, 1⟩

/-- The attribute has been renamed, which updates its row of `pg_attribute` only. -/
def renamedVersions : Versions := fun r => if r = .attr 200 0 then some ⟨2, 2⟩ else some ⟨1, 1⟩

/-- What is cached of the function, with the name of the attribute. -/
def onePairEntry (attname : CString) : PlcProcEntry :=
  ⟨1, ⟨1, 1⟩, [102], [1], [none],
    [.udt false (some (200, ⟨1, 1⟩)) (some [116]) [.scalar .int4 (some attname)]], .scalar .int4 none⟩

theorem accepted_current_onePair :
    (composeProcedure 1).run (catalogAt onePairContents firstVersions) = .ok (onePairEntry [97]) ∧
    ((∀ c', AgreeAt firstVersions onePairContents c' → (onePairEntry [97]).Accepted firstVersions →
      ∃ proc', (composeProcedure 1).run (catalogAt c' firstVersions) = .ok proc' ∧
        proc'.SameAs (onePairEntry [97])) ↔
    ((onePairEntry [97]).Accepted firstVersions →
      ∀ r ∈ rowsRead onePairContents firstVersions 1, firstVersions r = firstVersions r)) :=
  ⟨rfl, accepted_current_iff onePairContents firstVersions firstVersions 1 (onePairEntry [97]) rfl⟩

/-- The entry is accepted after the attribute has been renamed, and still has the old name. -/
theorem renamed_attribute_accepted :
    (composeProcedure 1).run (catalogAt onePairContents firstVersions) = .ok (onePairEntry [97]) ∧
    (onePairEntry [97]).Accepted renamedVersions ∧
    (composeProcedure 1).run (catalogAt onePairContents renamedVersions) = .ok (onePairEntry [98]) ∧
    ¬ (onePairEntry [98]).SameAs (onePairEntry [97]) := by
  refine ⟨rfl, ⟨⟨1, 1⟩, rfl, rfl⟩, rfl, fun hsame => ?_⟩
  have htrees := hsame.args
  simp [onePairEntry, CachedType.tree, CachedType.trees] at htrees

end PlContainer
