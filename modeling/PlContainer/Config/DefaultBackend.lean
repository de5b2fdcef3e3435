import PlContainer.Config.Acceptance

set_option autoImplicit false

/-! # The backend called default

The name `default` is resolved in two places. A `<backend name="default"/>` of a runtime is looked up
with `take_plcbackend_byname`, which returns the first backend of the name. A runtime without a
`<backend>` gets the last one, from a loop that does not stop. The built-in backend is at position 0, so
the two agree as long as no backend of the document has its name. -/

namespace PlContainer

open Checked Runs

/-! ## The two lookups -/

section Lookup

variable {env : LoaderEnv} {first : PlcBackend} {backends : List PlcBackend}

theorem takePlcbackendByname_cons (h : first.name = defaultText) :
    takePlcbackendByname (first :: backends) defaultText = some 0 := by
  rw [takePlcbackendByname, List.findIdx?_cons, if_pos (decide_eq_true h)]

/-- The loop ends at position 0 if no later backend has the name. -/
theorem defaultRef_cons_eq_zero (h : first.name = defaultText) :
    defaultRef (first :: backends) = some 0 ↔ ∀ b ∈ backends, b.name ≠ defaultText := by
  have hlater : ((List.range backends.length).map Nat.succ).filter (fun i =>
      (first :: backends)[i]?.any fun b => decide (b.name = defaultText)) = [] ↔
        ∀ b ∈ backends, b.name ≠ defaultText := by
    simp only [List.filter_eq_nil_iff, List.forall_mem_map, List.mem_range, Nat.succ_eq_add_one,
      List.getElem?_cons_succ, List.forall_mem_iff_getElem]
    refine forall₂_congr fun i hi => ?_
    rw [List.getElem?_eq_getElem hi, Option.any_some, decide_eq_true_iff]
  rw [← hlater, defaultRef, List.length_cons, List.range_succ_eq_map, List.filter_cons,
    List.getElem?_cons_zero, Option.any_some, if_pos (decide_eq_true h), List.getLast?_cons,
    Option.some_inj]
  constructor
  · intro hlast
    -- every other position that the loop stops at is a successor
    by_contra hne
    rw [List.getLast?_eq_some_getLast hne, Option.getD_some] at hlast
    have hmem := List.mem_of_mem_filter (List.getLast_mem hne)
    rw [hlast] at hmem
    obtain ⟨j, -, hj⟩ := List.mem_map.1 hmem
    exact Nat.succ_ne_zero j hj
  · intro hnil
    rw [hnil, List.getLast?_nil, Option.getD_none]

theorem isRemote_defaultBackend (env : LoaderEnv) : (defaultBackend env).isRemote = false := by
  unfold defaultBackend PlcBackend.isRemote
  cases env.processBackend with
  | true => rfl
  | false => rfl

theorem name_xmlReadBackend {e : XmlElement} {b : PlcBackend} (hok : xmlReadBackend e = .ok b) :
    xmlGetProp e.props .name = some b.name := by
  obtain ⟨name, hname, hok⟩ := bind_eq_ok.1 hok
  obtain ⟨type, -, hok⟩ := bind_eq_ok.1 hok
  suffices hb : b.name = name by rw [hb, readProperty_eq_ok.1 hname]
  split at hok
  · obtain ⟨address, -, hok⟩ := bind_eq_ok.1 hok
    rw [← pure_eq_ok.1 hok]
  · split at hok
    · obtain ⟨_, -, hok⟩ := bind_eq_ok.1 hok
      obtain ⟨_, -, hok⟩ := bind_eq_ok.1 hok
      obtain ⟨_, -, hok⟩ := bind_eq_ok.1 hok
      obtain ⟨_, -, hok⟩ := bind_eq_ok.1 hok
      obtain ⟨_, -, hok⟩ := bind_eq_ok.1 hok
      rw [← pure_eq_ok.1 hok]
    · exact (throw_eq_ok.1 hok).elim

theorem names_xmlReadBackend {es : List XmlElement} (hok : es.mapM xmlReadBackend = .ok backends) :
    backends.map PlcBackend.name = es.filterMap fun e => xmlGetProp e.props .name := by
  have hread := forall₂_of_mapM hok
  clear hok
  induction hread with
  | nil => rfl
  | cons hfirst _ ih => rw [List.map_cons, List.filterMap_cons, name_xmlReadBackend hfirst, ih]

/-- The table of backends: the built-in one, then those of the document under their names. -/
theorem parseRuntimeBackendConfiguration_eq (env : LoaderEnv) {root : XmlElement}
    (h : ∀ e ∈ childrenNamed .backend root.children, BackendRules e) :
    ∃ backends, parseRuntimeBackendConfiguration env root = .ok (defaultBackend env :: backends) ∧
      backends.map PlcBackend.name =
        (childrenNamed .backend root.children).filterMap fun e => xmlGetProp e.props .name := by
  obtain ⟨table, hok⟩ := (succeeds_parseRuntimeBackendConfiguration env root).2 h
  obtain ⟨backends, hbackends, htable⟩ := bind_eq_ok.1 hok
  exact ⟨backends, by rw [hok, ← pure_eq_ok.1 htable], names_xmlReadBackend hbackends⟩

end Lookup

/-! ## The entry of a runtime in the table -/

section Entry

variable {env : LoaderEnv} {backends : List PlcBackend} {table table' : List RuntimeConfEntry}
  {es : List XmlElement}

theorem findEntry_append {id : XmlText} {entry : RuntimeConfEntry}
    (h : findEntry id table = some entry) (entries : List RuntimeConfEntry) :
    findEntry id (table ++ entries) = some entry := by
  unfold findEntry at h ⊢
  rw [List.find?_append, h, Option.some_or]

/-- The runtimes that are read later leave the entries as they are. -/
theorem findEntry_parseRuntimes_of_some {id : XmlText} {entry : RuntimeConfEntry}
    (hok : parseRuntimes env backends es table = (.ok (), table'))
    (h : findEntry id table = some entry) : findEntry id table' = some entry := by
  induction es generalizing table with
  | nil =>
      cases hok
      exact h
  | cons e es ih =>
      rw [parseRuntimes] at hok
      split at hok
      next => cases hok
      next table₁ hfirst =>
        obtain ⟨-, -, -, new, rfl, -⟩ := parseRuntimeConfiguration_eq_ok hfirst
        exact ih hok (findEntry_append h [new])

/-- Each runtime is found under its id, with the entry that was made from its children. -/
theorem findEntry_parseRuntimes (hok : parseRuntimes env backends es table = (.ok (), table'))
    {e : XmlElement} (he : e ∈ es) {id : XmlElement} (hid : id ∈ childrenNamed .id e.children) :
    ∃ entry runtimeid, findEntry id.getContent table' = some entry ∧
      parseRuntime env backends runtimeid e.children = .ok entry := by
  induction es generalizing table with
  | nil => cases he
  | cons first es ih =>
      rw [parseRuntimes] at hok
      split at hok
      next => cases hok
      next table₁ hfirst =>
        rcases List.mem_cons.1 he with rfl | he
        · obtain ⟨-, -, hnew, entry, rfl, hkeys⟩ := parseRuntimeConfiguration_eq_ok hfirst
          obtain ⟨runtimeid, hparse⟩ := parseRuntime_of_accepted hfirst
          have hkey : runtimeKey id.getContent ∈ keysOf e := List.mem_map_of_mem hid
          refine ⟨entry, runtimeid, findEntry_parseRuntimes_of_some hok ?_, hparse⟩
          have hnone : findEntry id.getContent table = none := by
            rw [findEntry, List.find?_eq_none]
            intro old hold
            simpa using hnew _ hkey old hold
          rw [hkeys, List.mem_singleton] at hkey
          unfold findEntry at hnone ⊢
          rw [List.find?_append, hnone, Option.none_or, List.find?_singleton,
            if_pos (decide_eq_true hkey.symm)]
        · exact ih hok he

/-- The tables of an accepted document. -/
theorem getRuntimeConfigurations_eq {root : XmlElement} (h : LoaderRules env root)
    (hbackends : parseRuntimeBackendConfiguration env root = .ok backends) :
    ∃ runtimes, getRuntimeConfigurations env root = (.ok (), ⟨runtimes, backends⟩) ∧
      parseRuntimes env backends (childrenNamed .runtime root.children) [] = (.ok (), runtimes) := by
  obtain ⟨⟨⟩, hok⟩ := (loaderAccepts_iff env root).2 h
  rw [getRuntimeConfigurations, if_neg (not_not.2 h.rootTag), hbackends] at hok ⊢
  dsimp only at hok ⊢
  split at hok
  next => cases hok
  next runtimes hruntimes =>
    rw [hruntimes]
    exact ⟨runtimes, Prod.ext hok rfl, rfl⟩

end Entry

/-! ## A runtime with and without its backend -/

/-- The position in the table of backends that the entry of a runtime points to. -/
def ConfTables.backendOf (tables : ConfTables) (id : XmlText) : Option ℕ :=
  (findEntry id tables.runtimes).bind RuntimeConfEntry.backend

/-- There is no `<backend>` among the children. -/
def NamesNoBackend (children : List XmlNode) : Prop :=
  ∀ child ∈ elements children, child.tag ≠ .backend

/-- A runtime that names no backend, cut where a `<backend name="default"/>` goes. -/
structure DefaultPlace where
  ns : XmlText
  props : List XmlProp
  front : List XmlNode
  back : List XmlNode
  backend : XmlElement
  namesNone : NamesNoBackend (front ++ back)
  tag : backend.tag = .backend
  name : xmlGetProp backend.props .name = some defaultText

namespace DefaultPlace

/-- The runtime as it is. -/
def absent (place : DefaultPlace) : XmlElement :=
  ⟨place.ns, .runtime, place.props, place.front ++ place.back⟩

/-- The runtime with its `<backend name="default"/>`. -/
def named (place : DefaultPlace) : XmlElement :=
  ⟨place.ns, .runtime, place.props, place.front ++ place.backend.toNode :: place.back⟩

end DefaultPlace

theorem childrenNamed_append (tag : Tag) (children children' : List XmlNode) :
    childrenNamed tag (children ++ children') =
      childrenNamed tag children ++ childrenNamed tag children' := by
  rw [childrenNamed, elements_append, List.filter_append, childrenNamed, childrenNamed]

theorem childrenNamed_toNode {tag : Tag} {e : XmlElement} (h : e.tag = tag)
    (children : List XmlNode) :
    childrenNamed tag (e.toNode :: children) = e :: childrenNamed tag children :=
  List.filter_cons_of_pos (decide_eq_true h)

theorem childrenNamed_toNode_of_ne {tag : Tag} {e : XmlElement} (h : e.tag ≠ tag)
    (children : List XmlNode) :
    childrenNamed tag (e.toNode :: children) = childrenNamed tag children :=
  List.filter_cons_of_neg (by simpa using h)

namespace DefaultPlace

variable {env : LoaderEnv} {backends : List PlcBackend} (place : DefaultPlace)

/-- The children other than the backends are the same. -/
theorem childrenNamed_named {tag : Tag} (h : tag ≠ .backend) :
    childrenNamed tag place.named.children = childrenNamed tag place.absent.children := by
  rw [named, absent, childrenNamed_append, childrenNamed_append,
    childrenNamed_toNode_of_ne (by rw [place.tag]; exact h.symm)]

theorem elements_named :
    elements place.named.children =
      elements place.front ++ place.backend :: elements place.back :=
  elements_append _ _

/-- A `<backend name="default"/>` is accepted anywhere: the built-in backend needs no network. -/
theorem childRules_backend (network : Bool) :
    ChildRules env (defaultBackend env :: backends) network place.backend := by
  rw [ChildRules, place.tag]
  refine ⟨defaultText, 0, place.name, takePlcbackendByname_cons rfl, fun hremote => ?_⟩
  rw [List.getElem?_cons_zero, Option.any_some, isRemote_defaultBackend] at hremote
  cases hremote

theorem everyStep_named
    (h : EveryStep networkAfter (ChildRules env (defaultBackend env :: backends)) false
      (elements place.absent.children)) :
    EveryStep networkAfter (ChildRules env (defaultBackend env :: backends)) false
      (elements place.named.children) := by
  rw [absent, elements_append, everyStep_append] at h
  rw [elements_named, everyStep_append]
  refine ⟨h.1, place.childRules_backend _, ?_⟩
  rw [networkAfter_of_backend place.tag]
  exact h.2

theorem runtimeRules_named (h : RuntimeRules env (defaultBackend env :: backends) place.absent) :
    RuntimeRules env (defaultBackend env :: backends) place.named := by
  refine ⟨place.everyStep_named h.children, ?_, ?_, ?_, ?_⟩
  · rw [HasOne, place.childrenNamed_named (by simp)]
    exact h.image
  · rw [HasOne, place.childrenNamed_named (by simp)]
    exact h.command
  · rw [place.childrenNamed_named (by simp)]
    exact h.sharedDirs
  · rw [place.childrenNamed_named (by simp)]
    exact h.distinctPaths

theorem idRules_named (h : IdRules place.absent) : IdRules place.named := by
  refine ⟨?_, ?_⟩
  · rw [HasOne, place.childrenNamed_named (by simp)]
    exact h.one
  · rw [place.childrenNamed_named (by simp)]
    exact h.short

theorem keysOf_named : keysOf place.named = keysOf place.absent := by
  rw [keysOf, place.childrenNamed_named (by simp), keysOf]

theorem foldl_backendAfter_of_none {es : List XmlElement} (h : ∀ child ∈ es, child.tag ≠ .backend)
    (i : Option ℕ) : es.foldl (backendAfter backends) i = i := by
  obtain ⟨-, hfold⟩ | ⟨child, hchild, htag, -⟩ := foldl_backendAfter_cases backends es i
  · exact hfold
  · exact (h child hchild htag).elim

theorem backend_absent {entry : RuntimeConfEntry} {runtimeid : XmlText}
    (hok : parseRuntime env backends runtimeid place.absent.children = .ok entry) :
    entry.backend = defaultRef backends := by
  rw [(parseRuntime_eq_ok hok).2, absent, foldl_backendAfter_of_none place.namesNone,
    Option.none_or]

theorem backend_named {entry : RuntimeConfEntry} {runtimeid : XmlText}
    (hok : parseRuntime env (defaultBackend env :: backends) runtimeid place.named.children =
      .ok entry) : entry.backend = some 0 := by
  have hnone := place.namesNone
  rw [NamesNoBackend, elements_append, List.forall_mem_append] at hnone
  have hrefers : backendRef (defaultBackend env :: backends) place.backend = some 0 := by
    rw [backendRef, place.name, Option.bind_some, takePlcbackendByname_cons rfl]
  rw [(parseRuntime_eq_ok hok).2, elements_named, List.foldl_append, List.foldl_cons,
    foldl_backendAfter_of_none hnone.2, backendAfter, if_pos place.tag, hrefers, Option.some_or]

end DefaultPlace

/-! ## Documents -/

/-- Both documents are accepted, and the runtime has the built-in backend in both. -/
structure OneDefault (env : LoaderEnv) (root root' : XmlElement) (id : XmlText) : Prop where
  accepted : LoaderAccepts env root'
  absent : (getRuntimeConfigurations env root).2.backendOf id = some 0
  named : (getRuntimeConfigurations env root').2.backendOf id = some 0
  builtIn : (getRuntimeConfigurations env root).2.backends[0]? = some (defaultBackend env)
  builtIn' : (getRuntimeConfigurations env root').2.backends[0]? = some (defaultBackend env)

section Documents

variable {env : LoaderEnv} {backends : List PlcBackend} {root : XmlElement}
  {before after : List XmlNode} {place : DefaultPlace}

theorem childrenNamed_runtime {e : XmlElement} (htag : e.tag = .runtime) :
    childrenNamed .runtime (before ++ e.toNode :: after) =
      childrenNamed .runtime before ++ e :: childrenNamed .runtime after := by
  rw [childrenNamed_append, childrenNamed_toNode htag]

theorem childrenNamed_backend {e : XmlElement} (htag : e.tag = .runtime) :
    childrenNamed .backend (before ++ e.toNode :: after) =
      childrenNamed .backend before ++ childrenNamed .backend after := by
  rw [childrenNamed_append, childrenNamed_toNode_of_ne (by rw [htag]; simp)]

/-- The backend of a runtime in the tables, from the entry that is made of its children. -/
theorem backendOf_eq {e : XmlElement} {i : Option ℕ} (hrules : LoaderRules env root)
    (hbackends : parseRuntimeBackendConfiguration env root = .ok backends)
    (he : e ∈ childrenNamed .runtime root.children)
    (hentry : ∀ entry runtimeid, parseRuntime env backends runtimeid e.children = .ok entry →
      entry.backend = i) (id : XmlElement) (hid : id ∈ childrenNamed .id e.children) :
    (getRuntimeConfigurations env root).2.backendOf id.getContent = i := by
  obtain ⟨runtimes, htables, hruntimes⟩ := getRuntimeConfigurations_eq hrules hbackends
  obtain ⟨entry, runtimeid, hfind, hparse⟩ := findEntry_parseRuntimes hruntimes he hid
  rw [htables, ConfTables.backendOf, hfind, Option.bind_some, hentry entry runtimeid hparse]

/-- The document in which the runtime names its backend. -/
def XmlElement.naming (root : XmlElement) (before : List XmlNode) (place : DefaultPlace)
    (after : List XmlNode) : XmlElement :=
  { root with children := before ++ place.named.toNode :: after }

theorem childrenNamed_backend_naming
    (hroot : root.children = before ++ place.absent.toNode :: after) :
    childrenNamed .backend (root.naming before place after).children =
      childrenNamed .backend root.children := by
  rw [hroot, XmlElement.naming, childrenNamed_backend rfl, childrenNamed_backend rfl]

theorem parseRuntimeBackendConfiguration_naming
    (hroot : root.children = before ++ place.absent.toNode :: after) :
    parseRuntimeBackendConfiguration env (root.naming before place after) =
      parseRuntimeBackendConfiguration env root := by
  rw [parseRuntimeBackendConfiguration, childrenNamed_backend_naming hroot,
    parseRuntimeBackendConfiguration]

/-- The document with the runtime's backend named is accepted. -/
theorem loaderRules_naming (hroot : root.children = before ++ place.absent.toNode :: after)
    (hrules : LoaderRules env root)
    (hbackends : parseRuntimeBackendConfiguration env root = .ok (defaultBackend env :: backends)) :
    LoaderRules env (root.naming before place after) := by
  have hof : backendsOf env root = defaultBackend env :: backends := by rw [backendsOf, hbackends]
  have hof' : backendsOf env (root.naming before place after) = defaultBackend env :: backends := by
    rw [backendsOf, parseRuntimeBackendConfiguration_naming hroot, hbackends]
  have hids := hrules.ids
  have hruntimes := hrules.runtimes
  have hdistinct := hrules.distinctIds
  simp only [hroot, hof, childrenNamed_runtime (e := place.absent) rfl, List.forall_mem_append,
    List.forall_mem_cons, List.flatMap_append, List.flatMap_cons] at hids hruntimes hdistinct
  have hnamed : childrenNamed .runtime (root.naming before place after).children =
      childrenNamed .runtime before ++ place.named :: childrenNamed .runtime after :=
    childrenNamed_runtime rfl
  refine ⟨hrules.rootTag, ?_, ?_, ?_, ?_, ?_⟩
  · rw [childrenNamed_backend_naming hroot]
    exact hrules.backends
  · rw [hnamed]
    exact List.append_ne_nil_of_right_ne_nil _ (List.cons_ne_nil _ _)
  · rw [hnamed, List.forall_mem_append, List.forall_mem_cons]
    exact ⟨hids.1, place.idRules_named hids.2.1, hids.2.2⟩
  · rw [hnamed, hof', List.forall_mem_append, List.forall_mem_cons]
    exact ⟨hruntimes.1, place.runtimeRules_named hruntimes.2.1, hruntimes.2.2⟩
  · rw [hnamed, List.flatMap_append, List.flatMap_cons, place.keysOf_named]
    exact hdistinct

/-- In the document with the backend named the runtime has the built-in backend, in the other one the
    backend that the loop ends with. -/
theorem oneDefault_iff (hroot : root.children = before ++ place.absent.toNode :: after)
    (hrules : LoaderRules env root)
    (hbackends : parseRuntimeBackendConfiguration env root = .ok (defaultBackend env :: backends))
    {id : XmlElement} (hid : id ∈ childrenNamed .id place.absent.children) :
    OneDefault env root (root.naming before place after) id.getContent ↔
      defaultRef (defaultBackend env :: backends) = some 0 := by
  have hrules' := loaderRules_naming hroot hrules hbackends
  have hbackends' := (parseRuntimeBackendConfiguration_naming hroot).trans hbackends
  have habsent := backendOf_eq (e := place.absent) hrules hbackends
    (by rw [hroot, childrenNamed_runtime rfl]; simp) (fun _ _ => place.backend_absent) id hid
  have hnamed := backendOf_eq (e := place.named) hrules' hbackends'
    (by rw [XmlElement.naming, childrenNamed_runtime rfl]; simp) (fun _ _ => place.backend_named)
    id (by rw [place.childrenNamed_named (by simp)]; exact hid)
  obtain ⟨_, htables, -⟩ := getRuntimeConfigurations_eq hrules hbackends
  obtain ⟨_, htables', -⟩ := getRuntimeConfigurations_eq hrules' hbackends'
  constructor
  · intro h
    rw [← habsent]
    exact h.absent
  · intro h
    exact ⟨(loaderAccepts_iff env _).2 hrules', habsent.trans h, hnamed, by rw [htables]; rfl,
      by rw [htables']; rfl⟩

end Documents

/-- Some runtime of the document names no backend. -/
def LeavesBackendOut (root : XmlElement) : Prop :=
  ∃ e ∈ childrenNamed .runtime root.children, NamesNoBackend e.children

/-- Every runtime that names no backend has a place for one. -/
theorem exists_place {root e : XmlElement} (he : e ∈ childrenNamed .runtime root.children)
    (hnone : NamesNoBackend e.children) :
    ∃ (place : DefaultPlace) (before after : List XmlNode),
      root.children = before ++ place.absent.toNode :: after ∧ place.absent = e := by
  obtain ⟨hmem, htag⟩ := List.mem_filter.1 he
  obtain ⟨node, hnode, helement⟩ := List.mem_filterMap.1 hmem
  obtain ⟨before, after, hroot⟩ := List.append_of_mem hnode
  have hnodeEq : node = e.toNode := by
    cases node with
    | element ns tag props children =>
        cases helement
        rfl
    | text s => cases helement
    | other => cases helement
  let place : DefaultPlace :=
    ⟨e.ns, e.props, [], e.children, ⟨[], .backend, [⟨[], .name, defaultText⟩], []⟩, hnone, rfl, rfl⟩
  have hplace : place.absent = e := by
    rw [DefaultPlace.absent, ← decide_eq_true_iff.1 htag]
    rfl
  exact ⟨place, before, after, by rw [hplace, hroot, hnodeEq], hplace⟩

/-- A document with the given backends and one runtime with the given children. -/
def documentWith (backends children : List XmlNode) : XmlElement :=
  ⟨[], .configuration, [], backends ++ [(runtimeWith children).toNode]⟩

/-- A local backend with a name. -/
def localBackend (name : XmlText) : XmlNode :=
  .element [] .backend [⟨[], .name, name⟩, ⟨[], .type, dockerText⟩] [.element [] .address [] []]

end PlContainer
