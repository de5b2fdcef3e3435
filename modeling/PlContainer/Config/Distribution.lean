import PlContainer.Config.Rules
import PlContainer.Config.Tool

set_option autoImplicit false

/-! # What the tool distributes and what the loader accepts

`validate_xml` and the loader check the same documents, but not the same things. `LoaderGaps` are the
rules of the loader that a validated document can still break: those that `validate_xml` does not look
at, those it reads more liberally, and those of a setting behind an attribute for which the chain of
`elif` stopped. For a document without namespaces nothing else can go wrong; with them the two do not
even see the same elements. -/

namespace PlContainer

open Checked Runs

/-! ## Documents without namespaces -/

/-- What `validate_xml` looks at has no namespace. -/
structure NoNamespaces (root : XmlElement) : Prop where
  runtime : ∀ e ∈ childrenNamed .runtime root.children, e.ns = []
  child : ∀ e ∈ childrenNamed .runtime root.children, ∀ c ∈ elements e.children, c.ns = []
  prop : ∀ e ∈ childrenNamed .runtime root.children, ∀ c ∈ elements e.children,
    ∀ p ∈ c.props, p.ns = []

theorem findall_eq_childrenNamed {tag : Tag} {children : List XmlNode}
    (hns : ∀ e ∈ childrenNamed tag children, e.ns = []) :
    findall tag children = childrenNamed tag children := by
  rw [findall, childrenNamed]
  refine List.filter_congr fun e he => ?_
  by_cases htag : e.tag = tag
  · have hempty : e.ns = [] := hns e (List.mem_filter.2 ⟨he, decide_eq_true htag⟩)
    simp [htag, hempty]
  · simp [htag]

theorem attribOf_eq_xmlGetProp {props : List XmlProp} (hns : ∀ p ∈ props, p.ns = []) (attr : Attr) :
    attribOf props attr = xmlGetProp props attr := by
  rw [attribOf, xmlGetProp]
  congr 1
  induction props with
  | nil => rfl
  | cons p props ih =>
      rw [List.forall_mem_cons] at hns
      rw [List.find?_cons, List.find?_cons, ih hns.2]
      simp [hns.1]

/-! ## The id -/

theorem utf8Size_of_isAlphanum {c : Char} (h : c.isAlphanum = true) : c.utf8Size = 1 := by
  rw [Char.utf8Size_eq_one_iff]
  delta Char.isAlphanum Char.isAlpha Char.isUpper Char.isLower Char.isDigit at h
  simp only [Bool.or_eq_true, Bool.and_eq_true, decide_eq_true_eq, ge_iff_le,
    UInt32.le_iff_toNat_le] at h ⊢
  rcases h with (h | h) | h
  · exact h.2.trans (by decide)
  · exact h.2.trans (by decide)
  · exact h.2.trans (by decide)

theorem utf8Size_of_isIdChar {c : Char} (h : isIdChar c = true) : c.utf8Size = 1 := by
  rw [isIdChar, Bool.or_eq_true] at h
  rcases h with h | h
  · exact utf8Size_of_isAlphanum h
  · simp only [List.mem_cons, List.not_mem_nil, or_false, decide_eq_true_eq] at h
    rcases h with rfl | rfl | rfl <;> rfl

/-- An id that the pattern allows has one byte for each character. -/
theorem utf8Strlen_of_matchesIdPattern {id : XmlText} (h : matchesIdPattern id = true) :
    utf8Strlen id = id.length := by
  have hone : ∀ c ∈ id, c.utf8Size = 1 := by
    rcases id with _ | ⟨c, cs⟩
    · simp
    · rw [matchesIdPattern, Bool.and_eq_true, Bool.or_eq_true, decide_eq_true_eq,
        decide_eq_true_eq] at h
      refine List.forall_mem_cons.2 ⟨utf8Size_of_isAlphanum h.1, fun d hd => ?_⟩
      rw [← List.takeWhile_append_dropWhile (p := isIdChar) (l := cs), List.mem_append] at hd
      rcases hd with hd | hd
      · exact utf8Size_of_isIdChar (List.mem_takeWhile_imp hd)
      · rcases h.2 with hrest | hrest
        · rw [hrest] at hd
          cases hd
        · rw [hrest] at hd
          rw [List.mem_singleton.1 hd]
          rfl
  rw [utf8Strlen, List.map_congr_left hone]
  simp

/-- The two readings of a text agree in an element without elements. -/
theorem contents_eq_textBefore {children : List XmlNode} (h : elements children = []) :
    contents children = textBefore children := by
  induction children with
  | nil => rfl
  | cons node nodes ih =>
      cases node with
      | element ns tag props children => cases h
      | text s => rw [contents, XmlNode.content, textBefore, ih h]
      | other => rw [contents, XmlNode.content, textBefore, ih h, List.nil_append]

/-- The id is short, if there are elements in it. -/
def IdGaps (e : XmlElement) : Prop :=
  ∀ id ∈ childrenNamed .id e.children, elements id.children ≠ [] →
    utf8Strlen id.getContent ≤ runtimeIdMaxLength - 1

theorem idRules_iff {e : XmlElement} (hns : ∀ c ∈ elements e.children, c.ns = [])
    (hvalid : validateId e.children = true) : IdRules e ↔ IdGaps e := by
  rw [validateId, findall_eq_childrenNamed fun c hc => hns c (List.mem_filter.1 hc).1] at hvalid
  split at hvalid
  next id hid =>
    split at hvalid
    · cases hvalid
    next text htext =>
      rw [Bool.and_eq_true, decide_eq_true_eq] at hvalid
      refine ⟨fun h child hchild _ => h.short child hchild, fun h => ⟨?_, fun child hchild => ?_⟩⟩
      · rw [HasOne, hid, List.length_singleton]
      · by_cases helements : elements child.children = []
        · obtain rfl : child = id := List.mem_singleton.1 (hid ▸ hchild)
          have hcontent : child.getContent = text := by
            rw [XmlElement.getContent, contents_eq_textBefore helements]
            rw [XmlElement.pyText] at htext
            split at htext
            · cases htext
            · exact Option.some.inj htext
          rw [hcontent, utf8Strlen_of_matchesIdPattern hvalid.2]
          exact Nat.le_sub_one_of_lt hvalid.1
        · exact h child hchild helements
  next => cases hvalid

/-! ## Settings -/

/-- One of the attributes is there, so that the chain stops before the others. -/
def StopsAt (attrs : List Attr) (props : List XmlProp) : Prop :=
  ∃ attr ∈ attrs, (xmlGetProp props attr).isSome

/-- What is left to check of a setting: that the loader knows it, its numbers, and what stands behind
    the attribute that was checked. -/
structure SettingGaps (env : LoaderEnv) (props : List XmlProp) : Prop where
  recognized : settingAttrs.any (fun attr => (xmlGetProp props attr).isSome) = true
  memoryMb : ∀ v ∈ xmlGetProp props .memoryMb, IsPositive v
  cpuShare : ∀ v ∈ xmlGetProp props .cpuShare, IsPositive v
  resourceGroupId : ∀ v ∈ xmlGetProp props .resourceGroupId, IsResourceGroup env v
  useContainerLogging : StopsAt [.memoryMb, .cpuShare] props →
    ∀ v ∈ xmlGetProp props .useContainerLogging, IsYesOrNo v
  enableNetwork : StopsAt [.memoryMb, .cpuShare, .useContainerLogging] props →
    ∀ v ∈ xmlGetProp props .enableNetwork, IsYesOrNo v
  roles : StopsAt [.memoryMb, .cpuShare, .useContainerLogging, .enableNetwork, .resourceGroupId] props →
    ∀ v ∈ xmlGetProp props .roles, v ≠ []

/-- The `n`-th attribute of the chain meets its check, if the chain does not stop before it. -/
theorem check_of_validateSetting {u : PyUnicode} {props : List XmlProp} (n : ℕ) {attr : Attr}
    {check : XmlText → Bool} {behind : List (Attr × (XmlText → Bool))}
    (hchain : settingChecks u = (settingChecks u).take n ++ (attr, check) :: behind)
    (hns : ∀ p ∈ props, p.ns = []) (hvalid : validateSetting u props = true)
    (hstop : ¬ StopsAt (((settingChecks u).take n).map Prod.fst) props) {v : XmlText}
    (hv : xmlGetProp props attr = some v) : check v = true := by
  have hbefore : ((settingChecks u).take n).findSome? (fun c => (attribOf props c.1).map c.2) = none := by
    rw [List.findSome?_eq_none_iff]
    intro c hc
    rw [attribOf_eq_xmlGetProp hns, Option.map_eq_none_iff, ← Option.not_isSome_iff_eq_none]
    exact fun hsome => hstop ⟨c.1, List.mem_map_of_mem hc, hsome⟩
  rw [validateSetting, hchain, List.findSome?_append, hbefore, Option.none_or, List.findSome?_cons,
    attribOf_eq_xmlGetProp hns, hv] at hvalid
  exact hvalid

theorem isYesOrNo_of_validateYesOrNo {v : XmlText} (h : validateYesOrNo v = true) : IsYesOrNo v := by
  rw [validateYesOrNo, Bool.or_eq_true, decide_eq_true_eq, decide_eq_true_eq] at h
  rcases h with h | h
  · exact .inl (by rw [strcasecmp, h]; rfl)
  · exact .inr (by rw [strcasecmp, h]; rfl)

theorem settingRules_iff {env : LoaderEnv} {u : PyUnicode} {props : List XmlProp}
    (hns : ∀ p ∈ props, p.ns = []) (hvalid : validateSetting u props = true) :
    SettingRules env props ↔ SettingGaps env props := by
  constructor
  · intro h
    exact ⟨h.recognized, h.memoryMb, h.cpuShare, h.resourceGroupId, fun _ => h.useContainerLogging,
      fun _ => h.enableNetwork, fun _ => h.roles⟩
  · intro h
    refine ⟨fun v hv => ?_, h.memoryMb, h.cpuShare, fun v hv => ?_, h.resourceGroupId, fun v hv => ?_,
      h.recognized⟩
    · by_cases hstop : StopsAt [.memoryMb, .cpuShare] props
      · exact h.useContainerLogging hstop v hv
      · exact isYesOrNo_of_validateYesOrNo (check_of_validateSetting 2 rfl hns hvalid hstop hv)
    · by_cases hstop : StopsAt [.memoryMb, .cpuShare, .useContainerLogging] props
      · exact h.enableNetwork hstop v hv
      · exact isYesOrNo_of_validateYesOrNo (check_of_validateSetting 3 rfl hns hvalid hstop hv)
    · by_cases hstop : StopsAt
          [.memoryMb, .cpuShare, .useContainerLogging, .enableNetwork, .resourceGroupId] props
      · exact h.roles hstop v hv
      · simpa using check_of_validateSetting 5 rfl hns hvalid hstop hv

/-- The rules for the children of a runtime, with what is left to check of the settings. -/
def ChildGaps (env : LoaderEnv) (backends : List PlcBackend) (network : Bool) (e : XmlElement) : Prop :=
  if e.tag = .setting then SettingGaps env e.props else ChildRules env backends network e

/-! ## Shared directories -/

/-- Paths that are not the same are not the same but for case either. -/
def PathGaps (dirs : List XmlElement) : Prop :=
  (containerPaths dirs).Pairwise fun a b => a ≠ b → strcasecmp b a = false

theorem isSome_xmlGetProp_iff {props : List XmlProp} {attr : Attr} :
    (xmlGetProp props attr).isSome = true ↔ attr ∈ props.map XmlProp.attr := by
  rw [xmlGetProp, Option.isSome_map, List.find?_isSome, List.mem_map]
  simp

theorem sharedDirRules_of_validate {dir : XmlElement} (hns : ∀ p ∈ dir.props, p.ns = [])
    (hvalid : validateSharedDir dir.props = true) : SharedDirRules dir := by
  rw [validateSharedDir, Bool.and_eq_true, Bool.and_eq_true, List.isPerm_iff] at hvalid
  obtain ⟨⟨haccess, hperm⟩, -⟩ := hvalid
  have hattrs : (dir.props.map XmlProp.attr).Perm [.access, .container, .host] := by
    have := hperm.map Prod.snd
    rwa [List.map_map] at this
  have hmem (attr : Attr) (h : attr ∈ [Attr.access, .container, .host]) :
      (xmlGetProp dir.props attr).isSome = true :=
    isSome_xmlGetProp_iff.2 (hattrs.mem_iff.2 h)
  refine ⟨hmem _ (by simp), hmem _ (by simp), ?_⟩
  obtain ⟨access, hsome⟩ := Option.isSome_iff_exists.1 (hmem .access (by simp))
  rw [attribOf_eq_xmlGetProp hns, hsome] at haccess
  rw [hsome]
  simpa using haccess

theorem nodup_containerPaths {dirs : List XmlElement} (hns : ∀ dir ∈ dirs, ∀ p ∈ dir.props, p.ns = [])
    (hvalid : validateSharedDirs dirs = true) : (containerPaths dirs).Nodup := by
  rw [validateSharedDirs, Bool.and_eq_true, decide_eq_true_eq] at hvalid
  have hpaths : containerPaths dirs = dirs.filterMap fun dir => attribOf dir.props .container :=
    List.filterMap_congr fun dir hdir => (attribOf_eq_xmlGetProp (hns dir hdir) .container).symm
  rw [hpaths]
  exact hvalid.2

theorem distinctPaths_iff {dirs : List XmlElement} (hnodup : (containerPaths dirs).Nodup) :
    DistinctPaths dirs ↔ PathGaps dirs := by
  constructor
  · intro h
    refine List.Pairwise.imp ?_ h
    intro a b hab _
    exact hab
  · intro h
    exact (hnodup.and h).imp fun ⟨hne, hab⟩ => hab hne

/-! ## Runtimes and documents -/

/-- What is left to check of a runtime. -/
structure RuntimeGaps (env : LoaderEnv) (backends : List PlcBackend) (e : XmlElement) : Prop where
  id : IdGaps e
  children : EveryStep networkAfter (ChildGaps env backends) false (elements e.children)
  paths : PathGaps (childrenNamed .sharedDirectory e.children)

theorem runtimeRules_iff {env : LoaderEnv} {backends : List PlcBackend} {u : PyUnicode}
    {e : XmlElement} (hns : ∀ c ∈ elements e.children, c.ns = [])
    (hprops : ∀ c ∈ elements e.children, ∀ p ∈ c.props, p.ns = [])
    (hvalid : validateRuntime u e = true) :
    IdRules e ∧ RuntimeRules env backends e ↔ RuntimeGaps env backends e := by
  have hfindall (tag : Tag) : findall tag e.children = childrenNamed tag e.children :=
    findall_eq_childrenNamed fun c hc => hns c (List.mem_filter.1 hc).1
  simp only [validateRuntime, hfindall, Bool.and_eq_true, decide_eq_true_eq] at hvalid
  obtain ⟨⟨⟨⟨hid, himage⟩, hcommand⟩, hdirs⟩, hsettings⟩ := hvalid
  have hdirprops : ∀ dir ∈ childrenNamed .sharedDirectory e.children, ∀ p ∈ dir.props, p.ns = [] :=
    fun dir hdir => hprops dir (List.mem_filter.1 hdir).1
  -- only settings are looked at by both sides; all other children are for the loader alone
  have hchildren : EveryStep networkAfter (ChildRules env backends) false (elements e.children) ↔
      EveryStep networkAfter (ChildGaps env backends) false (elements e.children) := by
    refine EveryStep.congr_mem (fun c hc network => ?_) false
    rw [ChildGaps]
    split
    next htag =>
      rw [ChildRules, htag]
      exact settingRules_iff (hprops c hc)
        (List.all_eq_true.1 hsettings c (List.mem_filter.2 ⟨hc, decide_eq_true htag⟩))
    next => exact Iff.rfl
  have hpaths := distinctPaths_iff (nodup_containerPaths hdirprops hdirs)
  constructor
  · rintro ⟨hidrules, hrules⟩
    exact ⟨(idRules_iff hns hid).1 hidrules, hchildren.1 hrules.children, hpaths.1 hrules.distinctPaths⟩
  · rintro ⟨hidgaps, hgaps, hpathgaps⟩
    rw [validateSharedDirs, Bool.and_eq_true] at hdirs
    refine ⟨(idRules_iff hns hid).2 hidgaps, hchildren.2 hgaps, himage, hcommand, fun dir hdir => ?_,
      hpaths.2 hpathgaps⟩
    exact sharedDirRules_of_validate (hdirprops dir hdir) (List.all_eq_true.1 hdirs.1 dir hdir)

/-- What is left to check of a valid document. -/
structure LoaderGaps (env : LoaderEnv) (root : XmlElement) : Prop where
  rootTag : root.tag = .configuration
  backends : ∀ e ∈ childrenNamed .backend root.children, BackendRules e
  someRuntime : childrenNamed .runtime root.children ≠ []
  runtimes : ∀ e ∈ childrenNamed .runtime root.children, RuntimeGaps env (backendsOf env root) e
  distinctIds : ((childrenNamed .runtime root.children).flatMap keysOf).Nodup

theorem loaderRules_iff {env : LoaderEnv} {u : PyUnicode} {root : XmlElement}
    (hns : NoNamespaces root) (hvalid : validateXml u root = true) :
    LoaderRules env root ↔ LoaderGaps env root := by
  rw [validateXml, findall_eq_childrenNamed hns.runtime, List.all_eq_true] at hvalid
  have hruntime (e : XmlElement) (he : e ∈ childrenNamed .runtime root.children) :
      IdRules e ∧ RuntimeRules env (backendsOf env root) e ↔ RuntimeGaps env (backendsOf env root) e :=
    runtimeRules_iff (hns.child e he) (hns.prop e he) (hvalid e he)
  constructor
  · intro h
    exact ⟨h.rootTag, h.backends, h.someRuntime,
      fun e he => (hruntime e he).1 ⟨h.ids e he, h.runtimes e he⟩, h.distinctIds⟩
  · intro h
    exact ⟨h.rootTag, h.backends, h.someRuntime, fun e he => ((hruntime e he).2 (h.runtimes e he)).1,
      fun e he => ((hruntime e he).2 (h.runtimes e he)).2, h.distinctIds⟩

/-! ## Commands -/

/-- The command calls `validate_xml` before it distributes a document. -/
def ToolCommand.validates : ToolCommand → Bool
  | .runtimeDelete _ => false
  | _ => true

theorem Tool.checked_eq_some {tool : Tool} {doc doc' : XmlElement} (h : tool.checked doc = some doc') :
    validateXml tool.unicode doc' = true := by
  rw [checked] at h
  split at h
  next hvalid => exact Option.some.inj h ▸ hvalid
  next => cases h

theorem Tool.validateXml_editFile {tool : Tool} {files : List EditedFile} {doc : XmlElement}
    (h : tool.editFile files = some doc) : validateXml tool.unicode doc = true := by
  induction files with
  | nil => cases h
  | cons file files ih =>
      rw [editFile] at h
      split at h
      next doc' hdoc' =>
        obtain ⟨_, -, hchecked⟩ := Option.bind_eq_some_iff.1 hdoc'
        split at h
        · exact Option.some.inj h ▸ checked_eq_some hchecked
        · cases h
      next => exact ih h

theorem Tool.validateXml_distributes {tool : Tool} {file : Option XmlElement} {cmd : ToolCommand}
    {doc : XmlElement} (hcmd : cmd.validates = true) (h : tool.distributes file cmd = some doc) :
    validateXml tool.unicode doc = true := by
  cases cmd with
  | runtimeAdd options =>
      obtain ⟨_, -, h⟩ := Option.bind_eq_some_iff.1 h
      obtain ⟨_, -, h⟩ := Option.bind_eq_some_iff.1 h
      obtain ⟨_, -, h⟩ := Option.bind_eq_some_iff.1 h
      exact checked_eq_some h
  | runtimeReplace options =>
      obtain ⟨_, -, h⟩ := Option.bind_eq_some_iff.1 h
      obtain ⟨_, -, h⟩ := Option.bind_eq_some_iff.1 h
      obtain ⟨_, -, h⟩ := Option.bind_eq_some_iff.1 h
      exact checked_eq_some h
  | runtimeDelete id => cases hcmd
  | runtimeEdit edits => exact validateXml_editFile h
  | runtimeRestore restored =>
      obtain ⟨_, -, h⟩ := Option.bind_eq_some_iff.1 h
      exact checked_eq_some h

/-- What a distributed document must meet: after a command that validates, and without namespaces,
    only what `validate_xml` leaves open; otherwise everything. -/
def DistributionRules (env : LoaderEnv) (cmd : ToolCommand) (doc : XmlElement) : Prop :=
  (cmd.validates = true ∧ NoNamespaces doc → LoaderGaps env doc) ∧
    (¬ (cmd.validates = true ∧ NoNamespaces doc) → LoaderRules env doc)

/-- A runtime with an id, an image, a command and one setting. -/
def sampleRuntime (setting : XmlProp) : XmlNode :=
  .element [] .runtime [] [newTextElement .id ['p', 'y'], newTextElement .image ['i', 'm', 'g'],
    newTextElement .command ['c', 'm', 'd'], .element [] .setting [setting] []]

/-- The document with this runtime only. -/
def sampleDocument (setting : XmlProp) : XmlElement := ⟨[], .configuration, [], [sampleRuntime setting]⟩

/-- A tool that sees no characters outside ASCII and writes documents as they are. -/
def sampleTool : Tool where
  unicode := ⟨fun _ => none, fun _ => false, fun _ => false⟩
  dbhome := ['/', 'g', 'p']
  reformat := some

def unknownSetting : XmlProp := ⟨[], .other ['m', 'e', 'm', 'o', 'r', 'y'], ['5', '1', '2']⟩

end PlContainer
