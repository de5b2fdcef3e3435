import PlContainer.Config.Rules
import Mathlib.Data.List.Perm.Basic

set_option autoImplicit false

/-! # Accepted and rejected runtimes

`parse_runtime_configuration` enters the runtime in the table before it has looked at its children, and
removes the entry again when one of them is wrong. It checks a remote backend against the settings it
has read so far. This module is about what that leaves: the table after an error, and the network of an
accepted runtime, for every order of its settings and backends. -/

namespace PlContainer

open Checked Runs

section Table

variable (env : LoaderEnv) (backends : List PlcBackend) (table : List RuntimeConfEntry)

/-! ## The table after an error -/

/-- `runtime_id` in the error handler: the first id, if there is one. -/
def runtimeIdSeen (children : List XmlNode) : Option XmlText :=
  ((childrenNamed .id children).map XmlElement.getContent).head?

theorem mem_removeEntry {id : XmlText} {entry : RuntimeConfEntry} :
    entry ∈ removeEntry id table ↔ entry ∈ table ∧ runtimeKey entry.runtimeid ≠ runtimeKey id := by
  rw [removeEntry, List.mem_filter, decide_eq_true_iff]

variable {env backends table}

/-- Whatever the error, the entry of the first id is removed. -/
theorem parseRuntimeConfiguration_error {children : List XmlNode} {err : ConfigError}
    (h : (parseRuntimeConfiguration env backends table children).1 = .error err) :
    (parseRuntimeConfiguration env backends table children).2 =
      (runtimeIdSeen children).elim table (removeEntry · table) := by
  rw [runtimeIdSeen]
  rw [parseRuntimeConfiguration] at h ⊢
  split
  next hids => rw [hids, List.head?_nil, Option.elim_none]
  next id _ _ hids => rw [hids, List.head?_cons, Option.elim_some]
  next id hids =>
    rw [hids] at h ⊢
    rw [List.head?_cons, Option.elim_some]
    dsimp only at h
    split
    · rfl
    next hshort =>
      rw [if_neg hshort] at h
      split
      · rfl
      next hnew =>
        rw [if_neg hnew] at h
        split
        · rfl
        next entry hentry =>
          rw [hentry] at h
          cases h

variable (env backends table)

end Table

section Backend

variable {env : LoaderEnv} {backends : List PlcBackend} {entry entry' : RuntimeConfEntry}

/-- The backend that a `<backend>` names. -/
def backendRef (backends : List PlcBackend) (child : XmlElement) : Option ℕ :=
  (xmlGetProp child.props .name).bind (takePlcbackendByname backends)

/-- The backend of a runtime that names none. -/
def defaultRef (backends : List PlcBackend) : Option ℕ :=
  ((List.range backends.length).filter fun i => backends[i]?.any (·.name = defaultText)).getLast?

def isRemoteAt (backends : List PlcBackend) (i : Option ℕ) : Bool :=
  (i.bind (backends[·]?)).any PlcBackend.isRemote

/-- The backend in the entry after a child. -/
def backendAfter (backends : List PlcBackend) (i : Option ℕ) (child : XmlElement) : Option ℕ :=
  if child.tag = .backend then backendRef backends child else i

theorem backend_parseBackendRef {child : XmlElement}
    (hok : parseBackendRef backends entry child = .ok entry') :
    entry'.backend = backendRef backends child := by
  obtain ⟨name, hname, hok⟩ := bind_eq_ok.1 hok
  rw [backendRef, readProperty_eq_ok.1 hname, Option.bind_some]
  split at hok
  · exact (throw_eq_ok.1 hok).elim
  next i hi =>
    split at hok
    · exact (throw_eq_ok.1 hok).elim
    · rw [← pure_eq_ok.1 hok, hi]

theorem backend_parseChild {child : XmlElement}
    (hok : parseChild env backends entry child = .ok entry') :
    entry'.backend = backendAfter backends entry.backend child := by
  unfold parseChild at hok
  unfold backendAfter
  by_cases hbackend : child.tag = .backend
  · rw [hbackend] at hok
    rw [if_pos hbackend]
    exact backend_parseBackendRef hok
  · rw [if_neg hbackend]
    split at hok
    · rw [← pure_eq_ok.1 hok]
    · rw [← pure_eq_ok.1 hok]
    · rw [← pure_eq_ok.1 hok]
    · obtain ⟨_, _, _, _, _, _, rfl⟩ := parseSetting_eq_ok hok
      rfl
    · rw [← pure_eq_ok.1 hok]
    · split at hok
      · exact (throw_eq_ok.1 hok).elim
      · rw [← pure_eq_ok.1 hok]
    next htag => exact (hbackend htag).elim
    · exact (throw_eq_ok.1 hok).elim

/-- The backend after all children is that of one of the `<backend>`s, if there is any. -/
theorem foldl_backendAfter_cases (backends : List PlcBackend) (children : List XmlElement)
    (i : Option ℕ) :
    (∀ child ∈ children, child.tag ≠ .backend) ∧ children.foldl (backendAfter backends) i = i ∨
      ∃ child ∈ children, child.tag = .backend ∧
        children.foldl (backendAfter backends) i = backendRef backends child := by
  induction children generalizing i with
  | nil => simp
  | cons child children ih =>
      rw [List.foldl_cons]
      obtain ⟨hnone, hfold⟩ | ⟨last, hlast, htag, hfold⟩ := ih (backendAfter backends i child)
      · rw [hfold, backendAfter]
        by_cases htag : child.tag = .backend
        · exact .inr ⟨child, List.mem_cons_self .., htag, if_pos htag⟩
        · exact .inl ⟨List.forall_mem_cons.2 ⟨htag, hnone⟩, if_neg htag⟩
      · exact .inr ⟨last, List.mem_cons_of_mem _ hlast, htag, hfold⟩

theorem parseRuntime_eq_ok {id : XmlText} {children : List XmlNode}
    (hok : parseRuntime env backends id children = .ok entry) :
    entry.enableNetwork = (elements children).foldl networkAfter false ∧
      entry.backend =
        ((elements children).foldl (backendAfter backends) none).or (defaultRef backends) := by
  obtain ⟨first, hfirst, hok⟩ := bind_eq_ok.1 hok
  obtain ⟨-, -, hok⟩ := bind_eq_ok.1 hok
  obtain ⟨-, -, hok⟩ := bind_eq_ok.1 hok
  obtain ⟨dirs, -, hok⟩ := bind_eq_ok.1 hok
  have hnetwork : first.enableNetwork = (elements children).foldl networkAfter false :=
    foldlM_view (f := parseChild env backends) RuntimeConfEntry.enableNetwork networkAfter
      (fun _ _ _ h => congrArg Prod.snd (idAndNetwork_parseChild h)) hfirst
  have hbackend : first.backend = (elements children).foldl (backendAfter backends) none :=
    foldlM_view (f := parseChild env backends) RuntimeConfEntry.backend (backendAfter backends)
      (fun _ _ _ h => backend_parseChild h) hfirst
  rw [← pure_eq_ok.1 hok, ← hnetwork, ← hbackend]
  unfold applyDefaultBackend setDeviceRequests
  cases first.backend with
  | none => exact ⟨rfl, rfl⟩
  | some i => exact ⟨rfl, rfl⟩

end Backend

/-! ## The network of an accepted runtime -/

section Network

variable {env : LoaderEnv} {backends : List PlcBackend} {table : List RuntimeConfEntry}
  {e : XmlElement} {children children' : List XmlNode}

/-- A `<backend>` that names a remote backend. -/
def namesRemote (backends : List PlcBackend) (child : XmlElement) : Bool :=
  child.tag = .backend ∧ isRemoteAt backends (backendRef backends child)

/-- A setting that enables the network. -/
def enablesNetwork (child : XmlElement) : Bool := networkAfter false child

/-- The rules for a runtime apart from the one on the network. -/
structure RulesButNetwork (env : LoaderEnv) (backends : List PlcBackend)
    (table : List RuntimeConfEntry) (e : XmlElement) : Prop where
  id : IdRules e
  new : NewKeys table (keysOf e)
  children : ∀ child ∈ elements e.children, ChildRules env backends true child
  image : HasOne .image e
  command : HasOne .command e
  sharedDirs : ∀ dir ∈ childrenNamed .sharedDirectory e.children, SharedDirRules dir
  distinctPaths : DistinctPaths (childrenNamed .sharedDirectory e.children)

/-- The rule on the network, where a child is read. -/
def RemoteHasNetwork (backends : List PlcBackend) (network : Bool) (child : XmlElement) : Prop :=
  namesRemote backends child = true → network = true

theorem backendRefRules_iff {network : Bool} {child : XmlElement} :
    BackendRefRules backends network child ↔
      BackendRefRules backends true child ∧
        (isRemoteAt backends (backendRef backends child) = true → network = true) := by
  unfold BackendRefRules
  constructor
  · rintro ⟨name, i, hname, hi, hnetwork⟩
    refine ⟨⟨name, i, hname, hi, fun _ => rfl⟩, ?_⟩
    rw [backendRef, hname, Option.bind_some, hi]
    exact hnetwork
  · rintro ⟨⟨name, i, hname, hi, -⟩, hnetwork⟩
    rw [backendRef, hname, Option.bind_some, hi] at hnetwork
    exact ⟨name, i, hname, hi, hnetwork⟩

theorem childRules_iff {network : Bool} {child : XmlElement} :
    ChildRules env backends network child ↔
      ChildRules env backends true child ∧ RemoteHasNetwork backends network child := by
  unfold ChildRules RemoteHasNetwork namesRemote
  by_cases htag : child.tag = .backend
  · simp only [htag, true_and, Bool.decide_eq_true]
    exact backendRefRules_iff
  · simp only [htag, false_and, decide_false, Bool.false_eq_true, false_implies, and_true]
    split <;> first | rfl | exact (htag (by assumption)).elim

/-- The order of the children matters for the network alone. -/
theorem accepts_iff :
    Succeeds (parseRuntimeConfiguration env backends table e.children).1 ↔
      RulesButNetwork env backends table e ∧
        EveryStep networkAfter (RemoteHasNetwork backends) false (elements e.children) := by
  have hsplit : EveryStep networkAfter (ChildRules env backends) false (elements e.children) ↔
      (∀ child ∈ elements e.children, ChildRules env backends true child) ∧
        EveryStep networkAfter (RemoteHasNetwork backends) false (elements e.children) :=
    (EveryStep.congr_mem (fun _ _ _ => childRules_iff) false).trans (everyStep_and _ _)
  constructor
  · rintro ⟨⟨⟩, hok⟩
    obtain ⟨hid, hrules, hnew, -⟩ := parseRuntimeConfiguration_eq_ok (Prod.ext hok rfl)
    obtain ⟨hchildren, hnetwork⟩ := hsplit.1 hrules.children
    exact ⟨⟨hid, hnew, hchildren, hrules.image, hrules.command, hrules.sharedDirs,
      hrules.distinctPaths⟩, hnetwork⟩
  · rintro ⟨h, hnetwork⟩
    obtain ⟨_, hok⟩ := parseRuntimeConfiguration_of_rules h.id
      ⟨hsplit.2 ⟨h.children, hnetwork⟩, h.image, h.command, h.sharedDirs, h.distinctPaths⟩ h.new
    exact ⟨(), congrArg Prod.fst hok⟩

theorem parseRuntime_of_accepted {entry : RuntimeConfEntry}
    (hok : parseRuntimeConfiguration env backends table children = (.ok (), table ++ [entry])) :
    ∃ id, parseRuntime env backends id children = .ok entry := by
  unfold parseRuntimeConfiguration at hok
  split at hok
  · cases hok
  · cases hok
  next id _ =>
    split at hok
    · cases hok
    · split at hok
      · cases hok
      · split at hok
        · cases hok
        next entry' hentry =>
          obtain rfl : entry' = entry := by simpa using congrArg Prod.snd hok
          exact ⟨id, hentry⟩

/-! ### Settings and backends in another order -/

def isSettingOrBackend (node : XmlNode) : Bool :=
  node.toElement?.any fun e => e.tag = .setting ∨ e.tag = .backend

/-- The children with the settings and backends moved: all others stand as before. -/
structure Reordered (children' children : List XmlNode) : Prop where
  perm : children'.Perm children
  others : children'.filter (!isSettingOrBackend ·) = children.filter (!isSettingOrBackend ·)

/-- The children that meet `p` last. -/
def movedToBack (p : XmlElement → Bool) (children : List XmlNode) : List XmlNode :=
  children.filter (!·.toElement?.any p) ++ children.filter (·.toElement?.any p)

theorem Reordered.trans {a b c : List XmlNode} (hab : Reordered a b) (hbc : Reordered b c) :
    Reordered a c :=
  ⟨hab.perm.trans hbc.perm, hab.others.trans hbc.others⟩

theorem reordered_movedToBack {p : XmlElement → Bool}
    (hp : ∀ child, p child = true → child.tag = .setting ∨ child.tag = .backend)
    (children : List XmlNode) : Reordered (movedToBack p children) children := by
  have hmoved : ∀ node : XmlNode, node.toElement?.any p = true → isSettingOrBackend node = true := by
    intro node hnode
    obtain ⟨child, hchild, hpc⟩ := (Option.any_eq_true _ _).1 hnode
    simpa [isSettingOrBackend, hchild] using hp child hpc
  refine ⟨List.perm_append_comm.trans (List.filter_append_perm _ _), ?_⟩
  have hback : (children.filter (·.toElement?.any p)).filter (!isSettingOrBackend ·) = [] := by
    rw [List.filter_filter, List.filter_eq_nil_iff]
    intro node _ hnode
    rw [Bool.and_eq_true] at hnode
    simp [hmoved node hnode.2] at hnode
  have hfront : (children.filter (!·.toElement?.any p)).filter (!isSettingOrBackend ·) =
      children.filter (!isSettingOrBackend ·) := by
    rw [List.filter_filter]
    refine List.filter_congr fun node _ => ?_
    by_cases hnode : node.toElement?.any p = true
    · simp [hmoved node hnode]
    · simp [hnode]
  rw [movedToBack, List.filter_append, hback, hfront, List.append_nil]

theorem elements_append (children children' : List XmlNode) :
    elements (children ++ children') = elements children ++ elements children' :=
  List.filterMap_append

theorem elements_filter {f : XmlNode → Bool} {p : XmlElement → Bool}
    (h : ∀ node child, node.toElement? = some child → f node = p child) (children : List XmlNode) :
    elements (children.filter f) = (elements children).filter p := by
  induction children with
  | nil => rfl
  | cons node children ih =>
      unfold elements at ih ⊢
      rw [List.filter_cons, List.filterMap_cons]
      cases hnode : node.toElement? with
      | none =>
          split
          · rw [List.filterMap_cons, hnode, ih]
          · exact ih
      | some child =>
          rw [h node child hnode, List.filter_cons]
          split
          · rw [List.filterMap_cons, hnode, ih]
          · exact ih

theorem elements_movedToBack (p : XmlElement → Bool) (children : List XmlNode) :
    elements (movedToBack p children) =
      (elements children).filter (!p ·) ++ (elements children).filter p := by
  rw [movedToBack, elements_append, elements_filter (p := (!p ·)), elements_filter (p := p)]
  · intro node child hnode
    rw [hnode, Option.any_some]
  · intro node child hnode
    rw [hnode, Option.any_some]

theorem Reordered.childrenNamed_eq (h : Reordered children' children) {tag : Tag}
    (hsetting : tag ≠ .setting) (hbackend : tag ≠ .backend) :
    childrenNamed tag children' = childrenNamed tag children := by
  have hothers : ∀ nodes : List XmlNode,
      childrenNamed tag (nodes.filter (!isSettingOrBackend ·)) = childrenNamed tag nodes := by
    intro nodes
    rw [childrenNamed, childrenNamed,
      elements_filter (p := fun e => !decide (e.tag = .setting ∨ e.tag = .backend)),
      List.filter_filter]
    · refine List.filter_congr fun child _ => ?_
      by_cases htag : child.tag = tag
      · simp [htag, hsetting, hbackend]
      · simp [htag]
    · intro node child hnode
      rw [isSettingOrBackend, hnode, Option.any_some]
  rw [← hothers children', h.others, hothers]

/-- The rules apart from the network do not look at the order. -/
theorem RulesButNetwork.reordered (h : RulesButNetwork env backends table e)
    (hre : Reordered children' e.children) :
    RulesButNetwork env backends table { e with children := children' } := by
  have hid : childrenNamed .id children' = childrenNamed .id e.children :=
    hre.childrenNamed_eq (by simp) (by simp)
  have hdirs : childrenNamed .sharedDirectory children' = childrenNamed .sharedDirectory e.children :=
    hre.childrenNamed_eq (by simp) (by simp)
  refine ⟨⟨?_, ?_⟩, ?_, ?_, ?_, ?_, ?_, ?_⟩
  · rw [HasOne, hid]
    exact h.id.one
  · rw [hid]
    exact h.id.short
  · rw [keysOf, hid]
    exact h.new
  · intro child hchild
    exact h.children child ((hre.perm.filterMap _).mem_iff.1 hchild)
  · rw [HasOne, hre.childrenNamed_eq (by simp) (by simp)]
    exact h.image
  · rw [HasOne, hre.childrenNamed_eq (by simp) (by simp)]
    exact h.command
  · rw [hdirs]
    exact h.sharedDirs
  · rw [hdirs]
    exact h.distinctPaths

theorem Reordered.symm (h : Reordered children' children) : Reordered children children' :=
  ⟨h.perm.symm, h.others.symm⟩

theorem rulesButNetwork_reordered (hre : Reordered children' e.children) :
    RulesButNetwork env backends table { e with children := children' } ↔
      RulesButNetwork env backends table e :=
  ⟨fun h => RulesButNetwork.reordered (e := { e with children := children' }) h hre.symm,
    fun h => h.reordered hre⟩

theorem enablesNetwork_tag {child : XmlElement} (h : enablesNetwork child = true) :
    child.tag = .setting := by
  unfold enablesNetwork networkAfter at h
  by_contra htag
  rw [if_neg htag] at h
  cases h

theorem networkAfter_of_enables {child : XmlElement} (h : enablesNetwork child = true)
    (network : Bool) : networkAfter network child = true := by
  have htag := enablesNetwork_tag h
  unfold enablesNetwork networkAfter at h
  rw [if_pos htag] at h
  rw [networkAfter, if_pos htag]
  unfold networkAfterSetting at h ⊢
  split at h
  · exact h
  · cases h

theorem networkAfter_of_backend {child : XmlElement} (h : child.tag = .backend) (network : Bool) :
    networkAfter network child = network := by
  rw [networkAfter, h, if_neg (by simp)]

theorem namesRemote_tag {child : XmlElement} (h : namesRemote backends child = true) :
    child.tag = .backend :=
  (decide_eq_true_iff.1 h).1

/-- Without a setting that enables the network, no remote backend is accepted. -/
theorem everyStep_of_not_enables {es : List XmlElement}
    (h : ∀ child ∈ es, enablesNetwork child = false) :
    EveryStep networkAfter (RemoteHasNetwork backends) false es ↔
      ∀ child ∈ es, namesRemote backends child = false := by
  rw [everyStep_of_fixed h]
  unfold RemoteHasNetwork
  simp

/-- With the settings that enable the network last, no remote backend is accepted. -/
theorem not_namesRemote_of_enabling_last (children : List XmlNode)
    (h : EveryStep networkAfter (RemoteHasNetwork backends) false
      (elements (movedToBack enablesNetwork children))) :
    ∀ child ∈ elements children, namesRemote backends child = false := by
  rw [elements_movedToBack, everyStep_append, everyStep_of_not_enables] at h
  · intro child hchild
    by_contra hremote
    rw [Bool.not_eq_false] at hremote
    -- a backend is no setting, so it is among the first
    have hfirst : enablesNetwork child = false := networkAfter_of_backend (namesRemote_tag hremote) _
    rw [h.1 child (List.mem_filter.2 ⟨hchild, by rw [hfirst]; rfl⟩)] at hremote
    cases hremote
  · intro child hchild
    simpa using (List.mem_filter.1 hchild).2

theorem foldl_networkAfter_of_enables {es : List XmlElement}
    (h : ∀ child ∈ es, enablesNetwork child = true) (network : Bool)
    (hor : network = true ∨ es ≠ []) : es.foldl networkAfter network = true := by
  induction es generalizing network with
  | nil => simpa using hor
  | cons child es ih =>
      obtain ⟨hchild, hes⟩ := List.forall_mem_cons.1 h
      exact ih hes _ (.inl (networkAfter_of_enables hchild network))

/-- With the backends last, after a setting that enables the network, all of them are accepted. -/
theorem everyStep_enabling_first {children : List XmlNode} {setting : XmlElement}
    (hmem : setting ∈ elements children) (henables : enablesNetwork setting = true) :
    EveryStep networkAfter (RemoteHasNetwork backends) false
      (elements (movedToBack (·.tag = .backend) (movedToBack enablesNetwork children))) := by
  have hsettings : ((elements children).filter enablesNetwork).filter
      (fun child => !decide (child.tag = .backend)) = (elements children).filter enablesNetwork := by
    refine List.filter_eq_self.2 fun child hchild => ?_
    rw [enablesNetwork_tag (List.mem_filter.1 hchild).2]
    rfl
  rw [elements_movedToBack, elements_movedToBack, everyStep_append, List.filter_append, hsettings,
    List.foldl_append, foldl_networkAfter_of_enables (fun child hchild => (List.mem_filter.1 hchild).2)
      _ (.inr (List.ne_nil_of_mem (List.mem_filter.2 ⟨hmem, henables⟩)))]
  constructor
  · rw [← hsettings, ← List.filter_append]
    refine everyStep_of_forall (fun child hchild network hremote => ?_) _
    have htag := (List.mem_filter.1 hchild).2
    rw [namesRemote_tag hremote] at htag
    cases htag
  · rw [everyStep_of_fixed fun child hchild =>
      networkAfter_of_backend (decide_eq_true_iff.1 (List.mem_filter.1 hchild).2) true]
    exact fun child _ _ => rfl

/-! ### The network, whatever the order -/

/-- A remote backend has its network, and the order of the settings and backends does not matter. -/
structure NetworkSound (env : LoaderEnv) (backends : List PlcBackend)
    (table : List RuntimeConfEntry) (children : List XmlNode) : Prop where
  network : ∀ entry,
    parseRuntimeConfiguration env backends table children = (.ok (), table ++ [entry]) →
      isRemoteAt backends entry.backend = true → entry.enableNetwork = true
  anyOrder : ∀ children', Reordered children' children →
    (Succeeds (parseRuntimeConfiguration env backends table children').1 ↔
      Succeeds (parseRuntimeConfiguration env backends table children).1)

/-- A runtime that names a remote backend never enables the network. -/
def RemoteNeverEnabled (backends : List PlcBackend) (es : List XmlElement) : Prop :=
  (∃ child ∈ es, namesRemote backends child = true) → ∀ child ∈ es, enablesNetwork child = false

/-- A runtime that names no backend has its network enabled at the end, if the default is remote. -/
def DefaultHasNetwork (backends : List PlcBackend) (es : List XmlElement) : Prop :=
  (∀ child ∈ es, child.tag ≠ .backend) → isRemoteAt backends (defaultRef backends) = true →
    es.foldl networkAfter false = true

theorem RemoteNeverEnabled.everyStep_iff {es : List XmlElement} (h : RemoteNeverEnabled backends es) :
    EveryStep networkAfter (RemoteHasNetwork backends) false es ↔
      ∀ child ∈ es, namesRemote backends child = false := by
  by_cases hremote : ∃ child ∈ es, namesRemote backends child = true
  · exact everyStep_of_not_enables (h hremote)
  · have hnone : ∀ child ∈ es, namesRemote backends child = false := by simpa using hremote
    refine iff_of_true (everyStep_of_forall (fun child hchild network hr => ?_) _) hnone
    rw [hnone child hchild] at hr
    cases hr

theorem remoteNeverEnabled_of_anyOrder (hrules : RulesButNetwork env backends table e)
    (h : ∀ children', Reordered children' e.children →
      (Succeeds (parseRuntimeConfiguration env backends table children').1 ↔
        Succeeds (parseRuntimeConfiguration env backends table e.children).1)) :
    RemoteNeverEnabled backends (elements e.children) := by
  rintro ⟨child, hchild, hremote⟩ setting hsetting
  by_contra henables
  rw [Bool.not_eq_false] at henables
  have hlast : Reordered (movedToBack enablesNetwork e.children) e.children :=
    reordered_movedToBack (fun _ h => .inl (enablesNetwork_tag h)) _
  have hfirst : Reordered (movedToBack (·.tag = .backend) (movedToBack enablesNetwork e.children))
      e.children :=
    (reordered_movedToBack (fun _ h => .inr (decide_eq_true_iff.1 h)) _).trans hlast
  have haccepted := (accepts_iff (e := { e with children := _ })).2
    ⟨hrules.reordered hfirst, everyStep_enabling_first hsetting henables⟩
  have hnetwork := ((accepts_iff (e := { e with children := _ })).1
    ((h _ hlast).2 ((h _ hfirst).1 haccepted))).2
  rw [not_namesRemote_of_enabling_last _ hnetwork child hchild] at hremote
  cases hremote

theorem accepted_entry
    (h : Succeeds (parseRuntimeConfiguration env backends table e.children).1) :
    ∃ entry, parseRuntimeConfiguration env backends table e.children =
      (.ok (), table ++ [entry]) := by
  obtain ⟨⟨⟩, hok⟩ := h
  obtain ⟨-, -, -, entry, htable, -⟩ := parseRuntimeConfiguration_eq_ok (Prod.ext hok rfl)
  exact ⟨entry, Prod.ext hok htable⟩

theorem defaultHasNetwork_of_network (hrules : RulesButNetwork env backends table e)
    (h : ∀ entry, parseRuntimeConfiguration env backends table e.children =
      (.ok (), table ++ [entry]) → isRemoteAt backends entry.backend = true →
        entry.enableNetwork = true) : DefaultHasNetwork backends (elements e.children) := by
  intro hnone hremote
  have hstep : EveryStep networkAfter (RemoteHasNetwork backends) false (elements e.children) :=
    everyStep_of_forall (fun child hchild _ hr => (hnone child hchild (namesRemote_tag hr)).elim) _
  obtain ⟨entry, hok⟩ := accepted_entry (accepts_iff.2 ⟨hrules, hstep⟩)
  obtain ⟨id, hentry⟩ := parseRuntime_of_accepted hok
  obtain ⟨hnetwork, hbackend⟩ := parseRuntime_eq_ok hentry
  rw [← hnetwork]
  refine h entry hok ?_
  obtain ⟨-, hfold⟩ | ⟨child, hchild, htag, -⟩ :=
    foldl_backendAfter_cases backends (elements e.children) none
  · rwa [hbackend, hfold, Option.none_or]
  · exact (hnone child hchild htag).elim

/-- A `<backend>` that meets its rules names a backend. -/
theorem isSome_backendRef {child : XmlElement} (h : ChildRules env backends true child)
    (htag : child.tag = .backend) : ∃ i, backendRef backends child = some i := by
  unfold ChildRules at h
  rw [htag] at h
  obtain ⟨name, i, hname, hi, -⟩ := h
  exact ⟨i, by rw [backendRef, hname, Option.bind_some, hi]⟩

theorem network_of_remote (hremote : RemoteNeverEnabled backends (elements e.children))
    (hdefault : DefaultHasNetwork backends (elements e.children)) {entry : RuntimeConfEntry}
    (hok : parseRuntimeConfiguration env backends table e.children = (.ok (), table ++ [entry]))
    (hentry : isRemoteAt backends entry.backend = true) : entry.enableNetwork = true := by
  obtain ⟨hrules, hstep⟩ := accepts_iff.1 ⟨(), congrArg Prod.fst hok⟩
  obtain ⟨id, hparse⟩ := parseRuntime_of_accepted hok
  obtain ⟨hnetwork, hbackend⟩ := parseRuntime_eq_ok hparse
  rw [hbackend] at hentry
  obtain ⟨hnone, hfold⟩ | ⟨child, hchild, htag, hfold⟩ :=
    foldl_backendAfter_cases backends (elements e.children) none
  · rw [hfold, Option.none_or] at hentry
    rw [hnetwork]
    exact hdefault hnone hentry
  · -- the last `<backend>` is remote, but then the runtime is refused
    obtain ⟨i, hi⟩ := isSome_backendRef (hrules.children child hchild) htag
    rw [hfold, hi, Option.some_or, ← hi] at hentry
    have hfalse := hremote.everyStep_iff.1 hstep child hchild
    rw [namesRemote, decide_eq_false_iff_not] at hfalse
    exact (hfalse ⟨htag, hentry⟩).elim

theorem anyOrder_of_remoteNeverEnabled
    (h : RulesButNetwork env backends table e → RemoteNeverEnabled backends (elements e.children))
    (hre : Reordered children' e.children) :
    Succeeds (parseRuntimeConfiguration env backends table children').1 ↔
      Succeeds (parseRuntimeConfiguration env backends table e.children).1 := by
  refine (accepts_iff (e := { e with children := children' })).trans
    (Iff.trans ?_ accepts_iff.symm)
  rw [rulesButNetwork_reordered hre]
  refine and_congr_right fun hrules => ?_
  -- both orders have the same children
  have hmem : ∀ child, child ∈ elements children' ↔ child ∈ elements e.children :=
    fun child => (hre.perm.filterMap _).mem_iff
  have h' : RemoteNeverEnabled backends (elements children') := by
    simpa only [RemoteNeverEnabled, hmem] using h hrules
  rw [h'.everyStep_iff, (h hrules).everyStep_iff]
  simp only [hmem]

end Network

/-- The check is made where a `<backend>` stands, with the settings before it, and never for the
    default. So the network can be trusted for a runtime that is wrong in another way, and else
    if no remote backend is named beside a setting that enables the network, and a remote default is
    not taken without it. -/
theorem remote_runtime_network_iff (env : LoaderEnv) (backends : List PlcBackend)
    (table : List RuntimeConfEntry) (e : XmlElement) :
    NetworkSound env backends table e.children ↔
      (RulesButNetwork env backends table e →
        RemoteNeverEnabled backends (elements e.children) ∧
          DefaultHasNetwork backends (elements e.children)) := by
  constructor
  · intro h hrules
    exact ⟨remoteNeverEnabled_of_anyOrder hrules h.anyOrder,
      defaultHasNetwork_of_network hrules h.network⟩
  · intro h
    refine ⟨fun entry hok hentry => ?_, fun children' hre =>
      anyOrder_of_remoteNeverEnabled (fun hrules => (h hrules).1) hre⟩
    obtain ⟨hremote, hdefault⟩ := h (accepts_iff.1 ⟨(), congrArg Prod.fst hok⟩).1
    exact network_of_remote hremote hdefault hok hentry

/-- A remote backend `b`. -/
def remoteBackend : XmlNode :=
  .element [] .backend [⟨[], .name, ['b']⟩, ⟨[], .type, remoteDockerText⟩]
    [.element [] .address [] [.text ['h']], .element [] .port [] [.text ['1']]]

/-- A runtime with an image, a command and the given children. -/
def runtimeWith (children : List XmlNode) : XmlElement :=
  ⟨[], .runtime, [], [.element [] .id [] [.text ['r']], .element [] .image [] [.text ['i']],
    .element [] .command [] [.text ['c']]] ++ children⟩

def onBackendB : XmlNode := .element [] .backend [⟨[], .name, ['b']⟩] []

def networkSetting (value : XmlText) : XmlNode := .element [] .setting [⟨[], .enableNetwork, value⟩] []

/-- The network is enabled before the remote backend is named and disabled after it: the runtime is
    accepted without its network. With the backend first it is refused. -/
theorem remote_runtime_without_network :
    ∃ backends entry,
      parseRuntimeBackendConfiguration plainLoader ⟨[], .configuration, [], [remoteBackend]⟩ =
        .ok backends ∧
      parseRuntimeConfiguration plainLoader backends []
        (runtimeWith [networkSetting yesText, onBackendB, networkSetting noText]).children =
          (.ok (), [entry]) ∧
      isRemoteAt backends entry.backend = true ∧ entry.enableNetwork = false ∧
      (parseRuntimeConfiguration plainLoader backends []
        (runtimeWith [onBackendB, networkSetting yesText, networkSetting noText]).children).1 =
          .error .networkNeeded :=
  ⟨_, _, rfl, rfl, rfl, rfl, rfl⟩

end PlContainer
