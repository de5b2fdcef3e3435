import PlContainer.Config.Loader
import PlContainer.Library.Checked

set_option autoImplicit false

/-! # What the loader demands of a document

The loader is a sequence of passes with errors in between. Here its demands are stated as rules on the
document: on each backend, on each runtime and its children, and on all runtimes together. The one rule
that depends on an order is that of a remote backend, for which the settings before it must have enabled
the network. `loaderAccepts_iff` says that these rules are all there is. -/

namespace PlContainer

open Checked Runs

/-! ## Backends -/

/-- There is exactly one child of the name. -/
def HasOne (tag : Tag) (e : XmlElement) : Prop := (childrenNamed tag e.children).length = 1

def HasAtMostOne (tag : Tag) (e : XmlElement) : Prop := (childrenNamed tag e.children).length ≤ 1

def DockerRules (e : XmlElement) : Prop := HasOne .address e

structure RemoteDockerRules (e : XmlElement) : Prop where
  addSegmentIndex : HasAtMostOne .addSegmentIndex e
  address : HasOne .address e
  port : HasOne .port e
  username : HasAtMostOne .username e
  password : HasAtMostOne .password e

structure BackendRules (e : XmlElement) : Prop where
  name : (xmlGetProp e.props .name).isSome
  type : ∃ type, xmlGetProp e.props .type = some type ∧
    ((type = dockerText ∨ type = localDockerText) ∧ DockerRules e ∨
      type = remoteDockerText ∧ RemoteDockerRules e)

theorem succeeds_readProperty {e : XmlElement} {attr : Attr} :
    Succeeds (readProperty e attr) ↔ (xmlGetProp e.props attr).isSome := by
  rw [readProperty]
  cases xmlGetProp e.props attr with
  | none => exact iff_of_false (not_succeeds_throw _) (by simp)
  | some v => exact iff_of_true (succeeds_pure v) rfl

theorem readProperty_eq_ok {e : XmlElement} {attr : Attr} {v : XmlText} :
    readProperty e attr = .ok v ↔ xmlGetProp e.props attr = some v := by
  rw [readProperty]
  cases xmlGetProp e.props attr with
  | none => exact iff_of_false (by simp [throw_eq_ok]) (by simp)
  | some v' => simp [pure_eq_ok]

theorem succeeds_readContent {e : XmlElement} {tag : Tag} {notnull : Bool} :
    Succeeds (readContent e tag notnull) ↔ if notnull then HasOne tag e else HasAtMostOne tag e := by
  rw [readContent, HasOne, HasAtMostOne]
  split
  next hnone =>
    rw [hnone]
    cases notnull with
    | true => exact iff_of_false (not_succeeds_throw _) (by simp)
    | false => exact iff_of_true (succeeds_pure _) (by simp)
  next hone =>
    rw [hone]
    exact iff_of_true (succeeds_pure _) (by simp)
  next hnot hnot' =>
    refine iff_of_false (not_succeeds_throw _) ?_
    rcases hchildren : childrenNamed tag e.children with _ | ⟨a, _ | ⟨b, l⟩⟩
    · exact absurd hchildren hnot
    · exact absurd hchildren (hnot' a)
    · simp

/-- The part of `xml_read_backend` after its attributes. -/
theorem succeeds_backendContent (e : XmlElement) (name type : XmlText) :
    Succeeds (if type = dockerText ∨ type = localDockerText then do
      let address ← readContent e .address true
      pure ⟨name, .docker (address.getD [])⟩
    else if type = remoteDockerText then do
      let addSegmentIndex ← readContent e .addSegmentIndex false
      let address ← readContent e .address true
      let port ← readContent e .port true
      let username ← readContent e .username false
      let password ← readContent e .password false
      pure ⟨name, .remoteDocker (address.getD []) (atoll (port.getD [])) username password
        (atoi (addSegmentIndex.getD []) ≠ 0)⟩
    else throw (.backendType type) : Except ConfigError PlcBackend) ↔
      (type = dockerText ∨ type = localDockerText) ∧ DockerRules e ∨
        type = remoteDockerText ∧ RemoteDockerRules e := by
  split
  next hdocker =>
    have hremote : type ≠ remoteDockerText := by
      rintro rfl
      exact absurd hdocker (by decide)
    rw [succeeds_bind_pure, succeeds_readContent]
    simp [hdocker, hremote, DockerRules]
  next hdocker =>
    split
    next hremote =>
      refine (succeeds_seq succeeds_readContent fun _ => succeeds_seq succeeds_readContent fun _ =>
        succeeds_seq succeeds_readContent fun _ => succeeds_seq succeeds_readContent fun _ =>
        succeeds_bind_pure.trans succeeds_readContent).trans ?_
      constructor
      · rintro ⟨hindex, haddress, hport, husername, hpassword⟩
        exact .inr ⟨hremote, hindex, haddress, hport, husername, hpassword⟩
      · rintro (⟨h, -⟩ | ⟨-, hindex, haddress, hport, husername, hpassword⟩)
        · exact absurd h hdocker
        · exact ⟨hindex, haddress, hport, husername, hpassword⟩
    next hremote =>
      refine iff_of_false (not_succeeds_throw _) ?_
      rintro (⟨h, -⟩ | ⟨h, -⟩)
      · exact hdocker h
      · exact hremote h

theorem succeeds_xmlReadBackend (e : XmlElement) : Succeeds (xmlReadBackend e) ↔ BackendRules e := by
  have htype (name : XmlText) := succeeds_backendContent e name
  rw [xmlReadBackend, succeeds_bind_of fun name _ => succeeds_bind.trans
    (exists_congr fun type => and_congr readProperty_eq_ok (htype name type)), succeeds_readProperty]
  exact ⟨fun ⟨h₁, h₂⟩ => ⟨h₁, h₂⟩, fun ⟨h₁, h₂⟩ => ⟨h₁, h₂⟩⟩

/-- The table of backends of a document whose backends can be read. -/
def backendsOf (env : LoaderEnv) (root : XmlElement) : List PlcBackend :=
  match parseRuntimeBackendConfiguration env root with
  | .ok backends => backends
  | .error _ => []

theorem succeeds_parseRuntimeBackendConfiguration (env : LoaderEnv) (root : XmlElement) :
    Succeeds (parseRuntimeBackendConfiguration env root) ↔
      ∀ e ∈ childrenNamed .backend root.children, BackendRules e := by
  rw [parseRuntimeBackendConfiguration, succeeds_bind_pure, succeeds_mapM]
  exact forall₂_congr fun e _ => succeeds_xmlReadBackend e

/-! ## Settings -/

def IsYesOrNo (value : XmlText) : Prop :=
  strcasecmp value yesText = true ∨ strcasecmp value noText = true

def IsPositive (value : XmlText) : Prop := ∃ n, pgAtoi value = some n ∧ 0 < n

def IsResourceGroup (env : LoaderEnv) (value : XmlText) : Prop :=
  ∃ n, pgAtoi value = some n ∧ (BitVec.ofInt 32 n : Oid) ≠ 0 ∧
    env.resourceGroup (BitVec.ofInt 32 n) = true

/-- Every attribute that the loader knows is in order, and there is one. -/
structure SettingRules (env : LoaderEnv) (props : List XmlProp) : Prop where
  useContainerLogging : ∀ v ∈ xmlGetProp props .useContainerLogging, IsYesOrNo v
  memoryMb : ∀ v ∈ xmlGetProp props .memoryMb, IsPositive v
  cpuShare : ∀ v ∈ xmlGetProp props .cpuShare, IsPositive v
  enableNetwork : ∀ v ∈ xmlGetProp props .enableNetwork, IsYesOrNo v
  resourceGroupId : ∀ v ∈ xmlGetProp props .resourceGroupId, IsResourceGroup env v
  roles : ∀ v ∈ xmlGetProp props .roles, v ≠ []
  recognized : settingAttrs.any (fun attr => (xmlGetProp props attr).isSome) = true

theorem succeeds_readYesOrNo {attr : Attr} {value : XmlText} :
    Succeeds (readYesOrNo attr value) ↔ IsYesOrNo value := by
  rw [readYesOrNo, IsYesOrNo]
  split
  next h => exact iff_of_true (succeeds_pure _) (.inl h)
  next h =>
    split
    next h' => exact iff_of_true (succeeds_pure _) (.inr h')
    next h' => exact iff_of_false (not_succeeds_throw _) (by rintro (h'' | h'') <;> contradiction)

theorem succeeds_readPositive {attr : Attr} {value : XmlText} :
    Succeeds (readPositive attr value) ↔ IsPositive value := by
  rw [readPositive, IsPositive]
  cases pgAtoi value with
  | none => exact iff_of_false (not_succeeds_throw _) (by simp)
  | some n =>
      dsimp only
      split
      next h => exact iff_of_false (not_succeeds_throw _) (by simpa using h)
      next h => exact iff_of_true (succeeds_pure _) ⟨n, rfl, by omega⟩

theorem succeeds_readResourceGroup {env : LoaderEnv} {value : XmlText} :
    Succeeds (readResourceGroup env value) ↔ IsResourceGroup env value := by
  rw [readResourceGroup, IsResourceGroup]
  split
  next hempty =>
    refine iff_of_false (not_succeeds_throw _) ?_
    rintro ⟨n, hn, -⟩
    rw [hempty] at hn
    cases hn
  next =>
    cases pgAtoi value with
    | none => exact iff_of_false (not_succeeds_throw _) (by simp)
    | some n =>
        dsimp only
        split
        next h =>
          refine iff_of_false (not_succeeds_throw _) ?_
          rintro ⟨_, ⟨⟩, hne, hgroup⟩
          rcases h with h | h
          · exact hne h
          · rw [hgroup] at h
            cases h
        next h => exact iff_of_true (succeeds_pure _) ⟨n, rfl, by simpa using h⟩

theorem succeeds_applySetting {props : List XmlProp} {attr : Attr}
    {set : XmlText → RuntimeConfEntry → Except ConfigError RuntimeConfEntry}
    {rule : XmlText → Prop} (hset : ∀ v entry, Succeeds (set v entry) ↔ rule v)
    (entry : RuntimeConfEntry) :
    Succeeds (applySetting props attr set entry) ↔ ∀ v ∈ xmlGetProp props attr, rule v := by
  rw [applySetting]
  cases xmlGetProp props attr with
  | none => exact iff_of_true (succeeds_pure _) (by simp)
  | some v => simpa using hset v entry

theorem succeeds_setUseContainerLogging (value : XmlText) (entry : RuntimeConfEntry) :
    Succeeds (setUseContainerLogging value entry) ↔ IsYesOrNo value :=
  succeeds_bind_pure.trans succeeds_readYesOrNo

theorem succeeds_setMemoryMb (value : XmlText) (entry : RuntimeConfEntry) :
    Succeeds (setMemoryMb value entry) ↔ IsPositive value :=
  succeeds_bind_pure.trans succeeds_readPositive

theorem succeeds_setCpuShare (value : XmlText) (entry : RuntimeConfEntry) :
    Succeeds (setCpuShare value entry) ↔ IsPositive value :=
  succeeds_bind_pure.trans succeeds_readPositive

theorem succeeds_setEnableNetwork (value : XmlText) (entry : RuntimeConfEntry) :
    Succeeds (setEnableNetwork value entry) ↔ IsYesOrNo value :=
  succeeds_bind_pure.trans succeeds_readYesOrNo

theorem succeeds_setResourceGroupId (env : LoaderEnv) (value : XmlText) (entry : RuntimeConfEntry) :
    Succeeds (setResourceGroupId env value entry) ↔ IsResourceGroup env value :=
  succeeds_bind_pure.trans succeeds_readResourceGroup

theorem succeeds_setRoles (value : XmlText) (entry : RuntimeConfEntry) :
    Succeeds (setRoles value entry) ↔ value ≠ [] := by
  rw [setRoles]
  split
  next h => exact iff_of_false (not_succeeds_throw _) (not_not.2 h)
  next h => exact iff_of_true (succeeds_pure _) h

theorem succeeds_parseSetting (env : LoaderEnv) (entry : RuntimeConfEntry) (props : List XmlProp) :
    Succeeds (parseSetting env entry props) ↔ SettingRules env props := by
  have hlast (e : RuntimeConfEntry) :
      Succeeds (if settingAttrs.any (fun attr => (xmlGetProp props attr).isSome) then pure e
        else throw .unrecognizedSetting : Except ConfigError RuntimeConfEntry) ↔
        settingAttrs.any (fun attr => (xmlGetProp props attr).isSome) = true := by
    split
    next h => exact iff_of_true (succeeds_pure _) h
    next h => exact iff_of_false (not_succeeds_throw _) h
  refine (succeeds_seq (succeeds_applySetting succeeds_setUseContainerLogging _) fun _ =>
    succeeds_seq (succeeds_applySetting succeeds_setMemoryMb _) fun _ =>
    succeeds_seq (succeeds_applySetting succeeds_setCpuShare _) fun _ =>
    succeeds_seq (succeeds_applySetting succeeds_setEnableNetwork _) fun _ =>
    succeeds_seq (succeeds_applySetting (succeeds_setResourceGroupId env) _) fun _ =>
    succeeds_seq (succeeds_applySetting succeeds_setRoles _) hlast).trans ?_
  exact ⟨fun ⟨h₁, h₂, h₃, h₄, h₅, h₆, h₇⟩ => ⟨h₁, h₂, h₃, h₄, h₅, h₆, h₇⟩,
    fun ⟨h₁, h₂, h₃, h₄, h₅, h₆, h₇⟩ => ⟨h₁, h₂, h₃, h₄, h₅, h₆, h₇⟩⟩

/-! ## The children of a runtime -/

/-- A `<backend>` names a backend of the document, for a remote one with the network enabled. -/
def BackendRefRules (backends : List PlcBackend) (network : Bool) (e : XmlElement) : Prop :=
  ∃ name i, xmlGetProp e.props .name = some name ∧ takePlcbackendByname backends name = some i ∧
    (backends[i]?.any PlcBackend.isRemote = true → network = true)

/-- The rule for a child of a runtime, with the network as it is there. -/
def ChildRules (env : LoaderEnv) (backends : List PlcBackend) (network : Bool) (e : XmlElement) :
    Prop :=
  match e.tag with
  | .id | .image | .command | .sharedDirectory => True
  | .setting => SettingRules env e.props
  | .deviceRequest => (xmlGetProp e.props .type).isSome
  | .backend => BackendRefRules backends network e
  | _ => False

theorem succeeds_parseBackendRef {backends : List PlcBackend} {entry : RuntimeConfEntry}
    {e : XmlElement} :
    Succeeds (parseBackendRef backends entry e) ↔ BackendRefRules backends entry.enableNetwork e := by
  rw [parseBackendRef, succeeds_bind, BackendRefRules]
  refine exists_congr fun name => ?_
  rw [readProperty_eq_ok]
  cases takePlcbackendByname backends name with
  | none => exact iff_of_false (fun h => not_succeeds_throw _ h.2) (by simp)
  | some i =>
      dsimp only
      split
      next h =>
        refine iff_of_false (fun h' => not_succeeds_throw _ h'.2) ?_
        rintro ⟨_, -, ⟨⟩, hremote⟩
        rw [hremote h.2] at h
        cases h.1
      next h =>
        constructor
        · rintro ⟨hname, -⟩
          refine ⟨i, hname, rfl, fun hremote => ?_⟩
          simpa [hremote] using h
        · rintro ⟨_, hname, -, -⟩
          exact ⟨hname, succeeds_pure _⟩

theorem succeeds_parseChild {env : LoaderEnv} {backends : List PlcBackend}
    (entry : RuntimeConfEntry) (e : XmlElement) :
    Succeeds (parseChild env backends entry e) ↔
      ChildRules env backends entry.enableNetwork e := by
  rw [parseChild, ChildRules]
  cases e.tag with
  | id => exact iff_of_true (succeeds_pure _) trivial
  | image => exact iff_of_true (succeeds_pure _) trivial
  | command => exact iff_of_true (succeeds_pure _) trivial
  | sharedDirectory => exact iff_of_true (succeeds_pure _) trivial
  | setting => exact succeeds_parseSetting env entry e.props
  | backend => exact succeeds_parseBackendRef
  | deviceRequest =>
      cases xmlGetProp e.props .type with
      | none => exact iff_of_false (not_succeeds_throw _) (by simp)
      | some v => exact iff_of_true (succeeds_pure _) rfl
  | _ => exact iff_of_false (not_succeeds_throw _) id

/-! ## The entry while the children are read -/

section Children

variable {env : LoaderEnv} {backends : List PlcBackend} {entry entry' : RuntimeConfEntry}

/-- What the later checks look at in the entry of a runtime. -/
def idAndNetwork (entry : RuntimeConfEntry) : XmlText × Bool := (entry.runtimeid, entry.enableNetwork)

theorem readYesOrNo_eq_ok {attr : Attr} {value : XmlText} {b : Bool}
    (hok : readYesOrNo attr value = .ok b) : b = strcasecmp value yesText := by
  rw [readYesOrNo] at hok
  split at hok
  next h => rw [← pure_eq_ok.1 hok, h]
  next h =>
    split at hok
    · rw [← pure_eq_ok.1 hok, Bool.eq_false_iff.2 h]
    · exact (throw_eq_ok.1 hok).elim

/-- Whether the network is enabled after a setting. -/
def networkAfterSetting (network : Bool) (props : List XmlProp) : Bool :=
  match xmlGetProp props .enableNetwork with
  | some v => strcasecmp v yesText
  | none => network

/-- A setting that reads a value and puts it into its field, or leaves the field as it is. -/
theorem applySetting_field {γ : Type} {props : List XmlProp} {attr : Attr}
    {read : XmlText → Except ConfigError γ} (get : RuntimeConfEntry → γ)
    (put : RuntimeConfEntry → γ → RuntimeConfEntry) (hput : put entry (get entry) = entry)
    (hok : applySetting props attr (fun v entry => do let c ← read v; pure (put entry c)) entry =
      .ok entry') : ∃ c, entry' = put entry c := by
  unfold applySetting at hok
  split at hok
  · exact ⟨get entry, (pure_eq_ok.1 hok).symm.trans hput.symm⟩
  · obtain ⟨c, -, hc⟩ := bind_eq_ok.1 hok
    exact ⟨c, (pure_eq_ok.1 hc).symm⟩

theorem applySetting_enableNetwork {props : List XmlProp}
    (hok : applySetting props .enableNetwork setEnableNetwork entry = .ok entry') :
    ∃ control, entry' = { entry with
      enableNetwork := networkAfterSetting entry.enableNetwork props, useUserControl := control } := by
  unfold applySetting at hok
  unfold networkAfterSetting
  split at hok
  next hnone =>
    rw [hnone]
    exact ⟨entry.useUserControl, (pure_eq_ok.1 hok).symm⟩
  next v hsome =>
    rw [hsome]
    obtain ⟨b, hb, hok⟩ := bind_eq_ok.1 hok
    obtain rfl := readYesOrNo_eq_ok hb
    exact ⟨_, (pure_eq_ok.1 hok).symm⟩

theorem applySetting_roles {props : List XmlProp}
    (hok : applySetting props .roles setRoles entry = .ok entry') :
    ∃ roles control, entry' = { entry with roles := roles, useUserControl := control } := by
  unfold applySetting at hok
  split at hok
  · exact ⟨entry.roles, entry.useUserControl, (pure_eq_ok.1 hok).symm⟩
  · unfold setRoles at hok
    split at hok
    · exact (throw_eq_ok.1 hok).elim
    · exact ⟨_, _, (pure_eq_ok.1 hok).symm⟩

/-- What a setting can change in the entry. -/
theorem parseSetting_eq_ok {props : List XmlProp}
    (hok : parseSetting env entry props = .ok entry') :
    ∃ logging memory cpu group roles control, entry' = { entry with
      useContainerLogging := logging, memoryMb := memory, cpuShare := cpu, resgroupOid := group,
      enableNetwork := networkAfterSetting entry.enableNetwork props,
      roles := roles, useUserControl := control } := by
  obtain ⟨e₁, h₁, hok⟩ := bind_eq_ok.1 hok
  obtain ⟨e₂, h₂, hok⟩ := bind_eq_ok.1 hok
  obtain ⟨e₃, h₃, hok⟩ := bind_eq_ok.1 hok
  obtain ⟨e₄, h₄, hok⟩ := bind_eq_ok.1 hok
  obtain ⟨e₅, h₅, hok⟩ := bind_eq_ok.1 hok
  obtain ⟨e₆, h₆, hok⟩ := bind_eq_ok.1 hok
  obtain ⟨logging, rfl⟩ := applySetting_field RuntimeConfEntry.useContainerLogging
    (fun e c => { e with useContainerLogging := c }) rfl h₁
  obtain ⟨memory, rfl⟩ := applySetting_field RuntimeConfEntry.memoryMb
    (fun e c => { e with memoryMb := c }) rfl h₂
  obtain ⟨cpu, rfl⟩ := applySetting_field RuntimeConfEntry.cpuShare
    (fun e c => { e with cpuShare := c }) rfl h₃
  obtain ⟨_, rfl⟩ := applySetting_enableNetwork h₄
  obtain ⟨group, rfl⟩ := applySetting_field RuntimeConfEntry.resgroupOid
    (fun e c => { e with resgroupOid := c }) rfl h₅
  obtain ⟨roles, control, rfl⟩ := applySetting_roles h₆
  split at hok
  · exact ⟨logging, memory, cpu, group, roles, control, (pure_eq_ok.1 hok).symm⟩
  · exact (throw_eq_ok.1 hok).elim

theorem idAndNetwork_parseSetting {props : List XmlProp}
    (hok : parseSetting env entry props = .ok entry') :
    idAndNetwork entry' = (entry.runtimeid, networkAfterSetting entry.enableNetwork props) := by
  obtain ⟨_, _, _, _, _, _, rfl⟩ := parseSetting_eq_ok hok
  rfl

theorem idAndNetwork_parseBackendRef {e : XmlElement}
    (hok : parseBackendRef backends entry e = .ok entry') :
    idAndNetwork entry' = idAndNetwork entry := by
  obtain ⟨name, -, hok⟩ := bind_eq_ok.1 hok
  split at hok
  · exact (throw_eq_ok.1 hok).elim
  · split at hok
    · exact (throw_eq_ok.1 hok).elim
    · rw [← pure_eq_ok.1 hok]
      rfl

/-- Whether the network is enabled after a child. -/
def networkAfter (network : Bool) (e : XmlElement) : Bool :=
  if e.tag = .setting then networkAfterSetting network e.props else network

theorem idAndNetwork_parseChild {e : XmlElement} (hok : parseChild env backends entry e = .ok entry') :
    idAndNetwork entry' = (entry.runtimeid, networkAfter entry.enableNetwork e) := by
  rw [parseChild] at hok
  rw [networkAfter]
  cases htag : e.tag with
  | setting =>
      rw [htag] at hok
      rw [if_pos rfl]
      exact idAndNetwork_parseSetting hok
  | backend =>
      rw [htag] at hok
      exact idAndNetwork_parseBackendRef hok
  | deviceRequest =>
      rw [htag] at hok
      dsimp only at hok
      split at hok
      · exact (throw_eq_ok.1 hok).elim
      · rw [← pure_eq_ok.1 hok]
        rfl
  | id | image | command | sharedDirectory =>
      rw [htag] at hok
      rw [← pure_eq_ok.1 hok]
      rfl
  | _ =>
      rw [htag] at hok
      exact (throw_eq_ok.1 hok).elim

/-- The first pass over a runtime's children. -/
theorem succeeds_parseChildren (id : XmlText) (es : List XmlElement) :
    Succeeds (es.foldlM (parseChild env backends) (.fresh id)) ↔
      EveryStep networkAfter (ChildRules env backends) false es := by
  have hnext : ∀ entry e entry', parseChild env backends entry e = .ok entry' →
      entry'.enableNetwork = networkAfter entry.enableNetwork e :=
    fun _ _ _ hok => congrArg Prod.snd (idAndNetwork_parseChild hok)
  exact succeeds_foldlM succeeds_parseChild hnext (.fresh id) es

theorem runtimeid_parseChildren {id : XmlText} {es : List XmlElement}
    (hok : es.foldlM (parseChild env backends) (.fresh id) = .ok entry) : entry.runtimeid = id :=
  foldlM_invariant (I := fun entry => entry.runtimeid = id)
    (fun _ _ _ hid hok => (congrArg Prod.fst (idAndNetwork_parseChild hok)).trans hid) rfl hok

end Children

/-! ## Shared directories -/

/-- The rule for one shared directory. -/
structure SharedDirRules (e : XmlElement) : Prop where
  host : (xmlGetProp e.props .host).isSome
  container : (xmlGetProp e.props .container).isSome
  access : xmlGetProp e.props .access = some roText ∨ xmlGetProp e.props .access = some rwText

/-- The container paths of the shared directories. -/
def containerPaths (es : List XmlElement) : List XmlText :=
  es.filterMap fun e => xmlGetProp e.props .container

theorem containerPaths_cons {e : XmlElement} {es : List XmlElement} {path : XmlText}
    (h : xmlGetProp e.props .container = some path) :
    containerPaths (e :: es) = path :: containerPaths es := by
  rw [containerPaths, List.filterMap_cons, h, containerPaths]

/-- No two container paths are equal but for case. -/
def DistinctPaths (es : List XmlElement) : Prop :=
  (containerPaths es).Pairwise fun a b => strcasecmp b a = false

theorem parseSharedDir_eq_ok {previous : List PlcSharedDir} {e : XmlElement} {dir : PlcSharedDir}
    (hok : parseSharedDir previous e = .ok dir) :
    SharedDirRules e ∧ xmlGetProp e.props .container = some dir.container ∧
      ∀ d ∈ previous, strcasecmp dir.container d.container = false := by
  obtain ⟨host, hhost, hok⟩ := bind_eq_ok.1 hok
  obtain ⟨container, hcontainer, hok⟩ := bind_eq_ok.1 hok
  rw [readProperty_eq_ok] at hhost hcontainer
  split at hok
  · exact (throw_eq_ok.1 (bind_eq_ok.1 hok).choose_spec.1).elim
  next hnew =>
    obtain ⟨-, -, hok⟩ := bind_eq_ok.1 hok
    obtain ⟨access, haccess, hok⟩ := bind_eq_ok.1 hok
    rw [readProperty_eq_ok] at haccess
    have hdistinct : ∀ d ∈ previous, strcasecmp container d.container = false := by simpa using hnew
    split at hok
    next hro =>
      rw [← pure_eq_ok.1 hok]
      exact ⟨⟨by rw [hhost]; rfl, by rw [hcontainer]; rfl, .inl (hro ▸ haccess)⟩, hcontainer,
        hdistinct⟩
    next =>
      split at hok
      next hrw =>
        rw [← pure_eq_ok.1 hok]
        exact ⟨⟨by rw [hhost]; rfl, by rw [hcontainer]; rfl, .inr (hrw ▸ haccess)⟩, hcontainer,
          hdistinct⟩
      next => exact (throw_eq_ok.1 hok).elim

theorem succeeds_parseSharedDir {previous : List PlcSharedDir} {e : XmlElement} :
    Succeeds (parseSharedDir previous e) ↔ SharedDirRules e ∧
      ∀ path ∈ xmlGetProp e.props .container, ∀ d ∈ previous, strcasecmp path d.container = false := by
  constructor
  · rintro ⟨dir, hok⟩
    obtain ⟨hrules, hcontainer, hdistinct⟩ := parseSharedDir_eq_ok hok
    refine ⟨hrules, fun path hpath => ?_⟩
    obtain rfl : dir.container = path := Option.some.inj (hcontainer.symm.trans hpath)
    exact hdistinct
  · rintro ⟨hrules, hdistinct⟩
    obtain ⟨host, hhost⟩ := Option.isSome_iff_exists.1 hrules.host
    obtain ⟨container, hcontainer⟩ := Option.isSome_iff_exists.1 hrules.container
    have hnew : previous.any (fun d => strcasecmp container d.container) = false := by
      simpa using hdistinct container hcontainer
    refine succeeds_bind.2 ⟨host, readProperty_eq_ok.2 hhost, succeeds_bind.2 ⟨container,
      readProperty_eq_ok.2 hcontainer, ?_⟩⟩
    rw [hnew, if_neg (by simp)]
    rcases hrules.access with haccess | haccess
    · exact succeeds_bind.2 ⟨roText, readProperty_eq_ok.2 haccess, succeeds_pure _⟩
    · exact succeeds_bind.2 ⟨rwText, readProperty_eq_ok.2 haccess, succeeds_pure _⟩

theorem succeeds_parseSharedDirs (previous : List PlcSharedDir) (es : List XmlElement) :
    Succeeds (parseSharedDirs previous es) ↔ (∀ e ∈ es, SharedDirRules e) ∧ DistinctPaths es ∧
      ∀ path ∈ containerPaths es, ∀ d ∈ previous, strcasecmp path d.container = false := by
  -- the directories read so far grow, so the statement compares the paths to come with all of them
  induction es generalizing previous with
  | nil => exact iff_of_true (succeeds_pure _) ⟨by simp, .nil, by simp [containerPaths]⟩
  | cons e es ih =>
      rw [parseSharedDirs, succeeds_bind]
      constructor
      · rintro ⟨dir, hok, hrest⟩
        obtain ⟨hrules, hcontainer, hdistinct⟩ := parseSharedDir_eq_ok hok
        obtain ⟨hall, hpaths, hprevious⟩ := (ih _).1 hrest
        rw [DistinctPaths, containerPaths_cons hcontainer, List.pairwise_cons, List.forall_mem_cons,
          List.forall_mem_cons]
        exact ⟨⟨hrules, hall⟩, ⟨fun path hpath => hprevious path hpath dir (by simp), hpaths⟩,
          hdistinct, fun path hpath d hd => hprevious path hpath d (by simp [hd])⟩
      · rintro ⟨hrules, hpaths, hprevious⟩
        obtain ⟨container, hcontainer⟩ := Option.isSome_iff_exists.1 (hrules e (by simp)).container
        rw [DistinctPaths, containerPaths_cons hcontainer, List.pairwise_cons] at hpaths
        rw [containerPaths_cons hcontainer, List.forall_mem_cons] at hprevious
        obtain ⟨dir, hok⟩ : Succeeds (parseSharedDir previous e) := by
          refine succeeds_parseSharedDir.2 ⟨hrules e (by simp), fun path hpath => ?_⟩
          obtain rfl : container = path := Option.some.inj (hcontainer.symm.trans hpath)
          exact hprevious.1
        obtain rfl : container = dir.container :=
          Option.some.inj (hcontainer.symm.trans (parseSharedDir_eq_ok hok).2.1)
        refine ⟨dir, hok, (ih _).2 ⟨fun e' he' => hrules e' (by simp [he']), hpaths.2, ?_⟩⟩
        intro path hpath d hd
        rcases List.mem_append.1 hd with hd | hd
        · exact hprevious.2 path hpath d hd
        · rw [List.mem_singleton.1 hd]
          exact hpaths.1 path hpath

/-! ## Runtimes -/

/-- The rules for the children of a runtime. -/
structure RuntimeRules (env : LoaderEnv) (backends : List PlcBackend) (e : XmlElement) : Prop where
  children : EveryStep networkAfter (ChildRules env backends) false (elements e.children)
  image : HasOne .image e
  command : HasOne .command e
  sharedDirs : ∀ dir ∈ childrenNamed .sharedDirectory e.children, SharedDirRules dir
  distinctPaths : DistinctPaths (childrenNamed .sharedDirectory e.children)

theorem succeeds_checkCount {tag : Tag} {e : XmlElement} :
    Succeeds (checkCount tag e.children) ↔ HasOne tag e := by
  rw [checkCount, HasOne]
  split
  next h => exact iff_of_true (succeeds_pure _) h
  next h => exact iff_of_false (not_succeeds_throw _) h

theorem succeeds_parseRuntime (env : LoaderEnv) (backends : List PlcBackend) (id : XmlText)
    (e : XmlElement) :
    Succeeds (parseRuntime env backends id e.children) ↔ RuntimeRules env backends e := by
  refine (succeeds_seq (succeeds_parseChildren id _) fun _ => succeeds_seq succeeds_checkCount
    fun _ => succeeds_seq succeeds_checkCount fun _ => succeeds_bind_pure.trans
    (succeeds_parseSharedDirs [] _)).trans ?_
  constructor
  · rintro ⟨hchildren, himage, hcommand, hdirs, hpaths, -⟩
    exact ⟨hchildren, himage, hcommand, hdirs, hpaths⟩
  · rintro ⟨hchildren, himage, hcommand, hdirs, hpaths⟩
    exact ⟨hchildren, himage, hcommand, hdirs, hpaths, by simp⟩

theorem runtimeid_parseRuntime {env : LoaderEnv} {backends : List PlcBackend} {id : XmlText}
    {children : List XmlNode} {entry : RuntimeConfEntry}
    (hok : parseRuntime env backends id children = .ok entry) : entry.runtimeid = id := by
  obtain ⟨first, hfirst, hok⟩ := bind_eq_ok.1 hok
  obtain ⟨-, -, hok⟩ := bind_eq_ok.1 hok
  obtain ⟨-, -, hok⟩ := bind_eq_ok.1 hok
  obtain ⟨dirs, -, hok⟩ := bind_eq_ok.1 hok
  rw [← pure_eq_ok.1 hok, ← runtimeid_parseChildren hfirst, applyDefaultBackend]
  split <;> rfl

/-- The rule for the id of a runtime. -/
structure IdRules (e : XmlElement) : Prop where
  one : HasOne .id e
  short : ∀ id ∈ childrenNamed .id e.children, utf8Strlen id.getContent ≤ runtimeIdMaxLength - 1

/-- What the table compares of the ids of a runtime; with `IdRules` it has one. -/
def keysOf (e : XmlElement) : List (List UInt8) :=
  (childrenNamed .id e.children).map fun id => runtimeKey id.getContent

/-- The keys are not in the table. -/
def NewKeys (table : List RuntimeConfEntry) (keys : List (List UInt8)) : Prop :=
  ∀ key ∈ keys, ∀ entry ∈ table, runtimeKey entry.runtimeid ≠ key

section Table

variable {env : LoaderEnv} {backends : List PlcBackend} {table table' : List RuntimeConfEntry}
  {e : XmlElement}

theorem findEntry_isSome {id : XmlText} :
    (findEntry id table).isSome = true ↔ ¬ NewKeys table [runtimeKey id] := by
  simp [findEntry, NewKeys]

theorem parseRuntimeConfiguration_eq_ok
    (hok : parseRuntimeConfiguration env backends table e.children = (.ok (), table')) :
    IdRules e ∧ RuntimeRules env backends e ∧ NewKeys table (keysOf e) ∧
      ∃ entry, table' = table ++ [entry] ∧ keysOf e = [runtimeKey entry.runtimeid] := by
  rw [parseRuntimeConfiguration] at hok
  split at hok
  · exact nomatch hok
  · exact nomatch hok
  next id hid =>
    obtain ⟨child, hchild, rfl⟩ := List.map_eq_singleton_iff.1 hid
    have hkeys : keysOf e = [runtimeKey child.getContent] := by rw [keysOf, hchild, List.map_singleton]
    split at hok
    · exact nomatch hok
    next hshort =>
      split at hok
      · exact nomatch hok
      next hnew =>
        split at hok
        · exact nomatch hok
        next entry hentry =>
          rw [findEntry_isSome, not_not, ← hkeys] at hnew
          refine ⟨⟨?_, ?_⟩, (succeeds_parseRuntime _ _ _ _).1 ⟨entry, hentry⟩, hnew, entry,
            (congrArg Prod.snd hok).symm, ?_⟩
          · rw [HasOne, hchild, List.length_singleton]
          · rw [hchild]
            simpa using hshort
          · rw [hkeys, runtimeid_parseRuntime hentry]

theorem parseRuntimeConfiguration_of_rules (hid : IdRules e) (hrules : RuntimeRules env backends e)
    (hnew : NewKeys table (keysOf e)) :
    ∃ table', parseRuntimeConfiguration env backends table e.children = (.ok (), table') := by
  obtain ⟨child, hchild⟩ := List.length_eq_one_iff.1 hid.one
  have hkeys : keysOf e = [runtimeKey child.getContent] := by rw [keysOf, hchild, List.map_singleton]
  have hshort : ¬ utf8Strlen child.getContent > runtimeIdMaxLength - 1 :=
    Nat.not_lt.2 (hid.short child (by rw [hchild]; exact List.mem_singleton.2 rfl))
  obtain ⟨entry, hentry⟩ := (succeeds_parseRuntime env backends child.getContent e).2 hrules
  refine ⟨table ++ [entry], ?_⟩
  rw [hkeys] at hnew
  rw [parseRuntimeConfiguration, hchild, List.map_singleton]
  dsimp only
  rw [if_neg hshort, if_neg (by rw [findEntry_isSome, not_not]; exact hnew), hentry]
  rfl

/-- The keys are new to a table with one more entry. -/
theorem newKeys_append_singleton {entry : RuntimeConfEntry}
    {keys : List (List UInt8)} :
    NewKeys (table ++ [entry]) keys ↔ NewKeys table keys ∧ runtimeKey entry.runtimeid ∉ keys := by
  simp only [NewKeys, List.mem_append, List.mem_singleton, or_imp, forall_and, forall_eq]
  exact and_congr_right fun _ => ⟨fun h hmem => h _ hmem rfl, fun h key hkey heq => h (heq ▸ hkey)⟩

/-- The loop over the runtimes: each one meets its rules, and no two have the same key. -/
theorem succeeds_parseRuntimes (env : LoaderEnv) (backends : List PlcBackend) (es : List XmlElement)
    (table : List RuntimeConfEntry) :
    Succeeds (parseRuntimes env backends es table).1 ↔
      (∀ e ∈ es, IdRules e) ∧ (∀ e ∈ es, RuntimeRules env backends e) ∧
        (es.flatMap keysOf).Nodup ∧ NewKeys table (es.flatMap keysOf) := by
  induction es generalizing table with
  | nil => exact iff_of_true (succeeds_pure _) ⟨by simp, by simp, by simp, by simp [NewKeys]⟩
  | cons e es ih =>
      rw [parseRuntimes, List.forall_mem_cons, List.forall_mem_cons, List.flatMap_cons]
      split
      next err table' herr =>
        refine iff_of_false (not_succeeds_throw _) ?_
        rintro ⟨⟨hid, -⟩, ⟨hrules, -⟩, -, hnew⟩
        have hfirst : NewKeys table (keysOf e) :=
          fun key hkey => hnew key (List.mem_append_left _ hkey)
        obtain ⟨_, hok⟩ := parseRuntimeConfiguration_of_rules hid hrules hfirst
        rw [herr] at hok
        exact nomatch hok
      next table' hok =>
        obtain ⟨hid, hrules, hnew, entry, rfl, hkeys⟩ := parseRuntimeConfiguration_eq_ok hok
        -- the new entry is the one with the key of `e`
        rw [ih, newKeys_append_singleton, hkeys, List.singleton_append, List.nodup_cons]
        constructor
        · rintro ⟨hids, hall, hnodup, hrest, hfirst⟩
          refine ⟨⟨hid, hids⟩, ⟨hrules, hall⟩, ⟨hfirst, hnodup⟩, ?_⟩
          rw [hkeys] at hnew
          exact List.forall_mem_cons.2 ⟨hnew _ (List.mem_singleton.2 rfl), hrest⟩
        · rintro ⟨⟨-, hids⟩, ⟨-, hall⟩, ⟨hfirst, hnodup⟩, hrest⟩
          exact ⟨hids, hall, hnodup, fun key hkey => hrest key (List.mem_cons_of_mem _ hkey), hfirst⟩

theorem length_parseRuntimes {es : List XmlElement}
    (hok : parseRuntimes env backends es table = (.ok (), table')) :
    table'.length = table.length + es.length := by
  induction es generalizing table with
  | nil =>
      cases hok
      rfl
  | cons e es ih =>
      rw [parseRuntimes] at hok
      split at hok
      next => exact nomatch hok
      next table₁ hfirst =>
        obtain ⟨-, -, -, entry, rfl, -⟩ := parseRuntimeConfiguration_eq_ok hfirst
        rw [ih hok, List.length_append, List.length_singleton, List.length_cons]
        omega

end Table

/-! ## Documents -/

/-- `get_runtime_configurations` raises no error. -/
def LoaderAccepts (env : LoaderEnv) (root : XmlElement) : Prop :=
  Succeeds (getRuntimeConfigurations env root).1

/-- All that the loader demands of a document. -/
structure LoaderRules (env : LoaderEnv) (root : XmlElement) : Prop where
  rootTag : root.tag = .configuration
  backends : ∀ e ∈ childrenNamed .backend root.children, BackendRules e
  someRuntime : childrenNamed .runtime root.children ≠ []
  ids : ∀ e ∈ childrenNamed .runtime root.children, IdRules e
  runtimes : ∀ e ∈ childrenNamed .runtime root.children, RuntimeRules env (backendsOf env root) e
  distinctIds : ((childrenNamed .runtime root.children).flatMap keysOf).Nodup

theorem loaderAccepts_iff (env : LoaderEnv) (root : XmlElement) :
    LoaderAccepts env root ↔ LoaderRules env root := by
  rw [LoaderAccepts, getRuntimeConfigurations]
  split
  next htag => exact iff_of_false (not_succeeds_throw _) fun h => htag h.rootTag
  next htag =>
    split
    next err herr =>
      refine iff_of_false (not_succeeds_throw _) fun h => ?_
      obtain ⟨_, hok⟩ := (succeeds_parseRuntimeBackendConfiguration env root).2 h.backends
      rw [herr] at hok
      exact nomatch hok
    next backends hok =>
      have hbackends := (succeeds_parseRuntimeBackendConfiguration env root).1 ⟨_, hok⟩
      have hof : backendsOf env root = backends := by rw [backendsOf, hok]
      have hruntimes := succeeds_parseRuntimes env backends (childrenNamed .runtime root.children) []
      split
      next err table herr =>
        refine iff_of_false (not_succeeds_throw _) fun h => ?_
        obtain ⟨_, hok'⟩ := hruntimes.2 ⟨h.ids, hof ▸ h.runtimes, h.distinctIds, by simp [NewKeys]⟩
        rw [herr] at hok'
        exact nomatch hok'
      next table hok' =>
        -- the loader looks for an empty table, the rules for a document without a runtime
        obtain ⟨hids, hrules, hnodup, -⟩ := hruntimes.1 ⟨(), by rw [hok']⟩
        have hlength := length_parseRuntimes hok'
        have hempty : table = [] ↔ childrenNamed .runtime root.children = [] := by
          rw [← List.length_eq_zero_iff, ← List.length_eq_zero_iff, hlength, List.length_nil, zero_add]
        dsimp only
        split
        next hnil => exact iff_of_false (not_succeeds_throw _) fun h => h.someRuntime (hempty.1 hnil)
        next hsome =>
          exact iff_of_true (succeeds_pure _) ⟨not_not.1 htag, hbackends, fun h => hsome (hempty.2 h),
            hids, hof ▸ hrules, hnodup⟩

end PlContainer
