import PlContainer.Common.Messages
import PlContainer.Config.Xml

set_option autoImplicit false

/-! # The loader of the backend

`plc_configuration.c` reads the document into a table of backends and a table of runtimes. A runtime is
parsed in several passes over its children, the settings of a `<setting>` in a fixed order, and what an
earlier child has set decides whether a later one is refused. An error leaves the tables as they are at
that moment, except that the entry of the broken runtime is removed. -/

namespace PlContainer

/-! ## Backends -/

/-- `PLC_BACKEND_TYPE` with the fields of the union that belong to it. -/
inductive PlcBackendType where
  | docker (udsAddress : XmlText)
  | remoteDocker (address : XmlText) (port : ℤ) (username password : Option XmlText)
      (addSegmentIndex : Bool)
  | process (udsAddress : XmlText)
deriving DecidableEq, Repr

structure PlcBackend where
  name : XmlText
  type : PlcBackendType
deriving DecidableEq, Repr

/-- `tag == PLC_BACKEND_REMOTE_DOCKER` -/
def PlcBackend.isRemote (b : PlcBackend) : Bool :=
  match b.type with
  | .remoteDocker .. => true
  | _ => false

/-- The errors of the loader. -/
inductive ConfigError where
  /-- the file cannot be parsed -/
  | unreadable
  | rootElement (tag : Tag)
  /-- `property is not optional`, or a mandatory attribute that is missing -/
  | missingProp (tag : Tag) (attr : Attr)
  | missingElement (tag : Tag)
  | duplicateElement (tag : Tag)
  | backendType (type : XmlText)
  | missingId
  | multipleIds
  | idTooLong (id : XmlText)
  | duplicatedId (id : XmlText)
  | notYesOrNo (attr : Attr) (value : XmlText)
  | notInteger (attr : Attr) (value : XmlText)
  | notPositive (attr : Attr) (value : XmlText)
  | emptyValue (attr : Attr)
  | notResourceGroup (value : XmlText)
  | unrecognizedSetting
  | unknownBackend (name : XmlText)
  | networkNeeded
  | unrecognizedElement (tag : Tag)
  /-- not exactly one `image` or `command` -/
  | count (tag : Tag) (n : ℕ)
  | sameContainerPath (path : XmlText)
  | accessMode (value : XmlText)
  | noRuntime
deriving DecidableEq, Repr

def dockerText : XmlText := ['d', 'o', 'c', 'k', 'e', 'r']
def localDockerText : XmlText := ['l', 'o', 'c', 'a', 'l', '_'] ++ dockerText
def remoteDockerText : XmlText := ['r', 'e', 'm', 'o', 't', 'e', '_'] ++ dockerText
def defaultText : XmlText := ['d', 'e', 'f', 'a', 'u', 'l', 't']
def yesText : XmlText := ['y', 'e', 's']
def noText : XmlText := ['n', 'o']
def roText : XmlText := ['r', 'o']
def rwText : XmlText := ['r', 'w']

/-- `XML_READ_PROPERTY` for one text that must be there. -/
def readProperty (e : XmlElement) (attr : Attr) : Except ConfigError XmlText :=
  match xmlGetProp e.props attr with
  | none => throw (.missingProp e.tag attr)
  | some v => pure v

/-- `XML_READ_CONTENT` for one field that is a single element. -/
def readContent (e : XmlElement) (tag : Tag) (notnull : Bool) :
    Except ConfigError (Option XmlText) :=
  match childrenNamed tag e.children with
  | [] => if notnull then throw (.missingElement tag) else pure none
  | [child] => pure (some child.getContent)
  | _ => throw (.duplicateElement tag)

def xmlReadBackend (e : XmlElement) : Except ConfigError PlcBackend := do
  let name ← readProperty e .name
  let type ← readProperty e .type
  if type = dockerText ∨ type = localDockerText then
    let address ← readContent e .address true
    pure ⟨name, .docker (address.getD [])⟩
  else if type = remoteDockerText then
    let addSegmentIndex ← readContent e .addSegmentIndex false
    let address ← readContent e .address true
    let port ← readContent e .port true
    let username ← readContent e .username false
    let password ← readContent e .password false
    pure ⟨name, .remoteDocker (address.getD []) (atoll (port.getD [])) username password
      (atoi (addSegmentIndex.getD []) ≠ 0)⟩
  else throw (.backendType type)

/-- What the loader takes from its surroundings: the resource groups that exist, with the memory
    auditor it asks for, and whether `plc_backend_type_string` is `"process"`. -/
structure LoaderEnv where
  resourceGroup : Oid → Bool
  processBackend : Bool

/-- No resource groups, and Docker as the built-in backend. -/
def plainLoader : LoaderEnv := ⟨fun _ => false, false⟩

/-- The built-in backend. -/
def defaultBackend (env : LoaderEnv) : PlcBackend :=
  let udsAddress := ['/', 'v', 'a', 'r', '/', 'r', 'u', 'n', '/'] ++ dockerText
    ++ ['.', 's', 'o', 'c', 'k']
  ⟨defaultText, if env.processBackend then .process udsAddress else .docker udsAddress⟩

/-- `parse_runtime_backend_configuration`: the table of backends, the built-in one first. -/
def parseRuntimeBackendConfiguration (env : LoaderEnv) (root : XmlElement) :
    Except ConfigError (List PlcBackend) := do
  let backends ← (childrenNamed .backend root.children).mapM xmlReadBackend
  pure (defaultBackend env :: backends)

/-- `take_plcbackend_byname`: the position of the first backend with the name. -/
def takePlcbackendByname (backends : List PlcBackend) (name : XmlText) : Option ℕ :=
  backends.findIdx? (·.name = name)

/-! ## Runtimes -/

inductive PlcFsAccessMode where
  | readonly | readwrite
deriving DecidableEq, Repr

structure PlcSharedDir where
  host : XmlText
  container : XmlText
  mode : PlcFsAccessMode
deriving DecidableEq, Repr

/-- A device request; `none` for `deviceid` is the count -1, for all devices. -/
structure PlcDeviceRequest where
  driver : Option XmlText
  deviceid : Option (List XmlText)
  capabilities : List XmlText
deriving DecidableEq, Repr

/-- `backend` points into the table of backends: it is a position there, `none` while it is NULL. -/
structure RuntimeConfEntry where
  runtimeid : XmlText
  image : XmlText
  command : XmlText
  roles : Option XmlText
  resgroupOid : Oid
  memoryMb : ℤ
  cpuShare : ℤ
  backend : Option ℕ
  sharedDirs : List PlcSharedDir
  useContainerLogging : Bool
  useUserControl : Bool
  enableNetwork : Bool
  devicerequests : List PlcDeviceRequest
deriving DecidableEq, Repr

namespace RuntimeConfEntry

/-- The entry when its children are first looked at. -/
def fresh (runtimeid : XmlText) : RuntimeConfEntry where
  runtimeid := runtimeid
  image := []
  command := []
  roles := none
  resgroupOid := 0
  memoryMb := 1024
  cpuShare := 1024
  backend := none
  sharedDirs := []
  useContainerLogging := false
  useUserControl := false
  enableNetwork := false
  devicerequests := []

end RuntimeConfEntry

/-- A setting whose value is `yes` or `no`. -/
def readYesOrNo (attr : Attr) (value : XmlText) : Except ConfigError Bool :=
  if strcasecmp value yesText then pure true
  else if strcasecmp value noText then pure false
  else throw (.notYesOrNo attr value)

/-- A setting whose value is a positive number. -/
def readPositive (attr : Attr) (value : XmlText) : Except ConfigError ℤ :=
  match pgAtoi value with
  | none => throw (.notInteger attr value)
  | some n => if n ≤ 0 then throw (.notPositive attr value) else pure n

def readResourceGroup (env : LoaderEnv) (value : XmlText) : Except ConfigError Oid :=
  if value = [] then throw (.emptyValue .resourceGroupId)
  else
    match pgAtoi value with
    | none => throw (.notInteger .resourceGroupId value)
    | some n =>
        let oid : Oid := BitVec.ofInt 32 n
        if oid = 0 ∨ env.resourceGroup oid = false then throw (.notResourceGroup value) else pure oid

/-- The effect of one attribute, if the setting has it. -/
def applySetting (props : List XmlProp) (attr : Attr)
    (set : XmlText → RuntimeConfEntry → Except ConfigError RuntimeConfEntry)
    (entry : RuntimeConfEntry) : Except ConfigError RuntimeConfEntry :=
  match xmlGetProp props attr with
  | none => pure entry
  | some value => set value entry

def setUseContainerLogging (value : XmlText) (entry : RuntimeConfEntry) :
    Except ConfigError RuntimeConfEntry := do
  let b ← readYesOrNo .useContainerLogging value
  pure { entry with useContainerLogging := b }

def setMemoryMb (value : XmlText) (entry : RuntimeConfEntry) :
    Except ConfigError RuntimeConfEntry := do
  let n ← readPositive .memoryMb value
  pure { entry with memoryMb := n }

def setCpuShare (value : XmlText) (entry : RuntimeConfEntry) :
    Except ConfigError RuntimeConfEntry := do
  let n ← readPositive .cpuShare value
  pure { entry with cpuShare := n }

/-- Once the network is enabled the permission check is, and stays when the network is disabled. -/
def setEnableNetwork (value : XmlText) (entry : RuntimeConfEntry) :
    Except ConfigError RuntimeConfEntry := do
  let b ← readYesOrNo .enableNetwork value
  pure { entry with enableNetwork := b, useUserControl := entry.useUserControl || b }

def setResourceGroupId (env : LoaderEnv) (value : XmlText) (entry : RuntimeConfEntry) :
    Except ConfigError RuntimeConfEntry := do
  let oid ← readResourceGroup env value
  pure { entry with resgroupOid := oid }

def setRoles (value : XmlText) (entry : RuntimeConfEntry) : Except ConfigError RuntimeConfEntry :=
  if value = [] then throw (.emptyValue .roles)
  else pure { entry with roles := some value, useUserControl := true }

/-- The attributes that the loader looks for. -/
def settingAttrs : List Attr :=
  [.useContainerLogging, .memoryMb, .cpuShare, .enableNetwork, .resourceGroupId, .roles]

/-- A `<setting>`: every attribute takes effect, in this order. -/
def parseSetting (env : LoaderEnv) (entry : RuntimeConfEntry) (props : List XmlProp) :
    Except ConfigError RuntimeConfEntry := do
  let entry ← applySetting props .useContainerLogging setUseContainerLogging entry
  let entry ← applySetting props .memoryMb setMemoryMb entry
  let entry ← applySetting props .cpuShare setCpuShare entry
  let entry ← applySetting props .enableNetwork setEnableNetwork entry
  let entry ← applySetting props .resourceGroupId (setResourceGroupId env) entry
  let entry ← applySetting props .roles setRoles entry
  if settingAttrs.any fun attr => (xmlGetProp props attr).isSome then pure entry
  else throw .unrecognizedSetting

/-- A `<backend>` of a runtime. -/
def parseBackendRef (backends : List PlcBackend) (entry : RuntimeConfEntry) (e : XmlElement) :
    Except ConfigError RuntimeConfEntry := do
  let name ← readProperty e .name
  match takePlcbackendByname backends name with
  | none => throw (.unknownBackend name)
  | some i =>
      if entry.enableNetwork = false ∧ (backends[i]?.any PlcBackend.isRemote) then
        throw .networkNeeded
      else pure { entry with backend := some i }

/-- One child in the first pass. -/
def parseChild (env : LoaderEnv) (backends : List PlcBackend) (entry : RuntimeConfEntry)
    (e : XmlElement) : Except ConfigError RuntimeConfEntry :=
  match e.tag with
  | .id => pure entry
  | .image => pure { entry with image := e.getContent }
  | .command => pure { entry with command := e.getContent }
  | .setting => parseSetting env entry e.props
  | .sharedDirectory => pure entry
  | .deviceRequest =>
      match xmlGetProp e.props .type with
      | none => throw (.missingProp .deviceRequest .type)
      | some _ => pure entry
  | .backend => parseBackendRef backends entry e
  | tag => throw (.unrecognizedElement tag)

/-- Exactly one child of the name. -/
def checkCount (tag : Tag) (children : List XmlNode) : Except ConfigError Unit :=
  match (childrenNamed tag children).length with
  | 1 => pure ()
  | n => throw (.count tag n)

def parseSharedDir (previous : List PlcSharedDir) (e : XmlElement) :
    Except ConfigError PlcSharedDir := do
  let host ← readProperty e .host
  let container ← readProperty e .container
  if previous.any fun d => strcasecmp container d.container then
    throw (.sameContainerPath container)
  let access ← readProperty e .access
  if access = roText then pure ⟨host, container, .readonly⟩
  else if access = rwText then pure ⟨host, container, .readwrite⟩
  else throw (.accessMode access)

/-- The second pass: the shared directories after those already read. -/
def parseSharedDirs (previous : List PlcSharedDir) :
    List XmlElement → Except ConfigError (List PlcSharedDir)
  | [] => pure previous
  | e :: es => do
      let dir ← parseSharedDir previous e
      parseSharedDirs (previous ++ [dir]) es

/-- The third pass: a device request. Its type is the last capability. -/
def parseDeviceRequest (e : XmlElement) : PlcDeviceRequest where
  driver := ((childrenNamed .driver e.children).map XmlElement.getContent).getLast?
  deviceid :=
    if (childrenNamed .deviceid e.children).isEmpty ∨ (xmlGetProp e.props .all).isSome then none
    else some ((childrenNamed .deviceid e.children).map XmlElement.getContent)
  capabilities :=
    (childrenNamed .capacity e.children).map XmlElement.getContent
      ++ [(xmlGetProp e.props .type).getD []]

/-- `ndeviceid != 0` -/
def PlcDeviceRequest.asksForDevices (r : PlcDeviceRequest) : Bool := r.deviceid != some []

/-- The entry with its device requests; asking for a device enables the permission check. -/
def setDeviceRequests (entry : RuntimeConfEntry) (requests : List PlcDeviceRequest) :
    RuntimeConfEntry :=
  { entry with
    devicerequests := requests
    useUserControl := entry.useUserControl || requests.any PlcDeviceRequest.asksForDevices }

/-- The backend of a runtime that names none: the last one called `default`. -/
def applyDefaultBackend (backends : List PlcBackend) (entry : RuntimeConfEntry) : RuntimeConfEntry :=
  match entry.backend with
  | some _ => entry
  | none =>
      { entry with
        backend := ((List.range backends.length).filter fun i =>
          backends[i]?.any (·.name = defaultText)).getLast? }

/-- `parse_runtime_configuration` after the runtime's id has been entered in the table. -/
def parseRuntime (env : LoaderEnv) (backends : List PlcBackend) (runtimeid : XmlText)
    (children : List XmlNode) : Except ConfigError RuntimeConfEntry := do
  let entry ← (elements children).foldlM (parseChild env backends) (.fresh runtimeid)
  checkCount .image children
  checkCount .command children
  let dirs ← parseSharedDirs [] (childrenNamed .sharedDirectory children)
  let entry := setDeviceRequests { entry with sharedDirs := dirs }
    ((childrenNamed .deviceRequest children).map parseDeviceRequest)
  pure (applyDefaultBackend backends entry)

/-! ## The tables -/

/-- `RUNTIME_ID_MAX_LENGTH` -/
def runtimeIdMaxLength : ℕ := 64

/-- The bytes of an id that the hash table compares. -/
def runtimeKey (id : XmlText) : List UInt8 :=
  (id.flatMap String.utf8EncodeChar).take (runtimeIdMaxLength - 1)

/-- `HASH_REMOVE` -/
def removeEntry (id : XmlText) (table : List RuntimeConfEntry) : List RuntimeConfEntry :=
  table.filter fun entry => runtimeKey entry.runtimeid ≠ runtimeKey id

/-- `HASH_FIND` -/
def findEntry (id : XmlText) (table : List RuntimeConfEntry) : Option RuntimeConfEntry :=
  table.find? fun entry => runtimeKey entry.runtimeid = runtimeKey id

/-- `parse_runtime_configuration`. When it fails after it has seen an id, it removes the entry of this
    id, whichever it is. -/
def parseRuntimeConfiguration (env : LoaderEnv) (backends : List PlcBackend)
    (table : List RuntimeConfEntry) (children : List XmlNode) :
    Except ConfigError Unit × List RuntimeConfEntry :=
  match (childrenNamed .id children).map XmlElement.getContent with
  | [] => (throw .missingId, table)
  | id :: _ :: _ => (throw .multipleIds, removeEntry id table)
  | [id] =>
      if utf8Strlen id > runtimeIdMaxLength - 1 then (throw (.idTooLong id), removeEntry id table)
      else if (findEntry id table).isSome then (throw (.duplicatedId id), removeEntry id table)
      else
        match parseRuntime env backends id children with
        | .error e => (throw e, removeEntry id table)
        | .ok entry => (pure (), table ++ [entry])

/-- The runtimes one after the other, up to the first error. -/
def parseRuntimes (env : LoaderEnv) (backends : List PlcBackend) :
    List XmlElement → List RuntimeConfEntry → Except ConfigError Unit × List RuntimeConfEntry
  | [], table => (pure (), table)
  | e :: es, table =>
      match parseRuntimeConfiguration env backends table e.children with
      | (.error err, table) => (throw err, table)
      | (.ok (), table) => parseRuntimes env backends es table

/-- `runtime_conf_table` and `runtime_backend_table`. -/
structure ConfTables where
  runtimes : List RuntimeConfEntry
  backends : List PlcBackend

def ConfTables.empty : ConfTables := ⟨[], []⟩

/-- `get_runtime_configurations`, on empty tables. -/
def getRuntimeConfigurations (env : LoaderEnv) (root : XmlElement) :
    Except ConfigError Unit × ConfTables :=
  if root.tag ≠ .configuration then (throw (.rootElement root.tag), .empty)
  else
    match parseRuntimeBackendConfiguration env root with
    | .error e => (throw e, .empty)
    | .ok backends =>
        match parseRuntimes env backends (childrenNamed .runtime root.children) [] with
        | (.error e, runtimes) => (throw e, ⟨runtimes, backends⟩)
        | (.ok (), runtimes) =>
            (if runtimes = [] then throw .noRuntime else pure (), ⟨runtimes, backends⟩)

/-- `plc_refresh_container_config`; `none` is a file that cannot be parsed. -/
def plcRefreshContainerConfig (env : LoaderEnv) (file : Option XmlElement) :
    Except ConfigError Unit × ConfTables :=
  match file with
  | none => (throw .unreadable, .empty)
  | some root => getRuntimeConfigurations env root

end PlContainer
