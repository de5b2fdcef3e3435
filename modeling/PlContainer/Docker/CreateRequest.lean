import PlContainer.Config.Loader
import PlContainer.Library.JsonTemplate

set_option autoImplicit false

/-! # The request that creates a container

`plc_docker_create_container` prints the body of the request with one `snprintf`. The texts of the
configuration and the names of the user and of the database go into the JSON template as they are. -/

namespace PlContainer

open Json Format

/-- What the request takes from the server and the process. -/
structure CreateEnv where
  uid : BitVec 32
  gid : BitVec 32
  pid : ℤ
  username : CString
  dbname : CString
  /-- `GpIdentity.segindex` -/
  segindex : BitVec 32
  /-- `MyDatabaseId` -/
  databaseId : Oid
  /-- `gp_resource_group_cgroup_parent`, if the resource groups are those of cgroup v2 -/
  resourceGroupParent : Option CString
  domainSocketNo : ℤ
  /-- whether the directory of the socket cannot be made -/
  mkdirFails : Bool

/-- `runtime_conf_get_runtime_connection_info`: whether the connection is by TCP. -/
def PlcBackendType.connectsByTcp : PlcBackendType → Bool
  | .remoteDocker .. => true
  | .docker .. | .process .. => false

/-- The parts in quotes. -/
def quoted (parts : List Part) : List Part := .lit "\"" :: (parts ++ [.lit "\""])

/-! ## Shared directories -/

def ipcGpdbBaseDir : List Char := "/tmp/plcontainer".toList
def ipcClientDir : List Char := "/tmp/plcontainer".toList
def udsSharedFile : List Char := "unix.domain.socket.shared.file".toList

def sharedDirOption (dir : PlcSharedDir) : List Char :=
  match dir.mode with
  | .readonly => text (quoted [.arg "%s", .lit ":", .arg "%s", .lit ":ro"]) [dir.host, dir.container]
  | .readwrite => text (quoted [.arg "%s", .lit ":", .arg "%s", .lit ":rw"]) [dir.host, dir.container]

/-- The directory of the socket on the host. -/
def udsDirectory (env : CreateEnv) (containerSlot : ℤ) : List Char :=
  text [.arg "%s", .lit ".", .arg "%d", .lit ".", .arg "%d", .lit ".", .arg "%d"]
    [ipcGpdbBaseDir, decimal env.pid, decimal env.domainSocketNo, decimal containerSlot]

def udsOption (env : CreateEnv) (containerSlot : ℤ) : List Char :=
  text (quoted [.arg "%s", .lit ".", .arg "%d", .lit ".", .arg "%d", .lit ".", .arg "%d", .lit ":",
      .arg "%s", .lit ":rw"])
    [ipcGpdbBaseDir, decimal env.pid, decimal env.domainSocketNo, decimal containerSlot, ipcClientDir]

structure SharingOptions where
  dockerSharingOptions : List Char
  /-- the file of the socket; without a socket there is none -/
  udsAddress : Option (List Char)

/-- `generate_sharing_options_and_uds_address`, with the next number of a socket. There is a comma before
    every option but the first. -/
def generateSharingOptionsAndUdsAddress (env : CreateEnv) (conf : RuntimeConfEntry)
    (backend : PlcBackendType) (containerSlot : ℤ) : Option SharingOptions × ℤ :=
  let options := conf.sharedDirs.map sharedDirOption
  if backend.connectsByTcp then (some ⟨[','].intercalate options, none⟩, env.domainSocketNo)
  else if env.mkdirFails then (none, env.domainSocketNo + 1)
  else
    let directory := match backend with
      | .process _ => ipcGpdbBaseDir
      | _ => udsDirectory env containerSlot
    (some ⟨[','].intercalate (options ++ [udsOption env containerSlot]),
        some (text [.arg "%s", .lit "/", .arg "%s"] [directory, udsSharedFile])⟩,
      env.domainSocketNo + 1)

/-! ## Device requests -/

/-- `__JSON_APPEND_STRING_ARRARY` -/
def jsonAppendStringArray (array : List XmlText) : List Char :=
  ['['] ++ [','].intercalate (array.map fun s => text (quoted [.arg "%s"]) [s]) ++ [']']

/-- `__JSON_APPEND_OBJECT_ARRAY` -/
def jsonAppendObjectArray {α : Type} (outFn : α → List Char) (array : List α) : List Char :=
  ['['] ++ [','].intercalate (array.map outFn) ++ [']']

/-- `__JSON_APPEND_WITH_NAME` -/
def jsonAppendWithName (name : List Char) (last : Bool) (value : List Char) : List Char :=
  '"' :: name ++ ['"', ':'] ++ value ++ if last then [] else [',']

/-- `_req_serialize_devicerequest` -/
def reqSerializeDevicerequest (req : ℤ × PlcDeviceRequest) : List Char :=
  ['{'] ++ jsonAppendWithName "Count".toList false (decimal req.1)
    ++ (match req.2.driver with
      | none => []
      | some driver => jsonAppendWithName "Driver".toList false driver)
    ++ (match req.2.deviceid with
      | none | some [] => []
      | some ids => jsonAppendWithName "DeviceIDs".toList false (jsonAppendStringArray ids))
    ++ (match req.2.capabilities with
      | [] => []
      | capabilities =>
          jsonAppendWithName "Capabilities".toList true
            (['['] ++ jsonAppendStringArray capabilities ++ [']']))
    ++ ['}']

/-- The requests with their `_count`, which is set for the first request only. -/
def withCount : List PlcDeviceRequest → List (ℤ × PlcDeviceRequest)
  | [] => []
  | req :: reqs => (if req.deviceid.isNone then -1 else 0, req) :: reqs.map fun r => (0, r)

/-- The text of the device requests in `requestBuffer`. -/
def requestBuffer (conf : RuntimeConfEntry) : List Char :=
  match conf.devicerequests with
  | [] => []
  | reqs =>
      '\n' :: jsonAppendWithName "DeviceRequests".toList false
        (jsonAppendObjectArray reqSerializeDevicerequest (withCount reqs))

/-! ## The body -/

def resGroupPathMaxLength : ℕ := 256

def cgroupParent (env : CreateEnv) (conf : RuntimeConfEntry) (backend : PlcBackendType) : CString :=
  match backend with
  | .docker _ =>
      if conf.resgroupOid = 0 then []
      else match env.resourceGroupParent with
        | some parent =>
            snprintf resGroupPathMaxLength [.lit "/", .arg "%s", .lit "/", .arg "%d"]
              [parent, utf8 (decimal conf.resgroupOid.toInt)]
        | none =>
            snprintf resGroupPathMaxLength [.lit "/gpdb/", .arg "%d"]
              [utf8 (decimal conf.resgroupOid.toInt)]
  | _ => []

/-- The format string, line by line. -/
def createRequest : List Part := List.flatten
  [[.lit "\x7b\n"],
    [.lit "    "], quoted [.lit "AttachStdin"], [.lit ": false,\n"],
    [.lit "    "], quoted [.lit "AttachStdout"], [.lit ": ", .arg "%s", .lit ",\n"],
    [.lit "    "], quoted [.lit "AttachStderr"], [.lit ": ", .arg "%s", .lit ",\n"],
    [.lit "    "], quoted [.lit "Tty"], [.lit ": false,\n"],
    [.lit "    "], quoted [.lit "Cmd"], [.lit ": ["], quoted [.arg "%s"], [.lit "],\n"],
    [.lit "    "], quoted [.lit "Env"], [.lit ": ["], quoted [.lit "EXECUTOR_UID=", .arg "%d"],
      [.lit ",\n"],
    [.lit "              "], quoted [.lit "EXECUTOR_GID=", .arg "%d"], [.lit ",\n"],
    [.lit "              "], quoted [.lit "DB_USER_NAME=", .arg "%s"], [.lit ",\n"],
    [.lit "              "], quoted [.lit "DB_NAME=", .arg "%s"], [.lit ",\n"],
    [.lit "              "], quoted [.lit "DB_QE_PID=", .arg "%d"], [.lit ",\n"],
    [.lit "              "], quoted [.lit "USE_CONTAINER_NETWORK=", .arg "%s"], [.lit "],\n"],
    [.lit "    "], quoted [.lit "NetworkDisabled"], [.lit ": ", .arg "%s", .lit ",\n"],
    [.lit "    "], quoted [.lit "Image"], [.lit ": "], quoted [.arg "%s"], [.lit ",\n"],
    [.lit "    ", .arg "%s", .lit " \n"],
    [.lit "    "], quoted [.lit "HostConfig"], [.lit ": \x7b\n"],
    [.lit "        "], quoted [.lit "Binds"], [.lit ": [", .arg "%s", .lit "],\n"],
    [.lit "        "], quoted [.lit "CgroupParent"], [.lit ": "], quoted [.arg "%s"], [.lit ",\n"],
    [.lit "        "], quoted [.lit "Memory"], [.lit ": ", .arg "%lld", .lit ",\n"],
    [.lit "        "], quoted [.lit "CpuShares"], [.lit ": ", .arg "%lld", .lit ",\n"],
    [.lit "        "], quoted [.lit "PublishAllPorts"], [.lit ": true,"],
    [.lit "        ", .arg "%s", .lit "\n"],
    [.lit "        "], quoted [.lit "LogConfig"], [.lit ":\x7b"], quoted [.lit "Type"], [.lit ": "],
      quoted [.arg "%s"], [.lit "\x7d\n"],
    [.lit "    \x7d,\n"],
    [.lit "    "], quoted [.lit "Labels"], [.lit ": \x7b\n"],
    [.lit "        "], quoted [.lit "owner"], [.lit ": "], quoted [.arg "%s"], [.lit ",\n"],
    [.lit "        "], quoted [.lit "dbid"], [.lit ": "], quoted [.arg "%d"], [.lit ",\n"],
    [.lit "        "], quoted [.lit "databaseid"], [.lit ": "], quoted [.arg "%d"], [.lit ",\n"],
    [.lit "        "], quoted [.lit "segindex"], [.lit ": "], quoted [.arg "%d"], [.lit "\n"],
    [.lit "    \x7d\n"],
    [.lit "\x7d\n"]]

def boolText (b : Bool) : List Char := if b then "true".toList else "false".toList

/-- The port that the client listens on inside the container. -/
def exposedPorts (backend : PlcBackendType) : List Char :=
  if backend.connectsByTcp then "\"ExposedPorts\": \x7b\"8080/tcp\": \x7b\x7d\x7d,".toList else []

/-- `useContainerLogging ? default_log_dirver : "none"` -/
def logDriver (conf : RuntimeConfEntry) : List Char :=
  if conf.useContainerLogging then "journald".toList else "none".toList

/-- The names of the user, of the database and of the control group, as they are printed. -/
structure Names (α : Type) where
  username : List α
  dbname : List α
  cgroupParent : List α

def Names.map {α β : Type} (f : List α → List β) (names : Names α) : Names β :=
  ⟨f names.username, f names.dbname, f names.cgroupParent⟩

def printedNames (env : CreateEnv) (conf : RuntimeConfEntry) (backend : PlcBackendType) : Names UInt8 :=
  ⟨env.username, env.dbname, cgroupParent env conf backend⟩

/-- The arguments of the `snprintf`, but for the names all of them texts. -/
def createArgs {α : Type} (enc : List Char → List α) (names : Names α) (env : CreateEnv)
    (conf : RuntimeConfEntry) (backend : PlcBackendType) (volumeShare : List Char) : List (List α) :=
  [enc (boolText conf.useContainerLogging),
    enc (boolText conf.useContainerLogging),
    enc conf.command,
    enc (decimal env.uid.toInt),
    enc (decimal env.gid.toInt),
    names.username,
    names.dbname,
    enc (decimal env.pid),
    enc (boolText backend.connectsByTcp),
    enc (boolText !conf.enableNetwork),
    enc conf.image,
    enc (exposedPorts backend),
    enc volumeShare,
    names.cgroupParent,
    enc (decimal (conf.memoryMb * 1024 * 1024)),
    enc (decimal conf.cpuShare),
    enc (requestBuffer conf),
    enc (logDriver conf),
    names.username,
    enc (decimal (env.segindex.setWidth 16).toInt),
    enc (decimal (env.databaseId.setWidth 16).toInt),
    enc (decimal (env.segindex.setWidth 16).toInt)]

def createStringSize (env : CreateEnv) (conf : RuntimeConfEntry) (volumeShare : List Char) : ℕ :=
  100 + formatLength createRequest + (utf8 conf.command).length + (utf8 conf.image).length
    + (utf8 volumeShare).length + env.username.length * 2 + env.dbname.length
    + (utf8 (requestBuffer conf)).length

/-- The body, if there is room for it. -/
def formattedBody (env : CreateEnv) (conf : RuntimeConfEntry) (backend : PlcBackendType)
    (volumeShare : List Char) : List UInt8 :=
  sprintf createRequest
    (createArgs utf8 (printedNames env conf backend) env conf backend volumeShare)

def messageBody (env : CreateEnv) (conf : RuntimeConfEntry) (backend : PlcBackendType)
    (volumeShare : List Char) : List UInt8 :=
  snprintf (createStringSize env conf volumeShare) createRequest
    (createArgs utf8 (printedNames env conf backend) env conf backend volumeShare)

/-- `plc_docker_create_container`: the body that is posted, if there is no error before. -/
def plcDockerCreateContainer (env : CreateEnv) (conf : RuntimeConfEntry) (backend : PlcBackendType)
    (containerSlot : ℤ) : Option (List UInt8) :=
  (generateSharingOptionsAndUdsAddress env conf backend containerSlot).1.map fun sharing =>
    messageBody env conf backend sharing.dockerSharingOptions

end PlContainer
