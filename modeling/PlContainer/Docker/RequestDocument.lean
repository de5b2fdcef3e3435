import PlContainer.Docker.CreateRequest

set_option autoImplicit false

/-! # What the request says

The document that the request is meant to be, with every text of the configuration in its place, and when
the body that is posted is that document: exactly if all the texts that are pasted into strings are made
of characters that stand for themselves, and nothing but the last line break is cut off. A quote or a
backslash in one of them ends its string, and what follows is read as JSON. -/

namespace PlContainer

open Json Format

section Document

variable (names : Names Char) (devices : Option Json.Value) (env : CreateEnv) (conf : RuntimeConfEntry)
  (backend : PlcBackendType) (containerSlot : ℤ)

/-! ## The document -/

def bind (dir : PlcSharedDir) : List Char :=
  dir.host ++ (":".toList ++ (dir.container ++ match dir.mode with
    | .readonly => ":ro".toList
    | .readwrite => ":rw".toList))

def udsBind : List Char := List.flatten
  [ipcGpdbBaseDir, ".".toList, decimal env.pid, ".".toList, decimal env.domainSocketNo, ".".toList,
    decimal containerSlot, ":".toList, ipcClientDir, ":rw".toList]

def binds : List (List Char) :=
  conf.sharedDirs.map bind ++ if backend.connectsByTcp then [] else [udsBind env containerSlot]

/-- The strings of the environment. -/
def envStrings : List (List Char) :=
  ["EXECUTOR_UID=".toList ++ decimal env.uid.toInt,
    "EXECUTOR_GID=".toList ++ decimal env.gid.toInt,
    "DB_USER_NAME=".toList ++ names.username,
    "DB_NAME=".toList ++ names.dbname,
    "DB_QE_PID=".toList ++ decimal env.pid,
    "USE_CONTAINER_NETWORK=".toList ++ boolText backend.connectsByTcp]

/-- The member for the device requests. -/
def deviceMember : List (List Char × Json.Value) :=
  devices.toList.map fun v => ("DeviceRequests".toList, v)

def hostConfig : List (List Char × Json.Value) :=
  [("Binds".toList, .arr ((binds env conf backend containerSlot).map .str)),
    ("CgroupParent".toList, .str names.cgroupParent),
    ("Memory".toList, .lit (decimal (conf.memoryMb * 1024 * 1024))),
    ("CpuShares".toList, .lit (decimal conf.cpuShare)),
    ("PublishAllPorts".toList, .lit (boolText true))]
  ++ (deviceMember devices
  ++ [("LogConfig".toList, .obj [("Type".toList, .str (logDriver conf))])])

def labels : List (List Char × Json.Value) :=
  [("owner".toList, .str names.username),
    ("dbid".toList, .str (decimal (env.segindex.setWidth 16).toInt)),
    ("databaseid".toList, .str (decimal (env.databaseId.setWidth 16).toInt)),
    ("segindex".toList, .str (decimal (env.segindex.setWidth 16).toInt))]

/-- The member for the port of the client. -/
def exposedMember : List (List Char × Json.Value) :=
  if backend.connectsByTcp then [("ExposedPorts".toList, .obj [("8080/tcp".toList, .obj [])])] else []

def document : List (List Char × Json.Value) :=
  [("AttachStdin".toList, .lit (boolText false)),
    ("AttachStdout".toList, .lit (boolText conf.useContainerLogging)),
    ("AttachStderr".toList, .lit (boolText conf.useContainerLogging)),
    ("Tty".toList, .lit (boolText false)),
    ("Cmd".toList, .arr [.str conf.command]),
    ("Env".toList, .arr ((envStrings names env backend).map .str)),
    ("NetworkDisabled".toList, .lit (boolText !conf.enableNetwork)),
    ("Image".toList, .str conf.image)]
  ++ (exposedMember backend
  ++ [("HostConfig".toList, .obj (hostConfig names devices env conf backend containerSlot)),
    ("Labels".toList, .obj (labels names env))])

/-- The text of the device requests is the member `devices`, and a comma behind it. -/
def DevicesSay : Prop :=
  lex .between (requestBuffer conf) = (commaMembers (deviceMember devices), some .between)

/-- The keys of the document. They depend on nothing but the kind of the backend and the device
    requests. -/
def documentKeys : List (List (List Char)) :=
  ["AttachStdin", "AttachStdout", "AttachStderr", "Tty", "Cmd", "Env", "NetworkDisabled", "Image"].map
      (fun key => [key.toList])
    ++ ((if backend.connectsByTcp then
      [["ExposedPorts".toList], ["ExposedPorts".toList, "8080/tcp".toList]] else [])
    ++ ["HostConfig".toList] ::
      ((["Binds", "CgroupParent", "Memory", "CpuShares", "PublishAllPorts"].map
          (fun key => [key.toList])
        ++ (memberPaths (deviceMember devices)
        ++ [["LogConfig".toList], ["LogConfig".toList, "Type".toList]])).map
          ("HostConfig".toList :: ·)
    ++ ["Labels".toList] :: ["owner", "dbid", "databaseid", "segindex"].map
      (fun key => ["Labels".toList, key.toList])))

/-- **What is posted says what the configuration says**: it is a JSON text for the document with the
    names of the user and of the database and the texts of the configuration, and for nothing else, and
    its keys are those of the template. -/
def Says (body : List UInt8) : Prop :=
  ∃ names devices,
    names.map utf8 = printedNames env conf backend ∧ DevicesSay devices conf ∧
    (∀ value, Denotes body value ↔
      value = .obj (document names devices env conf backend containerSlot)) ∧
    (Value.obj (document names devices env conf backend containerSlot)).keyPaths =
      documentKeys devices backend

theorem keyPaths_document :
    (Value.obj (document names devices env conf backend containerSlot)).keyPaths =
      documentKeys devices backend := by
  have hexposed : memberPaths (exposedMember backend) = if backend.connectsByTcp then
      [["ExposedPorts".toList], ["ExposedPorts".toList, "8080/tcp".toList]] else [] := by
    rw [exposedMember]
    split
    · rfl
    · rfl
  simp only [document, hostConfig, labels, envStrings, documentKeys, Value.keyPaths, elemPaths,
    memberPaths, memberPaths_append, elemPaths_strings, hexposed, List.map_cons, List.map_nil,
    List.cons_append, List.nil_append]

/-! ## The pieces of the text -/

/-- The key of a member, on a line of its own. -/
def key (indent name colon : String) : List Piece :=
  [.fixed indent.toList, .string name.toList, .fixed colon.toList]

def topPieces : List Piece := List.flatten
  [[.fixed "\x7b\n".toList],
    key "    " "AttachStdin" ": false,\n",
    key "    " "AttachStdout" ": ", [.word (boolText conf.useContainerLogging), .fixed ",\n".toList],
    key "    " "AttachStderr" ": ", [.word (boolText conf.useContainerLogging), .fixed ",\n".toList],
    key "    " "Tty" ": false,\n",
    key "    " "Cmd" ": [", [.string conf.command, .fixed "],\n".toList],
    key "    " "Env" ": [",
    [.string ("EXECUTOR_UID=".toList ++ decimal env.uid.toInt), .fixed ",\n".toList,
      .fixed "              ".toList,
      .string ("EXECUTOR_GID=".toList ++ decimal env.gid.toInt), .fixed ",\n".toList,
      .fixed "              ".toList,
      .string ("DB_USER_NAME=".toList ++ names.username), .fixed ",\n".toList,
      .fixed "              ".toList,
      .string ("DB_NAME=".toList ++ names.dbname), .fixed ",\n".toList,
      .fixed "              ".toList,
      .string ("DB_QE_PID=".toList ++ decimal env.pid), .fixed ",\n".toList,
      .fixed "              ".toList,
      .string ("USE_CONTAINER_NETWORK=".toList ++ boolText backend.connectsByTcp),
      .fixed "],\n".toList],
    key "    " "NetworkDisabled" ": ", [.word (boolText !conf.enableNetwork), .fixed ",\n".toList],
    key "    " "Image" ": ", [.string conf.image, .fixed ",\n".toList]]

def exposedPieces : List Piece :=
  if backend.connectsByTcp then
    [.string "ExposedPorts".toList, .fixed ": \x7b".toList, .string "8080/tcp".toList,
      .fixed ": \x7b\x7d\x7d,".toList]
  else []

def hostPieces : List Piece := List.flatten
  [[.fixed "],\n".toList],
    key "        " "CgroupParent" ": ", [.string names.cgroupParent, .fixed ",\n".toList],
    key "        " "Memory" ": ",
    [.word (decimal (conf.memoryMb * 1024 * 1024)), .fixed ",\n".toList],
    key "        " "CpuShares" ": ", [.word (decimal conf.cpuShare), .fixed ",\n".toList],
    key "        " "PublishAllPorts" ": true,",
    [.fixed "        ".toList]]

def labelPieces : List Piece := List.flatten
  [[.fixed "\n".toList],
    [.fixed "        ".toList, .string "LogConfig".toList, .fixed ":\x7b".toList,
      .string "Type".toList, .fixed ": ".toList, .string (logDriver conf), .fixed "\x7d\n".toList],
    [.fixed "    \x7d,\n".toList],
    key "    " "Labels" ": \x7b\n",
    key "        " "owner" ": ", [.string names.username, .fixed ",\n".toList],
    key "        " "dbid" ": ",
    [.string (decimal (env.segindex.setWidth 16).toInt), .fixed ",\n".toList],
    key "        " "databaseid" ": ",
    [.string (decimal (env.databaseId.setWidth 16).toInt), .fixed ",\n".toList],
    key "        " "segindex" ": ",
    [.string (decimal (env.segindex.setWidth 16).toInt), .fixed "\n".toList],
    [.fixed "    \x7d\n".toList]]

/-- The whole text but for the last line break. -/
def pieces : List Piece := List.flatten
    [topPieces names env conf backend, [.fixed "    ".toList], exposedPieces backend,
      [.fixed " \n".toList], key "    " "HostConfig" ": \x7b\n", key "        " "Binds" ": [",
      strings (binds env conf backend containerSlot), hostPieces names conf,
      [.fixed (requestBuffer conf)], labelPieces names env conf]
  ++ [.fixed ['}']]

/-! ### The text -/

theorem toList_quote : "\"".toList = ['"'] := rfl

theorem sharedDirOption_eq (dir : PlcSharedDir) :
    sharedDirOption dir = (Piece.string (bind dir)).render := by
  rcases dir with ⟨host, container, mode⟩
  cases mode <;>
    simp only [sharedDirOption, bind, text, quoted, fill, id, toList_quote, Piece.render,
      List.cons_append, List.nil_append, List.append_assoc]

theorem udsOption_eq :
    udsOption env containerSlot = (Piece.string (udsBind env containerSlot)).render := by
  simp only [udsOption, udsBind, text, quoted, fill, id, toList_quote, Piece.render, List.cons_append,
    List.nil_append, List.append_assoc, List.flatten_cons, List.flatten_nil]

theorem render_exposedPieces : render (exposedPieces backend) = exposedPorts backend := by
  rw [exposedPieces, exposedPorts]
  split
  · rfl
  · rfl

set_option maxRecDepth 2000 in
theorem text_eq_render :
    text createRequest (createArgs id names env conf backend
        (render (strings (binds env conf backend containerSlot)))) =
      render (pieces names env conf backend containerSlot) ++ ['\n'] := by
  simp only [pieces, topPieces, hostPieces, labelPieces, key, List.flatten_cons, List.flatten_nil,
    render_append, render_cons, render_exposedPieces, Piece.render, List.append_assoc, List.cons_append,
    List.nil_append]
  simp only [createRequest, quoted, text, fill, createArgs, id, toList_quote, List.flatten_cons,
    List.flatten_nil, List.cons_append, List.nil_append]
  rfl

/-! ### The fixed parts -/

/-- What stands between the strings and words of the template. -/
theorem lex_fixed :
    lex .between "\x7b\n".toList = ([.punct '{'], some .between) ∧
    lex .between "    ".toList = ([], some .between) ∧
    lex .between "        ".toList = ([], some .between) ∧
    lex .between "              ".toList = ([], some .between) ∧
    lex .between "\n".toList = ([], some .between) ∧
    lex .between " \n".toList = ([], some .between) ∧
    lex .between ": ".toList = ([.punct ':'], some .between) ∧
    lex .between ",\n".toList = ([.punct ','], some .between) ∧
    lex .between ": [".toList = ([.punct ':', .punct '['], some .between) ∧
    lex .between "],\n".toList = ([.punct ']', .punct ','], some .between) ∧
    lex .between ": \x7b".toList = ([.punct ':', .punct '{'], some .between) ∧
    lex .between ": \x7b\n".toList = ([.punct ':', .punct '{'], some .between) ∧
    lex .between ":\x7b".toList = ([.punct ':', .punct '{'], some .between) ∧
    lex .between "\x7d\n".toList = ([.punct '}'], some .between) ∧
    lex .between "    \x7d\n".toList = ([.punct '}'], some .between) ∧
    lex .between "    \x7d,\n".toList = ([.punct '}', .punct ','], some .between) ∧
    lex .between ": false,\n".toList =
      ([.punct ':', .lit (boolText false), .punct ','], some .between) ∧
    lex .between ": true,".toList = ([.punct ':', .lit (boolText true), .punct ','], some .between) ∧
    lex .between ": \x7b\x7d\x7d,".toList =
      ([.punct ':', .punct '{', .punct '}', .punct '}', .punct ','], some .between) := by
  and_intros
  all_goals exact lex_lit rfl

/-- A string ends at the latest with its line. -/
theorem breaksLine_fixed : breaksLine ",\n".toList = true ∧ breaksLine "],\n".toList = true := ⟨rfl, rfl⟩

theorem endsWord_fixed : endsWord ",\n".toList = true := rfl

/-- The keys and the fixed starts of strings. -/
theorem plain_fixed :
    Plain "AttachStdin".toList ∧ Plain "AttachStdout".toList ∧ Plain "AttachStderr".toList ∧
    Plain "Tty".toList ∧ Plain "Cmd".toList ∧ Plain "Env".toList ∧ Plain "EXECUTOR_UID=".toList ∧
    Plain "EXECUTOR_GID=".toList ∧ Plain "DB_USER_NAME=".toList ∧ Plain "DB_NAME=".toList ∧
    Plain "DB_QE_PID=".toList ∧ Plain "USE_CONTAINER_NETWORK=".toList ∧
    Plain "NetworkDisabled".toList ∧ Plain "Image".toList ∧ Plain "ExposedPorts".toList ∧
    Plain "8080/tcp".toList ∧ Plain "HostConfig".toList ∧ Plain "Binds".toList ∧
    Plain "CgroupParent".toList ∧ Plain "Memory".toList ∧ Plain "CpuShares".toList ∧
    Plain "PublishAllPorts".toList ∧ Plain "LogConfig".toList ∧ Plain "Type".toList ∧
    Plain "Labels".toList ∧ Plain "owner".toList ∧ Plain "dbid".toList ∧
    Plain "databaseid".toList ∧ Plain "segindex".toList := by
  and_intros
  all_goals exact plain_lit rfl

theorem plain_boolText (b : Bool) : Plain (boolText b) := by
  cases b
  · exact plain_lit (l := "false".toList) rfl
  · exact plain_lit (l := "true".toList) rfl

theorem isWord_boolText (b : Bool) : IsWord (boolText b) := by
  cases b
  · exact ⟨nofun, rfl, rfl⟩
  · exact ⟨nofun, rfl, rfl⟩

theorem plain_logDriver : Plain (logDriver conf) := by
  rw [logDriver]
  split
  · exact plain_lit rfl
  · exact plain_lit rfl

/-! ### The tokens -/

theorem tokensOf_exposedPieces :
    tokensOf (exposedPieces backend) = commaMembers (exposedMember backend) := by
  rw [exposedPieces, exposedMember]
  split
  · simp only [tokensOf_cons, Piece.tokens, lex_fixed]
    rfl
  · rfl

theorem tokensOf_pieces (hdevices : DevicesSay devices conf) :
    tokensOf (pieces names env conf backend containerSlot) =
      (Value.obj (document names devices env conf backend containerSlot)).tokens := by
  rw [DevicesSay] at hdevices
  simp only [pieces, topPieces, hostPieces, labelPieces, key, List.flatten_cons, List.flatten_nil,
    tokensOf_append, tokensOf_cons, tokensOf_exposedPieces, tokensOf_strings, Piece.tokens, lex_fixed,
    hdevices, List.cons_append, List.nil_append]
  simp only [document, hostConfig, labels, envStrings, Value.tokens, elemTokens, moreElems, memberTokens,
    moreMembers, moreMembers_append, moreMembers_comma, List.map_cons, List.map_nil, List.cons_append,
    List.nil_append, List.append_assoc, List.append_nil]
  rfl

/-! ### The fit -/

theorem fit_topPieces (rest : List Char) : Fit rest (topPieces names env conf backend) := by
  simp only [topPieces, key, List.flatten_cons, List.flatten_nil, List.cons_append, List.nil_append,
    fit_fixed, fit_string_plain, fit_string_fixed, fit_word_fixed (isWord_boolText _) endsWord_fixed,
    lex_fixed, breaksLine_fixed, plain_fixed, fit_nil]

theorem fit_exposedPieces (rest : List Char) : Fit rest (exposedPieces backend) := by
  rw [exposedPieces]
  split
  · simp only [fit_fixed, fit_string_plain, lex_fixed, plain_fixed, fit_nil]
  · exact fit_nil rest

theorem fit_hostPieces (rest : List Char) : Fit rest (hostPieces names conf) := by
  simp only [hostPieces, key, List.flatten_cons, List.flatten_nil, List.cons_append, List.nil_append,
    fit_fixed, fit_string_plain, fit_string_fixed, fit_word_fixed (isWord_decimal _) endsWord_fixed,
    lex_fixed, breaksLine_fixed, plain_fixed, fit_nil]

theorem fit_labelPieces (rest : List Char) : Fit rest (labelPieces names env conf) := by
  simp only [labelPieces, key, List.flatten_cons, List.flatten_nil, List.cons_append, List.nil_append,
    fit_fixed, fit_string_plain, fit_string_fixed, lex_fixed, breaksLine_fixed, plain_fixed,
    plain_decimal, plain_logDriver, fit_nil]

/-- A bind ends with its mode. -/
theorem getLast_binds :
    ∀ w ∈ binds env conf backend containerSlot, w.getLast? ≠ some '\\' := by
  have hro : ":ro".toList.getLast? = some 'o' := rfl
  have hrw : ":rw".toList.getLast? = some 'w' := rfl
  intro w hw
  rw [binds, List.mem_append] at hw
  rcases hw with hw | hw
  · obtain ⟨⟨host, container, mode⟩, -, rfl⟩ := List.mem_map.1 hw
    cases mode
    · simp only [bind, List.getLast?_append, hro, Option.some_or]
      decide
    · simp only [bind, List.getLast?_append, hrw, Option.some_or]
      decide
  · split at hw
    · cases hw
    · obtain rfl := List.mem_singleton.1 hw
      simp only [udsBind, List.flatten_cons, List.flatten_nil, List.append_nil, List.getLast?_append,
        hrw, Option.some_or]
      decide

theorem fit_pieces (hdevices : DevicesSay devices conf) (rest : List Char) :
    Fit rest (pieces names env conf backend containerSlot) := by
  rw [DevicesSay] at hdevices
  have hclose : (lex .between ['}']).2 = some .between := rfl
  simp only [pieces, key, List.flatten_cons, List.flatten_nil, fit_append, fit_fixed, fit_string_plain,
    lex_fixed, plain_fixed, hdevices, hclose, fit_topPieces, fit_exposedPieces, fit_hostPieces,
    fit_labelPieces, fit_strings (getLast_binds env conf backend containerSlot), fit_nil, and_self]

/-! ### The strings -/

/-- What is pasted into strings. -/
structure Printable : Prop where
  username : Plain names.username
  dbname : Plain names.dbname
  cgroupParent : Plain names.cgroupParent
  command : Plain conf.command
  image : Plain conf.image
  sharedDirs : ∀ dir ∈ conf.sharedDirs, Plain dir.host ∧ Plain dir.container

theorem plain_exposedPieces : ∀ p ∈ exposedPieces backend, p.Plain := by
  rw [exposedPieces]
  split
  · simp only [List.forall_mem_cons, Piece.plain_fixed, Piece.plain_string, plain_fixed, true_and]
    exact nofun
  · exact nofun

theorem plain_bind (dir : PlcSharedDir) : Plain (bind dir) ↔ Plain dir.host ∧ Plain dir.container := by
  rcases dir with ⟨host, container, mode⟩
  have hcolon : Plain ":".toList := plain_lit rfl
  have hmode : Plain ":ro".toList ∧ Plain ":rw".toList := ⟨plain_lit rfl, plain_lit rfl⟩
  cases mode <;> simp only [bind, plain_append, hcolon, hmode, true_and, and_true]

theorem plain_udsBind : Plain (udsBind env containerSlot) := by
  have hfixed : Plain ".".toList ∧ Plain ":".toList ∧ Plain ":rw".toList ∧ Plain ipcGpdbBaseDir ∧
      Plain ipcClientDir :=
    ⟨plain_lit rfl, plain_lit rfl, plain_lit rfl, plain_lit rfl, plain_lit rfl⟩
  simp only [udsBind, List.flatten_cons, List.flatten_nil, plain_append, plain_decimal, hfixed, true_and]
  exact nofun

theorem plain_binds :
    (∀ w ∈ binds env conf backend containerSlot, Plain w) ↔
      ∀ dir ∈ conf.sharedDirs, Plain dir.host ∧ Plain dir.container := by
  have huds : ∀ w ∈ (if backend.connectsByTcp then [] else [udsBind env containerSlot]), Plain w := by
    intro w hw
    split at hw
    · cases hw
    · rw [List.mem_singleton.1 hw]
      exact plain_udsBind env containerSlot
  rw [binds, List.forall_mem_append, List.forall_mem_map, and_iff_left huds]
  simp only [plain_bind]

theorem plain_pieces :
    (∀ p ∈ pieces names env conf backend containerSlot, p.Plain) ↔ Printable names conf := by
  have hexposed := plain_exposedPieces backend
  have hnil : ∀ p ∈ ([] : List Piece), p.Plain := nofun
  simp only [pieces, topPieces, hostPieces, labelPieces, key, List.flatten_cons, List.flatten_nil,
    List.cons_append, List.nil_append, List.forall_mem_append, List.forall_mem_cons, Piece.plain_fixed,
    Piece.plain_word, Piece.plain_string, plain_append, plain_fixed, plain_decimal, plain_boolText,
    plain_logDriver, forall_plain_strings, plain_binds, true_and, and_true]
  constructor
  · rintro ⟨command, username, dbname, image, ⟨-, sharedDirs, cgroupParent, -⟩, -⟩
    exact ⟨username, dbname, cgroupParent, command, image, sharedDirs⟩
  · rintro ⟨username, dbname, cgroupParent, command, image, sharedDirs⟩
    exact ⟨command, username, dbname, image, ⟨hexposed, sharedDirs, cgroupParent, username, hnil⟩, hnil⟩

/-! ## The body -/

/-- The options for the shared directories are the binds in quotes. -/
theorem generateSharingOptions_eq :
    (generateSharingOptionsAndUdsAddress env conf backend containerSlot).1.map
        SharingOptions.dockerSharingOptions =
      if backend.connectsByTcp = false ∧ env.mkdirFails = true then none
      else some (render (strings (binds env conf backend containerSlot))) := by
  have hdirs : conf.sharedDirs.map sharedDirOption =
      (conf.sharedDirs.map bind).map fun w => (Piece.string w).render := by
    rw [List.map_map]
    exact List.map_congr_left fun dir _ => sharedDirOption_eq dir
  unfold generateSharingOptionsAndUdsAddress
  rw [render_strings, binds]
  rcases backend.connectsByTcp
  · rcases env.mkdirFails
    · simp [hdirs, udsOption_eq]
    · rfl
  · simp [hdirs]

theorem createArgs_utf8 (volumeShare : List Char) :
    createArgs utf8 (names.map utf8) env conf backend volumeShare =
      (createArgs id names env conf backend volumeShare).map utf8 := rfl

theorem formattedBody_eq (hnames : names.map utf8 = printedNames env conf backend) :
    formattedBody env conf backend (render (strings (binds env conf backend containerSlot))) =
      utf8 (render (pieces names env conf backend containerSlot) ++ ['\n']) := by
  rw [formattedBody, ← hnames, createArgs_utf8, sprintf_utf8, text_eq_render]

/-- The last piece closes the document. -/
theorem suffix_render_pieces : ['}'] <:+ render (pieces names env conf backend containerSlot) := by
  rw [pieces, render_append]
  exact List.suffix_append _ _

theorem denotes_messageBody_iff (hnames : names.map utf8 = printedNames env conf backend)
    (hdevices : DevicesSay devices conf) :
    Denotes (messageBody env conf backend (render (strings (binds env conf backend containerSlot))))
        (.obj (document names devices env conf backend containerSlot)) ↔
      Printable names conf ∧
        (formattedBody env conf backend
          (render (strings (binds env conf backend containerSlot)))).length ≤
            createStringSize env conf (render (strings (binds env conf backend containerSlot))) := by
  have hlength : (utf8 ['\n']).length = 1 := rfl
  have hpos : 0 < createStringSize env conf
      (render (strings (binds env conf backend containerSlot))) := by
    rw [createStringSize]
    omega
  have hbody := formattedBody_eq names env conf backend containerSlot hnames
  -- `snprintf` keeps a byte for the NUL, and the line break at the end may be missing
  rw [messageBody, snprintf, ← formattedBody, hbody, denotes_take_iff
    (fit_pieces names devices env conf backend containerSlot hdevices)
    (tokensOf_pieces names devices env conf backend containerSlot hdevices)
    (suffix_render_pieces names env conf backend containerSlot), plain_pieces, utf8_append,
    List.length_append, hlength]
  exact and_congr_right fun _ => by omega

/-- What is posted is the body with the binds, if the directory of the socket can be made. -/
theorem plcDockerCreateContainer_eq :
    plcDockerCreateContainer env conf backend containerSlot =
      if backend.connectsByTcp = false ∧ env.mkdirFails = true then none
      else some (messageBody env conf backend
        (render (strings (binds env conf backend containerSlot)))) := by
  have hsharing := congrArg (Option.map (messageBody env conf backend))
    (generateSharingOptions_eq env conf backend containerSlot)
  rw [Option.map_map] at hsharing
  rw [plcDockerCreateContainer]
  refine hsharing.trans ?_
  split
  · rfl
  · rfl

/-- **When the request says what the configuration says**: the names and texts that are pasted into
    strings hold no quote, backslash or control character and are UTF-8, the device requests are given by
    a text that is itself a member of an object, and at most the last line break is cut off. -/
theorem posted_says_iff :
    (∀ body, plcDockerCreateContainer env conf backend containerSlot = some body →
      Says env conf backend containerSlot body) ↔
    (backend.connectsByTcp = false ∧ env.mkdirFails = true) ∨
      (∃ names, names.map utf8 = printedNames env conf backend ∧ Printable names conf) ∧
      (∃ devices, DevicesSay devices conf) ∧
      (formattedBody env conf backend
        (render (strings (binds env conf backend containerSlot)))).length ≤
          createStringSize env conf (render (strings (binds env conf backend containerSlot))) := by
  rw [plcDockerCreateContainer_eq]
  split
  · next hfails => exact iff_of_true nofun (.inl hfails)
  · next hfails =>
      rw [or_iff_right hfails]
      constructor
      · intro h
        obtain ⟨names, devices, hnames, hdevices, hdenotes, -⟩ := h _ rfl
        have hboth := (denotes_messageBody_iff names devices env conf backend containerSlot hnames
          hdevices).1 ((hdenotes _).2 rfl)
        exact ⟨⟨names, hnames, hboth.1⟩, ⟨devices, hdevices⟩, hboth.2⟩
      · rintro ⟨⟨names, hnames, hprintable⟩, ⟨devices, hdevices⟩, hlength⟩ body hbody
        obtain rfl := Option.some.inj hbody
        have hdenotes := (denotes_messageBody_iff names devices env conf backend containerSlot hnames
          hdevices).2 ⟨hprintable, hlength⟩
        refine ⟨names, devices, hnames, hdevices, fun value => ⟨fun h => h.unique hdenotes, ?_⟩,
          keyPaths_document names devices env conf backend containerSlot⟩
        rintro rfl
        exact hdenotes

end Document

/-- A session in a database that someone has named so that its name ends the environment and opens a
    `HostConfig` of its own. -/
def injectingEnv : CreateEnv where
  uid := 1000
  gid := 1000
  pid := 4711
  username := utf8 "alice".toList
  dbname := utf8 "d\"],\"HostConfig\":\x7b\"Privileged\":true\x7d,\"Env\":[\"x".toList
  segindex := 0
  databaseId := 16384
  resourceGroupParent := none
  domainSocketNo := 0
  mkdirFails := false

def pythonConf : RuntimeConfEntry :=
  { RuntimeConfEntry.fresh "plc_python".toList with
    image := "plcontainer_python:latest".toList
    command := "/clientdir/pyclient.sh".toList }

/-- The request for a container of that session is posted, and it does not say what the configuration
    says. -/
theorem not_says_injecting :
    ∃ body, plcDockerCreateContainer injectingEnv pythonConf (.docker []) 0 = some body ∧
      ¬ Says injectingEnv pythonConf (.docker []) 0 body := by
  refine ⟨_, (plcDockerCreateContainer_eq ..).trans (if_neg (by decide)), ?_⟩
  rintro ⟨names, devices, hnames, hdevices, hdenotes, -⟩
  have hprintable :=
    ((denotes_messageBody_iff names devices _ _ _ _ hnames hdevices).1 ((hdenotes _).2 rfl)).1
  -- the name is UTF-8, so there is only one text that it could be read as
  have hdbname := utf8_injective (congrArg Names.dbname hnames)
  have hquote : '"' ∈ names.dbname := by
    rw [hdbname]
    decide
  exact absurd (hprintable.dbname '"' hquote) (by decide)

end PlContainer
