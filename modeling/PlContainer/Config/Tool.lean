import PlContainer.Config.Loader

set_option autoImplicit false

/-! # The management tool

`plcontainer` changes the configuration of all hosts: it takes the file of the master, or one from the
user, changes it, checks it with `validate_xml` and copies it to every segment. It reads and writes the
document with ElementTree, in which the text behind an element belongs to the element. -/

namespace PlContainer

/-! ## `validate_xml` -/

/-- The characters `[a-zA-Z0-9_.-]`. -/
def isIdChar (c : Char) : Bool := c.isAlphanum || c ∈ ['_', '.', '-']

/-- The pattern `^[a-zA-Z0-9][a-zA-Z0-9_.-]*$`, whose `$` also stands before a last newline. -/
def matchesIdPattern : XmlText → Bool
  | [] => false
  | c :: cs => c.isAlphanum && (cs.dropWhile isIdChar = [] || cs.dropWhile isIdChar = ['\n'])

/-- The checks of the id. An empty element has the text `None`, of which `len` is not defined. -/
def validateId (children : List XmlNode) : Bool :=
  match findall .id children with
  | [id] =>
      match id.pyText with
      | none => false
      | some text => text.length < runtimeIdMaxLength && matchesIdPattern text
  | _ => false

/-- The path reserved for the domain socket. -/
def reservedPath : XmlText :=
  ['/', 't', 'm', 'p', '/', 'p', 'l', 'c', 'o', 'n', 't', 'a', 'i', 'n', 'e', 'r']

def validateSharedDir (props : List XmlProp) : Bool :=
  (attribOf props .access).all (fun access => access = roText || access = rwText)
    && (props.map fun p => (p.ns, p.attr)).isPerm [([], .access), ([], .container), ([], .host)]
    && (attribOf props .container).all fun path => path ≠ reservedPath && path ≠ reservedPath ++ ['/']

def validateSharedDirs (dirs : List XmlElement) : Bool :=
  dirs.all (fun dir => validateSharedDir dir.props)
    && decide (dirs.filterMap fun dir => attribOf dir.props .container).Nodup

def validatePositive (u : PyUnicode) (value : XmlText) : Bool := (u.int value).any (0 < ·)

/-- `lower()` is `yes` or `no`; no letter outside ASCII becomes one of these. -/
def validateYesOrNo (value : XmlText) : Bool :=
  value.map Char.toLower = yesText || value.map Char.toLower = noText

/-- The attributes of a setting in the order of the `elif` chain, each with its check. -/
def settingChecks (u : PyUnicode) : List (Attr × (XmlText → Bool)) :=
  [(.memoryMb, validatePositive u), (.cpuShare, validatePositive u),
    (.useContainerLogging, validateYesOrNo), (.enableNetwork, validateYesOrNo),
    (.resourceGroupId, u.allDigits), (.roles, fun value => !value.isEmpty)]

/-- Only the first attribute of the chain that is there is checked; a setting without any of them is
    reported, but not refused. -/
def validateSetting (u : PyUnicode) (props : List XmlProp) : Bool :=
  ((settingChecks u).findSome? fun c => (attribOf props c.1).map c.2).getD true

def validateRuntime (u : PyUnicode) (runtime : XmlElement) : Bool :=
  validateId runtime.children
    && (findall .image runtime.children).length = 1
    && (findall .command runtime.children).length = 1
    && validateSharedDirs (findall .sharedDirectory runtime.children)
    && (findall .setting runtime.children).all fun setting => validateSetting u setting.props

/-- `validate_xml` on a file that can be parsed. -/
def validateXml (u : PyUnicode) (root : XmlElement) : Bool :=
  (findall .runtime root.children).all (validateRuntime u)

/-! ## The options of a command -/

inductive RuntimeLanguage where
  | r | python | python3
deriving DecidableEq, Repr

/-- The options of `runtime-add` and `runtime-replace`; an option that is not given is empty. -/
structure RuntimeOptions where
  runtimeId : XmlText
  imageName : XmlText
  language : RuntimeLanguage
  shared : List XmlText
  setting : List XmlText
deriving DecidableEq, Repr

/-- A shared directory of the options. -/
structure SharedOption where
  host : XmlText
  container : XmlText
  access : XmlText
deriving DecidableEq, Repr

/-- The dictionary `elements`; `setting` is `none` without the key `hasSetting`. -/
structure ConfElements where
  id : XmlText
  image : XmlText
  language : RuntimeLanguage
  shared : List SharedOption
  setting : Option (List (Attr × XmlText))
deriving DecidableEq, Repr

/-- `get_conf_shared_dirs` for one option. -/
def getConfSharedDir (shared : XmlText) : Option SharedOption :=
  match shared.splitOn ':' with
  | host :: container :: access :: _ =>
      if access = roText ∨ access = rwText then some ⟨host, container, access⟩ else none
  | [host, container] => some ⟨host, container, roText⟩
  | _ => none

/-- The keys that a setting may have. -/
def settingKey (key : XmlText) : Option Attr :=
  if key = ['m', 'e', 'm', 'o', 'r', 'y', '_', 'm', 'b'] then some .memoryMb
  else if key = ['c', 'p', 'u', '_', 's', 'h', 'a', 'r', 'e'] then some .cpuShare
  else if key = ['u', 's', 'e', '_', 'c', 'o', 'n', 't', 'a', 'i', 'n', 'e', 'r', '_',
      'l', 'o', 'g', 'g', 'i', 'n', 'g'] then some .useContainerLogging
  else if key = ['r', 'e', 's', 'o', 'u', 'r', 'c', 'e', '_', 'g', 'r', 'o', 'u', 'p', '_',
      'i', 'd'] then some .resourceGroupId
  else if key = ['r', 'o', 'l', 'e', 's'] then some .roles
  else if key = ['e', 'n', 'a', 'b', 'l', 'e', '_', 'n', 'e', 't', 'w', 'o', 'r', 'k'] then
    some .enableNetwork
  else none

/-- Assignment to a key of a dictionary, which keeps the order of its keys. -/
def dictSet (key : Attr) (value : XmlText) : List (Attr × XmlText) → List (Attr × XmlText)
  | [] => [(key, value)]
  | (k, v) :: dict => if k = key then (k, value) :: dict else (k, v) :: dictSet key value dict

/-- `get_conf_settings` -/
def getConfSettings (settings : List XmlText) : Option (List (Attr × XmlText)) :=
  settings.foldlM (fun dict setting =>
    match setting.splitOn '=' with
    | [key, value] => (settingKey key).map fun attr => dictSet attr value dict
    | _ => none) []

/-- `get_conf_elements`; `none` is an exception. -/
def getConfElements (options : RuntimeOptions) : Option ConfElements := do
  let shared ← options.shared.mapM getConfSharedDir
  let setting ← if options.setting = [] then some none else (getConfSettings options.setting).map some
  pure ⟨options.runtimeId, options.imageName, options.language, shared, setting⟩

/-! ## Changes to a document -/

/-- A new element with attributes only. -/
def newElement (tag : Tag) (props : List (Attr × XmlText)) : XmlNode :=
  .element [] tag (props.map fun p => ⟨[], p.1, p.2⟩) []

/-- A new element with a text only. -/
def newTextElement (tag : Tag) (text : XmlText) : XmlNode := .element [] tag [] [.text text]

/-- The nodes from the first element on. -/
def fromElement (nodes : List XmlNode) : List XmlNode := nodes.dropWhile fun n => n.toElement?.isNone

/-- Assignment to `text`. -/
def setText (text : XmlText) (children : List XmlNode) : List XmlNode :=
  .text text :: fromElement children

/-- `remove` for all elements that `findall` finds, each with the text behind it; `removed` says that
    the element before was one of them. -/
def removeAll (tag : Tag) (removed : Bool) : List XmlNode → List XmlNode
  | [] => []
  | node :: nodes =>
      match node.toElement? with
      | some e =>
          if e.ns = [] ∧ e.tag = tag then removeAll tag true nodes
          else node :: removeAll tag false nodes
      | none => if removed then removeAll tag true nodes else node :: removeAll tag false nodes

/-- `find(tag).text = text`; `none` if there is no such element. -/
def setChildText (tag : Tag) (text : XmlText) : List XmlNode → Option (List XmlNode)
  | [] => none
  | node :: nodes =>
      match node.toElement? with
      | some e =>
          if e.ns = [] ∧ e.tag = tag then
            some (XmlElement.toNode { e with children := setText text e.children } :: nodes)
          else (setChildText tag text nodes).map (node :: ·)
      | none => (setChildText tag text nodes).map (node :: ·)

/-- What the tool takes from its surroundings: Python's tables, the directory of the database, and
    `update_reformat_xml`, here as the document that the written file holds; `none` is an exception. -/
structure Tool where
  unicode : PyUnicode
  dbhome : XmlText
  reformat : XmlElement → Option XmlElement

def clientdirText : XmlText := ['/', 'c', 'l', 'i', 'e', 'n', 't', 'd', 'i', 'r']

/-- `os.path.join(DBHOME, "bin/plcontainer_clients")` -/
def Tool.clientsPath (tool : Tool) : XmlText :=
  let clients := ['b', 'i', 'n', '/', 'p', 'l', 'c', 'o', 'n', 't', 'a', 'i', 'n', 'e', 'r', '_',
    'c', 'l', 'i', 'e', 'n', 't', 's']
  match tool.dbhome.getLast? with
  | none | some '/' => tool.dbhome ++ clients
  | some _ => tool.dbhome ++ '/' :: clients

def sharedDirNode (dir : SharedOption) : XmlNode :=
  newElement .sharedDirectory [(.host, dir.host), (.container, dir.container), (.access, dir.access)]

/-- `update_xml_check_shared_folders` -/
def updateXmlCheckSharedFolders (tool : Tool) (elements : ConfElements) (children : List XmlNode) :
    List XmlNode :=
  removeAll .sharedDirectory false children ++ sharedDirNode ⟨tool.clientsPath, clientdirText, roText⟩ ::
    elements.shared.map sharedDirNode

/-- `update_xml_check_settings` -/
def updateXmlCheckSettings (elements : ConfElements) (children : List XmlNode) : List XmlNode :=
  match elements.setting with
  | none => children
  | some settings => removeAll .setting false children ++ settings.map fun s => newElement .setting [s]

/-- The command of a language. -/
def RuntimeLanguage.command : RuntimeLanguage → XmlText
  | .r => clientdirText ++ ['/', 'r', 'c', 'l', 'i', 'e', 'n', 't', '.', 's', 'h']
  | .python => clientdirText ++ ['/', 'p', 'y', 'c', 'l', 'i', 'e', 'n', 't', '.', 's', 'h']
  | .python3 => clientdirText ++ ['/', 'p', 'y', '3', 'c', 'l', 'i', 'e', 'n', 't', '.', 's', 'h']

/-- `update_xml_runtime` -/
def updateXmlRuntime (tool : Tool) (elements : ConfElements) (children : List XmlNode) :
    Option (List XmlNode) := do
  let children ← setChildText .image elements.image children
  let children ← setChildText .command elements.language.command children
  pure (updateXmlCheckSettings elements (updateXmlCheckSharedFolders tool elements children))

/-- `update_xml_new_runtime` -/
def updateXmlNewRuntime (tool : Tool) (elements : ConfElements) : XmlNode :=
  .element [] .runtime [] (updateXmlCheckSettings elements (updateXmlCheckSharedFolders tool elements
    [newTextElement .id elements.id, newTextElement .image elements.image,
      newTextElement .command elements.language.command]))

/-- Where the loops over the runtimes stop: the nodes before the runtime with the id, the runtime and
    the nodes behind it, or nothing. A runtime without an id on the way is an exception. -/
def seekRuntime (id : XmlText) :
    List XmlNode → Option (Option (List XmlNode × XmlElement × List XmlNode))
  | [] => some none
  | node :: nodes =>
      let next := (seekRuntime id nodes).map fun found =>
        found.map fun (before, runtime, behind) => (node :: before, runtime, behind)
      match node.toElement? with
      | none => next
      | some e =>
          if e.ns = [] ∧ e.tag = .runtime then
            match findTag .id e.children with
            | none => none
            | some child => if child.pyText = some id then some (some ([], e, nodes)) else next
          else next

/-- `add_xml_config` -/
def addXmlConfig (tool : Tool) (root : XmlElement) (elements : ConfElements) : Option XmlElement :=
  match seekRuntime elements.id root.children with
  | none | some (some _) => none
  | some none =>
      tool.reformat { root with children := root.children ++ [updateXmlNewRuntime tool elements] }

/-- `update_xml_config` -/
def updateXmlConfig (tool : Tool) (root : XmlElement) (elements : ConfElements) :
    Option XmlElement :=
  match seekRuntime elements.id root.children with
  | none => none
  | some none => addXmlConfig tool root elements
  | some (some (before, runtime, behind)) => do
      let children ← updateXmlRuntime tool elements runtime.children
      tool.reformat { root with
        children := before ++ XmlElement.toNode { runtime with children := children } :: behind }

/-- `delete_xml_config`; `none` is an exception or `False`. -/
def deleteXmlConfig (tool : Tool) (root : XmlElement) (id : XmlText) : Option XmlElement :=
  match seekRuntime id root.children with
  | none | some none => none
  | some (some (before, _, behind)) =>
      tool.reformat { root with children := before ++ fromElement behind }

/-! ## Commands -/

/-- A file after a run of the editor; `none` for its document if it cannot be parsed. -/
structure EditedFile where
  doc : Option XmlElement
  /-- the hash sum is another one than before this run -/
  changed : Bool

/-- The commands that distribute a configuration. `runtime-edit` has the files that the user leaves
    until they stop. -/
inductive ToolCommand where
  | runtimeAdd (options : RuntimeOptions)
  | runtimeReplace (options : RuntimeOptions)
  | runtimeDelete (runtimeId : XmlText)
  | runtimeEdit (edits : List EditedFile)
  | runtimeRestore (file : Option XmlElement)

/-- The document, if it is valid. -/
def Tool.checked (tool : Tool) (doc : XmlElement) : Option XmlElement :=
  if validateXml tool.unicode doc then some doc else none

/-- `edit_file`: the editor is run until the file is valid; this last run must have changed it. -/
def Tool.editFile (tool : Tool) : List EditedFile → Option XmlElement
  | [] => none
  | file :: files =>
      match file.doc.bind tool.checked with
      | some doc => if file.changed then some doc else none
      | none => tool.editFile files

/-- The document that a command copies to the segments, if it copies one; `file` is the document of
    the master. -/
def Tool.distributes (tool : Tool) (file : Option XmlElement) : ToolCommand → Option XmlElement
  | .runtimeAdd options => do
      let elements ← getConfElements options
      let root ← file
      let doc ← addXmlConfig tool root elements
      tool.checked doc
  | .runtimeReplace options => do
      let elements ← getConfElements options
      let root ← file
      let doc ← updateXmlConfig tool root elements
      tool.checked doc
  | .runtimeDelete runtimeId => do
      let root ← file
      deleteXmlConfig tool root runtimeId
  | .runtimeEdit edits => tool.editFile edits
  | .runtimeRestore restored => restored.bind tool.checked

end PlContainer
