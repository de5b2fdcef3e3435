import PlContainer.Common.Messages
import PlContainer.Library.LruCache

set_option autoImplicit false

/-! # The function caches of the backend and of the Python client

The backend keeps the catalog information of the last five functions (`function_cache.c`) and marks
it as changed when it had to be read anew (`plcontainer_procedure_get`); the client keeps the last
twenty compiled functions (`pycache.c`) and compiles again only on a miss or when the request says
that the function has changed (`handle_call`). The two are joined by that one flag.

A session is modelled as a sequence of events. A nested call is an event like any other: it changes
the caches between the execution of the outer body and the next event. -/

namespace PlContainer

/-! ## The backend -/

/-- What tells the versions of a `pg_proc` row apart: `xmin` and the tuple's position. -/
structure RowVersion where
  xmin : ℕ
  tid : ℕ
deriving DecidableEq, Repr

/-- The columns of `pg_proc` that decide which code runs. -/
structure ProcRow where
  proname : CString
  prosrc : CString
deriving DecidableEq, Repr

structure PlcProcInfo where
  funcOid : Oid
  fnVersion : RowVersion
  name : CString
  src : CString
  hasChanged : Bool
deriving DecidableEq, Repr

def plcFunctionCacheSize : ℕ := 5

/-- `plc_procedure_valid`; `typesValid` is the outcome of `plc_type_valid` on the argument and result
    types. -/
def plcProcedureValid (proc : Option PlcProcInfo) (version : RowVersion) (typesValid : Bool) :
    Bool :=
  match proc with
  | none => false
  | some proc => decide (proc.fnVersion = version) && typesValid

/-- The information composed from the catalog. -/
def composeProcInfo (funcOid : Oid) (version : RowVersion) (row : ProcRow) : PlcProcInfo :=
  ⟨funcOid, version, row.proname, row.prosrc, true⟩

/-- `plcontainer_procedure_get`: the information for the call, and the cache it leaves. -/
def plcontainerProcedureGet (funcOid : Oid) (version : RowVersion) (row : ProcRow)
    (typesValid : Bool) (cache : List PlcProcInfo) : PlcProcInfo × List PlcProcInfo :=
  match LruCache.get PlcProcInfo.funcOid funcOid cache with
  | (some proc, cache') =>
      if plcProcedureValid (some proc) version typesValid then
        -- the entry is in front now, and its flag is cleared in place
        ({ proc with hasChanged := false }, { proc with hasChanged := false } :: cache'.tail)
      else
        let proc := composeProcInfo funcOid version row
        (proc, LruCache.put PlcProcInfo.funcOid plcFunctionCacheSize proc cache')
  | (none, cache') =>
      let proc := composeProcInfo funcOid version row
      (proc, LruCache.put PlcProcInfo.funcOid plcFunctionCacheSize proc cache')

/-- The fields of a CALLREQ that decide which code the client runs. -/
structure CodeRequest where
  objectid : Oid
  hasChanged : Bool
  name : CString
  src : CString
deriving DecidableEq, Repr

/-- `plcontainer_generate_call_request`. -/
def plcontainerGenerateCallRequest (proc : PlcProcInfo) : CodeRequest :=
  ⟨proc.funcOid, proc.hasChanged, proc.name, proc.src⟩

@[simp] theorem plcontainerGenerateCallRequest_src (proc : PlcProcInfo) :
    (plcontainerGenerateCallRequest proc).src = proc.src := rfl

/-! ## The Python client -/

/-- A function object, which lives as long as a name is bound to it. -/
structure PyFunctionObject where
  id : ℕ
  src : CString
deriving DecidableEq, Repr

/-- A cache entry. `pyfunc` is a borrowed reference: the entry does not keep the object alive. -/
structure PlcPyFunction where
  objectid : Oid
  name : CString
  src : CString
  pyfunc : ℕ
deriving DecidableEq, Repr

def plcPyFunctionCacheSize : ℕ := 20

structure PyClient where
  cache : List PlcPyFunction
  /-- the functions bound in the dictionary of `__main__` -/
  dict : CString → Option PyFunctionObject
  nextId : ℕ

def PyClient.fresh : PyClient := ⟨[], fun _ => none, 0⟩

/-- What runs when a function object is called. -/
inductive Body where
  | code (src : CString)
  /-- the object was freed when its name was bound to another one -/
  | freed
deriving DecidableEq, Repr

/-- `PyObject_Call` of a cache entry. -/
def PyClient.callBody (client : PyClient) (func : PlcPyFunction) : Body :=
  match client.dict func.name with
  | none => .freed
  | some obj => if obj.id = func.pyfunc then .code obj.src else .freed

/-- The entry for a request, with the function object that compiling it creates. -/
def PyClient.newFunction (client : PyClient) (req : CodeRequest) : PlcPyFunction :=
  ⟨req.objectid, req.name, req.src, client.nextId⟩

/-- The client after it ran the `def` statement of a request and put the function in its cache. -/
def PyClient.compile (client : PyClient) (req : CodeRequest) : PyClient :=
  { cache := LruCache.put PlcPyFunction.objectid plcPyFunctionCacheSize (client.newFunction req)
      client.cache
    dict := fun n => if n = req.name then some ⟨client.nextId, req.src⟩ else client.dict n
    nextId := client.nextId + 1 }

/-- The client after `plc_py_function_cache_get`. -/
def PyClient.touched (client : PyClient) (objectid : Oid) : PyClient :=
  { client with cache := (LruCache.get PlcPyFunction.objectid objectid client.cache).2 }

/-- Code run by the client binds a name of `__main__`, to a function or to something else, or deletes
    it. -/
def PyClient.assign (client : PyClient) (name : CString) (value : Option PyFunctionObject) :
    PyClient :=
  { client with dict := fun n => if n = name then value else client.dict n }

/-- The name `SD`. -/
def sdName : CString := [83, 68]

/-- The client after `handle_call` has bound `SD` to the dictionary of the entry, whatever function
    that name was bound to. -/
def PyClient.bindSD (client : PyClient) : PyClient := client.assign sdName none

/-- `handle_call` up to the call of the function. `compiles` says whether `create_python_func`,
    `PyRun_String` and the check for a callable succeed, if they are reached. -/
def handleCall (client : PyClient) (req : CodeRequest) (compiles : Bool) :
    PyClient × Option Body :=
  let found := (LruCache.get PlcPyFunction.objectid req.objectid client.cache).1
  let client := client.touched req.objectid
  match found, req.hasChanged with
  | some func, false => (client.bindSD, some (client.bindSD.callBody func))
  | _, _ =>
      if compiles then
        ((client.compile req).bindSD,
          some ((client.compile req).bindSD.callBody (client.newFunction req)))
      else (client, none)

/-! ## Sessions -/

structure CodeState where
  /-- the current version of each function's row -/
  catalog : Oid → RowVersion
  cache : List PlcProcInfo
  /-- the client of each runtime that has a container -/
  clients : CString → Option PyClient

inductive CodeEvent where
  /-- CREATE OR REPLACE of a function, or its rollback -/
  | replace (funcOid : Oid) (version : RowVersion)
  /-- a call that ends before it sends a CALLREQ (an argument output function, the runtime lookup,
      the privilege check or the start of the container fails), or the call for a later row of a
      set-returning function -/
  | noRequest (funcOid : Oid) (typesValid : Bool)
  /-- a call that fails while it composes the function's information -/
  | composeFails (funcOid : Oid)
  /-- a call whose CALLREQ reaches the client -/
  | request (funcOid : Oid) (typesValid : Bool) (compiles : Bool)
  /-- the code that the client of a runtime executes binds or deletes a name of `__main__` -/
  | assign (runtime name : CString) (value : Option PyFunctionObject)
  /-- `delete_containers` -/
  | deleteContainers
deriving DecidableEq, Repr

/-- A body executed in answer to a CALLREQ, with the source text the CALLREQ carried. -/
structure Execution where
  carried : CString
  body : Body
deriving DecidableEq, Repr

section

-- the text of each version of each function, and the runtime that a source text names
variable (rows : Oid → RowVersion → ProcRow) (parseContainerMeta : CString → CString)

/-- The backend's part of a call. -/
def CodeState.lookup (s : CodeState) (funcOid : Oid) (typesValid : Bool) :
    PlcProcInfo × List PlcProcInfo :=
  plcontainerProcedureGet funcOid (s.catalog funcOid) (rows funcOid (s.catalog funcOid)) typesValid
    s.cache

/-- The client that gets the requests for a source text; a new container has a fresh client. -/
def CodeState.clientFor (s : CodeState) (src : CString) : PyClient :=
  (s.clients (parseContainerMeta src)).getD PyClient.fresh

def CodeState.exec (s : CodeState) : CodeEvent → CodeState × Option Execution
  | .replace funcOid version =>
      ({ s with catalog := fun o => if o = funcOid then version else s.catalog o }, none)
  | .noRequest funcOid typesValid => ({ s with cache := (s.lookup rows funcOid typesValid).2 }, none)
  | .composeFails funcOid =>
      ({ s with cache := (LruCache.get PlcProcInfo.funcOid funcOid s.cache).2 }, none)
  | .request funcOid typesValid compiles =>
      let found := s.lookup rows funcOid typesValid
      let req := plcontainerGenerateCallRequest found.1
      let runtime := parseContainerMeta req.src
      let handled := handleCall (s.clientFor parseContainerMeta req.src) req compiles
      ({ s with
          cache := found.2
          clients := fun r => if r = runtime then some handled.1 else s.clients r },
        handled.2.map fun body => ⟨req.src, body⟩)
  | .assign runtime name value =>
      ({ s with
          clients := fun r =>
            if r = runtime then (s.clients r).map (·.assign name value) else s.clients r }, none)
  | .deleteContainers => ({ s with clients := fun _ => none }, none)

/-- A session before its first call. -/
def CodeState.start (catalog : Oid → RowVersion) : CodeState := ⟨catalog, [], fun _ => none⟩

end

end PlContainer
