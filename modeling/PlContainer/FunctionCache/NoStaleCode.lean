import PlContainer.FunctionCache
import PlContainer.Library.Runs

set_option autoImplicit false

/-! # No stale function code

The flag that joins the two caches is set by one lookup and cleared by the next. A lookup that sets
it and then sends nothing, or whose request does not compile, leaves the client with the old code and
no sign that it is old. A second way to run the wrong code is the client's own: its entries borrow
their function objects from `__main__`, where another function of the same name replaces them, as do
the dictionary `SD` for a function of that name and an assignment in the code of a function.

`keepsCode` is the condition that rules out both, on the state before each event. Under it the caches
stay coherent, and every body executed is the one compiled from the text of its request. -/

namespace PlContainer

open LruCache Runs

/-! ## What a lookup leaves in the backend's cache -/

/-- What a lookup of `funcOid` makes of the cache: it returns the one entry it leaves for the
    function, and that entry is not marked as changed only if it was there before. -/
structure LookedUp (funcOid : Oid) (cache : List PlcProcInfo) (proc : PlcProcInfo)
    (cache' : List PlcProcInfo) : Prop where
  distinct : Distinct PlcProcInfo.funcOid cache'
  oid : proc.funcOid = funcOid
  entries : ∀ p ∈ cache', p = proc ∨ p ∈ cache ∧ p.funcOid ≠ funcOid
  unchanged : proc.hasChanged = false → ∃ p ∈ cache, p.funcOid = funcOid ∧ p.src = proc.src

theorem lookedUp_compose {cache l : List PlcProcInfo} (hl : Distinct PlcProcInfo.funcOid l)
    (hmem : ∀ p, p ∈ l ↔ p ∈ cache) (funcOid : Oid) (version : RowVersion) (row : ProcRow) :
    LookedUp funcOid cache (composeProcInfo funcOid version row)
      (put PlcProcInfo.funcOid plcFunctionCacheSize (composeProcInfo funcOid version row) l) := by
  refine ⟨hl.put _ _, rfl, fun p hp => ?_, fun hflag => by cases hflag⟩
  rcases mem_put hl hp with rfl | ⟨hpl, hne⟩
  · exact .inl rfl
  · exact .inr ⟨(hmem p).1 hpl, hne⟩

/-- A valid entry comes back with its flag cleared, in front of the others. -/
theorem lookedUp_valid {cache l : List PlcProcInfo} (hl : Distinct PlcProcInfo.funcOid l)
    {old : PlcProcInfo} (hold : old ∈ cache)
    (hfront : l = old :: cache.eraseP (fun b => b.funcOid = old.funcOid)) :
    LookedUp old.funcOid cache { old with hasChanged := false }
      ({ old with hasChanged := false } :: l.tail) := by
  rw [hfront, Distinct, List.map_cons, List.nodup_cons] at hl
  rw [hfront, List.tail_cons]
  refine ⟨?_, rfl, fun p hp => ?_, fun _ => ⟨old, hold, rfl, rfl⟩⟩
  · rw [Distinct, List.map_cons, List.nodup_cons]
    exact hl
  · rcases List.mem_cons.1 hp with rfl | hp
    · exact .inl rfl
    · exact .inr ⟨List.mem_of_mem_eraseP hp, fun hsame => hl.1 (List.mem_map.2 ⟨p, hp, hsame⟩)⟩

theorem lookedUp_plcontainerProcedureGet {cache : List PlcProcInfo}
    (h : Distinct PlcProcInfo.funcOid cache) (funcOid : Oid) (version : RowVersion) (row : ProcRow)
    (typesValid : Bool) :
    LookedUp funcOid cache (plcontainerProcedureGet funcOid version row typesValid cache).1
      (plcontainerProcedureGet funcOid version row typesValid cache).2 := by
  have hl := h.get funcOid
  have hmem : ∀ p, p ∈ (LruCache.get PlcProcInfo.funcOid funcOid cache).2 ↔ p ∈ cache :=
    fun p => mem_get
  unfold plcontainerProcedureGet
  split
  · next old l hfound =>
      rw [hfound] at hl hmem
      split
      · obtain ⟨hsnd, hold, hoid⟩ := get_eq_some
          (show (LruCache.get PlcProcInfo.funcOid funcOid cache).1 = some old by rw [hfound])
        rw [hfound, ← hoid] at hsnd
        rw [← hoid]
        exact lookedUp_valid hl hold hsnd
      · exact lookedUp_compose hl hmem funcOid version row
  · next l hfound =>
      rw [hfound] at hl hmem
      exact lookedUp_compose hl hmem funcOid version row

/-! ## What a request leaves in the client -/

/-- The client's entries are for distinct functions, and each one's object is still bound. -/
structure PyClient.Ok (client : PyClient) : Prop where
  distinct : Distinct PlcPyFunction.objectid client.cache
  bound : ∀ f ∈ client.cache, client.dict f.name = some ⟨f.pyfunc, f.src⟩
  notSD : ∀ f ∈ client.cache, f.name ≠ sdName

/-- The client has no code for the function but the given one. -/
def PyClient.agrees (client : PyClient) (objectid : Oid) (src : CString) : Prop :=
  ∀ f ∈ client.cache, f.objectid = objectid → f.src = src

/-- The name is not `SD`, and no other function of the client has it. -/
def PyClient.nameFree (client : PyClient) (objectid : Oid) (name : CString) : Prop :=
  name ≠ sdName ∧ ∀ f ∈ client.cache, f.objectid ≠ objectid → f.name ≠ name

/-- The client would compile: the function is marked as changed, or not in the cache. -/
def PyClient.recompiles (client : PyClient) (req : CodeRequest) : Prop :=
  req.hasChanged = true ∨ ∀ f ∈ client.cache, f.objectid ≠ req.objectid

theorem PyClient.ok_fresh : PyClient.fresh.Ok :=
  ⟨List.nodup_nil, fun _ hf => absurd hf List.not_mem_nil, fun _ hf => absurd hf List.not_mem_nil⟩

theorem PyClient.callBody_of_bound {client : PyClient} {f : PlcPyFunction}
    (h : client.dict f.name = some ⟨f.pyfunc, f.src⟩) : client.callBody f = .code f.src := by
  rw [PyClient.callBody, h]
  exact if_pos rfl

/-- A lookup only reorders the entries. -/
theorem PyClient.mem_touched {client : PyClient} {objectid : Oid} {f : PlcPyFunction} :
    f ∈ (client.touched objectid).cache ↔ f ∈ client.cache := mem_get

theorem PyClient.Ok.touched {client : PyClient} (h : client.Ok) (objectid : Oid) :
    (client.touched objectid).Ok :=
  ⟨h.distinct.get objectid, fun f hf => h.bound f (PyClient.mem_touched.1 hf),
    fun f hf => h.notSD f (PyClient.mem_touched.1 hf)⟩

theorem PyClient.Ok.compile {client : PyClient} (h : client.Ok) {req : CodeRequest}
    (hfree : client.nameFree req.objectid req.name) : (client.compile req).Ok := by
  refine ⟨h.distinct.put _ _, fun f hf => ?_, fun f hf => ?_⟩
  · rcases mem_put h.distinct hf with rfl | ⟨hmem, hne⟩
    · exact if_pos rfl
    · exact (if_neg (hfree.2 f hmem hne)).trans (h.bound f hmem)
  · rcases mem_put h.distinct hf with rfl | ⟨hmem, _⟩
    · exact hfree.1
    · exact h.notSD f hmem

/-- An assignment that leaves the cached functions bound. -/
theorem PyClient.Ok.assign {client : PyClient} (h : client.Ok) {name : CString}
    {value : Option PyFunctionObject}
    (hkeeps : ∀ f ∈ client.cache, f.name = name → value = some ⟨f.pyfunc, f.src⟩) :
    (client.assign name value).Ok := by
  refine ⟨h.distinct, fun f hf => ?_, h.notSD⟩
  by_cases hname : f.name = name
  · exact (if_pos hname).trans (hkeeps f hf hname)
  · exact (if_neg hname).trans (h.bound f hf)

theorem PyClient.Ok.bindSD {client : PyClient} (h : client.Ok) : client.bindSD.Ok :=
  h.assign fun f hf hname => absurd hname (h.notSD f hf)

theorem PyClient.agrees_compile {client : PyClient} (h : client.Ok) (req : CodeRequest) :
    (client.compile req).agrees req.objectid req.src := by
  intro f hf hoid
  rcases mem_put h.distinct hf with rfl | ⟨_, hne⟩
  · rfl
  · exact absurd hoid hne

theorem PyClient.agrees_compile_of_ne {client : PyClient} (h : client.Ok) {req : CodeRequest}
    {objectid : Oid} {src : CString} (hagree : client.agrees objectid src)
    (hne : objectid ≠ req.objectid) : (client.compile req).agrees objectid src := by
  intro f hf hoid
  rcases mem_put h.distinct hf with rfl | ⟨hmem, _⟩
  · exact absurd hoid.symm hne
  · exact hagree f hmem hoid

/-- The three ways a request goes: cached code runs, new code is compiled and runs, or the new code
    does not compile. -/
theorem handleCall_cases (client : PyClient) (req : CodeRequest) (compiles : Bool) :
    (∃ f ∈ client.cache, f.objectid = req.objectid ∧ req.hasChanged = false ∧
      handleCall client req compiles = ((client.touched req.objectid).bindSD,
        some ((client.touched req.objectid).bindSD.callBody f))) ∨
    (client.recompiles req ∧ compiles = true ∧
      handleCall client req compiles = (((client.touched req.objectid).compile req).bindSD,
        some (((client.touched req.objectid).compile req).bindSD.callBody
          ((client.touched req.objectid).newFunction req)))) ∨
    (client.recompiles req ∧ compiles = false ∧
      handleCall client req compiles = (client.touched req.objectid, none)) := by
  have hrun : client.recompiles req → (handleCall client req compiles
      = if compiles then (((client.touched req.objectid).compile req).bindSD,
        some (((client.touched req.objectid).compile req).bindSD.callBody
          ((client.touched req.objectid).newFunction req)))
        else (client.touched req.objectid, none)) := by
    intro hrec
    unfold handleCall
    dsimp only
    split
    · next f hfound hflag =>
        obtain ⟨_, hmem, hoid⟩ := get_eq_some hfound
        rcases hrec with hchanged | hnone
        · rw [hflag] at hchanged
          cases hchanged
        · exact absurd hoid (hnone f hmem)
    · rfl
  by_cases hrec : client.recompiles req
  · rw [hrun hrec]
    cases compiles with
    | true => exact .inr (.inl ⟨hrec, rfl, rfl⟩)
    | false => exact .inr (.inr ⟨hrec, rfl, rfl⟩)
  · have hflag : req.hasChanged = false := by
      cases hf : req.hasChanged with
      | false => rfl
      | true => exact absurd (.inl hf) hrec
    cases hfound : (LruCache.get PlcPyFunction.objectid req.objectid client.cache).1 with
    | none => exact absurd (.inr (get_eq_none hfound).2) hrec
    | some f =>
        obtain ⟨_, hmem, hoid⟩ := get_eq_some hfound
        refine .inl ⟨f, hmem, hoid, hflag, ?_⟩
        simp only [handleCall, hfound, hflag]

/-! ## Coherent sessions -/

section

variable (rows : Oid → RowVersion → ProcRow) (parseContainerMeta : CString → CString)

/-- Every client is in order, and has no code for a function but that of the backend's entry, if the
    entry's source names the client's runtime. -/
structure CodeState.Coherent (s : CodeState) : Prop where
  backend : Distinct PlcProcInfo.funcOid s.cache
  clients : ∀ r client, s.clients r = some client → client.Ok
  agree : ∀ p ∈ s.cache, (s.clientFor parseContainerMeta p.src).agrees p.funcOid p.src

/-- **The condition under which an event keeps the caches coherent.** A lookup that reads the
    function anew but does not get it compiled must find no other code of the function in the client
    of its runtime; a function that is compiled must not take the name of another one and not be
    called `SD`; and code that binds a name of a cached function must bind it to that function. -/
def CodeState.keepsCode (s : CodeState) : CodeEvent → Prop
  | .noRequest funcOid typesValid =>
      let proc := (s.lookup rows funcOid typesValid).1
      proc.hasChanged = true →
        (s.clientFor parseContainerMeta proc.src).agrees funcOid proc.src
  | .request funcOid typesValid compiles =>
      let proc := (s.lookup rows funcOid typesValid).1
      let client := s.clientFor parseContainerMeta proc.src
      if compiles then
        client.recompiles (plcontainerGenerateCallRequest proc) →
          client.nameFree funcOid proc.name
      else proc.hasChanged = true → client.agrees funcOid proc.src
  | .assign runtime name value =>
      ∀ client, s.clients runtime = some client →
        ∀ f ∈ client.cache, f.name = name → value = some ⟨f.pyfunc, f.src⟩
  | _ => True

variable {rows parseContainerMeta}

theorem CodeState.Coherent.clientFor_ok {s : CodeState} (h : s.Coherent parseContainerMeta)
    (src : CString) : (s.clientFor parseContainerMeta src).Ok := by
  unfold CodeState.clientFor
  cases hc : s.clients (parseContainerMeta src) with
  | none => exact PyClient.ok_fresh
  | some client => exact h.clients _ client hc

theorem CodeState.coherent_start (catalog : Oid → RowVersion) :
    (CodeState.start catalog).Coherent parseContainerMeta :=
  ⟨List.nodup_nil, fun r client hc => absurd hc (by simp [CodeState.start]),
    fun p hp => absurd hp (by simp [CodeState.start])⟩

/-- An entry that a lookup does not mark as changed agrees with the client, as it did before. -/
theorem CodeState.Coherent.agree_unchanged {s : CodeState} (h : s.Coherent parseContainerMeta)
    {funcOid : Oid} {proc : PlcProcInfo} {cache : List PlcProcInfo}
    (hlook : LookedUp funcOid s.cache proc cache) (hflag : proc.hasChanged = false) :
    (s.clientFor parseContainerMeta proc.src).agrees funcOid proc.src := by
  obtain ⟨p, hp, hoid, hsrc⟩ := hlook.unchanged hflag
  rw [← hoid, ← hsrc]
  exact h.agree p hp

/-- A lookup alone keeps the session coherent when the client agrees with what it found. -/
theorem CodeState.Coherent.lookup {s : CodeState} (h : s.Coherent parseContainerMeta)
    {funcOid : Oid} {proc : PlcProcInfo} {cache : List PlcProcInfo}
    (hlook : LookedUp funcOid s.cache proc cache)
    (hagree : (s.clientFor parseContainerMeta proc.src).agrees funcOid proc.src) :
    CodeState.Coherent parseContainerMeta { s with cache := cache } := by
  refine ⟨hlook.distinct, h.clients, fun p hp => ?_⟩
  rcases hlook.entries p hp with rfl | ⟨hmem, _⟩
  · rw [hlook.oid]
    exact hagree
  · exact h.agree p hmem

/-- What a request does to its client, when the client agrees with an unchanged function and the
    event meets its condition. -/
theorem PyClient.Ok.handleCall {client : PyClient} (h : client.Ok) (req : CodeRequest)
    {compiles : Bool} (hold : req.hasChanged = false → client.agrees req.objectid req.src)
    (hcond : if compiles then client.recompiles req → client.nameFree req.objectid req.name
      else req.hasChanged = true → client.agrees req.objectid req.src) :
    (handleCall client req compiles).1.Ok ∧
      (handleCall client req compiles).1.agrees req.objectid req.src ∧
      ∀ objectid src, objectid ≠ req.objectid → client.agrees objectid src →
        (handleCall client req compiles).1.agrees objectid src := by
  have htouched := h.touched req.objectid
  have hsame : ∀ objectid src, client.agrees objectid src →
      (client.touched req.objectid).agrees objectid src := fun objectid src hagree f hf =>
    hagree f (PyClient.mem_touched.1 hf)
  rcases handleCall_cases client req compiles with
    ⟨f, _, _, hflag, hrun⟩ | ⟨hrec, rfl, hrun⟩ | ⟨_, rfl, hrun⟩
  · rw [hrun]
    exact ⟨htouched.bindSD, hsame _ _ (hold hflag), fun objectid src _ => hsame objectid src⟩
  · rw [hrun]
    have hfree : (client.touched req.objectid).nameFree req.objectid req.name :=
      ⟨(hcond hrec).1, fun f hf => (hcond hrec).2 f (PyClient.mem_touched.1 hf)⟩
    exact ⟨(htouched.compile hfree).bindSD, PyClient.agrees_compile htouched req,
      fun objectid src hne hagree => PyClient.agrees_compile_of_ne htouched (hsame _ _ hagree) hne⟩
  · rw [hrun]
    have hagree : client.agrees req.objectid req.src := by
      cases hflag : req.hasChanged with
      | false => exact hold hflag
      | true => exact hcond hflag
    exact ⟨htouched, hsame _ _ hagree, fun objectid src _ => hsame objectid src⟩

theorem CodeState.Coherent.request {s : CodeState} (h : s.Coherent parseContainerMeta)
    {funcOid : Oid} {typesValid compiles : Bool}
    (hok : s.keepsCode rows parseContainerMeta (.request funcOid typesValid compiles)) :
    (s.exec rows parseContainerMeta (.request funcOid typesValid compiles)).1.Coherent
      parseContainerMeta := by
  have hlook : LookedUp funcOid s.cache (s.lookup rows funcOid typesValid).1
      (s.lookup rows funcOid typesValid).2 :=
    lookedUp_plcontainerProcedureGet h.backend _ _ _ _
  simp only [CodeState.keepsCode] at hok
  simp only [CodeState.exec]
  generalize hproc : s.lookup rows funcOid typesValid = found at hlook hok ⊢
  obtain ⟨proc, cache⟩ := found
  simp only at hlook hok ⊢
  have holdAgree := h.agree_unchanged hlook
  rw [← hlook.oid] at hok holdAgree
  obtain ⟨hok', hagree, hothers⟩ :=
    (h.clientFor_ok proc.src).handleCall (plcontainerGenerateCallRequest proc) holdAgree hok
  refine ⟨hlook.distinct, fun r client hc => ?_, fun p hp => ?_⟩
  · simp only at hc
    split at hc
    · cases hc
      exact hok'
    · exact h.clients r client hc
  · unfold CodeState.clientFor
    simp only
    by_cases hrun : parseContainerMeta p.src = parseContainerMeta proc.src
    · rw [plcontainerGenerateCallRequest_src, if_pos hrun,
        Option.getD_some]
      rcases hlook.entries p hp with rfl | ⟨hmem, hne⟩
      · exact hagree
      · have hbefore := h.agree p hmem
        rw [CodeState.clientFor, hrun] at hbefore
        exact hothers p.funcOid p.src (by rw [← hlook.oid] at hne; exact hne) hbefore
    · rw [plcontainerGenerateCallRequest_src, if_neg hrun]
      rcases hlook.entries p hp with rfl | ⟨hmem, _⟩
      · exact absurd rfl hrun
      · exact h.agree p hmem

theorem CodeState.Coherent.assign {s : CodeState} (h : s.Coherent parseContainerMeta)
    {runtime name : CString} {value : Option PyFunctionObject}
    (hok : s.keepsCode rows parseContainerMeta (.assign runtime name value)) :
    (s.exec rows parseContainerMeta (.assign runtime name value)).1.Coherent parseContainerMeta := by
  refine ⟨h.backend, fun r client hc => ?_, fun p hp f hf => ?_⟩
  · simp only [CodeState.exec] at hc
    split at hc
    next hr =>
      obtain ⟨client, hclient, rfl⟩ := Option.map_eq_some_iff.1 hc
      exact (h.clients r client hclient).assign (hok client (hr ▸ hclient))
    next => exact h.clients r client hc
  · -- an assignment leaves every cache as it is
    have hcache : (CodeState.clientFor parseContainerMeta
        (s.exec rows parseContainerMeta (.assign runtime name value)).1 p.src).cache
          = (s.clientFor parseContainerMeta p.src).cache := by
      simp only [CodeState.exec, CodeState.clientFor]
      split
      next => cases s.clients (parseContainerMeta p.src) <;> rfl
      next => rfl
    exact h.agree p hp f (hcache ▸ hf)

/-- **One event** that meets its condition keeps the session coherent. -/
theorem CodeState.Coherent.exec {s : CodeState} (h : s.Coherent parseContainerMeta)
    {event : CodeEvent} (hok : s.keepsCode rows parseContainerMeta event) :
    (s.exec rows parseContainerMeta event).1.Coherent parseContainerMeta := by
  cases event with
  | replace funcOid version => exact ⟨h.backend, h.clients, h.agree⟩
  | noRequest funcOid typesValid =>
      have hlook : LookedUp funcOid s.cache (s.lookup rows funcOid typesValid).1
          (s.lookup rows funcOid typesValid).2 :=
        lookedUp_plcontainerProcedureGet h.backend _ _ _ _
      refine h.lookup hlook ?_
      cases hflag : (s.lookup rows funcOid typesValid).1.hasChanged with
      | false => exact h.agree_unchanged hlook hflag
      | true => exact hok hflag
  | composeFails funcOid =>
      exact ⟨h.backend.get funcOid, h.clients, fun p hp => h.agree p (mem_get.1 hp)⟩
  | request funcOid typesValid compiles => exact h.request hok
  | assign runtime name value => exact h.assign hok
  | deleteContainers =>
      refine ⟨h.backend, fun r client hc => absurd hc (by simp [CodeState.exec]),
        fun p _ f hf => absurd hf ?_⟩
      simp [CodeState.exec, CodeState.clientFor, PyClient.fresh]

/-- In a coherent session every body executed is the one compiled from the text of its request. -/
theorem CodeState.Coherent.executes {s : CodeState} (h : s.Coherent parseContainerMeta)
    {event : CodeEvent} (hok : s.keepsCode rows parseContainerMeta event) {x : Execution}
    (hx : (s.exec rows parseContainerMeta event).2 = some x) : x.body = .code x.carried := by
  cases event with
  | replace funcOid version => cases hx
  | noRequest funcOid typesValid => cases hx
  | composeFails funcOid => cases hx
  | assign runtime name value => cases hx
  | deleteContainers => cases hx
  | request funcOid typesValid compiles =>
      have hlook : LookedUp funcOid s.cache (s.lookup rows funcOid typesValid).1
          (s.lookup rows funcOid typesValid).2 :=
        lookedUp_plcontainerProcedureGet h.backend _ _ _ _
      have hagree := h.agree_unchanged hlook
      simp only [CodeState.exec, Option.map_eq_some_iff, plcontainerGenerateCallRequest_src] at hx
      obtain ⟨body, hbody, rfl⟩ := hx
      simp only [CodeState.keepsCode] at hok
      generalize (s.lookup rows funcOid typesValid).1 = proc at hlook hagree hbody hok ⊢
      have hclient := h.clientFor_ok proc.src
      rcases handleCall_cases (s.clientFor parseContainerMeta proc.src)
        (plcontainerGenerateCallRequest proc) compiles with
        ⟨f, hf, hoid, hflag, hrun⟩ | ⟨hrec, rfl, hrun⟩ | ⟨_, _, hrun⟩
      · rw [hrun] at hbody
        cases hbody
        rw [PyClient.callBody_of_bound
          ((hclient.touched _).bindSD.bound f (PyClient.mem_touched.2 hf))]
        exact congrArg Body.code (hagree hflag f hf (hoid.trans hlook.oid))
      · rw [hrun] at hbody
        cases hbody
        -- the new function keeps its name when `SD` is bound
        have hname : proc.name ≠ sdName := (hok hrec).1
        exact PyClient.callBody_of_bound ((if_neg hname).trans (if_pos rfl))
      · rw [hrun] at hbody
        cases hbody

/-- The states of all sessions whose events meet `ok`. -/
def CodeState.Reachable (rows : Oid → RowVersion → ProcRow) (parseContainerMeta : CString → CString)
    (ok : CodeState → CodeEvent → Prop) : CodeState → Prop :=
  ReachableUnder (fun s => ∃ catalog, s = CodeState.start catalog)
    (fun s event s' => (s.exec rows parseContainerMeta event).1 = s') ok

/-- **No stale code.** In every session whose events keep the caches coherent, whatever the client
    executes in answer to a CALLREQ is the body compiled from the source text of that CALLREQ. -/
theorem no_stale_code (rows : Oid → RowVersion → ProcRow) (parseContainerMeta : CString → CString)
    (s : CodeState)
    (h : CodeState.Reachable rows parseContainerMeta
      (fun s event => s.keepsCode rows parseContainerMeta event) s)
    (event : CodeEvent) (hok : s.keepsCode rows parseContainerMeta event) (x : Execution)
    (hx : (s.exec rows parseContainerMeta event).2 = some x) : x.body = .code x.carried := by
  have hcoherent : s.Coherent parseContainerMeta := by
    refine ReachableUnder.invariant ?_ ?_ h
    · rintro s ⟨catalog, rfl⟩
      exact CodeState.coherent_start catalog
    · rintro s event s' hs hok rfl
      exact hs.exec hok
  exact hcoherent.executes hok hx

end

/-! ### Sessions that run the wrong code -/

/-- The bodies that a list of events executes, from a fresh session. -/
def CodeState.executions (rows : Oid → RowVersion → ProcRow)
    (parseContainerMeta : CString → CString) : CodeState → List CodeEvent → List Execution
  | _, [] => []
  | s, event :: events =>
      let r := s.exec rows parseContainerMeta event
      r.2.toList ++ CodeState.executions rows parseContainerMeta r.1 events

/-- A function whose source text is the number of its version; all functions have the same name and
    run in the same runtime. -/
def numberedRows (funcOid : Oid) (version : RowVersion) : ProcRow :=
  ⟨[102], [UInt8.ofNat funcOid.toNat, UInt8.ofNat version.tid]⟩

/-- A function is called, replaced and called again. -/
def replacedSession : CodeState :=
  let s := CodeState.start fun _ => ⟨1, 1⟩
  let s := (s.exec numberedRows (fun _ => []) (.request 1 true true)).1
  (s.exec numberedRows (fun _ => []) (.replace 1 ⟨2, 2⟩)).1

theorem no_stale_code_replacedSession :
    (replacedSession.exec numberedRows (fun _ => []) (.request 1 true true)).2
        = some ⟨[1, 2], .code [1, 2]⟩ ∧
      (Execution.mk [1, 2] (.code [1, 2])).body = .code (Execution.mk [1, 2] (.code [1, 2])).carried := by
  have hrun : (replacedSession.exec numberedRows (fun _ => []) (.request 1 true true)).2
      = some ⟨[1, 2], .code [1, 2]⟩ := by decide
  refine ⟨hrun, no_stale_code numberedRows (fun _ => []) replacedSession ?_ _ ?_ _ hrun⟩
  · refine .step (i := .replace 1 ⟨2, 2⟩) (.step (i := .request 1 true true) (.init ⟨_, rfl⟩) ?_ rfl)
      trivial rfl
    exact fun _ => ⟨by decide, fun f hf => absurd hf List.not_mem_nil⟩
  · exact fun _ => ⟨by decide, by decide⟩

/-- **Four sessions that run the wrong code**: the new version fails to compile; the call of the new
    version is refused before its request is sent; a second function of the same name takes the
    object of the first; and a function is called `SD`. Each time the last request runs something
    else than the text it carries. -/
theorem stale_code_runs :
    CodeState.executions numberedRows (fun _ => []) (CodeState.start fun _ => ⟨1, 1⟩)
        [.request 1 true true, .replace 1 ⟨2, 2⟩, .request 1 true false, .request 1 true true]
      = [⟨[1, 1], .code [1, 1]⟩, ⟨[1, 2], .code [1, 1]⟩] ∧
    CodeState.executions numberedRows (fun _ => []) (CodeState.start fun _ => ⟨1, 1⟩)
        [.request 1 true true, .replace 1 ⟨2, 2⟩, .noRequest 1 true, .request 1 true true]
      = [⟨[1, 1], .code [1, 1]⟩, ⟨[1, 2], .code [1, 1]⟩] ∧
    CodeState.executions numberedRows (fun _ => []) (CodeState.start fun _ => ⟨1, 1⟩)
        [.request 1 true true, .request 2 true true, .request 1 true true]
      = [⟨[1, 1], .code [1, 1]⟩, ⟨[2, 1], .code [2, 1]⟩, ⟨[1, 1], .freed⟩] ∧
    CodeState.executions (fun _ _ => ⟨sdName, [1]⟩) (fun _ => []) (CodeState.start fun _ => ⟨1, 1⟩)
        [.request 1 true true]
      = [⟨[1], .freed⟩] := by
  decide

end PlContainer
