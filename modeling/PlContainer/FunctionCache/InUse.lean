import PlContainer.FunctionCache.Frames

set_option autoImplicit false

/-! # Cached functions in use

`plcontainer_call_handler` and `handle_call` keep raw pointers to cache entries while SQL of the
function runs, and the calls inside that SQL go through the same caches. Both caches free the entry
that an insertion gives up at once. Here the backend's entries get an identity, the active calls of
the backend and of the clients are part of the state, and the recency orders of the caches tell when
an entry in use is freed. -/

namespace PlContainer

open LruCache Runs

/-! ## The backend's cache -/

/-- An allocated `plcProcInfo`. The number stands for the allocation and is never used again. -/
structure CachedProc where
  ptr : ℕ
  info : PlcProcInfo
deriving DecidableEq

namespace CachedProc

def funcOid (p : CachedProc) : Oid := p.info.funcOid

def fnVersion (p : CachedProc) : RowVersion := p.info.fnVersion

/-- `proc->hasChanged = 0` -/
def clearChanged (p : CachedProc) : CachedProc := { p with info.hasChanged := false }

/-- The same allocation, for the same version of the same function. -/
structure Same (p q : CachedProc) : Prop where
  ptr : p.ptr = q.ptr
  funcOid : p.funcOid = q.funcOid
  fnVersion : p.fnVersion = q.fnVersion

theorem same_clearChanged (p : CachedProc) : p.clearChanged.Same p := ⟨rfl, rfl, rfl⟩

end CachedProc

/-- `plcontainer_procedure_get` over allocated entries: what it returns, the cache it leaves, and what
    it passes to `free_proc_info`. -/
def procedureGetAt (funcOid : Oid) (version : RowVersion) (row : ProcRow) (typesValid : Bool)
    (ptr : ℕ) (cache : List CachedProc) : CachedProc × List CachedProc × Option CachedProc :=
  let new : CachedProc := ⟨ptr, composeProcInfo funcOid version row⟩
  match LruCache.get CachedProc.funcOid funcOid cache with
  | (some proc, cache') =>
      if plcProcedureValid (some proc.info) version typesValid then
        (proc.clearChanged, proc.clearChanged :: cache'.tail, none)
      else
        (new, put CachedProc.funcOid plcFunctionCacheSize new cache',
          dropped CachedProc.funcOid plcFunctionCacheSize new cache')
  | (none, cache') =>
      (new, put CachedProc.funcOid plcFunctionCacheSize new cache',
        dropped CachedProc.funcOid plcFunctionCacheSize new cache')

section Lookup

variable (funcOid : Oid) (version : RowVersion) (row : ProcRow) (typesValid : Bool) (ptr : ℕ)
  {cache : List CachedProc} {recent : List Oid}

/-- Without the allocations this is `plcontainerProcedureGet`. -/
theorem procedureGetAt_info (cache : List CachedProc) :
    ((procedureGetAt funcOid version row typesValid ptr cache).1.info,
      (procedureGetAt funcOid version row typesValid ptr cache).2.1.map CachedProc.info)
      = plcontainerProcedureGet funcOid version row typesValid (cache.map CachedProc.info) := by
  have hkey (p : CachedProc) : p.info.funcOid = p.funcOid := rfl
  have hput (new : CachedProc) (l : List CachedProc) :
      put PlcProcInfo.funcOid plcFunctionCacheSize new.info (l.map CachedProc.info)
        = (put CachedProc.funcOid plcFunctionCacheSize new l).map CachedProc.info := put_map hkey _ _ _
  rw [plcontainerProcedureGet, procedureGetAt, get_map hkey]
  rcases LruCache.get CachedProc.funcOid funcOid cache with ⟨_ | proc, cache'⟩
  · exact congrArg _ (hput _ _).symm
  · dsimp only [Option.map_some]
    split
    · simp [CachedProc.clearChanged]
    · exact congrArg _ (hput _ _).symm

/-- A lookup finds a valid entry, or composes a new one. -/
theorem procedureGetAt_cases (h : Distinct CachedProc.funcOid cache) :
    (∃ p ∈ cache, p.funcOid = funcOid ∧ p.fnVersion = version ∧ typesValid = true ∧
      procedureGetAt funcOid version row typesValid ptr cache =
        (p.clearChanged, p.clearChanged :: cache.eraseP (fun q => q.funcOid = funcOid), none)) ∨
    ((∀ p ∈ cache, p.funcOid = funcOid → ¬ (p.fnVersion = version ∧ typesValid = true)) ∧
      procedureGetAt funcOid version row typesValid ptr cache =
        (⟨ptr, composeProcInfo funcOid version row⟩,
          put CachedProc.funcOid plcFunctionCacheSize ⟨ptr, composeProcInfo funcOid version row⟩
            (LruCache.get CachedProc.funcOid funcOid cache).2,
          dropped CachedProc.funcOid plcFunctionCacheSize ⟨ptr, composeProcInfo funcOid version row⟩
            (LruCache.get CachedProc.funcOid funcOid cache).2)) := by
  rw [procedureGetAt]
  rcases hget : LruCache.get CachedProc.funcOid funcOid cache with ⟨_ | p, cache'⟩
  · obtain ⟨-, hno⟩ := get_eq_none (show (LruCache.get CachedProc.funcOid funcOid cache).1 = none by
      rw [hget])
    exact .inr ⟨fun p hp hoid => absurd hoid (hno p hp), rfl⟩
  · obtain ⟨hfront, hp, hoid⟩ :=
      get_eq_some (show (LruCache.get CachedProc.funcOid funcOid cache).1 = some p by rw [hget])
    rw [hget] at hfront
    obtain rfl : cache' = _ := hfront
    dsimp only
    split
    next hvalid =>
      have hvalid' : p.fnVersion = version ∧ typesValid = true := by
        simpa [plcProcedureValid, CachedProc.fnVersion] using hvalid
      exact .inl ⟨p, hp, hoid, hvalid'.1, hvalid'.2, rfl⟩
    next hinvalid =>
      refine .inr ⟨fun q hq hoid' hvalid => hinvalid ?_, rfl⟩
      obtain rfl : q = p := List.inj_on_of_nodup_map h hq hp (hoid'.trans hoid.symm)
      simpa [plcProcedureValid, CachedProc.fnVersion] using hvalid

variable {funcOid} {version} {row} {typesValid} {ptr}

/-- The lookup counts as a use of the function. -/
theorem follows_procedureGetAt
    (h : Follows CachedProc.funcOid plcFunctionCacheSize cache recent) :
    Follows CachedProc.funcOid plcFunctionCacheSize
      (procedureGetAt funcOid version row typesValid ptr cache).2.1 (touch funcOid recent) := by
  rcases procedureGetAt_cases funcOid version row typesValid ptr h.distinct with
    ⟨p, hp, hoid, -, -, hres⟩ | ⟨-, hres⟩
  · rw [hres]
    refine ⟨nodup_touch h.nodup _, ?_⟩
    rw [List.map_cons, map_eraseP_key, (p.same_clearChanged).funcOid, hoid,
      h.take_touch_held (h.mem_keys.2 ⟨p, hp, hoid⟩)]
  · rw [hres]
    have hput := (h.get funcOid).put (by decide) ⟨ptr, composeProcInfo funcOid version row⟩
    rw [← touch_touchHeld plcFunctionCacheSize funcOid recent]
    exact hput

/-- The entry that a lookup returns is in the cache. -/
theorem procedureGetAt_mem (h : Distinct CachedProc.funcOid cache) :
    (procedureGetAt funcOid version row typesValid ptr cache).1
      ∈ (procedureGetAt funcOid version row typesValid ptr cache).2.1 := by
  rcases procedureGetAt_cases funcOid version row typesValid ptr h with
    ⟨p, -, -, -, -, hres⟩ | ⟨-, hres⟩
  · rw [hres]
    exact List.mem_cons_self ..
  · rw [hres]
    exact List.mem_cons_self ..

theorem procedureGetAt_freed_mem (h : Distinct CachedProc.funcOid cache) {p : CachedProc}
    (hp : (procedureGetAt funcOid version row typesValid ptr cache).2.2 = some p) : p ∈ cache := by
  rcases procedureGetAt_cases funcOid version row typesValid ptr h with
    ⟨q, -, -, -, -, hres⟩ | ⟨-, hres⟩
  · rw [hres] at hp
    cases hp
  · rw [hres] at hp
    exact mem_get.1 (mem_of_dropped hp)

/-- An entry is freed exactly when it is composed again or pushed out. -/
theorem procedureGetAt_freed_iff
    (h : Follows CachedProc.funcOid plcFunctionCacheSize cache recent) {p : CachedProc}
    (hp : p ∈ cache) :
    (procedureGetAt funcOid version row typesValid ptr cache).2.2 = some p ↔
      if p.funcOid = funcOid then ¬ (p.fnVersion = version ∧ typesValid = true)
      else p.funcOid ∉ (touch funcOid recent).take plcFunctionCacheSize := by
  rcases procedureGetAt_cases funcOid version row typesValid ptr h.distinct with
    ⟨q, hq, hoid, hversion, htypes, hres⟩ | ⟨hinvalid, hres⟩
  · rw [hres]
    refine iff_of_false (by simp) ?_
    split
    next hsame =>
      obtain rfl : p = q := List.inj_on_of_nodup_map h.distinct hp hq (hsame.trans hoid.symm)
      exact not_not.2 ⟨hversion, htypes⟩
    next =>
      exact not_not.2 (h.mem_touch_held (h.mem_keys.2 ⟨q, hq, hoid⟩) (h.mem_keys.2 ⟨p, hp, rfl⟩))
  · rw [hres]
    have hget := h.get funcOid
    have hp' : p ∈ (LruCache.get CachedProc.funcOid funcOid cache).2 := mem_get.2 hp
    split
    next hsame => exact iff_of_true (dropped_of_key_eq hget.distinct hp' hsame) (hinvalid p hp hsame)
    next hne =>
      rw [← touch_touchHeld plcFunctionCacheSize funcOid recent]
      exact hget.dropped_iff (a := ⟨ptr, composeProcInfo funcOid version row⟩) (by decide) hp' hne

/-- An entry that is not freed stays in the cache, with its version. -/
theorem procedureGetAt_kept
    (h : Follows CachedProc.funcOid plcFunctionCacheSize cache recent) {p : CachedProc}
    (hp : p ∈ cache) (hkept : (procedureGetAt funcOid version row typesValid ptr cache).2.2 ≠ some p) :
    ∃ q ∈ (procedureGetAt funcOid version row typesValid ptr cache).2.1, q.Same p := by
  rcases procedureGetAt_cases funcOid version row typesValid ptr h.distinct with
    ⟨q, hq, hoid, -, -, hres⟩ | ⟨-, hres⟩
  · rw [hres]
    by_cases hsame : p.funcOid = funcOid
    · obtain rfl : p = q := List.inj_on_of_nodup_map h.distinct hp hq (hsame.trans hoid.symm)
      exact ⟨p.clearChanged, List.mem_cons_self .., p.same_clearChanged⟩
    · exact ⟨p, List.mem_cons_of_mem _ ((List.mem_eraseP_of_neg (by simpa using hsame)).2 hp),
        rfl, rfl, rfl⟩
  · rw [hres] at hkept ⊢
    have hget := h.get funcOid
    exact ⟨p, List.mem_cons_of_mem _
      ((mem_others_iff hget.distinct hget.length_le (mem_get.2 hp)).2 hkept), rfl, rfl, rfl⟩

/-- No two entries are the same allocation, and the given number is a new one. -/
structure Allocated (ptr : ℕ) (cache : List CachedProc) : Prop where
  lt : ∀ p ∈ cache, p.ptr < ptr
  inj : ∀ p ∈ cache, ∀ q ∈ cache, p.ptr = q.ptr → p = q

theorem Allocated.cons {front : CachedProc} {rest : List CachedProc} (h : Allocated ptr cache)
    (hfront : front.ptr ≤ ptr) (hrest : ∀ q ∈ rest, q ∈ cache ∧ q.ptr ≠ front.ptr) :
    Allocated (ptr + 1) (front :: rest) := by
  constructor
  · intro q hq
    rcases List.mem_cons.1 hq with rfl | hq
    · exact Nat.lt_succ_of_le hfront
    · exact Nat.lt_succ_of_lt (h.lt q (hrest q hq).1)
  · intro q hq r hr hptr
    rcases List.mem_cons.1 hq with rfl | hq'
    · rcases List.mem_cons.1 hr with rfl | hr'
      · rfl
      · exact absurd hptr.symm (hrest r hr').2
    · rcases List.mem_cons.1 hr with rfl | hr'
      · exact absurd hptr (hrest q hq').2
      · exact h.inj q (hrest q hq').1 r (hrest r hr').1 hptr

theorem Allocated.procedureGetAt (h : Allocated ptr cache)
    (hd : Distinct CachedProc.funcOid cache) :
    Allocated (ptr + 1) (procedureGetAt funcOid version row typesValid ptr cache).2.1 := by
  rcases procedureGetAt_cases funcOid version row typesValid ptr hd with
    ⟨p, hp, hoid, -, -, hres⟩ | ⟨-, hres⟩
  · rw [hres]
    refine h.cons (Nat.le_of_lt (h.lt p hp)) fun q hq => ⟨List.mem_of_mem_eraseP hq, fun hptr => ?_⟩
    obtain rfl : q = p := h.inj q (List.mem_of_mem_eraseP hq) p hp hptr
    exact ne_of_mem_eraseP hd hq hoid
  · rw [hres]
    refine h.cons (Nat.le_refl ptr) fun q hq => ?_
    have hq' : q ∈ cache := mem_get.1 (mem_others (hd.get funcOid) hq).1
    exact ⟨hq', Nat.ne_of_lt (h.lt q hq')⟩

end Lookup

/-! ## Sessions with active calls -/

structure UseState where
  catalog : Oid → RowVersion
  cache : List CachedProc
  nextPtr : ℕ
  /-- what the variables `proc` of the active calls point to, the innermost first -/
  calls : List CachedProc
  /-- history: the functions in the order of their last lookup -/
  recent : List Oid
  clients : CString → Option PyFrames

inductive UseEvent where
  /-- a call begins, in the backend and, if it sends its CALLREQ, in a client; or the catalog or the
      containers change -/
  | code (e : CodeEvent)
  /-- the innermost call of the backend ends -/
  | leave
  /-- the innermost call of a client ends -/
  | clientLeave (runtime : CString)

namespace UseState

/-- The session without allocations and active calls. -/
def codeState (s : UseState) : CodeState :=
  ⟨s.catalog, s.cache.map CachedProc.info, fun r => (s.clients r).map PyFrames.client⟩

def start (catalog : Oid → RowVersion) : UseState := ⟨catalog, [], 0, [], [], fun _ => none⟩

section

variable (rows : Oid → RowVersion → ProcRow) (parseContainerMeta : CString → CString)

/-- The backend's lookup for a call. -/
def lookup (s : UseState) (funcOid : Oid) (typesValid : Bool) :
    CachedProc × List CachedProc × Option CachedProc :=
  procedureGetAt funcOid (s.catalog funcOid) (rows funcOid (s.catalog funcOid)) typesValid s.nextPtr
    s.cache

/-- The state with the lookup done and the call active. -/
def enter (s : UseState) (funcOid : Oid) (typesValid : Bool) : UseState :=
  { s with
    cache := (s.lookup rows funcOid typesValid).2.1
    nextPtr := s.nextPtr + 1
    calls := (s.lookup rows funcOid typesValid).1 :: s.calls
    recent := touch funcOid s.recent }

/-- The client of a runtime; a new container has a fresh one. -/
def framesOf (s : UseState) (runtime : CString) : PyFrames := (s.clients runtime).getD .fresh

/-- The CALLREQ of a call. -/
def requestOf (s : UseState) (funcOid : Oid) (typesValid : Bool) : CodeRequest :=
  plcontainerGenerateCallRequest (s.lookup rows funcOid typesValid).1.info

/-- The client that gets it. -/
def runtimeOf (s : UseState) (funcOid : Oid) (typesValid : Bool) : CString :=
  parseContainerMeta (s.requestOf rows funcOid typesValid).src

def exec (s : UseState) : UseEvent → UseState
  | .code (.replace funcOid version) =>
      { s with catalog := fun o => if o = funcOid then version else s.catalog o }
  | .code (.noRequest funcOid typesValid) => s.enter rows funcOid typesValid
  | .code (.composeFails funcOid) =>
      { s with
        cache := (LruCache.get CachedProc.funcOid funcOid s.cache).2
        recent := touchHeld plcFunctionCacheSize funcOid s.recent }
  | .code (.request funcOid typesValid compiles) =>
      let runtime := s.runtimeOf rows parseContainerMeta funcOid typesValid
      let frames := (s.framesOf runtime).handleCall (s.requestOf rows funcOid typesValid) compiles
      { s.enter rows funcOid typesValid with
        clients := fun r => if r = runtime then some frames else s.clients r }
  | .code (.assign runtime name value) =>
      { s with
        clients := fun r =>
          if r = runtime then (s.clients runtime).map (·.assign name value) else s.clients r }
  | .code .deleteContainers => { s with clients := fun _ => none }
  | .leave => { s with calls := s.calls.tail }
  | .clientLeave runtime =>
      { s with
        clients := fun r => if r = runtime then (s.clients runtime).map .leave else s.clients r }

/-- What an event passes to `free_proc_info`. -/
def freedProc (s : UseState) : UseEvent → Option CachedProc
  | .code (.noRequest funcOid typesValid) => (s.lookup rows funcOid typesValid).2.2
  | .code (.request funcOid typesValid _) => (s.lookup rows funcOid typesValid).2.2
  | _ => none

/-- What an event passes to `plc_py_free_function`, in the given client. -/
def freedFunction (s : UseState) (runtime : CString) : UseEvent → Option PlcPyFunction
  | .code (.request funcOid typesValid compiles) =>
      if runtime = s.runtimeOf rows parseContainerMeta funcOid typesValid then
        (s.framesOf runtime).client.freedBy (s.requestOf rows funcOid typesValid) compiles
      else none
  | _ => none

/-- No entry that an active call uses is freed. -/
def KeepsUsed (s : UseState) (e : UseEvent) : Prop :=
  (∀ p, s.freedProc rows e = some p → ∀ c ∈ s.calls, c.ptr ≠ p.ptr) ∧
  ∀ runtime, ∀ f ∈ (s.framesOf runtime).frames,
    s.freedFunction rows parseContainerMeta runtime e ≠ some f

end

/-! ## Without the active calls -/

section

variable {rows : Oid → RowVersion → ProcRow} {parseContainerMeta : CString → CString}
  {s : UseState}

theorem lookup_info (funcOid : Oid) (typesValid : Bool) :
    s.codeState.lookup rows funcOid typesValid
      = ((s.lookup rows funcOid typesValid).1.info,
        (s.lookup rows funcOid typesValid).2.1.map CachedProc.info) :=
  (procedureGetAt_info ..).symm

theorem clientFor_codeState (src : CString) :
    s.codeState.clientFor parseContainerMeta src
      = (s.framesOf (parseContainerMeta src)).client := by
  rw [CodeState.clientFor, framesOf]
  cases hclient : s.clients (parseContainerMeta src) with
  | none => simp [codeState, hclient, PyFrames.fresh]
  | some frames => simp [codeState, hclient]

/-- Leaving the allocations and the active calls out gives the sessions of `CodeState`. -/
theorem codeState_exec (s : UseState) (e : CodeEvent) :
    (s.exec rows parseContainerMeta (.code e)).codeState
      = (s.codeState.exec rows parseContainerMeta e).1 := by
  cases e with
  | replace funcOid version => rfl
  | noRequest funcOid typesValid =>
      rw [CodeState.exec, lookup_info]
      rfl
  | composeFails funcOid =>
      have hget : LruCache.get PlcProcInfo.funcOid funcOid (s.cache.map CachedProc.info)
          = ((LruCache.get CachedProc.funcOid funcOid s.cache).1.map CachedProc.info,
            (LruCache.get CachedProc.funcOid funcOid s.cache).2.map CachedProc.info) :=
        get_map (fun _ => rfl) _ _
      simp only [CodeState.exec, exec, codeState, hget]
  | request funcOid typesValid compiles =>
      simp only [CodeState.exec, lookup_info, clientFor_codeState]
      refine congrArg (CodeState.mk _ _) (funext fun r => ?_)
      rw [exec, apply_ite (Option.map PyFrames.client), Option.map_some, PyFrames.client_handleCall]
      rfl
  | assign runtime name value =>
      refine congrArg (CodeState.mk _ _) (funext fun r => ?_)
      rw [exec, apply_ite (Option.map PyFrames.client), Option.map_map]
      by_cases hr : r = runtime
      · rw [if_pos hr, if_pos hr, hr, codeState, Option.map_map]
        rfl
      · rw [if_neg hr, if_neg hr, codeState]
  | deleteContainers => rfl

/-! ## Entries in use -/

/-- The lookup leaves the entries of the active calls alone: it finds the function of an active call
    as it was when the call began, and does not push the function of another one out of the five that
    were looked up last. -/
def LookupSpares (s : UseState) (funcOid : Oid) (typesValid : Bool) : Prop :=
  ∀ c ∈ s.calls,
    if c.funcOid = funcOid then c.fnVersion = s.catalog funcOid ∧ typesValid = true
    else c.funcOid ∈ (touch funcOid s.recent).take plcFunctionCacheSize

variable (rows) (parseContainerMeta) in
/-- The condition on an event: its lookup and its request leave the active calls alone. -/
def SparesUsed (s : UseState) : UseEvent → Prop
  | .code (.noRequest funcOid typesValid) => s.LookupSpares funcOid typesValid
  | .code (.request funcOid typesValid compiles) =>
      s.LookupSpares funcOid typesValid ∧
      (s.framesOf (s.runtimeOf rows parseContainerMeta funcOid typesValid)).Spares
        (s.requestOf rows funcOid typesValid) compiles
  | _ => True

/-- **The invariant**: the caches hold what was used last, and with it all that active calls use. -/
structure Ok (s : UseState) : Prop where
  follows : Follows CachedProc.funcOid plcFunctionCacheSize s.cache s.recent
  allocated : Allocated s.nextPtr s.cache
  held : ∀ c ∈ s.calls, ∃ p ∈ s.cache, p.Same c
  clients : ∀ runtime, (s.framesOf runtime).Ok ∧ (s.framesOf runtime).Held

theorem ok_start (catalog : Oid → RowVersion) : (start catalog).Ok where
  follows := .nil
  allocated := ⟨fun _ h => absurd h List.not_mem_nil, fun _ h => absurd h List.not_mem_nil⟩
  held _ h := absurd h List.not_mem_nil
  clients _ := ⟨PyFrames.ok_fresh, fun _ h => absurd h List.not_mem_nil⟩

variable (rows) in
/-- The lookup frees no entry in use exactly when it spares the active calls. -/
theorem Ok.lookupSpares_iff (h : s.Ok) (funcOid : Oid) (typesValid : Bool) :
    (∀ p, (s.lookup rows funcOid typesValid).2.2 = some p → ∀ c ∈ s.calls, c.ptr ≠ p.ptr) ↔
      s.LookupSpares funcOid typesValid := by
  constructor
  · intro hsafe c hc
    obtain ⟨p, hp, hsame⟩ := h.held c hc
    have hkept : (s.lookup rows funcOid typesValid).2.2 ≠ some p :=
      fun hfreed => hsafe p hfreed c hc hsame.ptr.symm
    rw [ne_eq, lookup, procedureGetAt_freed_iff h.follows hp, hsame.funcOid, hsame.fnVersion] at hkept
    split
    next hoid => exact not_not.1 (by simpa [hoid] using hkept)
    next hoid => exact not_not.1 (by simpa [hoid] using hkept)
  · intro hspares p hfreed c hc hptr
    obtain ⟨q, hq, hsame⟩ := h.held c hc
    have hp : p ∈ s.cache := procedureGetAt_freed_mem h.follows.distinct hfreed
    -- the freed entry is the one that the call uses
    obtain rfl : p = q := h.allocated.inj p hp q hq (hptr.symm.trans hsame.ptr.symm)
    rw [lookup, procedureGetAt_freed_iff h.follows hp, hsame.funcOid, hsame.fnVersion] at hfreed
    have hc' := hspares c hc
    split at hfreed
    next hoid => exact hfreed (by simpa [hoid] using hc')
    next hoid => exact hfreed (by simpa [hoid] using hc')

theorem Ok.enter (h : s.Ok) {funcOid : Oid} {typesValid : Bool}
    (hspares : s.LookupSpares funcOid typesValid) : (s.enter rows funcOid typesValid).Ok where
  follows := follows_procedureGetAt h.follows
  allocated := h.allocated.procedureGetAt h.follows.distinct
  held c hc := by
    rcases List.mem_cons.1 hc with rfl | hc
    · exact ⟨_, procedureGetAt_mem h.follows.distinct, rfl, rfl, rfl⟩
    · obtain ⟨p, hp, hsame⟩ := h.held c hc
      have hsafe := (h.lookupSpares_iff rows funcOid typesValid).2 hspares
      obtain ⟨q, hq, hsame'⟩ := procedureGetAt_kept h.follows hp
        (fun hfreed => hsafe p hfreed c hc hsame.ptr.symm)
      exact ⟨q, hq, hsame'.ptr.trans hsame.ptr, hsame'.funcOid.trans hsame.funcOid,
        hsame'.fnVersion.trans hsame.fnVersion⟩
  clients := h.clients

/-- Another state of one client. -/
theorem Ok.setClient (h : s.Ok) {runtime : CString} {frames : Option PyFrames}
    (hframes : (frames.getD .fresh).Ok ∧ (frames.getD .fresh).Held) :
    Ok { s with clients := fun r => if r = runtime then frames else s.clients r } where
  follows := h.follows
  allocated := h.allocated
  held := h.held
  clients r := by
    by_cases hr : r = runtime
    · simpa [framesOf, hr] using hframes
    · simpa [framesOf, hr] using h.clients r

/-- A change of one client, if it is there, that keeps its frames in order. -/
theorem Ok.mapClient (h : s.Ok) (runtime : CString) {g : PyFrames → PyFrames}
    (hg : ∀ frames : PyFrames, frames.Ok → frames.Held → (g frames).Ok ∧ (g frames).Held) :
    Ok { s with
      clients := fun r => if r = runtime then (s.clients runtime).map g else s.clients r } := by
  refine h.setClient ?_
  obtain ⟨hok, hheld⟩ := h.clients runtime
  rw [framesOf] at hok hheld
  cases hclient : s.clients runtime with
  | none => exact ⟨PyFrames.ok_fresh, fun _ hf => absurd hf List.not_mem_nil⟩
  | some frames =>
      rw [hclient] at hok hheld
      exact hg frames hok hheld

theorem Ok.exec (h : s.Ok) {e : UseEvent} (hspares : s.SparesUsed rows parseContainerMeta e) :
    (s.exec rows parseContainerMeta e).Ok := by
  cases e with
  | leave => exact { h with held := fun c hc => h.held c (List.mem_of_mem_tail hc) }
  | clientLeave runtime =>
      exact h.mapClient runtime fun frames hok hheld => ⟨hok.leave, hheld.leave⟩
  | code e =>
      cases e with
      | replace funcOid version => exact { h with }
      | noRequest funcOid typesValid => exact h.enter hspares
      | composeFails funcOid =>
          refine ⟨h.follows.get funcOid, ?_, fun c hc => ?_, h.clients⟩
          · exact ⟨fun p hp => h.allocated.lt p (mem_get.1 hp),
              fun p hp q hq => h.allocated.inj p (mem_get.1 hp) q (mem_get.1 hq)⟩
          · obtain ⟨p, hp, hsame⟩ := h.held c hc
            exact ⟨p, mem_get.2 hp, hsame⟩
      | request funcOid typesValid compiles =>
          obtain ⟨hok, hheld⟩ := h.clients (s.runtimeOf rows parseContainerMeta funcOid typesValid)
          exact (h.enter hspares.1).setClient
            ⟨hok.handleCall _ _, PyFrames.Held.handleCall hok hheld hspares.2⟩
      | assign runtime name value =>
          exact h.mapClient runtime fun frames hok hheld => ⟨hok.assign name value, hheld⟩
      | deleteContainers =>
          exact { h with
            clients := fun _ => ⟨PyFrames.ok_fresh, fun _ hf => absurd hf List.not_mem_nil⟩ }

theorem Ok.keepsUsed_iff (h : s.Ok) (e : UseEvent) :
    s.KeepsUsed rows parseContainerMeta e ↔ s.SparesUsed rows parseContainerMeta e := by
  cases e with
  | leave => simp [KeepsUsed, SparesUsed, freedProc, freedFunction]
  | clientLeave runtime => simp [KeepsUsed, SparesUsed, freedProc, freedFunction]
  | code e =>
      cases e with
      | replace funcOid version => simp [KeepsUsed, SparesUsed, freedProc, freedFunction]
      | composeFails funcOid => simp [KeepsUsed, SparesUsed, freedProc, freedFunction]
      | assign runtime name value => simp [KeepsUsed, SparesUsed, freedProc, freedFunction]
      | deleteContainers => simp [KeepsUsed, SparesUsed, freedProc, freedFunction]
      | noRequest funcOid typesValid =>
          simpa [KeepsUsed, SparesUsed, freedProc, freedFunction] using
            h.lookupSpares_iff rows funcOid typesValid
      | request funcOid typesValid compiles =>
          obtain ⟨hok, hheld⟩ := h.clients (s.runtimeOf rows parseContainerMeta funcOid typesValid)
          refine and_congr (h.lookupSpares_iff rows funcOid typesValid) ?_
          rw [← hok.spares_iff hheld]
          -- only the client that gets the request frees anything
          constructor
          · intro hall f hf
            simpa [freedFunction] using hall _ f hf
          · intro hclient runtime f hf
            rw [freedFunction]
            split
            next hr => exact hr ▸ hclient f (hr ▸ hf)
            next => simp

/-- **Cached functions in use are kept** in exactly the sessions whose every lookup and request spares
    the active calls: no function that is active has been replaced when it is called again, and none
    has been pushed out of the five functions that the backend looked up last, or out of the twenty
    that its client called last. -/
theorem used_entries_kept_iff (rows : Oid → RowVersion → ProcRow)
    (parseContainerMeta : CString → CString) (catalog : Oid → RowVersion) (events : List UseEvent) :
    EveryStep (exec rows parseContainerMeta) (KeepsUsed rows parseContainerMeta) (start catalog)
        events ↔
      EveryStep (exec rows parseContainerMeta) (SparesUsed rows parseContainerMeta) (start catalog)
        events :=
  EveryStep.congr (I := Ok) (fun _ _ h hspares => h.exec hspares) (fun _ e h => h.keepsUsed_iff e)
    (ok_start catalog) events

end

/-- Function 0 calls other functions one after the other, each of which returns. -/
def sequentialCalls (n : ℕ) : List UseEvent :=
  .code (.request 0 true true) ::
    (List.range n).flatMap fun i =>
      [.code (.request (BitVec.ofNat 32 (i + 1)) true true), .clientLeave [], .leave]

/-- With five other functions, the information on function 0 is freed while its call is active. -/
theorem used_entry_freed :
    ¬ EveryStep (exec numberedRows fun _ => []) (KeepsUsed numberedRows fun _ => [])
      (start fun _ => ⟨0, 0⟩) (sequentialCalls 5) := by
  intro hall
  have hfifth := hall.2.2.2.2.2.2.2.2.2.2.2.2.2.1
  exact hfifth.1 _ rfl _ (List.mem_singleton.2 rfl) rfl

end UseState

end PlContainer
