import PlContainer.FunctionCache.NoStaleCode
import PlContainer.Library.LruRecency

set_option autoImplicit false

/-! # The frames of a Python client

The client runs `handle_call` again while an outer call waits for the answer to its SQL. Each of
these frames keeps the pointer to its cache entry until it returns, and on entry binds the one name
`SD` of `__main__` to the dictionary of its entry; nothing binds it back when an inner call
returns. -/

namespace PlContainer

open LruCache Runs

/-! ## One request -/

/-- The entry that `handle_call` works with, if it gets as far as binding `SD`. -/
def PyClient.functionFor (client : PyClient) (req : CodeRequest) (compiles : Bool) :
    Option PlcPyFunction :=
  match (LruCache.get PlcPyFunction.objectid req.objectid client.cache).1, req.hasChanged with
  | some func, false => some func
  | _, _ => if compiles then some (client.newFunction req) else none

/-- The entry that `plc_py_function_cache_put` passes to `plc_py_free_function`. -/
def PyClient.freedBy (client : PyClient) (req : CodeRequest) (compiles : Bool) :
    Option PlcPyFunction :=
  match (LruCache.get PlcPyFunction.objectid req.objectid client.cache).1, req.hasChanged with
  | some _, false => none
  | _, _ =>
      if compiles then
        dropped PlcPyFunction.objectid plcPyFunctionCacheSize (client.newFunction req)
          (client.touched req.objectid).cache
      else none

/-- A request finds its function in the cache, or compiles it. -/
theorem PyClient.call_cases (client : PyClient) (req : CodeRequest) (compiles : Bool) :
    (∃ f ∈ client.cache, f.objectid = req.objectid ∧ req.hasChanged = false ∧
      client.functionFor req compiles = some f ∧ client.freedBy req compiles = none ∧
      (handleCall client req compiles).1 = (client.touched req.objectid).bindSD) ∨
    (client.recompiles req ∧
      client.functionFor req compiles = (if compiles then some (client.newFunction req) else none) ∧
      client.freedBy req compiles = (if compiles then
        dropped PlcPyFunction.objectid plcPyFunctionCacheSize (client.newFunction req)
          (client.touched req.objectid).cache else none) ∧
      (handleCall client req compiles).1 = if compiles then
        ((client.touched req.objectid).compile req).bindSD else client.touched req.objectid) := by
  cases hfound : (LruCache.get PlcPyFunction.objectid req.objectid client.cache).1 with
  | none =>
      refine .inr ⟨.inr (get_eq_none hfound).2, ?_, ?_, ?_⟩
      · simp only [functionFor, hfound]
      · simp only [freedBy, hfound]
      · simp only [handleCall, hfound]
        split <;> rfl
  | some f =>
      obtain ⟨_, hmem, hoid⟩ := get_eq_some hfound
      cases hflag : req.hasChanged with
      | false =>
          refine .inl ⟨f, hmem, hoid, rfl, ?_, ?_, ?_⟩
          · simp only [functionFor, hfound, hflag]
          · simp only [freedBy, hfound, hflag]
          · simp only [handleCall, hfound, hflag]
      | true =>
          refine .inr ⟨.inl hflag, ?_, ?_, ?_⟩
          · simp only [functionFor, hfound, hflag]
          · simp only [freedBy, hfound, hflag]
          · simp only [handleCall, hfound, hflag]
            split <;> rfl

/-! ## Frames -/

/-- A client with its active calls. -/
structure PyFrames where
  client : PyClient
  /-- what the variables `pyfunc` of the active calls point to, the innermost first -/
  frames : List PlcPyFunction
  /-- the entry whose `pySD` the name `SD` is bound to -/
  sd : Option PlcPyFunction
  /-- history: the functions in the order of their last use -/
  recent : List Oid
  /-- history: the function of the last call that has begun -/
  last : Option Oid

namespace PyFrames

def fresh : PyFrames := ⟨.fresh, [], none, [], none⟩

/-- `handle_call` up to the call of the function, which leaves a frame unless it fails before. -/
def handleCall (s : PyFrames) (req : CodeRequest) (compiles : Bool) : PyFrames :=
  match s.client.functionFor req compiles with
  | none =>
      { s with
        client := (PlContainer.handleCall s.client req compiles).1
        recent := touchHeld plcPyFunctionCacheSize req.objectid s.recent }
  | some func =>
      { client := (PlContainer.handleCall s.client req compiles).1
        frames := func :: s.frames
        sd := some func
        recent := touch req.objectid s.recent
        last := some req.objectid }

theorem client_handleCall (s : PyFrames) (req : CodeRequest) (compiles : Bool) :
    (s.handleCall req compiles).client = (PlContainer.handleCall s.client req compiles).1 := by
  rw [handleCall]
  split <;> rfl

/-- The code of a call binds a name of `__main__`. A binding of `SD` that the code makes itself is not
    followed in `sd`. -/
def assign (s : PyFrames) (name : CString) (value : Option PyFunctionObject) : PyFrames :=
  { s with client := s.client.assign name value }

/-- The innermost `handle_call` returns. -/
def leave (s : PyFrames) : PyFrames := { s with frames := s.frames.tail }

/-- The cache holds what was used last, and the dictionary bound to `SD` is that of the entry of the
    last call. -/
structure Ok (s : PyFrames) : Prop where
  follows : Follows PlcPyFunction.objectid plcPyFunctionCacheSize s.client.cache s.recent
  sdCached : ∀ f, s.sd = some f → f ∈ s.client.cache
  sdLast : s.sd.map PlcPyFunction.objectid = s.last

variable {s : PyFrames} {req : CodeRequest} {compiles : Bool}

theorem ok_fresh : fresh.Ok :=
  ⟨.nil, (fun _ h => nomatch h), rfl⟩

theorem Ok.leave (h : s.Ok) : s.leave.Ok := ⟨h.follows, h.sdCached, h.sdLast⟩

theorem Ok.assign (h : s.Ok) (name : CString) (value : Option PyFunctionObject) :
    (s.assign name value).Ok := ⟨h.follows, h.sdCached, h.sdLast⟩

/-- The cache after the entry of a request has been compiled. -/
theorem Ok.follows_compile (h : s.Ok) (req : CodeRequest) :
    Follows PlcPyFunction.objectid plcPyFunctionCacheSize
      ((s.client.touched req.objectid).compile req).cache (touch req.objectid s.recent) := by
  have hput := (h.follows.get req.objectid).put (by decide) (s.client.newFunction req)
  rw [show (s.client.newFunction req).objectid = req.objectid from rfl, touch_touchHeld] at hput
  exact hput

theorem Ok.handleCall (h : s.Ok) (req : CodeRequest) (compiles : Bool) :
    (s.handleCall req compiles).Ok := by
  have hget := h.follows.get req.objectid
  rw [PyFrames.handleCall]
  rcases s.client.call_cases req compiles with
    ⟨f, hmem, hoid, -, hfunc, -, hclient⟩ | ⟨-, hfunc, -, hclient⟩
  · rw [hfunc, hclient]
    have hheld := h.follows.mem_keys.2 ⟨f, hmem, hoid⟩
    rw [touchHeld, if_pos hheld] at hget
    refine ⟨hget, ?_, congrArg some hoid⟩
    rintro _ ⟨⟩
    exact PyClient.mem_touched.2 hmem
  · cases compiles with
    | true =>
        rw [hfunc, hclient]
        refine ⟨h.follows_compile req, ?_, rfl⟩
        rintro _ ⟨⟩
        exact List.mem_cons_self ..
    | false =>
        rw [hfunc, hclient]
        exact ⟨hget, fun f hf => PyClient.mem_touched.2 (h.sdCached f hf), h.sdLast⟩

/-! ## Frames and freed entries -/

/-- The entries of the active calls are in the cache. -/
def Held (s : PyFrames) : Prop := ∀ f ∈ s.frames, f ∈ s.client.cache

/-- The request leaves the entries of the active calls alone: if it compiles, it is not for the
    function of an active call that has changed, and it does not push the function of another one
    out of the twenty that were used last. -/
def Spares (s : PyFrames) (req : CodeRequest) (compiles : Bool) : Prop :=
  compiles = true → ∀ f ∈ s.frames,
    if f.objectid = req.objectid then req.hasChanged = false
    else f.objectid ∈ (touch req.objectid s.recent).take plcPyFunctionCacheSize

/-- An entry in the cache is freed exactly when it is compiled again or pushed out. -/
theorem Ok.freedBy_iff (h : s.Ok) {f : PlcPyFunction} (hf : f ∈ s.client.cache) :
    s.client.freedBy req compiles = some f ↔ compiles = true ∧
      if f.objectid = req.objectid then req.hasChanged = true
      else f.objectid ∉ (touch req.objectid s.recent).take plcPyFunctionCacheSize := by
  rcases s.client.call_cases req compiles with
    ⟨g, hmem, hoid, hflag, -, hfreed, -⟩ | ⟨hrec, -, hfreed, -⟩
  · -- the function is found, so nothing is freed and all entries stay
    rw [hfreed]
    refine iff_of_false (by simp) ?_
    rintro ⟨-, hcond⟩
    split at hcond
    · rw [hflag] at hcond
      cases hcond
    · exact hcond (h.follows.mem_touch_held (h.follows.mem_keys.2 ⟨g, hmem, hoid⟩)
        (h.follows.mem_keys.2 ⟨f, hf, rfl⟩))
  · -- it is compiled anew, after a search that may have moved its old entry to the front
    rw [hfreed]
    cases compiles with
    | false => simp
    | true =>
        have hget := h.follows.get req.objectid
        have hf' : f ∈ (s.client.touched req.objectid).cache := PyClient.mem_touched.2 hf
        rw [if_pos rfl, and_iff_right rfl]
        split
        next hsame =>
          have hchanged : req.hasChanged = true := by
            rcases hrec with hchanged | hno
            · exact hchanged
            · exact absurd hsame (hno f hf)
          refine iff_of_true ?_ hchanged
          exact dropped_of_key_eq hget.distinct hf' hsame
        next hne =>
          have hiff := hget.dropped_iff (a := s.client.newFunction req) (by decide) hf' hne
          rw [show (s.client.newFunction req).objectid = req.objectid from rfl,
            touch_touchHeld] at hiff
          exact hiff

/-- The entries of the active calls are not freed exactly when the request spares them. -/
theorem Ok.spares_iff (h : s.Ok) (hheld : s.Held) :
    (∀ f ∈ s.frames, s.client.freedBy req compiles ≠ some f) ↔ s.Spares req compiles := by
  have hentry (f : PlcPyFunction) (hf : f ∈ s.frames) :
      s.client.freedBy req compiles ≠ some f ↔ (compiles = true →
        if f.objectid = req.objectid then req.hasChanged = false
        else f.objectid ∈ (touch req.objectid s.recent).take plcPyFunctionCacheSize) := by
    rw [ne_eq, h.freedBy_iff (hheld f hf), not_and]
    refine imp_congr_right fun _ => ?_
    split
    · simp
    · exact not_not
  constructor
  · intro hsafe hcompiles f hf
    exact (hentry f hf).1 (hsafe f hf) hcompiles
  · intro hspares f hf
    exact (hentry f hf).2 fun hcompiles => hspares hcompiles f hf

theorem Held.leave (h : s.Held) : s.leave.Held :=
  fun f hf => h f (List.mem_of_mem_tail hf)

theorem Held.handleCall (hok : s.Ok) (h : s.Held) (hspares : s.Spares req compiles) :
    (s.handleCall req compiles).Held := by
  have hsafe := (hok.spares_iff h).2 hspares
  rw [PyFrames.handleCall]
  rcases s.client.call_cases req compiles with
    ⟨f, hmem, hoid, -, hfunc, -, hclient⟩ | ⟨-, hfunc, hfreed, hclient⟩
  · rw [hfunc, hclient]
    intro g hg
    rcases List.mem_cons.1 hg with rfl | hg
    · exact PyClient.mem_touched.2 hmem
    · exact PyClient.mem_touched.2 (h g hg)
  · cases compiles with
    | true =>
        rw [hfunc, hclient]
        intro g hg
        rcases List.mem_cons.1 hg with rfl | hg
        · exact List.mem_cons_self ..
        · have hget := hok.follows.get req.objectid
          have hkept := hsafe g hg
          rw [hfreed] at hkept
          exact List.mem_cons_of_mem _ ((mem_others_iff hget.distinct hget.length_le
            (PyClient.mem_touched.2 (h g hg))).2 hkept)
    | false =>
        rw [hfunc, hclient]
        exact fun g hg => PyClient.mem_touched.2 (h g hg)

/-! ## The dictionary `SD` -/

inductive Event where
  /-- a CALLREQ arrives, at the top level or while a call waits for the answer to its SQL -/
  | call (req : CodeRequest) (compiles : Bool)
  /-- the body of the innermost call executes a statement, which does not itself bind `SD` -/
  | statement
  /-- the innermost call returns, or fails -/
  | leave

def exec (s : PyFrames) : Event → PyFrames
  | .call req compiles => s.handleCall req compiles
  | .statement => s
  | .leave => s.leave

/-- A statement sees `SD` bound to the dictionary of the cached entry of its function. -/
def SeesOwnSD (s : PyFrames) (e : Event) : Prop :=
  e = .statement → ∀ func rest, s.frames = func :: rest →
    ∃ f ∈ s.client.cache, f.objectid = func.objectid ∧ s.sd = some f

/-- A statement is executed while the last call that has begun is one of its function. -/
def LastCallIsOwn (s : PyFrames) (e : Event) : Prop :=
  e = .statement → ∀ func rest, s.frames = func :: rest → s.last = some func.objectid

theorem Ok.exec (h : s.Ok) (e : Event) : (s.exec e).Ok := by
  cases e with
  | call req compiles => exact h.handleCall req compiles
  | statement => exact h
  | leave => exact h.leave

theorem Ok.seesOwnSD_iff (h : s.Ok) (e : Event) : s.SeesOwnSD e ↔ s.LastCallIsOwn e := by
  refine imp_congr_right fun _ => forall_congr' fun func => forall_congr' fun rest =>
    imp_congr_right fun _ => ?_
  rw [← h.sdLast]
  constructor
  · rintro ⟨f, -, hoid, hsd⟩
    rw [hsd, ← hoid]
    rfl
  · intro hlast
    obtain ⟨f, hsd, hoid⟩ := Option.map_eq_some_iff.1 hlast
    exact ⟨f, h.sdCached f hsd, hoid, hsd⟩

/-- **Functions see their own `SD`** in exactly the runs in which every statement is executed while
    the last call that has begun is one of its own function: a call of another function inside a body
    leaves the body with the dictionary of that function. -/
theorem sd_own_iff_last_call (events : List Event) :
    EveryStep exec SeesOwnSD fresh events ↔ EveryStep exec LastCallIsOwn fresh events :=
  EveryStep.congr (I := Ok) (fun _ e h _ => h.exec e) (fun _ e h => h.seesOwnSD_iff e) ok_fresh events

/-- Function 1 calls function 2 through SQL and then executes a statement: `SD` is bound to the
    dictionary of function 2. -/
theorem sd_other_after_nested_call :
    ¬ EveryStep exec SeesOwnSD fresh
      [.call ⟨1, true, [102], []⟩ true, .call ⟨2, true, [103], []⟩ true, .leave, .statement] := by
  rintro ⟨-, -, -, hstatement, -⟩
  obtain ⟨f, -, hoid, hsd⟩ := hstatement rfl _ _ rfl
  cases hsd
  exact absurd hoid (by decide)

end PyFrames

end PlContainer
