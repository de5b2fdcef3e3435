import PlContainer.FunctionCache.NoStaleCode

set_option autoImplicit false

/-! # Bindings of the cached functions

The cache of the Python client is keyed by the oid of a function. The dictionary of `__main__`, which
holds the only reference to the compiled object, is keyed by its name. The two agree as long as no
name is taken twice: not by a second function of the cache, not by the dictionary `SD`, and not by an
assignment in the code of a function. `bound_iff_names_free` says that nothing else separates them,
and that each of these does. -/

namespace PlContainer

open LruCache Runs

namespace PyClient

/-- The function object of the entry is the value bound to its name. -/
def Bound (client : PyClient) (f : PlcPyFunction) : Prop :=
  (client.dict f.name).map PyFunctionObject.id = some f.pyfunc

inductive BindingEvent where
  /-- a CALLREQ, up to the call of the function -/
  | call (req : CodeRequest) (compiles : Bool)
  /-- the code of a function binds or deletes a name, or a request whose name is no identifier makes
      `PyRun_String` bind another one -/
  | assign (name : CString) (value : Option PyFunctionObject)

def exec (client : PyClient) : BindingEvent → PyClient
  | .call req compiles => (handleCall client req compiles).1
  | .assign name value => client.assign name value

/-- After the event every cached function object is still bound to its name. -/
def KeepsBound (client : PyClient) (e : BindingEvent) : Prop :=
  ∀ f ∈ (client.exec e).cache, (client.exec e).Bound f

/-- The condition on an event. A function that is compiled is not called `SD`, and no other function
    that stays in the cache has its name; code that assigns to the name of a cached function assigns
    the object of that function. -/
def NamesFree (client : PyClient) : BindingEvent → Prop
  | .call req compiles =>
      compiles = true → client.recompiles req →
        req.name ≠ sdName ∧
        ∀ f ∈ ((client.touched req.objectid).compile req).cache,
          f.objectid ≠ req.objectid → f.name ≠ req.name
  | .assign name value =>
      ∀ f ∈ client.cache, f.name = name → value.map PyFunctionObject.id = some f.pyfunc

variable {client : PyClient} {req : CodeRequest} {f : PlcPyFunction}

/-! ## What changes a binding -/

theorem bound_assign (name : CString) (value : Option PyFunctionObject) :
    (client.assign name value).Bound f ↔
      if f.name = name then value.map PyFunctionObject.id = some f.pyfunc else client.Bound f := by
  simp only [Bound, assign]
  split <;> rfl

theorem bound_bindSD : client.bindSD.Bound f ↔ f.name ≠ sdName ∧ client.Bound f := by
  simp [bindSD, bound_assign]

/-- Compiling a function leaves other names alone, and gives its own name to the new object. -/
theorem bound_compile (req : CodeRequest) :
    (client.compile req).Bound f ↔
      if f.name = req.name then client.nextId = f.pyfunc else client.Bound f := by
  simp only [Bound, compile]
  split <;> simp

/-! ## One event -/

/-- Every entry is for another function and bound, none is called `SD`, and new function objects are
    new. -/
structure AllBound (client : PyClient) : Prop where
  distinct : Distinct PlcPyFunction.objectid client.cache
  bound : ∀ f ∈ client.cache, client.Bound f
  notSD : ∀ f ∈ client.cache, f.name ≠ sdName
  allocated : ∀ f ∈ client.cache, f.pyfunc < client.nextId

theorem allBound_fresh : PyClient.fresh.AllBound :=
  ⟨List.nodup_nil, fun _ hf => absurd hf List.not_mem_nil, fun _ hf => absurd hf List.not_mem_nil,
    fun _ hf => absurd hf List.not_mem_nil⟩

theorem AllBound.touched (h : client.AllBound) (objectid : Oid) :
    (client.touched objectid).AllBound :=
  ⟨h.distinct.get objectid, fun f hf => h.bound f (mem_touched.1 hf),
    fun f hf => h.notSD f (mem_touched.1 hf), fun f hf => h.allocated f (mem_touched.1 hf)⟩

theorem AllBound.bindSD (h : client.AllBound) : client.bindSD.AllBound :=
  ⟨h.distinct, fun f hf => bound_bindSD.2 ⟨h.notSD f hf, h.bound f hf⟩, h.notSD, h.allocated⟩

/-- The functions stay bound when another one is compiled exactly when its name is free. -/
theorem AllBound.compile_iff (h : client.AllBound) (req : CodeRequest) :
    (∀ f ∈ (client.compile req).cache, (client.compile req).bindSD.Bound f) ↔
      req.name ≠ sdName ∧
      ∀ f ∈ (client.compile req).cache, f.objectid ≠ req.objectid → f.name ≠ req.name := by
  constructor
  · intro hkeeps
    refine ⟨(bound_bindSD.1 (hkeeps _ (List.mem_cons_self ..))).1, fun f hf hne hname => ?_⟩
    -- an old object has another identity than the new one
    have hbound := (bound_bindSD.1 (hkeeps f hf)).2
    rw [bound_compile, if_pos hname] at hbound
    rcases mem_put h.distinct hf with rfl | ⟨hmem, -⟩
    · exact hne rfl
    · exact absurd hbound (Nat.ne_of_gt (h.allocated f hmem))
  · rintro ⟨hsd, hfree⟩ f hf
    rw [bound_bindSD, bound_compile]
    rcases mem_put h.distinct hf with rfl | ⟨hmem, hne⟩
    · exact ⟨hsd, by simp [newFunction]⟩
    · refine ⟨h.notSD f hmem, ?_⟩
      rw [if_neg (hfree f hf hne)]
      exact h.bound f hmem

theorem AllBound.compile (h : client.AllBound) (hsd : req.name ≠ sdName)
    (hfree : ∀ f ∈ (client.compile req).cache, f.objectid ≠ req.objectid → f.name ≠ req.name) :
    (client.compile req).bindSD.AllBound := by
  refine ⟨h.distinct.put _ _, (h.compile_iff req).2 ⟨hsd, hfree⟩, fun f hf => ?_, fun f hf => ?_⟩
  · rcases mem_put h.distinct hf with rfl | ⟨hmem, -⟩
    · exact hsd
    · exact h.notSD f hmem
  · rcases mem_put h.distinct hf with rfl | ⟨hmem, -⟩
    · exact Nat.lt_succ_self _
    · exact Nat.lt_succ_of_lt (h.allocated f hmem)

/-- A function that is found unchanged is not compiled. -/
theorem not_recompiles (hf : f ∈ client.cache) (hoid : f.objectid = req.objectid)
    (hflag : req.hasChanged = false) : ¬ client.recompiles req := by
  rintro (hchanged | hno)
  · rw [hflag] at hchanged
    cases hchanged
  · exact hno f hf hoid

theorem AllBound.keepsBound_iff (h : client.AllBound) (e : BindingEvent) :
    client.KeepsBound e ↔ client.NamesFree e := by
  cases e with
  | assign name value =>
      refine forall_congr' fun f => forall_congr' fun hf => ?_
      rw [show client.exec (.assign name value) = client.assign name value from rfl, bound_assign]
      by_cases hname : f.name = name
      · simp [hname]
      · simpa [hname] using h.bound f hf
  | call req compiles =>
      rw [KeepsBound, exec, NamesFree]
      rcases handleCall_cases client req compiles with
        ⟨f, hf, hoid, hflag, hrun⟩ | ⟨hrec, rfl, hrun⟩ | ⟨_, rfl, hrun⟩
      · rw [hrun]
        exact iff_of_true (h.touched _).bindSD.bound
          fun _ hrec => absurd hrec (not_recompiles hf hoid hflag)
      · rw [hrun]
        refine ((h.touched _).compile_iff req).trans ?_
        exact ⟨fun hfree _ _ => hfree, fun hfree => hfree rfl hrec⟩
      · rw [hrun]
        exact iff_of_true (h.touched _).bound fun hcompiles => absurd hcompiles (by decide)

theorem AllBound.exec (h : client.AllBound) {e : BindingEvent} (hfree : client.NamesFree e) :
    (client.exec e).AllBound := by
  cases e with
  | assign name value =>
      exact ⟨h.distinct, (h.keepsBound_iff (.assign name value)).2 hfree, h.notSD, h.allocated⟩
  | call req compiles =>
      rw [PyClient.exec]
      rcases handleCall_cases client req compiles with
        ⟨f, hf, hoid, hflag, hrun⟩ | ⟨hrec, rfl, hrun⟩ | ⟨_, rfl, hrun⟩
      · rw [hrun]
        exact (h.touched _).bindSD
      · rw [hrun]
        obtain ⟨hsd, hother⟩ := hfree rfl hrec
        exact (h.touched _).compile hsd hother
      · rw [hrun]
        exact h.touched _

/-! ## Whole runs -/

/-- **Cached functions stay bound** after each event of exactly the runs in which no name is taken
    twice: no function is compiled under the name `SD` or under the name of another function that
    stays in the cache, and no code assigns something else to the name of a cached function. -/
theorem bound_iff_names_free (events : List BindingEvent) :
    EveryStep exec KeepsBound fresh events ↔ EveryStep exec NamesFree fresh events :=
  EveryStep.congr (I := AllBound) (fun _ _ h hfree => h.exec hfree) (fun _ e h => h.keepsBound_iff e)
    allBound_fresh events

/-- Two functions of one name, as two overloads are, and a function called `SD`. -/
theorem unbound_after_call :
    ¬ EveryStep exec KeepsBound fresh
      [.call ⟨1, true, [102], [1]⟩ true, .call ⟨2, true, [102], [2]⟩ true] ∧
    ¬ EveryStep exec KeepsBound fresh [.call ⟨1, true, sdName, [1]⟩ true] := by
  constructor
  · rintro ⟨-, hkeeps, -⟩
    have hfirst : (⟨1, [102], [1], 0⟩ : PlcPyFunction) ∈
        ((fresh.exec (.call ⟨1, true, [102], [1]⟩ true)).exec
          (.call ⟨2, true, [102], [2]⟩ true)).cache := by decide
    exact absurd (hkeeps _ hfirst) (by rw [Bound]; decide)
  · rintro ⟨hkeeps, -⟩
    have hfirst : (⟨1, sdName, [1], 0⟩ : PlcPyFunction) ∈
        (fresh.exec (.call ⟨1, true, sdName, [1]⟩ true)).cache := by decide
    exact absurd (hkeeps _ hfirst) (by rw [Bound]; decide)

end PyClient

end PlContainer
