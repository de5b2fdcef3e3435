import PlContainer.Calls.Synchrony

set_option autoImplicit false

/-! # What an error leaves behind

An error should take with it the connections of the calls it abandons, and no others. The handlers
decide by `DeleteBackendsWhenError`, one flag for all active calls, and `delete_containers` closes
every connection of the session, so both can go wrong:

* a client's EXCEPTION clears the flag, and so does the normal return of a nested call; an error that
  then abandons an outer call leaves that call's client waiting on a registered connection;
* an error of a nested call closes the connection of an outer call, which goes on if an SQL-level
  handler catches the error between the two. -/

namespace PlContainer

open Runs

/-! ## Connections that are kept -/

/-- The client is in its receive loop and nothing is in flight. -/
def Conn.Quiescent (conn : Conn) : Prop :=
  conn.client = [] ∧ conn.toClient = [] ∧ conn.toBackend = []

/-- Every registered connection can be used for a new call. -/
def CallState.Retained (s : CallState) : Prop :=
  ∀ r c, s.containers r = some c → ∃ conn, s.conns c = some conn ∧ conn.Quiescent

theorem ConnSynced.quiescent {conn : Conn} (h : ConnSynced [] conn) : conn.Quiescent := by
  cases h with
  | quiet h =>
      cases h
      exact ⟨rfl, rfl, rfl⟩

/-- A connection with a call on it is not quiescent, in whatever phase the call is. -/
theorem ConnSynced.not_quiescent {f : Frame} {conn : Conn} (h : ConnSynced [f] conn) :
    ¬ conn.Quiescent := by
  rintro ⟨hclient, htc, htb⟩
  cases h with
  | quiet h =>
      cases h
      cases hclient
  | waiting h hw =>
      cases h
      cases hw with
      | called => cases htc
      | running => cases hclient
      | asked => cases hclient
      | answered => cases hclient
      | ended _ logs => exact absurd htb (by simp)

theorem CallState.Synced.retained {s : CallState} (h : s.Synced) (hs : s.stack = []) :
    s.Retained := by
  intro r c hr
  obtain ⟨conn, hconn⟩ := (h.table c).2 ⟨r, hr⟩
  have hsync := h.agrees c conn hconn
  rw [hs] at hsync
  exact ⟨conn, hconn, hsync.quiescent⟩

/-- The last call is abandoned and its connection is kept. -/
theorem CallState.Synced.not_retained {s s' : CallState} (h : s.Synced) {f : Frame} {c : ConnId}
    {conn : Conn} (hs : s.stack = [f]) (hf : f.conn = some c) (hc : s.conns c = some conn)
    (hconns : s'.conns = s.conns) (hcont : s'.containers = s.containers) : ¬ s'.Retained := by
  intro hret
  obtain ⟨r, hr⟩ := (h.table c).1 ⟨conn, hc⟩
  obtain ⟨conn', hc', hquiet⟩ := hret r c (by rw [hcont, hr])
  rw [hconns, hc] at hc'
  cases hc'
  have hsync := h.agrees c conn hc
  rw [hs, onConn_cons_of_eq hf] at hsync
  exact hsync.not_quiescent hquiet

/-- **Kept connections can be used again**, in every run in which an error abandons a call only
    together with its connection; the error that ends the last call keeps them usable exactly if it
    meets that condition. -/
theorem retained_connections_quiescent (s : CallState) (h : CallState.Reached keepsQuiet s) :
    (s.stack = [] → s.Retained) ∧
    ∀ interrupt s', s.step (.unwind interrupt) = some s' → s'.stack = [] →
      (s'.Retained ↔ keepsQuiet s (.unwind interrupt)) := by
  have hsync := CallState.synced_of_reached (fun _ _ hok => hok) h
  refine ⟨fun hs => hsync.retained hs, fun interrupt s' hstep hs' => ⟨fun hret => ?_, fun hok => ?_⟩⟩
  · intro f fs c conn hs hf hc
    cases CallState.step_moves hstep with
    | unwindDelete _ _ hd => exact hd
    | unwindKeep _ hstack hd =>
        cases hs.symm.trans hstack
        cases hs'
        exact absurd hret (hsync.not_retained hs hf hc rfl rfl)
  · exact (hsync.moves hok (CallState.step_moves hstep)).retained hs'

/-- A function fails while it executes a query, and an interrupt is pending. -/
def interruptedSteps : List CallStep :=
  [.enter, .dispatch 0 .python, .clientReceive 0, .clientRequest 0 .statement, .backendReceive,
    .fail, .unwind true, .enter, .dispatch 0 .r, .clientReceive 1, .clientEnd 1 .result,
    .backendReceive, .finish]

theorem retained_connections_quiescent_interruptedSteps :
    ∃ s, CallState.start.run interruptedSteps = some s ∧ s.stack = [] ∧
      s.containers 0 = some 1 ∧ s.Retained := by
  obtain ⟨s, hs⟩ : ∃ s, CallState.start.run interruptedSteps = some s :=
    Option.isSome_iff_exists.1 (by decide)
  have hstack : (CallState.start.run interruptedSteps).map CallState.stack = some [] := by decide
  have hcont : (CallState.start.run interruptedSteps).bind (fun s => s.containers 0) = some 1 := by
    decide
  rw [hs] at hstack hcont
  have hstack' : s.stack = [] := Option.some.inj hstack
  have hok : ∀ step ∈ interruptedSteps, ∀ s, keepsQuiet s step := by
    intro step hstep s
    cases step with
    | unwind interrupt =>
        have : interrupt = true := by
          revert interrupt
          decide
        exact fun _ _ _ _ _ _ _ => .inr this
    | _ => trivial
  exact ⟨s, hs, hstack', hcont, (retained_connections_quiescent s
    (CallState.reached_of_run (.init rfl) hok hs)).1 hstack'⟩

/-- Two runs that leave the client of an outer call waiting for an answer that never comes: the
    client of a call nested in it sends an EXCEPTION; a nested call returns normally and then the
    outer call fails. -/
def abandonedSteps : List (List CallStep) :=
  let nested := [.enter, .dispatch 0 .python, .clientReceive 0, .clientRequest 0 .statement,
    .backendReceive, .enter, .dispatch 1 .python, .clientReceive 1]
  [nested ++ [.clientEnd 1 .exception, .backendReceive, .unwind false, .unwind false],
    nested ++ [.clientEnd 1 .result, .backendReceive, .finish, .fail, .unwind false]]

theorem client_left_waiting :
    abandonedSteps.map (fun steps => (CallState.start.run steps).map fun s =>
        (s.stack, s.containers 0, s.conns 0))
      = [some ([], some 0, some ⟨.python, [.pending 0 .statement], [], []⟩),
        some ([], some 0, some ⟨.python, [.pending 0 .statement], [], []⟩)] := by
  decide

/-! ## Connections in use -/

/-- An SQL-level handler catches an error only if no call that the error has left deleted the
    containers. -/
def catchesBeforeDeletion (s : CallState) : CallStep → Prop
  | .catchError => s.deleted = false
  | _ => True

/-- The connections of all active calls are open, unless an error on its way has closed them. -/
def CallState.InUse (s : CallState) : Prop :=
  s.deleted = false → ∀ f ∈ s.stack, ∀ c, f.conn = some c → ∃ conn, s.conns c = some conn

theorem CallState.InUse.moves {s s' : CallState} (hshape : s.Shaped) (h : s.InUse)
    {step : CallStep} (hok : catchesBeforeDeletion s step) (hmove : s.Moves step s') :
    s'.InUse := by
  have hcalm := hshape.not_deleted
  have hset : ∀ {c conn} (_ : s.conns c = some conn) (conn' : Conn), s.deleted = false →
      ∀ f ∈ s.stack, ∀ d, f.conn = some d → ∃ e, (s.setConn c conn').conns d = some e :=
    fun hc conn' hd f hf d hfd => (CallState.setConn_open hc conn' d).2 (h hd f hf d hfd)
  intro hd
  cases hmove with
  | enter hu =>
      intro f hf c hc
      rcases List.mem_cons.1 hf with rfl | hf
      · cases hc
      · exact h (hcalm hu) f hf c hc
  | @dispatchKnown _ _ fs c conn hu hs hr hc =>
      have hall := hset hc (conn.send .callreq) (hcalm hu)
      rw [hs, List.forall_mem_cons] at hall
      refine List.forall_mem_cons.2 ⟨fun d hd => ?_, hall.2⟩
      cases hd
      exact ⟨_, s.setConn_self ..⟩
  | dispatchNew hu hs hr =>
      have hall := h (hcalm hu)
      rw [hs, List.forall_mem_cons] at hall
      refine List.forall_mem_cons.2 ⟨fun d hd => ?_, fun f hf d hfd => ?_⟩
      · cases hd
        exact ⟨_, s.setConn_self ..⟩
      · obtain ⟨e, he⟩ := hall.2 f hf d hfd
        exact ⟨e, (s.setConn_of_ne _ (Nat.ne_of_lt (hshape.fresh d e he))).trans he⟩
  | startFails hu | fail hu => exact h (hcalm hu)
  | log hu hs hc hq | answer hu hs hc hq => exact hset hc _ (hcalm hu)
  | @execute c fs conn rest id kind hu hs hc hq hk =>
      have hall := hset hc { conn with toBackend := rest } (hcalm hu)
      rw [hs, List.forall_mem_cons] at hall
      exact List.forall_mem_cons.2 hall
  | @terminal c fs conn rest t hu hs hc hq =>
      have hall := hset hc { conn with toBackend := rest } (hcalm hu)
      rw [hs, List.forall_mem_cons] at hall
      refine List.forall_mem_cons.2 ⟨fun d hd => ?_, hall.2⟩
      cases hd
  | @complete c fs id kind conn hu hs hc =>
      have hall := hset hc (conn.send (.answer id kind)) (hcalm hu)
      rw [hs, List.forall_mem_cons] at hall
      exact List.forall_mem_cons.2 hall
  | completeClosed hu hs hc =>
      obtain ⟨conn, hconn⟩ := h (hcalm hu) _ (by rw [hs]; exact List.mem_cons_self ..) _ rfl
      cases hc.symm.trans hconn
  | finish hu hs =>
      have hall := h (hcalm hu)
      rw [hs, List.forall_mem_cons] at hall
      exact hall.2
  | @unwindDelete _ _ fs hu hs =>
      -- the error was the last call's, or it has just closed everything
      cases fs with
      | nil => exact fun f hf => by cases hf
      | cons => cases hd
  | @unwindKeep _ _ fs hu hs =>
      cases fs with
      | nil => exact fun f hf => by cases hf
      | cons =>
          have hall := h (by simpa using hd)
          rw [hs, List.forall_mem_cons] at hall
          exact hall.2
  | catchError => exact h hok
  | clientReceive hc | clientLog hc | clientRequest hc | clientEnd hc => exact hset hc _ hd

/-- Both hold in every run in which errors are caught before they delete anything. -/
theorem CallState.inUse_of_reached {s : CallState}
    (h : CallState.Reached catchesBeforeDeletion s) : s.Shaped ∧ s.InUse := by
  refine h.invariant (I := fun s => s.Shaped ∧ s.InUse) ?_ ?_
  · rintro s rfl
    exact ⟨CallState.shaped_start, fun _ f hf => by cases hf⟩
  · rintro s step s' ⟨hshape, huse⟩ hok hstep
    have hmove := CallState.step_moves hstep
    exact ⟨hshape.moves hmove, huse.moves hshape hok hmove⟩

/-- **A connection in use stays open and registered**, in every run in which no error is caught after
    it has deleted the containers: when the innermost call has executed a request, the connection for
    the answer is there. Catching an error in that request keeps it there exactly if the error meets
    the condition. -/
theorem connection_in_use_registered (s : CallState)
    (h : CallState.Reached catchesBeforeDeletion s) (c : ConnId) (id : ℕ) (kind : RequestKind)
    (fs : List Frame) (hs : s.stack = .executing c id kind :: fs) :
    (s.unwinding = false → ∃ r conn, s.containers r = some c ∧ s.conns c = some conn) ∧
    ∀ s', s.step .catchError = some s' →
      ((∃ r conn, s'.containers r = some c ∧ s'.conns c = some conn) ↔
        catchesBeforeDeletion s .catchError) := by
  obtain ⟨hshape, huse⟩ := CallState.inUse_of_reached h
  have hopen : s.deleted = false → ∃ r conn, s.containers r = some c ∧ s.conns c = some conn := by
    intro hd
    obtain ⟨conn, hconn⟩ := huse hd _ (by rw [hs]; exact List.mem_cons_self ..) c rfl
    obtain ⟨r, hr⟩ := (hshape.table c).1 ⟨conn, hconn⟩
    exact ⟨r, conn, hr, hconn⟩
  refine ⟨fun hu => hopen (hshape.not_deleted hu), fun s' hstep => ?_⟩
  cases CallState.step_moves hstep with
  | catchError =>
      refine ⟨?_, hopen⟩
      rintro ⟨_, conn, -, hconn⟩
      show s.deleted = false
      by_contra hd
      cases ((hshape.deleted (by simpa using hd)).2 c).symm.trans hconn

/-- A function's query calls a function whose client sends an EXCEPTION, which an SQL-level handler in
    the query catches. -/
def caughtSteps : List CallStep :=
  [.enter, .dispatch 0 .python, .clientReceive 0, .clientRequest 0 .statement, .backendReceive,
    .enter, .dispatch 1 .python, .clientReceive 1, .clientEnd 1 .exception, .backendReceive,
    .unwind false]

theorem connection_in_use_registered_caughtSteps :
    ∃ s s', CallState.start.run caughtSteps = some s ∧ s.step .catchError = some s' ∧
      ∃ r conn, s'.containers r = some 0 ∧ s'.conns 0 = some conn := by
  obtain ⟨s, hs⟩ : ∃ s, CallState.start.run caughtSteps = some s :=
    Option.isSome_iff_exists.1 (by decide)
  obtain ⟨s', hs'⟩ : ∃ s', s.step .catchError = some s' := by
    have : ((CallState.start.run caughtSteps).bind fun s => s.step .catchError).isSome = true := by
      decide
    rw [hs] at this
    exact Option.isSome_iff_exists.1 this
  have hstack : (CallState.start.run caughtSteps).map CallState.stack
      = some [.executing 0 0 .statement] := by decide
  have hdel : (CallState.start.run caughtSteps).map CallState.deleted = some false := by decide
  rw [hs] at hstack hdel
  have hok : ∀ step ∈ caughtSteps, ∀ s, catchesBeforeDeletion s step := by
    intro step hstep s
    cases step with
    | catchError => exact absurd hstep (by decide)
    | _ => trivial
  have hreg := connection_in_use_registered s (CallState.reached_of_run (.init rfl) hok hs) 0 0
    .statement [] (Option.some.inj hstack)
  exact ⟨s, s', hs, hs', (hreg.2 s' hs').2 (Option.some.inj hdel)⟩

/-- A function's query calls a function whose call fails in the backend, and an SQL-level handler in
    the query catches the error. When the query is done, the connection of the first function is
    closed. -/
theorem connection_in_use_released :
    (CallState.start.run [.enter, .dispatch 0 .python, .clientReceive 0, .clientRequest 0 .statement,
      .backendReceive, .enter, .dispatch 1 .python, .fail, .unwind false, .catchError]).map (fun s =>
        (s.stack, s.unwinding, s.containers 0, s.conns 0))
      = some ([.executing 0 0 .statement], false, none, none) := by
  decide

/-! ## The flag -/

/-- A call from the entry of `plcontainer_get_result` to its normal return, above the frames `fs` of
    enclosing calls: the call stays active until the client's RESULT arrives. -/
structure NormalCall (fs : List Frame) (entry exit : CallState) : Prop where
  calm : entry.unwinding = false
  entered : entry.stack = .entering :: fs
  returned : ∃ s, ReachableUnder (fun s => s = entry) (fun s step s' => s.step step = some s')
      (fun s _ => fs.length < s.stack.length) s ∧ s.step .backendReceive = some exit
  finished : exit.stack = .finished :: fs
  normal : exit.unwinding = false

theorem NormalCall.flag_exit {fs : List Frame} {entry exit : CallState}
    (h : NormalCall fs entry exit) : exit.flag = false := by
  obtain ⟨s, -, hstep⟩ := h.returned
  have hs := h.finished
  have hnormal := h.normal
  cases CallState.step_moves hstep with
  | log _ hstack => cases hstack.symm.trans hs
  | execute => cases hs
  | answer _ hstack => cases hstack.symm.trans hs
  | @terminal _ _ _ _ t =>
      cases t with
      | result => exact Bool.and_false _
      | exception => cases hnormal
      | logError => cases hnormal

/-- **The flag and nested calls**: a normal return leaves the flag as it was, and set while an
    enclosing call has an unanswered CALLREQ, exactly if the call is not nested. -/
theorem flag_kept_iff_not_nested (ok : CallState → CallStep → Prop) (fs : List Frame)
    (entry exit : CallState) (hreached : CallState.Reached ok entry)
    (h : NormalCall fs entry exit) :
    (exit.flag = entry.flag ∧ ∀ f ∈ fs, f.conn ≠ none → exit.flag = true) ↔ fs = [] := by
  have hshape := CallState.shaped_of_reached hreached
  rw [h.flag_exit]
  constructor
  · rintro ⟨-, hset⟩
    cases fs with
    | nil => rfl
    | cons f fs =>
        obtain ⟨c, id, kind, rfl⟩ := hshape.below f (by rw [h.entered]; exact List.mem_cons_self ..)
        cases hset _ (List.mem_cons_self ..) (by simp [Frame.conn])
  · rintro rfl
    refine ⟨?_, fun f hf => by cases hf⟩
    by_contra hflag
    rcases hshape.flag (by simpa using hflag) with hu | ⟨f, hf, hconn⟩
    · cases h.calm.symm.trans hu
    · rw [h.entered] at hf
      cases List.mem_singleton.1 hf
      exact hconn rfl

theorem flag_kept_iff_not_nested_topLevel :
    ∃ entry exit, CallState.start.run [.enter] = some entry ∧ NormalCall [] entry exit ∧
      exit.flag = entry.flag := by
  have hentry : CallState.Reached (fun _ _ => True) { CallState.start with stack := [.entering] } :=
    .step (i := .enter) (.init rfl) trivial rfl
  obtain ⟨exit, hcall⟩ :
      ∃ exit, NormalCall [] { CallState.start with stack := [.entering] } exit := by
    refine ⟨_, rfl, rfl, ⟨_, .step (i := .clientEnd 0 .result) (.step (i := .clientReceive 0)
      (.step (i := .dispatch 0 .python) (.init rfl) (by decide) rfl) (by decide) rfl) (by decide) rfl,
      rfl⟩, ?_, ?_⟩
    all_goals rfl
  exact ⟨_, exit, rfl, hcall, ((flag_kept_iff_not_nested _ [] _ exit hentry hcall).2 rfl).1⟩

/-- A call nested in another one returns normally, and the flag, which was set for the other call, is
    clear. -/
theorem nested_return_clears_flag :
    ∃ entry exit, CallState.start.run [.enter, .dispatch 0 .python, .clientReceive 0,
        .clientRequest 0 .statement, .backendReceive, .enter] = some entry ∧
      NormalCall [.executing 0 0 .statement] entry exit ∧ entry.flag = true ∧ exit.flag = false := by
  refine ⟨_, _, rfl, ⟨rfl, rfl, ⟨_, .step (i := .clientEnd 1 .result) (.step (i := .clientReceive 1)
    (.step (i := .dispatch 1 .python) (.init rfl) (by decide) rfl) (by decide) rfl) (by decide) rfl,
    rfl⟩, ?_, ?_⟩, rfl, ?_⟩
  all_goals rfl

end PlContainer
