import PlContainer.Calls.Shape
import Mathlib.Data.List.Forall2

set_option autoImplicit false

/-! # The two stacks of a connection agree

On each open connection the client's frames match the backend's frames that have an unanswered
CALLREQ on it: below the innermost call every backend frame executes the request that the matching
client frame waits for, and nothing is in flight. Only the connection of the innermost call may carry
messages, in one of the five phases of `WaitPhase`.

An error keeps this agreement unless it abandons a call on a connection that stays open. -/

namespace PlContainer

open Runs

/-! ## Agreement on one connection -/

/-- A backend frame executes the request that a client frame waits for. -/
def Suspends (lang : Language) (f : Frame) (k : ClientFrame) : Prop :=
  ∃ c id kind, f = .executing c id kind ∧ k = .pending id kind ∧ kind.nests = true ∧
    lang.sends kind = true

/-- The phases of a call that waits for its client, over the client frames `cs` of outer calls. -/
inductive WaitPhase (cs : List ClientFrame) : Conn → Prop where
  | called (lang : Language) : WaitPhase cs ⟨lang, cs, [.callreq], []⟩
  | running (lang : Language) (logs : List ToBackend) (h : ∀ m ∈ logs, m = .log) :
      WaitPhase cs ⟨lang, .running :: cs, [], logs⟩
  | asked (lang : Language) (logs : List ToBackend) (h : ∀ m ∈ logs, m = .log) (id : ℕ)
      (kind : RequestKind) (hk : lang.sends kind = true) :
      WaitPhase cs ⟨lang, .pending id kind :: cs, [], logs ++ [.request id kind]⟩
  | answered (lang : Language) (id : ℕ) (kind : RequestKind) (hk : lang.sends kind = true) :
      WaitPhase cs ⟨lang, .pending id kind :: cs, [.answer id kind], []⟩
  | ended (lang : Language) (logs : List ToBackend) (h : ∀ m ∈ logs, m = .log) (t : Terminal) :
      WaitPhase cs ⟨lang, cs, [], logs ++ [.terminal t]⟩

/-- A connection agrees with the backend frames on it. -/
inductive ConnSynced : List Frame → Conn → Prop where
  | quiet {fs : List Frame} {lang : Language} {cs : List ClientFrame}
      (h : List.Forall₂ (Suspends lang) fs cs) : ConnSynced fs ⟨lang, cs, [], []⟩
  | waiting {c : ConnId} {fs : List Frame} {conn : Conn} {cs : List ClientFrame}
      (h : List.Forall₂ (Suspends conn.lang) fs cs) (hw : WaitPhase cs conn) :
      ConnSynced (.waiting c :: fs) conn

/-! ## Agreement of a session -/

/-- The frames of a stack with an unanswered CALLREQ on a connection. -/
def onConn (c : ConnId) (stack : List Frame) : List Frame :=
  stack.filter fun f => decide (f.conn = some c)

theorem onConn_cons_of_eq {c : ConnId} {f : Frame} (h : f.conn = some c) (fs : List Frame) :
    onConn c (f :: fs) = f :: onConn c fs :=
  List.filter_cons_of_pos (by simpa using h)

theorem onConn_cons_of_ne {c : ConnId} {f : Frame} (h : f.conn ≠ some c) (fs : List Frame) :
    onConn c (f :: fs) = onConn c fs :=
  List.filter_cons_of_neg (by simpa using h)

/-- Every open connection agrees with the frames on it. -/
def CallState.Agrees (s : CallState) : Prop :=
  ∀ c conn, s.conns c = some conn → ConnSynced (onConn c s.stack) conn

structure CallState.Synced (s : CallState) : Prop extends s.Shaped where
  agrees : s.Agrees

theorem CallState.synced_start : CallState.start.Synced :=
  ⟨CallState.shaped_start, fun c conn hc => absurd hc (by simp [CallState.start])⟩

/-- A connection whose innermost frame is not a waiting one is quiet. -/
theorem ConnSynced.inv_quiet {fs : List Frame} {conn : Conn} (h : ConnSynced fs conn)
    (hfs : ∀ f ∈ fs, ∃ c id kind, f = Frame.executing c id kind) :
    ∃ cs, List.Forall₂ (Suspends conn.lang) fs cs ∧ conn = ⟨conn.lang, cs, [], []⟩ := by
  cases h with
  | quiet h => exact ⟨_, h, rfl⟩
  | waiting h hw =>
      obtain ⟨c, id, kind, hf⟩ := hfs _ (List.mem_cons_self ..)
      cases hf

theorem ConnSynced.inv_waiting {c : ConnId} {fs : List Frame} {conn : Conn}
    (h : ConnSynced (.waiting c :: fs) conn) :
    ∃ cs, List.Forall₂ (Suspends conn.lang) fs cs ∧ WaitPhase cs conn := by
  cases h with
  | quiet h =>
      cases h with
      | cons hs _ =>
          obtain ⟨_, _, _, hf, _⟩ := hs
          cases hf
  | waiting h hw => exact ⟨_, h, hw⟩

namespace CallState.Synced

section

variable {s s' : CallState} {c : ConnId} {conn' : Conn}

/-- A change of one connection, and of the frames on it. -/
theorem update (h : s.Synced) (hon : ∀ d, d ≠ c → onConn d s'.stack = onConn d s.stack)
    (hconns : s'.conns = (s.setConn c conn').conns)
    (hconn : ConnSynced (onConn c s'.stack) conn') : s'.Agrees := by
  intro d e hd
  rw [hconns] at hd
  by_cases hdc : d = c
  · subst hdc
    rw [CallState.setConn_self] at hd
    cases hd
    exact hconn
  · rw [CallState.setConn_of_ne _ _ hdc] at hd
    rw [hon d hdc]
    exact h.agrees d e hd

/-- A change of one connection and of the innermost frame, which is on it if it is on any. -/
theorem updateTop (h : s.Synced) {f f' : Frame} {fs : List Frame} (hs : s.stack = f :: fs)
    (hf : ∀ d, f.conn = some d → d = c) (hf' : ∀ d, f'.conn = some d → d = c)
    (hs' : s'.stack = f' :: fs) (hconns : s'.conns = (s.setConn c conn').conns)
    (hconn : ConnSynced (onConn c (f' :: fs)) conn') : s'.Agrees := by
  refine h.update (fun d hd => ?_) hconns (hs' ▸ hconn)
  rw [hs, hs', onConn_cons_of_ne fun he => hd (hf' d he), onConn_cons_of_ne fun he => hd (hf d he)]

/-- A change of the stack that keeps the frames on every open connection. -/
theorem restack (h : s.Synced)
    (hon : ∀ d e, s.conns d = some e → onConn d s'.stack = onConn d s.stack)
    (hconns : s'.conns = s.conns) : s'.Agrees := by
  intro d e hd
  rw [hconns] at hd
  rw [hon d e hd]
  exact h.agrees d e hd

end

/-! ## Steps of the backend -/

section

variable {s s' : CallState} {f : Frame} {fs : List Frame} {c : ConnId} {conn : Conn}

/-- A connection that is not the innermost call's is quiet. -/
theorem quiet_below (h : s.Synced) (hs : s.stack = f :: fs) (hf : f.conn ≠ some c)
    (hc : s.conns c = some conn) :
    ∃ cs, List.Forall₂ (Suspends conn.lang) (onConn c fs) cs ∧ conn = ⟨conn.lang, cs, [], []⟩ := by
  have hsync := h.agrees c conn hc
  rw [hs, onConn_cons_of_ne hf] at hsync
  refine hsync.inv_quiet fun g hg => h.below g ?_
  rw [hs]
  exact List.mem_of_mem_filter hg

/-- The innermost call waits: its connection is in one of the phases of a call. -/
theorem phase (h : s.Synced) (hs : s.stack = .waiting c :: fs) (hc : s.conns c = some conn) :
    ∃ cs, List.Forall₂ (Suspends conn.lang) (onConn c fs) cs ∧ WaitPhase cs conn := by
  have hsync := h.agrees c conn hc
  rw [hs, onConn_cons_of_eq rfl] at hsync
  exact hsync.inv_waiting

/-- The CALLREQ of a call on a connection that is already open is alone in the queue: the frames
    on that connection are all suspended. -/
theorem dispatchKnown (h : s.Synced) (hs : s.stack = .entering :: fs) (hc : s.conns c = some conn)
    (hs' : s'.stack = .waiting c :: fs)
    (hconns : s'.conns = (s.setConn c (conn.send .callreq)).conns) : s'.Agrees := by
  obtain ⟨cs, hsus, hconn⟩ := h.quiet_below hs (by simp [Frame.conn]) hc
  refine h.updateTop hs (fun d hd => by cases hd) (fun d hd => by cases hd; rfl) hs' hconns ?_
  rw [onConn_cons_of_eq rfl, hconn]
  exact .waiting hsus (.called conn.lang)

/-- No frame is on a connection that was not open before. -/
theorem dispatchNew (h : s.Synced) {lang : Language} (hs : s.stack = .entering :: fs)
    (hs' : s'.stack = .waiting s.nextConn :: fs)
    (hconns : s'.conns = (s.setConn s.nextConn ⟨lang, [], [.callreq], []⟩).conns) : s'.Agrees := by
  have hnone : onConn s.nextConn fs = [] := by
    refine List.filter_eq_nil_iff.2 fun g hg hconn => ?_
    have hlt := h.frames g (by rw [hs]; exact List.mem_cons_of_mem _ hg) s.nextConn
      (by simpa using hconn)
    exact Nat.lt_irrefl _ hlt
  refine h.updateTop hs (fun d hd => by cases hd) (fun d hd => by cases hd; rfl) hs' hconns ?_
  rw [onConn_cons_of_eq rfl, hnone]
  exact .waiting .nil (.called lang)

/-- The client waits for the very request that was executed, and for nothing else. -/
theorem complete (h : s.Synced) {id : ℕ} {kind : RequestKind}
    (hs : s.stack = .executing c id kind :: fs) (hc : s.conns c = some conn) :
    (s.wait c fs (conn.send (.answer id kind))).Agrees := by
  have hsync := h.agrees c conn hc
  rw [hs, onConn_cons_of_eq rfl] at hsync
  cases hsync with
  | quiet hsus =>
      cases hsus with
      | cons hhead hsus =>
          obtain ⟨_, _, _, hf, rfl, -, hsends⟩ := hhead
          cases hf
          refine h.updateTop hs (fun d hd => by cases hd; rfl) (fun d hd => by cases hd; rfl) rfl
            rfl ?_
          rw [onConn_cons_of_eq rfl]
          exact .waiting hsus (.answered _ id kind hsends)

theorem completeClosed (h : s.Synced) {id : ℕ} {kind : RequestKind}
    (hs : s.stack = .executing c id kind :: fs) (hc : s.conns c = none)
    (hs' : s'.stack = .waiting c :: fs) (hconns : s'.conns = s.conns) : s'.Agrees := by
  refine h.restack (fun d e hd => ?_) hconns
  have hne : some c ≠ some d := by
    rintro ⟨⟩
    cases hc.symm.trans hd
  rw [hs, hs', onConn_cons_of_ne (f := .waiting c) hne,
    onConn_cons_of_ne (f := .executing c id kind) hne]

/-- A frame that leaves the stack was not on an open connection. -/
theorem pop (h : s.Synced) (hs : s.stack = f :: fs)
    (hf : ∀ c conn, f.conn = some c → s.conns c ≠ some conn) (hs' : s'.stack = fs)
    (hconns : s'.conns = s.conns) : s'.Agrees := by
  refine h.restack (fun d e hd => ?_) hconns
  rw [hs, hs', onConn_cons_of_ne fun hfd => hf d e hfd hd]

end

end CallState.Synced

/-- What the innermost call can find at the head of its queue, and what is left behind it. -/
theorem WaitPhase.receive {cs : List ClientFrame} {conn : Conn} (h : WaitPhase cs conn)
    {m : ToBackend} {rest : List ToBackend} (hq : conn.toBackend = m :: rest) :
    (m = .log ∧ WaitPhase cs { conn with toBackend := rest }) ∨
      (∃ id kind, m = .request id kind ∧ conn.lang.sends kind = true ∧
        { conn with toBackend := rest } = ⟨conn.lang, .pending id kind :: cs, [], []⟩) ∨
      (∃ t, m = .terminal t ∧ { conn with toBackend := rest } = ⟨conn.lang, cs, [], []⟩) := by
  cases h with
  | called lang => cases hq
  | answered lang id kind hk => cases hq
  | running lang logs hlogs =>
      cases hq
      rw [List.forall_mem_cons] at hlogs
      exact .inl ⟨hlogs.1, .running lang rest hlogs.2⟩
  | asked lang logs hlogs id kind hk =>
      cases logs with
      | nil =>
          cases hq
          exact .inr (.inl ⟨id, kind, rfl, hk, rfl⟩)
      | cons l logs =>
          cases hq
          rw [List.forall_mem_cons] at hlogs
          exact .inl ⟨hlogs.1, .asked lang logs hlogs.2 id kind hk⟩
  | ended lang logs hlogs t =>
      cases logs with
      | nil =>
          cases hq
          exact .inr (.inr ⟨t, rfl, rfl⟩)
      | cons l logs =>
          cases hq
          rw [List.forall_mem_cons] at hlogs
          exact .inl ⟨hlogs.1, .ended lang logs hlogs.2 t⟩

namespace CallState.Synced

section

variable {s s' : CallState} {c : ConnId} {fs : List Frame} {conn : Conn} {rest : List ToBackend}

theorem log (h : s.Synced) (hs : s.stack = .waiting c :: fs) (hc : s.conns c = some conn)
    (hq : conn.toBackend = .log :: rest) :
    (s.setConn c { conn with toBackend := rest }).Agrees := by
  obtain ⟨cs, hsus, hw⟩ := h.phase hs hc
  rcases hw.receive hq with ⟨-, hw⟩ | ⟨_, _, hm, _⟩ | ⟨_, hm, _⟩
  · refine h.update (fun _ _ => rfl) rfl ?_
    show ConnSynced (onConn c s.stack) _
    rw [hs, onConn_cons_of_eq rfl]
    exact .waiting hsus hw
  · cases hm
  · cases hm

variable {id : ℕ} {kind : RequestKind}

/-- The connection on which a request arrived: its client waits, and nothing else is in flight. -/
theorem requested (h : s.Synced) (hs : s.stack = .waiting c :: fs) (hc : s.conns c = some conn)
    (hq : conn.toBackend = .request id kind :: rest) :
    ∃ cs, List.Forall₂ (Suspends conn.lang) (onConn c fs) cs ∧ conn.lang.sends kind = true ∧
      { conn with toBackend := rest } = ⟨conn.lang, .pending id kind :: cs, [], []⟩ := by
  obtain ⟨cs, hsus, hw⟩ := h.phase hs hc
  rcases hw.receive hq with ⟨hm, _⟩ | ⟨_, _, hm, hk, hleft⟩ | ⟨_, hm, _⟩
  · cases hm
  · cases hm
    exact ⟨cs, hsus, hk, hleft⟩
  · cases hm

theorem execute (h : s.Synced) (hs : s.stack = .waiting c :: fs) (hc : s.conns c = some conn)
    (hq : conn.toBackend = .request id kind :: rest) (hk : kind.nests = true)
    (hs' : s'.stack = .executing c id kind :: fs)
    (hconns : s'.conns = (s.setConn c { conn with toBackend := rest }).conns) : s'.Agrees := by
  obtain ⟨cs, hsus, hsends, hleft⟩ := h.requested hs hc hq
  rw [hleft] at hconns
  refine h.updateTop hs (fun d hd => by cases hd; rfl) (fun d hd => by cases hd; rfl) hs' hconns ?_
  rw [onConn_cons_of_eq rfl]
  exact .quiet (.cons ⟨c, id, kind, rfl, rfl, hk, hsends⟩ hsus)

theorem answer (h : s.Synced) (hs : s.stack = .waiting c :: fs) (hc : s.conns c = some conn)
    (hq : conn.toBackend = .request id kind :: rest) :
    (s.setConn c ({ conn with toBackend := rest }.send (.answer id kind))).Agrees := by
  obtain ⟨cs, hsus, hsends, hleft⟩ := h.requested hs hc hq
  rw [hleft]
  refine h.update (fun _ _ => rfl) rfl ?_
  show ConnSynced (onConn c s.stack) _
  rw [hs, onConn_cons_of_eq rfl]
  exact .waiting hsus (.answered _ id kind hsends)

/-- The terminal message ends the call on both sides, whatever becomes of the flag and of the
    error. -/
theorem terminal (h : s.Synced) {t : Terminal} (hs : s.stack = .waiting c :: fs)
    (hc : s.conns c = some conn) (hq : conn.toBackend = .terminal t :: rest)
    (hs' : s'.stack = .finished :: fs)
    (hconns : s'.conns = (s.setConn c { conn with toBackend := rest }).conns) : s'.Agrees := by
  obtain ⟨cs, hsus, hw⟩ := h.phase hs hc
  rcases hw.receive hq with ⟨hm, _⟩ | ⟨_, _, hm, _⟩ | ⟨_, -, hleft⟩
  · cases hm
  · cases hm
  · rw [hleft] at hconns
    refine h.updateTop hs (fun d hd => by cases hd; rfl) (fun d hd => by cases hd) hs' hconns ?_
    rw [onConn_cons_of_ne (by simp [Frame.conn])]
    exact .quiet hsus

end

end CallState.Synced

/-! ## Steps of the clients -/

/-- A client that runs is in the innermost call, which waits for it; nothing is on its way to the
    client, and nothing but LOG messages from it. -/
theorem ConnSynced.inv_running {fs : List Frame} {lang : Language} {cs : List ClientFrame}
    {toClient : List ToClient} {toBackend : List ToBackend}
    (h : ConnSynced fs ⟨lang, .running :: cs, toClient, toBackend⟩) :
    ∃ c gs, fs = .waiting c :: gs ∧ List.Forall₂ (Suspends lang) gs cs ∧ toClient = [] ∧
      ∀ m ∈ toBackend, m = .log := by
  -- a suspended client frame is never a running one
  have hnot : ∀ gs : List Frame, ¬ List.Forall₂ (Suspends lang) gs (.running :: cs) := by
    intro gs hgs
    cases hgs with
    | cons hhead _ =>
        obtain ⟨_, _, _, _, hk, _⟩ := hhead
        cases hk
  cases h with
  | quiet h => exact absurd h (hnot _)
  | waiting h hw =>
      cases hw with
      | called => exact absurd h (hnot _)
      | ended => exact absurd h (hnot _)
      | running _ _ hlogs => exact ⟨_, _, rfl, h, rfl, hlogs⟩

namespace CallState.Synced

/-- Only a CALLREQ or the answer to its request can reach a client, and either makes it run. -/
theorem clientReceive {s : CallState} (h : s.Synced) {c : ConnId} {conn : Conn} {m : ToClient}
    {rest : List ToClient} (hc : s.conns c = some conn) (hq : conn.toClient = m :: rest) :
    (s.setConn c (conn.accept m rest)).Agrees := by
  refine h.update (fun _ _ => rfl) rfl ?_
  have hsync := h.agrees c conn hc
  show ConnSynced (onConn c s.stack) _
  generalize onConn c s.stack = fs at hsync ⊢
  cases hsync with
  | quiet hs => cases hq
  | waiting hs hw =>
      cases hw with
      | called lang =>
          cases hq
          exact .waiting hs (.running lang [] (by simp))
      | answered lang id kind hk =>
          cases hq
          exact .waiting hs (.running lang [] (by simp))
      | running => cases hq
      | asked => cases hq
      | ended => cases hq

/-- A step of a running client: what it becomes decides the phase. -/
theorem clientStep {s s' : CallState} (h : s.Synced) {c : ConnId} {conn conn' : Conn}
    {cs : List ClientFrame} (hc : s.conns c = some conn) (hcs : conn.client = .running :: cs)
    (hs' : s'.stack = s.stack) (hconns : s'.conns = (s.setConn c conn').conns)
    (hlang : conn'.lang = conn.lang)
    (hphase : ∀ logs, (∀ m ∈ logs, m = ToBackend.log) →
      conn = ⟨conn.lang, .running :: cs, [], logs⟩ → WaitPhase cs conn') :
    s'.Agrees := by
  refine h.update (fun _ _ => by rw [hs']) hconns ?_
  obtain ⟨lang, client, toClient, toBackend⟩ := conn
  cases hcs
  obtain ⟨d, gs, hfs, hs, rfl, hlogs⟩ := (h.agrees c _ hc).inv_running
  rw [hs', hfs]
  exact .waiting (hlang ▸ hs) (hphase toBackend hlogs rfl)

end CallState.Synced

/-! ## Runs -/

/-- **The discipline that keeps connections usable**: an error abandons a call only together with its
    connection. -/
def keepsQuiet (s : CallState) : CallStep → Prop
  | .unwind interrupt =>
      ∀ f fs c conn, s.stack = f :: fs → f.conn = some c → s.conns c = some conn →
        s.flag = true ∨ interrupt = true
  | _ => True

/-- **One step keeps the agreement**, unless it abandons a call on an open connection. -/
theorem CallState.Synced.moves {s s' : CallState} (h : s.Synced) {step : CallStep}
    (hok : keepsQuiet s step) (hmove : s.Moves step s') : s'.Synced := by
  refine ⟨h.toShaped.moves hmove, ?_⟩
  cases hmove with
  | enter => exact h.restack (fun _ _ _ => onConn_cons_of_ne (by simp [Frame.conn]) _) rfl
  | dispatchKnown _ hs _ hc => exact h.dispatchKnown hs hc rfl rfl
  | dispatchNew _ hs => exact h.dispatchNew hs rfl rfl
  | startFails | fail | catchError => exact h.agrees
  | log _ hs hc hq => exact h.log hs hc hq
  | execute _ hs hc hq hk => exact h.execute hs hc hq hk rfl rfl
  | answer _ hs hc hq => exact h.answer hs hc hq
  | terminal _ hs hc hq => exact h.terminal hs hc hq rfl rfl
  | complete _ hs hc => exact h.complete hs hc
  | completeClosed _ hs hc => exact h.completeClosed hs hc rfl rfl
  | finish _ hs => exact h.pop hs (fun _ _ hf => by cases hf) rfl rfl
  | unwindDelete =>
      intro c conn hc
      cases hc
  | @unwindKeep _ f fs _ hs hd =>
      refine h.pop hs (fun c conn hf hc => ?_) rfl rfl
      rcases hok f fs c conn hs hf hc with hflag | hint
      · cases hd.1.symm.trans hflag
      · cases hd.2.symm.trans hint
  | clientReceive hc hq => exact h.clientReceive hc hq
  | clientLog hc hcs =>
      refine h.clientStep hc hcs rfl rfl rfl fun logs hlogs hconn => ?_
      rw [hconn]
      refine .running _ _ fun m hm => ?_
      rcases List.mem_append.1 hm with hm | hm
      · exact hlogs m hm
      · exact List.mem_singleton.1 hm
  | @clientRequest _ _ _ kind hc hcs hk =>
      refine h.clientStep hc hcs rfl rfl rfl fun logs hlogs hconn => ?_
      rw [hconn]
      exact .asked _ logs hlogs s.nextId kind hk
  | clientEnd hc hcs =>
      refine h.clientStep hc hcs rfl rfl rfl fun logs hlogs hconn => ?_
      rw [hconn]
      exact .ended _ logs hlogs _

/-- **Every run that keeps the discipline keeps the agreement.** -/
theorem CallState.synced_of_reached {ok : CallState → CallStep → Prop}
    (hok : ∀ s step, ok s step → keepsQuiet s step) {s : CallState} (h : CallState.Reached ok s) :
    s.Synced := by
  refine h.invariant ?_ ?_
  · rintro s rfl
    exact CallState.synced_start
  · intro s step s' hs hstep hmove
    exact hs.moves (hok s step hstep) (CallState.step_moves hmove)

end PlContainer
