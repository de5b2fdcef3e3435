import PlContainer.Calls.Synchrony

set_option autoImplicit false

/-! # Requests and answers are paired

While no error occurs, whatever reaches a client is allowed by the mask it waits with, and an answer
meets the frame whose request it answers. -/

namespace PlContainer

open Runs

/-! ## Requests are numbered in order -/

/-- The request a client frame waits for. -/
def ClientFrame.id? : ClientFrame → Option ℕ
  | .running => none
  | .pending id _ => some id

/-- The unanswered requests of a client, the most recent first. -/
def Conn.pendingIds (conn : Conn) : List ℕ := conn.client.filterMap ClientFrame.id?

/-- Every client's unanswered requests are in the order in which they were made. -/
def CallState.Ordered (s : CallState) : Prop :=
  ∀ c conn, s.conns c = some conn → (s.nextId :: conn.pendingIds).Pairwise (· > ·)

theorem CallState.Ordered.of_same {s s' : CallState} (h : s.Ordered) (hconns : s'.conns = s.conns)
    (hid : s'.nextId = s.nextId) : s'.Ordered := by
  intro c conn hc
  rw [hid]
  exact h c conn (hconns ▸ hc)

theorem CallState.Ordered.setConn {s : CallState} (h : s.Ordered) {c : ConnId} {conn : Conn}
    (hconn : (s.nextId :: conn.pendingIds).Pairwise (· > ·)) : (s.setConn c conn).Ordered := by
  intro d e hd
  by_cases hdc : d = c
  · subst hdc
    rw [CallState.setConn_self] at hd
    cases hd
    exact hconn
  · rw [CallState.setConn_of_ne _ _ hdc] at hd
    exact h d e hd

/-- A change of queues only. -/
theorem CallState.Ordered.setQueues {s s' : CallState} (h : s.Ordered) {c : ConnId}
    {conn conn' : Conn} (hc : s.conns c = some conn)
    (hconns : s'.conns = (s.setConn c conn').conns) (hclient : conn'.client = conn.client)
    (hid : s'.nextId = s.nextId) : s'.Ordered := by
  have hset : (s.setConn c conn').Ordered := by
    refine h.setConn ?_
    rw [Conn.pendingIds, hclient]
    exact h c conn hc
  exact hset.of_same hconns hid

/-- What a client takes from its queue can only end its wait. -/
theorem Conn.pendingIds_accept (conn : Conn) (m : ToClient) (rest : List ToClient) :
    (conn.accept m rest).pendingIds.Sublist conn.pendingIds := by
  cases m with
  | callreq => exact List.Sublist.refl _
  | answer id kind => exact (List.tail_sublist conn.client).filterMap _

/-- A new request gets a number above all others. -/
theorem CallState.Ordered.request {s : CallState} (h : s.Ordered) {c : ConnId} {conn : Conn}
    {cs : List ClientFrame} {kind : RequestKind} {toBackend : List ToBackend}
    (hc : s.conns c = some conn) (hcs : conn.client = .running :: cs) :
    { s.setConn c { conn with
        client := .pending s.nextId kind :: cs
        toBackend := toBackend } with nextId := s.nextId + 1 }.Ordered := by
  -- all numbers stay below the next one
  have hup : ∀ ids : List ℕ, (s.nextId :: ids).Pairwise (· > ·) →
      ((s.nextId + 1) :: ids).Pairwise (· > ·) := by
    intro ids hids
    rw [List.pairwise_cons] at hids ⊢
    exact ⟨fun id hid => Nat.lt_succ_of_lt (hids.1 id hid), hids.2⟩
  intro d e hd
  by_cases hdc : d = c
  · subst hdc
    cases (s.setConn_self ..).symm.trans hd
    have hold := h d conn hc
    rw [Conn.pendingIds, hcs] at hold
    refine List.pairwise_cons.2 ⟨fun id hid => ?_, hold⟩
    rcases List.mem_cons.1 hid with rfl | hid
    · exact Nat.lt_succ_self _
    · exact Nat.lt_succ_of_lt (List.rel_of_pairwise_cons hold hid)
  · exact hup _ (h d e ((s.setConn_of_ne _ hdc).symm.trans hd))

/-- The numbers are kept in order by every step, with errors or without. -/
theorem CallState.Ordered.moves {s s' : CallState} (h : s.Ordered) {step : CallStep}
    (hmove : s.Moves step s') : s'.Ordered := by
  cases hmove with
  | enter | startFails | fail | completeClosed | finish | unwindKeep | catchError =>
      exact h.of_same rfl rfl
  | dispatchKnown hu hs hr hc => exact h.setQueues hc rfl rfl rfl
  | dispatchNew => exact (h.setConn (List.pairwise_singleton ..)).of_same rfl rfl
  | log hu hs hc hq => exact h.setQueues hc rfl rfl rfl
  | execute hu hs hc hq hk => exact h.setQueues hc rfl rfl rfl
  | answer hu hs hc hq => exact h.setQueues hc rfl rfl rfl
  | terminal hu hs hc hq => exact h.setQueues hc rfl rfl rfl
  | complete hu hs hc => exact h.setQueues hc rfl rfl rfl
  | unwindDelete =>
      intro c conn hc
      cases hc
  | @clientReceive c conn m rest _ hc hq hmask hm =>
      exact h.setConn ((h c conn hc).sublist ((conn.pendingIds_accept m rest).cons_cons _))
  | clientLog hc hcs => exact h.setQueues hc rfl rfl rfl
  | clientRequest hc hcs hk => exact h.request hc hcs
  | @clientEnd c conn cs t hc hcs =>
      refine h.setConn ?_
      have hold := h c conn hc
      rwa [Conn.pendingIds, hcs] at hold

theorem CallState.ordered_of_reached {ok : CallState → CallStep → Prop} {s : CallState}
    (h : CallState.Reached ok s) : s.Ordered := by
  refine h.invariant ?_ ?_
  · rintro s rfl c conn hc
    cases hc
  · intro s step s' hs _ hstep
    exact hs.moves (CallState.step_moves hstep)

/-! ## Masks -/

/-- The cases of the switch in `plcontainer_get_result`; a message of any other type is an error. -/
def getResultCases : List MsgType := [.result, .exception, .sql, .log, .quote, .subtransaction]

theorem ToBackend.msgtype_handled (m : ToBackend) :
    m.msgtype.allowedBy mtAllBits = true ∧ m.msgtype ∈ getResultCases := by
  cases m with
  | log => decide
  | request id kind =>
      show kind.msgtype.allowedBy mtAllBits = true ∧ kind.msgtype ∈ getResultCases
      cases kind <;> decide
  | terminal t => cases t <;> decide

/-- A client that waits for a request during which functions can be called takes a CALLREQ. -/
theorem waitMask_callreq (lang : Language) (kind : RequestKind) (hn : kind.nests = true)
    (hs : lang.sends kind = true) : MsgType.callreq.allowedBy (waitMask lang kind) = true := by
  revert hn hs
  cases lang <;> cases kind <;> decide

theorem waitMask_answer (lang : Language) (kind : RequestKind) (hs : lang.sends kind = true) :
    kind.answer.allowedBy (waitMask lang kind) = true := by
  revert hs
  cases lang <;> cases kind <;> decide

/-- A message to a client is alone in its queue and finds the client waiting for it. -/
theorem ConnSynced.allowed {fs : List Frame} {conn : Conn} (h : ConnSynced fs conn) {m : ToClient}
    {rest : List ToClient} (hq : conn.toClient = m :: rest) :
    rest = [] ∧ ∃ mask, conn.mask = some mask ∧ m.msgtype.allowedBy mask = true := by
  cases h with
  | quiet => cases hq
  | waiting hs hw =>
      cases hw with
      | running => cases hq
      | asked => cases hq
      | ended => cases hq
      | called lang =>
          cases hq
          refine ⟨rfl, ?_⟩
          -- the client is in its receive loop, or in a request of the call around this one
          cases hs with
          | nil => exact ⟨_, rfl, by decide⟩
          | cons hhead _ =>
              obtain ⟨_, id, kind, -, rfl, hn, hk⟩ := hhead
              exact ⟨_, rfl, waitMask_callreq lang kind hn hk⟩
      | answered lang id kind hk =>
          cases hq
          exact ⟨rfl, _, rfl, waitMask_answer lang kind hk⟩

/-- An answer meets the request it answers. -/
theorem ConnSynced.answers {fs : List Frame} {conn : Conn} (h : ConnSynced fs conn) {id : ℕ}
    {kind : RequestKind} {rest : List ToClient} (hq : conn.toClient = .answer id kind :: rest) :
    ∃ cs, conn.client = .pending id kind :: cs := by
  cases h with
  | quiet => cases hq
  | waiting hs hw =>
      cases hw with
      | called => cases hq
      | running => cases hq
      | asked => cases hq
      | ended => cases hq
      | answered lang id kind hk =>
          cases hq
          exact ⟨_, rfl⟩

/-- A message to the backend finds the innermost call waiting for it. -/
theorem CallState.Synced.waits {s : CallState} (h : s.Synced) {c : ConnId} {conn : Conn}
    (hc : s.conns c = some conn) (hq : conn.toBackend ≠ []) :
    ∃ fs, s.stack = .waiting c :: fs := by
  have hsync := h.agrees c conn hc
  cases hstack : s.stack with
  | nil =>
      rw [hstack] at hsync
      obtain ⟨cs, -, hconn⟩ := hsync.inv_quiet (by simp [onConn])
      rw [hconn] at hq
      exact absurd rfl hq
  | cons f fs =>
      by_cases hf : f.conn = some c
      · rw [hstack, onConn_cons_of_eq hf] at hsync
        cases hsync with
        | quiet => exact absurd rfl hq
        | waiting =>
            cases hf
            exact ⟨fs, rfl⟩
      · obtain ⟨cs, -, hconn⟩ := h.quiet_below hstack hf hc
        rw [hconn] at hq
        exact absurd rfl hq

/-! ## Runs without errors -/

/-- The steps that raise, pass on or catch an error. -/
def CallStep.isError : CallStep → Bool
  | .startFails _ | .fail | .unwind _ | .catchError => true
  | .clientEnd _ t => decide (t ≠ .result)
  | _ => false

theorem keepsQuiet_of_not_isError (s : CallState) (step : CallStep) (h : step.isError = false) :
    keepsQuiet s step := by
  cases step with
  | unwind interrupt => cases h
  | _ => trivial

/-- **Requests and answers are paired**: in every state of a run without errors, a message on its way
    to a client is alone, finds the client waiting with a mask that allows it and, if it is an answer,
    answers the most recent of that client's requests, which its innermost frame waits for; a message
    on its way to the backend is of a type the backend handles and finds the innermost call waiting on
    this connection. -/
theorem requests_are_paired (s : CallState)
    (h : CallState.Reached (fun _ step => step.isError = false) s) (c : ConnId) (conn : Conn)
    (hc : s.conns c = some conn) :
    (∀ m rest, conn.toClient = m :: rest →
      rest = [] ∧ ∃ mask, conn.mask = some mask ∧ m.msgtype.allowedBy mask = true) ∧
    (∀ id kind rest, conn.toClient = .answer id kind :: rest →
      ∃ cs, conn.client = .pending id kind :: cs ∧
        ∀ id' kind', .pending id' kind' ∈ cs → id' < id) ∧
    (∀ m ∈ conn.toBackend, (m.msgtype.allowedBy mtAllBits = true ∧ m.msgtype ∈ getResultCases) ∧
      ∃ fs, s.stack = .waiting c :: fs) := by
  have hsync := CallState.synced_of_reached keepsQuiet_of_not_isError h
  refine ⟨fun m rest hq => (hsync.agrees c conn hc).allowed hq, fun id kind rest hq => ?_,
    fun m hm => ⟨m.msgtype_handled, hsync.waits hc (List.ne_nil_of_mem hm)⟩⟩
  obtain ⟨cs, hcs⟩ := (hsync.agrees c conn hc).answers hq
  have hord := CallState.ordered_of_reached h c conn hc
  rw [Conn.pendingIds, hcs] at hord
  refine ⟨cs, hcs, fun id' kind' hmem => ?_⟩
  exact List.rel_of_pairwise_cons hord.of_cons (List.mem_filterMap.2 ⟨_, hmem, rfl⟩)

/-- A function executes a query that calls a function of the same runtime; the query's result is on
    its way back to the first. -/
def nestedSteps : List CallStep :=
  [.enter, .dispatch 0 .python, .clientReceive 0, .clientRequest 0 .statement, .backendReceive,
    .enter, .dispatch 0 .python, .clientReceive 0, .clientEnd 0 .result, .backendReceive, .finish,
    .complete]

theorem requests_are_paired_nestedSteps :
    ∃ s, CallState.start.run nestedSteps = some s ∧
      s.conns 0 = some ⟨.python, [.pending 0 .statement], [.answer 0 .statement], []⟩ ∧
      (∃ mask, (Conn.mk .python [.pending 0 .statement] [.answer 0 .statement] []).mask = some mask ∧
        MsgType.result.allowedBy mask = true) ∧
      ∃ cs, [.pending 0 .statement] = ClientFrame.pending 0 .statement :: cs ∧
        ∀ id' kind', .pending id' kind' ∈ cs → id' < 0 := by
  obtain ⟨s, hs⟩ : ∃ s, CallState.start.run nestedSteps = some s :=
    Option.isSome_iff_exists.1 (by decide)
  have hconn : (CallState.start.run nestedSteps).bind (fun s => s.conns 0)
      = some ⟨.python, [.pending 0 .statement], [.answer 0 .statement], []⟩ := by decide
  rw [hs] at hconn
  have hsteps : ∀ step ∈ nestedSteps, step.isError = false := by decide
  have hpaired := requests_are_paired s
    (CallState.reached_of_run (.init rfl) (fun step hstep _ => hsteps step hstep) hs) 0 _ hconn
  exact ⟨s, hs, hconn, (hpaired.1 _ _ rfl).2, hpaired.2.1 _ _ _ rfl⟩

end PlContainer
