import PlContainer.Calls.Moves
import PlContainer.Library.Runs

set_option autoImplicit false

/-! # What holds in every state of a session

Whatever errors occur, only the innermost call can be anything but executing a request,
`containers[]` holds exactly the open connections, and `DeleteBackendsWhenError` is set only while
a call has an unanswered CALLREQ or an error is on its way. -/

namespace PlContainer

open Runs

structure CallState.Shaped (s : CallState) : Prop where
  /-- an outer call executes the request in which the next one was called -/
  below : ∀ f ∈ s.stack.tail, ∃ c id kind, f = .executing c id kind
  frames : ∀ f ∈ s.stack, ∀ c, f.conn = some c → c < s.nextConn
  fresh : ∀ c conn, s.conns c = some conn → c < s.nextConn
  table : ∀ c, (∃ conn, s.conns c = some conn) ↔ ∃ r, s.containers r = some c
  unwinding : s.unwinding = true → s.stack ≠ []
  flag : s.flag = true → s.unwinding = true ∨ ∃ f ∈ s.stack, f.conn ≠ none
  /-- after `delete_containers` nothing is opened while the error is on its way -/
  deleted : s.deleted = true → s.unwinding = true ∧ ∀ c, s.conns c = none

theorem CallState.shaped_start : CallState.start.Shaped where
  below := fun f hf => absurd hf (by simp [CallState.start])
  frames := fun f hf => absurd hf (by simp [CallState.start])
  fresh := fun c conn hc => absurd hc (by simp [CallState.start])
  table := fun c => by simp [CallState.start]
  unwinding := fun h => by cases h
  flag := fun h => by cases h
  deleted := fun h => by cases h

/-- Which connections are open. -/
theorem CallState.setConn_open {s : CallState} {c : ConnId} {conn : Conn}
    (hc : s.conns c = some conn) (conn' : Conn) (d : ConnId) :
    (∃ e, (s.setConn c conn').conns d = some e) ↔ ∃ e, s.conns d = some e := by
  by_cases hdc : d = c
  · subst hdc
    exact ⟨fun _ => ⟨conn, hc⟩, fun _ => ⟨conn', s.setConn_self d conn'⟩⟩
  · rw [s.setConn_of_ne conn' hdc]

namespace CallState.Shaped

variable {s s' : CallState} {step : CallStep}

theorem below_moves (h : s.Shaped) (hmove : s.Moves step s') :
    ∀ f ∈ s'.stack.tail, ∃ c id kind, f = Frame.executing c id kind := by
  have hbelow := h.below
  cases hmove with
  | enter hu hs =>
      intro f hf
      cases hstack : s.stack with
      | nil =>
          rw [hstack] at hf
          cases hf
      | cons g fs =>
          rw [List.tail_cons, hstack] at hf
          rcases List.mem_cons.1 hf with rfl | hf
          · exact hs f fs hstack
          · exact hbelow f (by rw [hstack]; exact hf)
  | dispatchKnown _ hs | dispatchNew _ hs | execute _ hs | terminal _ hs | complete _ hs
  | completeClosed _ hs =>
      rw [hs] at hbelow
      exact hbelow
  | finish _ hs | unwindDelete _ hs | unwindKeep _ hs =>
      rw [hs] at hbelow
      exact fun f hf => hbelow f (List.mem_of_mem_tail hf)
  | startFails | fail | log | answer | catchError | clientReceive | clientLog | clientRequest
  | clientEnd => exact hbelow

theorem fresh_moves (h : s.Shaped) (hmove : s.Moves step s') :
    ∀ c conn, s'.conns c = some conn → c < s'.nextConn := by
  -- replacing an open connection opens no new one
  have hset : ∀ {c conn} (_ : s.conns c = some conn) (conn' : Conn) (d : ConnId) (e : Conn),
      (s.setConn c conn').conns d = some e → d < s.nextConn := by
    intro c conn hc conn' d e hd
    obtain ⟨e', he'⟩ := (CallState.setConn_open hc conn' d).1 ⟨e, hd⟩
    exact h.fresh d e' he'
  cases hmove with
  | dispatchKnown _ _ _ hc => exact hset hc _
  | log _ _ hc | execute _ _ hc | answer _ _ hc | terminal _ _ hc | complete _ _ hc =>
      exact hset hc _
  | clientReceive hc | clientLog hc | clientRequest hc | clientEnd hc => exact hset hc _
  | dispatchNew =>
      intro d e hd
      by_cases hdc : d = s.nextConn
      · subst hdc
        exact Nat.lt_succ_self _
      · exact Nat.lt_succ_of_lt (h.fresh d e ((s.setConn_of_ne _ hdc).symm.trans hd))
  | unwindDelete =>
      intro d e hd
      cases hd
  | enter | startFails | fail | completeClosed | finish | unwindKeep | catchError => exact h.fresh

theorem frames_moves (h : s.Shaped) (hmove : s.Moves step s') :
    ∀ f ∈ s'.stack, ∀ c, f.conn = some c → c < s'.nextConn := by
  have hframes := h.frames
  cases hmove with
  | enter =>
      intro f hf c hc
      rcases List.mem_cons.1 hf with rfl | hf
      · cases hc
      · exact hframes f hf c hc
  | dispatchKnown _ hs _ hc =>
      rw [hs, List.forall_mem_cons] at hframes
      refine List.forall_mem_cons.2 ⟨fun d hd => ?_, hframes.2⟩
      cases hd
      exact h.fresh _ _ hc
  | dispatchNew _ hs =>
      rw [hs, List.forall_mem_cons] at hframes
      refine List.forall_mem_cons.2 ⟨fun d hd => ?_, fun f hf d hd => ?_⟩
      · cases hd
        exact Nat.lt_succ_self _
      · exact Nat.lt_succ_of_lt (hframes.2 f hf d hd)
  | execute _ hs | complete _ hs | completeClosed _ hs =>
      rw [hs, List.forall_mem_cons] at hframes
      exact List.forall_mem_cons.2 hframes
  | terminal _ hs =>
      rw [hs, List.forall_mem_cons] at hframes
      refine List.forall_mem_cons.2 ⟨fun d hd => ?_, hframes.2⟩
      cases hd
  | finish _ hs | unwindDelete _ hs | unwindKeep _ hs =>
      rw [hs, List.forall_mem_cons] at hframes
      exact hframes.2
  | startFails | fail | log | answer | catchError | clientReceive | clientLog | clientRequest
  | clientEnd => exact hframes

theorem table_moves (h : s.Shaped) (hmove : s.Moves step s') (c : ConnId) :
    (∃ conn, s'.conns c = some conn) ↔ ∃ r, s'.containers r = some c := by
  cases hmove with
  | dispatchKnown _ _ _ hc => exact (CallState.setConn_open hc _ c).trans (h.table c)
  | log _ _ hc | execute _ _ hc | answer _ _ hc | terminal _ _ hc | complete _ _ hc =>
      exact (CallState.setConn_open hc _ c).trans (h.table c)
  | clientReceive hc | clientLog hc | clientRequest hc | clientEnd hc =>
      exact (CallState.setConn_open hc _ c).trans (h.table c)
  | @dispatchNew r _ _ _ _ hr =>
      by_cases hcn : c = s.nextConn
      · subst hcn
        exact ⟨fun _ => ⟨r, if_pos rfl⟩, fun _ => ⟨_, s.setConn_self ..⟩⟩
      · have hopen : ∀ conn, (∃ e, (s.setConn s.nextConn conn).conns c = some e)
            ↔ ∃ e, s.conns c = some e := fun conn => by rw [s.setConn_of_ne conn hcn]
        refine (hopen _).trans ((h.table c).trans ⟨?_, ?_⟩)
        · rintro ⟨q, hq⟩
          refine ⟨q, (if_neg ?_).trans hq⟩
          rintro rfl
          cases hr.symm.trans hq
        · rintro ⟨q, hq⟩
          by_cases hqr : q = r
          · cases (if_pos hqr).symm.trans hq
            exact absurd rfl hcn
          · exact ⟨q, (if_neg hqr).symm.trans hq⟩
  | unwindDelete =>
      refine ⟨?_, ?_⟩
      · rintro ⟨_, hconn⟩
        cases hconn
      · rintro ⟨_, hr⟩
        cases hr
  | enter | startFails | fail | completeClosed | finish | unwindKeep | catchError =>
      exact h.table c

theorem unwinding_moves (h : s.Shaped) (hmove : s.Moves step s') :
    s'.unwinding = true → s'.stack ≠ [] := by
  cases hmove with
  | enter | dispatchKnown | dispatchNew | execute | terminal | complete | completeClosed =>
      exact fun _ => List.cons_ne_nil _ _
  | startFails _ hs | fail _ hs | log _ hs | answer _ hs =>
      intro _ hnil
      cases hs.symm.trans hnil
  | catchError => exact fun hu => by cases hu
  | finish hu => exact fun hu' => by cases hu.symm.trans hu'
  | @unwindDelete _ _ fs | @unwindKeep _ _ fs =>
      rintro hu (rfl : fs = [])
      cases hu
  | clientReceive | clientLog | clientRequest | clientEnd => exact h.unwinding

theorem flag_moves (h : s.Shaped) (hmove : s.Moves step s') :
    s'.flag = true → s'.unwinding = true ∨ ∃ f ∈ s'.stack, f.conn ≠ none := by
  have hflag := h.flag
  cases hmove with
  | enter =>
      intro hf
      refine (hflag hf).imp_right fun ⟨f, hmem, hconn⟩ => ?_
      exact ⟨f, List.mem_cons_of_mem _ hmem, hconn⟩
  | dispatchKnown | dispatchNew | execute | complete | completeClosed =>
      exact fun _ => .inr ⟨_, List.mem_cons_self .., by simp [Frame.conn]⟩
  | startFails | fail => exact fun _ => .inl rfl
  | terminal =>
      -- a terminal message that leaves the flag set starts an error
      intro hf
      obtain ⟨-, hlog⟩ := Bool.and_eq_true_iff.1 hf
      have ht := of_decide_eq_true hlog
      exact .inl (decide_eq_true (by rw [ht]; decide))
  | finish hu hs =>
      intro hf
      rcases hflag hf with hu' | ⟨f, hmem, hconn⟩
      · cases hu.symm.trans hu'
      · rw [hs] at hmem
        rcases List.mem_cons.1 hmem with rfl | hmem
        · exact absurd rfl hconn
        · exact .inr ⟨f, hmem, hconn⟩
  | unwindDelete => exact fun hf => by cases hf
  | unwindKeep _ _ hd => exact fun hf => by cases hd.1.symm.trans hf
  | catchError _ hs =>
      exact fun _ => .inr ⟨_, by rw [hs]; exact List.mem_cons_self .., by simp [Frame.conn]⟩
  | log | answer | clientReceive | clientLog | clientRequest | clientEnd => exact hflag

/-- While no error is on its way nothing has been deleted. -/
theorem not_deleted (h : s.Shaped) (hu : s.unwinding = false) : s.deleted = false := by
  by_contra hd
  cases hu.symm.trans (h.deleted (by simpa using hd)).1

theorem deleted_moves (h : s.Shaped) (hmove : s.Moves step s') :
    s'.deleted = true → s'.unwinding = true ∧ ∀ c, s'.conns c = none := by
  have hdeleted := h.deleted
  have hclosed : ∀ {c conn}, s.conns c = some conn → s.deleted ≠ true :=
    fun hc hd => by cases ((hdeleted hd).2 _).symm.trans hc
  cases hmove with
  | enter hu | dispatchKnown hu | dispatchNew hu | startFails hu | fail hu | log hu | execute hu
  | answer hu | terminal hu | complete hu | completeClosed hu | finish hu =>
      exact fun hd => by cases (h.not_deleted hu).symm.trans hd
  | unwindDelete =>
      intro hd
      exact ⟨hd, fun _ => rfl⟩
  | unwindKeep =>
      intro hd
      obtain ⟨hold, hne⟩ := Bool.and_eq_true_iff.1 hd
      exact ⟨hne, (hdeleted hold).2⟩
  | catchError => exact fun hd => by cases hd
  | clientReceive hc | clientLog hc | clientRequest hc | clientEnd hc =>
      exact fun hd => absurd hd (hclosed hc)

/-- **One step keeps the shape.** -/
theorem moves (h : s.Shaped) (hmove : s.Moves step s') : s'.Shaped where
  below := h.below_moves hmove
  frames := h.frames_moves hmove
  fresh := h.fresh_moves hmove
  table := h.table_moves hmove
  unwinding := h.unwinding_moves hmove
  flag := h.flag_moves hmove
  deleted := h.deleted_moves hmove

end CallState.Shaped

/-! ## Runs -/

/-- The states of a session reached by steps that all meet a condition. -/
abbrev CallState.Reached (ok : CallState → CallStep → Prop) : CallState → Prop :=
  ReachableUnder (fun s => s = CallState.start) (fun s step s' => s.step step = some s') ok

/-- **Every state of every run has the shape.** -/
theorem CallState.shaped_of_reached {ok : CallState → CallStep → Prop} {s : CallState}
    (h : CallState.Reached ok s) : s.Shaped := by
  refine h.invariant ?_ ?_
  · rintro s rfl
    exact CallState.shaped_start
  · intro s step s' hs _ hstep
    exact hs.moves (CallState.step_moves hstep)

/-- A run of steps that meet the condition in any state. -/
theorem CallState.reached_of_run {ok : CallState → CallStep → Prop} {s s' : CallState}
    {steps : List CallStep} (h : CallState.Reached ok s) (hok : ∀ step ∈ steps, ∀ s, ok s step)
    (hrun : s.run steps = some s') : CallState.Reached ok s' := by
  induction steps generalizing s with
  | nil =>
      cases hrun
      exact h
  | cons step steps ih =>
      rw [List.forall_mem_cons] at hok
      obtain ⟨t, hstep, hrun⟩ := Option.bind_eq_some_iff.1 hrun
      exact ih (.step h (hok.1 s) hstep) hok.2 hrun

end PlContainer
