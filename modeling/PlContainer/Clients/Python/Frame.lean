import PlContainer.Clients.Python

set_option autoImplicit false

/-! # What the actions of Python code leave alone

The client only adds to what it has sent, a process that has exited sends nothing, and outside
`process_call_results` no error is delayed. -/

namespace PlContainer

/-! ## Induction over actions and calls -/

section

variable {P : PyAct → Prop} {Q : PyCall → Prop}

/-- Induction over the actions in a script: lists of actions and calls come with the hypothesis for
    each of their members. Nothing has to be shown of calls when nothing is said of them. -/
structure PyInduction (P : PyAct → Prop) (Q : PyCall → Prop) : Prop where
  execute : ∀ during calls ok, (∀ a ∈ during, P a) → (∀ c ∈ calls, Q c) →
    P (.execute during calls ok)
  prepare : ∀ during ok, (∀ a ∈ during, P a) → P (.prepare during ok)
  freePlan : P .freePlan
  quote : P .quote
  subtransaction : ∀ ok, P (.subtransaction ok)
  output : ∀ during isError, (∀ a ∈ during, P a) → P (.output during isError)
  report : ∀ format, (∀ a ∈ format, P a) → P (.report format)
  exit : P .exit
  refused : ∀ dropped again, (∀ a ∈ dropped, P a) → Q (.refused dropped again) := by
    intros; trivial
  raised : ∀ dropped body release format, (∀ a ∈ dropped, P a) → (∀ a ∈ body, P a) →
    (∀ a ∈ release, P a) → (∀ a ∈ format, P a) → Q (.raised dropped body release format) := by
    intros; trivial
  sends : ∀ dropped body convert during release, (∀ a ∈ dropped, P a) → (∀ a ∈ body, P a) →
    (∀ a ∈ convert, P a) → (∀ a ∈ during, P a) → (∀ a ∈ release, P a) →
    Q (.returned dropped body convert (.sends during) release) := by intros; trivial
  fails : ∀ dropped body convert format release, (∀ a ∈ dropped, P a) → (∀ a ∈ body, P a) →
    (∀ a ∈ convert, P a) → (∀ a ∈ format, P a) → (∀ a ∈ release, P a) →
    Q (.returned dropped body convert (.fails format) release) := by intros; trivial

mutual

theorem PyInduction.act (h : PyInduction P Q) : ∀ a, P a
  | .execute during calls ok => h.execute during calls ok (h.acts during) (h.calls calls)
  | .prepare during ok => h.prepare during ok (h.acts during)
  | .freePlan => h.freePlan
  | .quote => h.quote
  | .subtransaction ok => h.subtransaction ok
  | .output during isError => h.output during isError (h.acts during)
  | .report format => h.report format (h.acts format)
  | .exit => h.exit

theorem PyInduction.acts (h : PyInduction P Q) : ∀ as : List PyAct, ∀ a ∈ as, P a
  | [] => fun _ ha => by cases ha
  | a :: as => List.forall_mem_cons.2 ⟨h.act a, h.acts as⟩

theorem PyInduction.call (h : PyInduction P Q) : ∀ c, Q c
  | .refused dropped again => h.refused dropped again (h.acts dropped)
  | .raised dropped body release format =>
      h.raised dropped body release format (h.acts dropped) (h.acts body) (h.acts release)
        (h.acts format)
  | .returned dropped body convert (.sends during) release =>
      h.sends dropped body convert during release (h.acts dropped) (h.acts body) (h.acts convert)
        (h.acts during) (h.acts release)
  | .returned dropped body convert (.fails format) release =>
      h.fails dropped body convert format release (h.acts dropped) (h.acts body) (h.acts convert)
        (h.acts format) (h.acts release)

theorem PyInduction.calls (h : PyInduction P Q) : ∀ cs : List PyCall, ∀ c ∈ cs, Q c
  | [] => fun _ hc => by cases hc
  | c :: cs => List.forall_mem_cons.2 ⟨h.call c, h.calls cs⟩

end

end

/-! ## One frame for all steps -/

/-- No result is being sent and no error is delayed. -/
def PyState.Calm (s : PyState) : Prop := s.sending = false ∧ s.delayed = false

/-- What holds of every step of the client. -/
structure PyState.Frames (s s' : PyState) : Prop where
  grows : ∃ ms, s'.sent = s.sent ++ ms
  dead : s.alive = false → s'.alive = false ∧ s'.sent = s.sent
  calm : s.Calm → s'.Calm

namespace PyState

theorem Frames.refl (s : PyState) : s.Frames s where
  grows := ⟨[], (List.append_nil _).symm⟩
  dead := fun h => ⟨h, rfl⟩
  calm := id

theorem Frames.trans {s s' s'' : PyState} (h : s.Frames s') (h' : s'.Frames s'') : s.Frames s'' where
  grows := by
    obtain ⟨ms, hms⟩ := h.grows
    obtain ⟨ms', hms'⟩ := h'.grows
    exact ⟨ms ++ ms', by rw [hms', hms, List.append_assoc]⟩
  dead := fun hd => by
    obtain ⟨ha, hs⟩ := h.dead hd
    obtain ⟨ha', hs'⟩ := h'.dead ha
    exact ⟨ha', hs'.trans hs⟩
  calm := fun hc => h'.calm (h.calm hc)

theorem send_alive (s : PyState) (m : ClientMsg) : (s.send m).alive = s.alive := by
  unfold send
  split <;> rfl

theorem send_calm {s : PyState} (h : s.Calm) (m : ClientMsg) : (s.send m).Calm := by
  unfold send
  split
  · exact h
  · exact h

theorem send_of_alive {s : PyState} (h : s.alive = true) (m : ClientMsg) :
    s.send m = { s with sent := s.sent ++ [m] } :=
  if_pos h

theorem send_of_dead {s : PyState} (h : s.alive = false) (m : ClientMsg) : s.send m = s := by
  unfold send
  rw [h]
  rfl

theorem frame_send (s : PyState) (m : ClientMsg) : s.Frames (s.send m) where
  grows := by
    unfold send
    split
    · exact ⟨[m], rfl⟩
    · exact ⟨[], (List.append_nil _).symm⟩
  dead := fun h => by rw [send_of_dead h]; exact ⟨h, rfl⟩
  calm := fun h => send_calm h m

/-- Setting or clearing `plc_is_execution_terminated` is framed. -/
theorem frame_terminated (s : PyState) (t : Bool) : s.Frames { s with terminated := t } where
  grows := ⟨[], (List.append_nil _).symm⟩
  dead := fun h => ⟨h, rfl⟩
  calm := id

theorem frame_raiseDelayedError (s : PyState) : s.Frames s.raiseDelayedError := by
  unfold raiseDelayedError
  split
  next h =>
    refine (frame_send s (.terminal .exception)).trans ⟨⟨[], (List.append_nil _).symm⟩,
      fun hd => ⟨hd, rfl⟩, fun hc => ⟨hc.1, rfl⟩⟩
  next => exact Frames.refl s

/-- Outside `process_call_results` there is no delayed error to send. -/
theorem raiseDelayedError_of_calm {s : PyState} (h : s.Calm) : s.raiseDelayedError = s := by
  unfold raiseDelayedError
  rw [h.2]
  rfl

theorem reportError_of_calm {s : PyState} (h : s.Calm) (ht : s.terminated = false) :
    s.reportError = { s.send (.terminal .exception) with terminated := true } := by
  obtain ⟨hs, hd⟩ := h
  unfold reportError raiseDelayedError send
  rw [hd, ht, hs]
  cases ha : s.alive <;> simp [ha, hs, hd]

theorem reportError_of_terminated {s : PyState} (ht : s.terminated = true) : s.reportError = s := by
  unfold reportError
  rw [ht, Bool.not_true, Bool.and_false]
  rfl

theorem frame_reportError (s : PyState) : s.Frames s.reportError where
  grows := by
    unfold reportError
    split
    · exact (frame_raiseDelayedError { s with delayed := true }).grows
    · exact (Frames.refl s).grows
  dead := by
    unfold reportError
    split
    · exact (frame_raiseDelayedError { s with delayed := true }).dead
    · exact (Frames.refl s).dead
  calm := fun hc => by
    cases ht : s.terminated with
    | true => rwa [reportError_of_terminated ht]
    | false =>
        rw [reportError_of_calm hc ht]
        exact send_calm hc _

theorem frame_raiseExecutionError (s : PyState) : s.Frames s.raiseExecutionError :=
  (frame_raiseDelayedError s).trans (frame_reportError _)

theorem frame_freePlan (s : PyState) : s.Frames s.freePlan := by
  unfold freePlan
  split
  · exact Frames.refl s
  · exact frame_send s _

end PyState

theorem PyAct.frame_performAll_of {as : List PyAct} (h : ∀ a ∈ as, ∀ s : PyState, s.Frames (a.perform s))
    (s : PyState) : s.Frames (PyAct.performAll s as) := by
  induction as generalizing s with
  | nil => exact PyState.Frames.refl s
  | cons a as ih =>
      rw [List.forall_mem_cons] at h
      exact (h.1 s).trans (ih h.2 (a.perform s))

/-- `handle_call` clears the flag once more before it runs the function. -/
theorem PyAct.frame_started {dropped body : List PyAct}
    (hdropped : ∀ a ∈ dropped, ∀ s : PyState, s.Frames (a.perform s))
    (hbody : ∀ a ∈ body, ∀ s : PyState, s.Frames (a.perform s)) (s : PyState) :
    s.Frames (PyAct.performAll { PyAct.performAll s dropped with terminated := false } body) :=
  ((PyAct.frame_performAll_of hdropped s).trans (PyState.frame_terminated _ false)).trans
    (PyAct.frame_performAll_of hbody _)

/-- A call, from a state in which no error is delayed. -/
def PyCall.Framed (c : PyCall) : Prop :=
  ∀ s, (s.alive = false → (c.run s).alive = false) ∧ (s.delayed = false → (c.run s).Calm)

/-- What a call does after it has reset the globals is framed. -/
theorem PyCall.framed_of {c : PyCall} (r : PyState → PyState)
    (hrun : ∀ s, c.run s = r { s with sending := false, terminated := false })
    (hr : ∀ s : PyState, s.Frames (r s)) : c.Framed := by
  intro s
  rw [hrun]
  have hframe := hr { s with sending := false, terminated := false }
  exact ⟨fun hd => (hframe.dead hd).1, fun hd => hframe.calm ⟨rfl, hd⟩⟩

theorem PyCall.runAll_framed {cs : List PyCall} (h : ∀ c ∈ cs, PyCall.Framed c) (s : PyState) :
    (s.alive = false → (PyCall.runAll s cs).alive = false) ∧
      (s.Calm → (PyCall.runAll s cs).Calm) := by
  induction cs generalizing s with
  | nil => exact ⟨id, id⟩
  | cons c cs ih =>
      rw [List.forall_mem_cons] at h
      obtain ⟨hdead, hcalm⟩ := ih h.2 { c.run s with sent := [] }
      exact ⟨fun hd => hdead ((h.1 s).1 hd), fun hc => hcalm ((h.1 s).2 hc.2)⟩

/-- Waiting for an answer. -/
theorem PyCall.frame_runAll_of {cs : List PyCall} (h : ∀ c ∈ cs, PyCall.Framed c) (s : PyState) :
    s.Frames { PyCall.runAll { s with sent := [] } cs with sent := s.sent } := by
  obtain ⟨hdead, hcalm⟩ := PyCall.runAll_framed h { s with sent := [] }
  exact ⟨⟨[], (List.append_nil _).symm⟩, fun hd => ⟨hdead hd, rfl⟩, fun hc => hcalm hc⟩

theorem PyResult.frame_fails {format : List PyAct} (h : ∀ a ∈ format, ∀ s : PyState, s.Frames (a.perform s))
    (s : PyState) : s.Frames ((PyResult.fails format).process s) :=
  (s.frame_raiseDelayedError).trans
    ((PyAct.frame_performAll_of h _).trans (PyState.frame_reportError _))

theorem PyResult.frame_sends {during : List PyAct} (s : PyState) :
    s.Frames ((PyResult.sends during).process s) := by
  rw [PyResult.process]
  split
  next ha =>
    refine PyState.Frames.trans ?_ (PyState.frame_raiseDelayedError _)
    exact ⟨⟨_, rfl⟩, fun hd => (by cases ha.symm.trans hd), fun _ => ⟨rfl, rfl⟩⟩
  next => exact PyState.Frames.refl s

theorem pyFrame : PyInduction (fun a => ∀ s, PyState.Frames s (a.perform s)) PyCall.Framed where
  execute := by
    intro during calls ok hduring hcalls s
    rw [PyAct.perform]
    split
    · exact PyState.Frames.refl s
    · have hsend := (PyAct.frame_performAll_of hduring s).trans
        (PyState.frame_send _ (.request .statement))
      have hall := hsend.trans (PyCall.frame_runAll_of hcalls _)
      show s.Frames (if ok = true then _ else _)
      split
      · exact hall
      · exact hall.trans (PyState.frame_raiseExecutionError _)
  prepare := by
    intro during ok hduring s
    rw [PyAct.perform]
    split
    · exact PyState.Frames.refl s
    · have hsend := (PyAct.frame_performAll_of hduring s).trans
        (PyState.frame_send _ (.request .prepare))
      show s.Frames (if ok = true then _ else _)
      split
      · exact hsend
      · exact hsend.trans (PyState.frame_raiseExecutionError _)
  freePlan := PyState.frame_freePlan
  quote := fun s => s.frame_send _
  subtransaction := by
    intro ok s
    show s.Frames (if ok = true then _ else _)
    split
    · exact s.frame_send _
    · exact (s.frame_send _).trans (PyState.frame_raiseExecutionError _)
  output := by
    intro during isError hduring s
    rw [PyAct.perform]
    split
    · exact PyState.Frames.refl s
    · refine (PyAct.frame_performAll_of hduring s).trans ?_
      show PyState.Frames _ (if isError = true then _ else _)
      split
      · exact (PyState.frame_terminated _ true).trans (PyState.frame_send _ _)
      · exact PyState.frame_send _ _
  report := fun format hformat s => PyResult.frame_fails hformat s
  exit := fun s => ⟨⟨[], (List.append_nil _).symm⟩, fun _ => ⟨rfl, rfl⟩, id⟩
  refused := by
    intro dropped again hdropped
    refine PyCall.framed_of (fun s =>
      let s := (PyAct.performAll s dropped).raiseExecutionError
      if again then s.raiseExecutionError else s) (fun _ => rfl) fun s => ?_
    have hfirst := (PyAct.frame_performAll_of hdropped s).trans
      (PyState.frame_raiseExecutionError _)
    show s.Frames (if again = true then _ else _)
    split
    · exact hfirst.trans (PyState.frame_raiseExecutionError _)
    · exact hfirst
  raised := by
    intro dropped body release format hdropped hbody hrelease hformat
    refine PyCall.framed_of (fun s => (PyResult.fails format).process (PyAct.performAll
      (PyAct.performAll { PyAct.performAll s dropped with terminated := false } body) release))
      (fun _ => rfl) fun s => ?_
    exact (PyAct.frame_started hdropped hbody s).trans
      ((PyAct.frame_performAll_of hrelease _).trans (PyResult.frame_fails hformat _))
  sends := by
    intro dropped body convert during release hdropped hbody hconvert _ hrelease
    refine PyCall.framed_of (fun s =>
      let s := PyAct.performAll { PyAct.performAll s dropped with terminated := false } body
      PyAct.performAll (if s.terminated then s
        else (PyResult.sends during).process (PyAct.performAll s convert)) release)
      (fun _ => rfl) fun s => ?_
    refine ((PyAct.frame_started hdropped hbody s).trans ?_).trans
      (PyAct.frame_performAll_of hrelease _)
    split
    · exact PyState.Frames.refl _
    · exact (PyAct.frame_performAll_of hconvert _).trans (PyResult.frame_sends _)
  fails := by
    intro dropped body convert format release hdropped hbody hconvert hformat hrelease
    refine PyCall.framed_of (fun s =>
      let s := PyAct.performAll { PyAct.performAll s dropped with terminated := false } body
      PyAct.performAll (if s.terminated then s
        else (PyResult.fails format).process (PyAct.performAll s convert)) release)
      (fun _ => rfl) fun s => ?_
    refine ((PyAct.frame_started hdropped hbody s).trans ?_).trans
      (PyAct.frame_performAll_of hrelease _)
    split
    · exact PyState.Frames.refl _
    · exact (PyAct.frame_performAll_of hconvert _).trans (PyResult.frame_fails hformat _)

theorem PyAct.frame_perform (a : PyAct) (s : PyState) : s.Frames (a.perform s) := pyFrame.act a s

theorem PyAct.frame_performAll (as : List PyAct) (s : PyState) : s.Frames (PyAct.performAll s as) :=
  PyAct.frame_performAll_of (fun a _ => a.frame_perform) s

theorem PyCall.frame_runAll (cs : List PyCall) (s : PyState) :
    s.Frames { PyCall.runAll { s with sent := [] } cs with sent := s.sent } :=
  PyCall.frame_runAll_of (fun c _ => pyFrame.call c) s

theorem PyResult.frame_process (result : PyResult) (s : PyState) : s.Frames (result.process s) := by
  cases result with
  | sends during => exact PyResult.frame_sends s
  | fails format => exact PyResult.frame_fails (fun a _ => a.frame_perform) s

end PlContainer
