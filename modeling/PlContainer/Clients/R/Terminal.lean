import PlContainer.Clients.R
import PlContainer.Clients.Standing

set_option autoImplicit false

/-! # One terminal message per call, in the R client

`RCall.polite` says, of a call's script and of the flag that the call before has left, when the client
sends one terminal message for the call and nothing after it. -/

namespace PlContainer

section

variable (aborts : Bool)

/-! ## Scripts -/

/-- The standing after `raise_execution_error`. -/
def Standing.raised : Standing → Standing
  | .free => if aborts then .gone else .told
  | st => st

/-- The standing after the calls that were handled before an answer. The first of them finds the flag
    as it is: `handle_call` does not clear it at once. -/
def Standing.handled (st : Standing) (calls : List RCall) : Standing :=
  match st with
  | .free | .stuck =>
      let s := RCall.runAll aborts ⟨decide (st = .stuck), true, []⟩ calls
      if s.alive then (if s.terminated then .stuck else .free) else .lost
  | st => st

def RAct.standing (st : Standing) : RAct → Standing
  | .exec calls ok =>
      if st = .free then
        if ok then st.handled aborts calls else (st.handled aborts calls).raised aborts
      else st
  | .prepare ok => if ok then st.late else st.late.raised aborts
  | .execp bad calls ok =>
      let st := (if bad then st.raised aborts else st).late.handled aborts calls
      if ok then st else st.raised aborts
  | .output isError => if st = .free then (if isError then .told else .free) else st
  | .report => st.raised aborts
  | .exit =>
      match st with
      | .free | .stuck => .lost
      | .told => .gone
      | st => st

def RAct.standingAll (st : Standing) (as : List RAct) : Standing :=
  as.foldl (RAct.standing aborts) st

/-- Once the flag is set, the action does nothing. -/
def RAct.silent : RAct → Bool
  | .exec _ _ | .output _ | .report => true
  | _ => false

/-- The first thing that happens is the end of the process. -/
def RAct.diesFirst : List RAct → Bool
  | .exit :: _ => true
  | _ => false

/-- The standing of a call when its arguments are converted. -/
def RCall.begins (terminated setup : Bool) : Standing :=
  let st := if terminated then Standing.stuck else .free
  if setup then st.raised aborts else st

/-- Whether a RESULT that is sent in a standing ends the call. -/
def Standing.endsByResult (st : Standing) (during : List RAct) : Bool :=
  match st with
  | .free => during.isEmpty
  | .stuck => during.all RAct.silent
  | st => decide (st = .gone)

/-- **The client sends one terminal message for the call, and then nothing.** -/
def RCall.polite (terminated : Bool) : RCall → Bool
  | .unparsed setup => decide (RCall.begins aborts terminated setup ∈ [.free, .stuck, .gone])
  | .failed setup args body =>
      (RAct.standingAll aborts (RCall.begins aborts terminated setup) args).restarted
        (RAct.diesFirst body)
        (decide (RAct.standingAll aborts .free body ∈ [.free, .stuck, .gone]))
  | .unconverted setup args body convert =>
      let st := RAct.standingAll aborts .free body
      (RAct.standingAll aborts (RCall.begins aborts terminated setup) args).restarted
        (RAct.diesFirst (body ++ convert))
        (if st = .free then
          decide ((RAct.standingAll aborts .free convert).raised aborts ∈ [.told, .gone])
        else decide (st ∈ [.told, .gone]))
  | .returned setup args body convert during =>
      let st := RAct.standingAll aborts .free body
      (RAct.standingAll aborts (RCall.begins aborts terminated setup) args).restarted
        (RAct.diesFirst (body ++ convert))
        (if st = .free then (RAct.standingAll aborts .free convert).endsByResult during
        else decide (st ∈ [.told, .gone]))

/-! ## States -/

/-- The states of a client whose call stands so. -/
def RState.Stands (s : RState) (st : Standing) : Prop := st.Holds s.alive s.terminated s.sent

@[simp]
theorem RState.send_alive (s : RState) (m : ClientMsg) : (s.send m).alive = s.alive := by
  unfold RState.send
  split <;> rfl

@[simp]
theorem RState.send_terminated (s : RState) (m : ClientMsg) :
    (s.send m).terminated = s.terminated := by
  unfold RState.send
  split <;> rfl

@[simp]
theorem RState.send_sent (s : RState) (m : ClientMsg) :
    (s.send m).sent = if s.alive then s.sent ++ [m] else s.sent := by
  unfold RState.send
  split <;> rfl

/-- The client only adds to what it has sent. -/
def RState.Grows (s s' : RState) : Prop := ∃ ms, s'.sent = s.sent ++ ms

theorem RState.Grows.refl (s : RState) : s.Grows s := ⟨[], (List.append_nil _).symm⟩

theorem RState.Grows.trans {s s' s'' : RState} (h : s.Grows s') (h' : s'.Grows s'') :
    s.Grows s'' := by
  obtain ⟨ms, hms⟩ := h
  obtain ⟨ms', hms'⟩ := h'
  exact ⟨ms ++ ms', by rw [hms', hms, List.append_assoc]⟩

theorem RState.grows_send (s : RState) (m : ClientMsg) : s.Grows (s.send m) := by
  rw [RState.Grows, RState.send_sent]
  split
  · exact ⟨[m], rfl⟩
  · exact RState.Grows.refl s

theorem RState.grows_raise (s : RState) : s.Grows (s.raiseExecutionError aborts) := by
  unfold RState.raiseExecutionError
  split
  · exact s.grows_send _
  · exact RState.Grows.refl s

theorem RAct.grows_perform (s : RState) (a : RAct) : s.Grows (a.perform aborts s) := by
  have hraise : ∀ (ok : Bool) {s' : RState}, s.Grows s' →
      s.Grows (if ok then s' else s'.raiseExecutionError aborts) := by
    intro ok s' h
    cases ok with
    | true => exact h
    | false => exact h.trans (s'.grows_raise aborts)
  cases a with
  | exec calls ok =>
      rw [RAct.perform]
      split
      · exact RState.Grows.refl s
      · exact hraise ok (s.grows_send (.request .statement))
  | prepare ok =>
      rw [RAct.perform]
      exact hraise ok (s.grows_send _)
  | execp bad calls ok =>
      have hbad : s.Grows (if bad then s.raiseExecutionError aborts else s) := by
        split
        · exact s.grows_raise aborts
        · exact RState.Grows.refl s
      exact hraise ok (hbad.trans (RState.grows_send _ (.request .statement)))
  | output isError =>
      rw [RAct.perform]
      split
      · exact RState.Grows.refl s
      · split
        · exact RState.grows_send { s with terminated := true } _
        · exact s.grows_send _
  | report => exact s.grows_raise aborts
  | exit => exact RState.Grows.refl s

theorem RAct.performAll_of_dead {s : RState} (h : s.alive = false) (as : List RAct) :
    RAct.performAll aborts s as = s := by
  cases as with
  | nil => rfl
  | cons a as => rw [RAct.performAll, if_neg (by simp [h])]

theorem RCall.runAll_of_dead {s : RState} (h : s.alive = false) (cs : List RCall) :
    RCall.runAll aborts s cs = s := by
  cases cs with
  | nil => rfl
  | cons c cs => rw [RCall.runAll, if_neg (by simp [h])]

theorem RAct.grows_performAll (s : RState) (as : List RAct) :
    s.Grows (RAct.performAll aborts s as) := by
  induction as generalizing s with
  | nil => exact RState.Grows.refl s
  | cons a as ih =>
      rw [RAct.performAll]
      split
      · exact (a.grows_perform aborts s).trans (ih _)
      · exact RState.Grows.refl s

/-! ## Standings and steps -/

namespace RState.Stands

variable {aborts} {st : Standing} {s : RState}

theorem spoiled_grows {s' : RState} (h : s.Stands .spoiled) (hgrows : s.Grows s') :
    s'.Stands .spoiled := by
  obtain ⟨ms, hms⟩ := hgrows
  show Spoiled s'.sent
  rw [hms]
  exact Spoiled.append h ms

theorem endsCall_eq (h : s.Stands st) : endsCall s.sent = decide (st ∈ [.told, .gone]) :=
  Standing.Holds.endsCall_eq h

theorem late (h : s.Stands st) {m : ClientMsg} (hm : m.isPlain = true) :
    (s.send m).Stands st.late := by
  simpa [RState.Stands] using Standing.Holds.late h hm

/-- A LOG of level ERROR or above. -/
theorem failed (h : s.Stands st) :
    ({ s with terminated := true }.send (.terminal .logError)).Stands st.failed := by
  simpa [RState.Stands] using Standing.Holds.failed h .logError

theorem raised (h : s.Stands st) : (s.raiseExecutionError aborts).Stands (st.raised aborts) := by
  unfold RState.raiseExecutionError
  cases st with
  | free =>
      obtain ⟨ha, ht, hun⟩ := h
      simp only [ha, ht, Bool.not_false, Bool.and_self, if_true]
      cases aborts with
      | true => exact ⟨rfl, by simpa [ha] using hun.ends .exception⟩
      | false => exact ⟨rfl, rfl, by simpa [ha] using hun.ends .exception⟩
  | stuck =>
      rw [if_neg (by simp [show s.terminated = true from h.2.1])]
      exact h
  | told =>
      rw [if_neg (by simp [show s.terminated = true from h.2.1])]
      exact h
  | lost =>
      rw [if_neg (by simp [show s.alive = false from h.1])]
      exact h
  | gone =>
      rw [if_neg (by simp [show s.alive = false from h.1])]
      exact h
  | spoiled => exact h.spoiled_grows (s.grows_raise aborts)

theorem handled (h : s.Stands st) (hst : st ≠ .told) (calls : List RCall) :
    RState.Stands { RCall.runAll aborts { s with sent := [] } calls with sent := s.sent }
      (st.handled aborts calls) := by
  have hrun : ∀ r : RState, Unended s.sent → RState.Stands { r with sent := s.sent }
      (if r.alive then (if r.terminated then .stuck else .free) else .lost) := by
    intro r hun
    cases ha : r.alive with
    | false => exact ⟨rfl, hun⟩
    | true =>
        cases ht : r.terminated with
        | false => exact ⟨rfl, rfl, hun⟩
        | true => exact ⟨rfl, rfl, hun⟩
  have hdead : s.alive = false →
      (RCall.runAll aborts { s with sent := [] } calls).alive = false := by
    intro hd
    rw [RCall.runAll_of_dead aborts (s := { s with sent := [] }) hd]
    exact hd
  obtain ⟨terminated, alive, sent⟩ := s
  cases st with
  | free =>
      obtain ⟨rfl, rfl, hun⟩ : alive = true ∧ terminated = false ∧ Unended sent := h
      exact hrun _ hun
  | stuck =>
      obtain ⟨rfl, rfl, hun⟩ : alive = true ∧ terminated = true ∧ Unended sent := h
      exact hrun _ hun
  | told => exact absurd rfl hst
  | lost => exact ⟨hdead h.1, h.2⟩
  | gone => exact ⟨hdead h.1, h.2⟩
  | spoiled => exact h

theorem answered (h : s.Stands st) (ok : Bool) :
    RState.Stands (if ok then s else s.raiseExecutionError aborts)
      (if ok then st else st.raised aborts) := by
  cases ok with
  | true => exact h
  | false => exact h.raised

/-- A guarded action of a client that is alive: only a call that stands free goes through with it. -/
theorem guarded {s' : RState} {st' : Standing} (h : s.Stands st) (ha : s.alive = true)
    (hgrows : s.Grows s') (hkept : s.terminated = true → s' = s)
    (hfree : st = .free → s'.Stands st') : s'.Stands (if st = .free then st' else st) := by
  cases st with
  | free => exact hfree rfl
  | stuck =>
      rw [hkept h.2.1]
      exact h
  | told =>
      rw [hkept h.2.1]
      exact h
  | lost => cases ha.symm.trans h.1
  | gone => cases ha.symm.trans h.1
  | spoiled => exact h.spoiled_grows hgrows

/-- **One action.** -/
theorem perform (h : s.Stands st) (ha : s.alive = true) (a : RAct) :
    (a.perform aborts s).Stands (a.standing aborts st) := by
  have hgrows := a.grows_perform aborts s
  cases a with
  | exec calls ok =>
      refine h.guarded ha hgrows (fun ht => by rw [RAct.perform, if_pos ht]) ?_
      rintro rfl
      rw [RAct.perform, if_neg (by simp [show s.terminated = false from h.2.1])]
      exact ((h.late rfl).handled (by decide) calls).answered ok
  | prepare ok => exact (h.late rfl).answered ok
  | execp bad calls ok =>
      have hbad : RState.Stands (if bad then s.raiseExecutionError aborts else s)
          (if bad then st.raised aborts else st) := by
        cases bad with
        | true => exact h.raised
        | false => exact h
      exact ((hbad.late rfl).handled (Standing.late_ne_told _) calls).answered ok
  | output isError =>
      refine h.guarded ha hgrows (fun ht => by rw [RAct.perform, if_pos ht]) ?_
      rintro rfl
      rw [RAct.perform, if_neg (by simp [show s.terminated = false from h.2.1])]
      cases isError with
      | true => exact h.failed
      | false => exact h.late rfl
  | report => exact h.raised
  | exit =>
      cases st with
      | free => exact ⟨rfl, h.2.2⟩
      | stuck => exact ⟨rfl, h.2.2⟩
      | told => exact ⟨rfl, h.2.2⟩
      | lost => exact ⟨rfl, h.2⟩
      | gone => exact ⟨rfl, h.2⟩
      | spoiled => exact h

end RState.Stands

/-- A call that is over stays so. -/
theorem RAct.standingAll_final {st : Standing} (h : st = .lost ∨ st = .gone ∨ st = .spoiled)
    (as : List RAct) : RAct.standingAll aborts st as = st := by
  induction as with
  | nil => rfl
  | cons a as ih =>
      have hstep : a.standing aborts st = st := by
        rcases h with rfl | rfl | rfl <;> cases a <;>
          simp [RAct.standing, Standing.late, Standing.raised, Standing.handled]
      rw [RAct.standingAll, List.foldl_cons, hstep]
      exact ih

theorem RState.Stands.final {s : RState} {st : Standing} (h : s.Stands st)
    (hd : s.alive = false) : st = .lost ∨ st = .gone ∨ st = .spoiled := by
  cases st with
  | free => cases hd.symm.trans h.1
  | stuck => cases hd.symm.trans h.1
  | told => cases hd.symm.trans h.1
  | lost => exact .inl rfl
  | gone => exact .inr (.inl rfl)
  | spoiled => exact .inr (.inr rfl)

/-- **A list of actions.** -/
theorem RState.Stands.performAll {s : RState} {st : Standing} (h : s.Stands st) (as : List RAct) :
    (RAct.performAll aborts s as).Stands (RAct.standingAll aborts st as) := by
  induction as generalizing s st with
  | nil => exact h
  | cons a as ih =>
      cases ha : s.alive with
      | true =>
          rw [RAct.performAll, if_pos ha]
          exact ih (h.perform ha a)
      | false =>
          rw [RAct.performAll_of_dead aborts ha, RAct.standingAll_final aborts (h.final ha)]
          exact h

/-! ## The end of a call -/

/-- An R error is sent whatever the flag says. -/
theorem RState.Stands.endsCall_sendError {s : RState} {st : Standing} (h : s.Stands st) :
    endsCall s.sendError.sent = decide (st ∈ [.free, .stuck, .gone]) := by
  rw [RState.sendError, RState.send_sent, (Standing.Holds.failed h .exception).endsCall_eq]
  cases st <;> decide

/-- The end of `process_call_results`. -/
def RState.sendResult (s : RState) (during : List RAct) : RState :=
  if s.alive then
    let r := RAct.performAll aborts { s with sent := [] } during
    { r with sent := s.sent ++ (if r.alive then .terminal .result else .truncated) :: r.sent }
  else s

/-- The client has said something. -/
def RState.Heard (s s' : RState) : Prop := ∃ m ms, s'.sent = s.sent ++ m :: ms

theorem RState.Heard.grows {s s' s'' : RState} (h : s.Heard s') (h' : s'.Grows s'') :
    s.Heard s'' := by
  obtain ⟨m, ms, hms⟩ := h
  obtain ⟨ms', hms'⟩ := h'
  exact ⟨m, ms ++ ms', by rw [hms', hms, List.append_assoc, List.cons_append]⟩

theorem RState.heard_send {s : RState} (ha : s.alive = true) (m : ClientMsg) :
    s.Heard (s.send m) :=
  ⟨m, [], by simp [ha]⟩

theorem RState.heard_raise {s : RState} (ha : s.alive = true) (ht : s.terminated = false) :
    s.Heard (s.raiseExecutionError aborts) :=
  ⟨.terminal .exception, [], by simp [RState.raiseExecutionError, ha, ht]⟩

theorem RState.raise_of_terminated {s : RState} (ht : s.terminated = true) :
    s.raiseExecutionError aborts = s := by
  simp [RState.raiseExecutionError, ht]

/-- Waiting for an answer. -/
theorem RState.Heard.handled {s s' : RState} (h : s.Heard s') (calls : List RCall) :
    s.Heard { RCall.runAll aborts { s' with sent := [] } calls with sent := s'.sent } :=
  h

/-- An answer that cannot be converted. -/
theorem RState.Heard.answered {s s' : RState} (h : s.Heard s') (ok : Bool) :
    s.Heard (if ok then s' else s'.raiseExecutionError aborts) := by
  cases ok with
  | true => exact h
  | false => exact h.grows (s'.grows_raise aborts)

/-- With the flag clear, every action but the end of the process is heard. -/
theorem RAct.perform_heard {s : RState} (ha : s.alive = true) (ht : s.terminated = false)
    {a : RAct} (hne : a ≠ .exit) : s.Heard (a.perform aborts s) := by
  cases a with
  | exec calls ok =>
      rw [RAct.perform, if_neg (by simp [ht])]
      exact ((RState.heard_send ha (.request .statement)).handled aborts calls).answered aborts ok
  | prepare ok => exact (RState.heard_send ha (.request .prepare)).answered aborts ok
  | execp bad calls ok =>
      have hsend : s.Heard
          ((if bad then s.raiseExecutionError aborts else s).send (.request .statement)) := by
        cases bad with
        | true => exact (RState.heard_raise aborts ha ht).grows (RState.grows_send _ _)
        | false => exact RState.heard_send ha _
      exact (RState.Heard.handled aborts hsend calls).answered aborts ok
  | output isError =>
      rw [RAct.perform, if_neg (by simp [ht])]
      cases isError with
      | true => exact ⟨.terminal .logError, [], by simp [ha]⟩
      | false => exact RState.heard_send ha .log
  | report => exact RState.heard_raise aborts ha ht
  | exit => exact absurd rfl hne

/-- With the flag set, the silent actions do nothing and all others are heard or end the process. -/
theorem RAct.perform_flagged {s : RState} (ha : s.alive = true) (ht : s.terminated = true)
    (a : RAct) :
    if a.silent then a.perform aborts s = s
    else (a.perform aborts s).alive = false ∨ s.Heard (a.perform aborts s) := by
  cases a with
  | exec calls ok => exact if_pos ht
  | prepare ok => exact .inr ((RState.heard_send ha (.request .prepare)).answered aborts ok)
  | execp bad calls ok =>
      have hsend : s.Heard
          ((if bad then s.raiseExecutionError aborts else s).send (.request .statement)) := by
        rw [s.raise_of_terminated aborts ht, ite_self]
        exact RState.heard_send ha _
      exact .inr ((RState.Heard.handled aborts hsend calls).answered aborts ok)
  | output isError => exact if_pos ht
  | report => exact s.raise_of_terminated aborts ht
  | exit => exact .inl rfl

/-- What is heard, or ends the process, cannot be undone. -/
theorem RState.Heard.performAll {s s' : RState} (h : s'.alive = false ∨ s.Heard s')
    (as : List RAct) :
    (RAct.performAll aborts s' as).alive = false ∨ s.Heard (RAct.performAll aborts s' as) := by
  rcases h with hd | hheard
  · rw [RAct.performAll_of_dead aborts hd]
    exact .inl hd
  · exact .inr (hheard.grows (RAct.grows_performAll aborts s' as))

theorem RAct.performAll_heard {s : RState} (ha : s.alive = true) (ht : s.terminated = false)
    {as : List RAct} (hne : as ≠ []) :
    (RAct.performAll aborts s as).alive = false ∨ s.Heard (RAct.performAll aborts s as) := by
  cases as with
  | nil => exact absurd rfl hne
  | cons a as =>
      rw [RAct.performAll, if_pos ha]
      refine RState.Heard.performAll aborts ?_ as
      by_cases hexit : a = .exit
      · subst hexit
        exact .inl rfl
      · exact .inr (a.perform_heard aborts ha ht hexit)

theorem RAct.performAll_flagged {s : RState} (ha : s.alive = true) (ht : s.terminated = true)
    (as : List RAct) :
    if as.all RAct.silent then RAct.performAll aborts s as = s
    else (RAct.performAll aborts s as).alive = false ∨ s.Heard (RAct.performAll aborts s as) := by
  induction as with
  | nil => rfl
  | cons a as ih =>
      have hfirst := a.perform_flagged aborts ha ht
      rw [RAct.performAll, if_pos ha, List.all_cons]
      cases hsilent : a.silent with
      | true =>
          rw [hsilent, if_pos rfl] at hfirst
          rw [hfirst, Bool.true_and]
          exact ih
      | false =>
          rw [hsilent] at hfirst
          exact RState.Heard.performAll aborts hfirst as

/-- **A RESULT.** -/
theorem RState.Stands.endsCall_sendResult {s : RState} {st : Standing} (h : s.Stands st)
    (during : List RAct) :
    endsCall (s.sendResult aborts during).sent = st.endsByResult during := by
  have hspoiled : Unended s.sent → ∀ r : RState,
      r.alive = false ∨ RState.Heard { s with sent := [] } r →
      endsCall (s.sent ++ (if r.alive then .terminal .result else .truncated) :: r.sent)
        = false := by
    intro hun r hr
    refine Spoiled.endsCall_eq_false (hun.spoiled_result (hr.imp_right ?_))
    rintro ⟨m, ms, hms⟩
    simp [hms]
  cases st with
  | free =>
      obtain ⟨ha, ht, hun⟩ := h
      rw [RState.sendResult, if_pos ha]
      cases during with
      | nil => simpa [RAct.performAll, ha, Standing.endsByResult] using hun.ends .result
      | cons a as =>
          exact hspoiled hun _ (RAct.performAll_heard aborts (s := { s with sent := [] }) ha ht
            (List.cons_ne_nil a as))
  | stuck =>
      obtain ⟨ha, ht, hun⟩ := h
      have hall := RAct.performAll_flagged aborts (s := { s with sent := [] }) ha ht during
      rw [RState.sendResult, if_pos ha, Standing.endsByResult]
      cases hsilent : during.all RAct.silent with
      | true =>
          rw [hsilent, if_pos rfl] at hall
          simp only [hall]
          rw [if_pos ha]
          exact hun.ends .result
      | false =>
          rw [hsilent] at hall
          exact hspoiled hun _ hall
  | told =>
      rw [RState.sendResult, if_pos h.1]
      exact (spoiled_of_endsCall h.2.2 (List.cons_ne_nil _ _)).endsCall_eq_false
  | lost =>
      rw [RState.sendResult, if_neg (by simp [show s.alive = false from h.1])]
      exact h.2.endsCall_eq_false
  | gone =>
      rw [RState.sendResult, if_neg (by simp [show s.alive = false from h.1])]
      exact h.2
  | spoiled =>
      have hgrows : s.Grows (s.sendResult aborts during) := by
        rw [RState.sendResult]
        split
        · exact ⟨_, rfl⟩
        · exact RState.Grows.refl s
      exact Spoiled.endsCall_eq_false (h.spoiled_grows hgrows)

/-! ## After the flag has been cleared -/

/-- The terminal message has been sent and the flag is clear again. -/
structure RState.Over (s : RState) : Prop where
  alive : s.alive = true
  terminated : s.terminated = false
  ended : endsCall s.sent = true

/-- What such a call does next. -/
theorem RState.Over.performAll {s : RState} (h : s.Over) {as : List RAct} (hne : as ≠ []) :
    (RAct.performAll aborts s as).Stands (if RAct.diesFirst as then .gone else .spoiled) := by
  cases as with
  | nil => exact absurd rfl hne
  | cons a as =>
      rw [RAct.performAll, if_pos h.alive]
      by_cases hexit : a = .exit
      · subst hexit
        rw [RAct.performAll_of_dead aborts rfl]
        exact ⟨rfl, h.ended⟩
      · have hdies : RAct.diesFirst (a :: as) = false := by
          cases a <;> first | rfl | exact absurd rfl hexit
        obtain ⟨m, ms, hms⟩ := a.perform_heard aborts h.alive h.terminated hexit
        have hspoiled : (a.perform aborts s).Stands .spoiled := by
          show Spoiled _
          rw [hms]
          exact spoiled_of_endsCall h.ended (List.cons_ne_nil m ms)
        rw [hdies]
        exact hspoiled.spoiled_grows (RAct.grows_performAll aborts _ as)

/-- A client that says one thing more. -/
theorem RState.Over.heard {s s' : RState} (h : s.Over) (hheard : s.Heard s') :
    endsCall s'.sent = false := by
  obtain ⟨m, ms, hms⟩ := hheard
  rw [hms, endsCall_append h.ended]
  rfl

/-- Clearing the flag when the function starts. -/
theorem RState.Stands.restarted {s : RState} {st : Standing} (h : s.Stands st)
    {r : RState → RState} {dies polite : Bool}
    (hfree : ∀ s, RState.Stands s .free → endsCall (r s).sent = polite)
    (hover : ∀ s, RState.Over s → endsCall (r s).sent = dies)
    (hdead : ∀ s, s.alive = false → (r s).sent = s.sent)
    (hgrows : ∀ s : RState, s.Grows (r s)) :
    endsCall (r { s with terminated := false }).sent = st.restarted dies polite := by
  cases st with
  | free => exact hfree _ ⟨h.1, rfl, h.2.2⟩
  | stuck => exact hfree _ ⟨h.1, rfl, h.2.2⟩
  | told => exact hover _ ⟨h.1, rfl, h.2.2⟩
  | lost =>
      rw [hdead { s with terminated := false } h.1]
      exact h.2.endsCall_eq_false
  | gone =>
      rw [hdead { s with terminated := false } h.1]
      exact h.2
  | spoiled =>
      have hspoiled : RState.Stands { s with terminated := false } .spoiled := h
      exact Spoiled.endsCall_eq_false (hspoiled.spoiled_grows (hgrows _))

/-- The beginning of a call, up to the conversion of its arguments. -/
theorem RCall.stands_begin {s : RState} (ha : s.alive = true) (hsent : s.sent = []) (setup : Bool) :
    (if setup then s.raiseExecutionError aborts else s).Stands
      (RCall.begins aborts s.terminated setup) := by
  have hun : Unended s.sent := by rw [hsent]; exact unended_nil
  have hfirst : s.Stands (if s.terminated then .stuck else .free) := by
    cases ht : s.terminated with
    | true => exact ⟨ha, ht, hun⟩
    | false => exact ⟨ha, ht, hun⟩
  unfold RCall.begins
  cases setup with
  | true => exact hfirst.raised
  | false => exact hfirst

/-! ## Functions that return -/

/-- What the end of `process_call_results` does in each standing. -/
structure RCall.Finishes (finish : RState → RState) (ends : Standing → Bool) : Prop where
  stands : ∀ {s : RState} {st : Standing}, s.Stands st → endsCall (finish s).sent = ends st
  spoils : ∀ {s : RState}, s.Over → endsCall (finish s).sent = false
  dead : ∀ {s : RState}, s.alive = false → (finish s).sent = s.sent
  grows : ∀ s : RState, s.Grows (finish s)

theorem RCall.finishes_raise : RCall.Finishes (RState.raiseExecutionError aborts)
    (fun st => decide (st.raised aborts ∈ [.told, .gone])) where
  stands := fun h => h.raised.endsCall_eq
  spoils := fun h => h.heard (RState.heard_raise aborts h.alive h.terminated)
  dead := fun h => by simp [RState.raiseExecutionError, h]
  grows := fun s => s.grows_raise aborts

theorem RCall.finishes_sendResult (during : List RAct) :
    RCall.Finishes (fun s => s.sendResult aborts during) (fun st => st.endsByResult during) where
  stands := fun h => h.endsCall_sendResult aborts during
  spoils := fun h => by
    refine h.heard ?_
    rw [RState.sendResult, if_pos h.alive]
    exact ⟨_, _, rfl⟩
  dead := fun h => by rw [RState.sendResult, if_neg (by simp [h])]
  grows := fun s => by
    rw [RState.sendResult]
    split
    · exact ⟨_, rfl⟩
    · exact RState.Grows.refl s

/-- `handle_call` from where it clears the flag, for a function that returns; `finish` is the end of
    `process_call_results`. -/
def RCall.finish (body convert : List RAct) (finish : RState → RState) (s : RState) : RState :=
  let s := RAct.performAll aborts s body
  if s.terminated then s else finish (RAct.performAll aborts s convert)

namespace RCall.Finishes

variable {finish : RState → RState} {ends : Standing → Bool} (h : RCall.Finishes finish ends)
include h

theorem dead_rest {s : RState} (hd : s.alive = false) (convert : List RAct) :
    (if s.terminated then s else finish (RAct.performAll aborts s convert)).sent = s.sent := by
  split
  · rfl
  · rw [RAct.performAll_of_dead aborts hd, h.dead hd]

theorem grows_rest (s : RState) (convert : List RAct) :
    s.Grows (if s.terminated then s else finish (RAct.performAll aborts s convert)) := by
  split
  · exact RState.Grows.refl s
  · exact (RAct.grows_performAll aborts s convert).trans (h.grows _)

/-- A function that returns with the flag set, or not at all. -/
theorem rest {s : RState} {st : Standing} (hs : s.Stands st) (hst : st ≠ .free)
    (convert : List RAct) :
    endsCall (if s.terminated then s else finish (RAct.performAll aborts s convert)).sent
      = decide (st ∈ [.told, .gone]) := by
  cases st with
  | free => exact absurd rfl hst
  | stuck =>
      rw [if_pos hs.2.1]
      exact hs.endsCall_eq
  | told =>
      rw [if_pos hs.2.1]
      exact hs.endsCall_eq
  | lost =>
      rw [h.dead_rest aborts hs.1]
      exact hs.endsCall_eq
  | gone =>
      rw [h.dead_rest aborts hs.1]
      exact hs.endsCall_eq
  | spoiled => exact (hs.spoiled_grows (h.grows_rest aborts s convert)).endsCall_eq

theorem free {s : RState} (hs : s.Stands .free) (body convert : List RAct) :
    endsCall (RCall.finish aborts body convert finish s).sent
      = if RAct.standingAll aborts .free body = .free then
          ends (RAct.standingAll aborts .free convert)
        else decide (RAct.standingAll aborts .free body ∈ [.told, .gone]) := by
  have hbody := hs.performAll aborts body
  rw [RCall.finish]
  by_cases hst : RAct.standingAll aborts .free body = .free
  · rw [hst] at hbody
    rw [if_pos hst, if_neg (by simp [show RState.terminated _ = false from hbody.2.1])]
    exact h.stands (hbody.performAll aborts convert)
  · rw [if_neg hst]
    exact h.rest aborts hbody hst convert

/-- A call that was over before its function started. -/
theorem restarted {s : RState} (hs : s.Over) (body convert : List RAct) :
    endsCall (RCall.finish aborts body convert finish s).sent
      = RAct.diesFirst (body ++ convert) := by
  cases body with
  | nil =>
      rw [RCall.finish, RAct.performAll, if_neg (by simp [hs.terminated]), List.nil_append]
      cases convert with
      | nil => exact h.spoils hs
      | cons a as =>
          have hnext := hs.performAll aborts (List.cons_ne_nil a as)
          cases hdies : RAct.diesFirst (a :: as) with
          | true =>
              rw [hdies] at hnext
              rw [h.dead hnext.1]
              exact hnext.2
          | false =>
              rw [hdies] at hnext
              exact (RState.Stands.spoiled_grows hnext (h.grows _)).endsCall_eq
  | cons a as =>
      have hnext := hs.performAll aborts (List.cons_ne_nil a as)
      have hdies : RAct.diesFirst (a :: as ++ convert) = RAct.diesFirst (a :: as) := by
        cases a <;> rfl
      rw [RCall.finish, hdies]
      cases hfirst : RAct.diesFirst (a :: as) with
      | true =>
          rw [hfirst] at hnext
          exact h.rest aborts hnext (by decide) convert
      | false =>
          rw [hfirst] at hnext
          exact h.rest aborts hnext (by decide) convert

theorem endsCall_finish {s : RState} {st : Standing} (hs : s.Stands st)
    (body convert : List RAct) :
    endsCall (RCall.finish aborts body convert finish { s with terminated := false }).sent
      = st.restarted (RAct.diesFirst (body ++ convert))
        (if RAct.standingAll aborts .free body = .free then
          ends (RAct.standingAll aborts .free convert)
        else decide (RAct.standingAll aborts .free body ∈ [.told, .gone])) := by
  refine hs.restarted (fun s hs => h.free aborts hs body convert)
    (fun s hs => h.restarted aborts hs body convert) (fun s hd => ?_) (fun s => ?_)
  · rw [RCall.finish, RAct.performAll_of_dead aborts hd]
    exact h.dead_rest aborts hd convert
  · exact (RAct.grows_performAll aborts s body).trans (h.grows_rest aborts _ convert)

end RCall.Finishes

/-! ## Calls -/

/-- A function that ends in an R error. -/
theorem RState.Stands.endsCall_failed {s : RState} {st : Standing} (hs : s.Stands st)
    (body : List RAct) :
    endsCall (RAct.performAll aborts { s with terminated := false } body).sendError.sent
      = st.restarted (RAct.diesFirst body)
        (decide (RAct.standingAll aborts .free body ∈ [.free, .stuck, .gone])) := by
  refine hs.restarted (r := fun s => (RAct.performAll aborts s body).sendError)
    (fun s hfree => (hfree.performAll aborts body).endsCall_sendError) (fun s hover => ?_)
    (fun s hd => ?_) (fun s => ?_)
  · cases body with
    | nil => exact hover.heard (RState.heard_send hover.alive _)
    | cons a as =>
        have hnext := hover.performAll aborts (List.cons_ne_nil a as)
        rw [RState.Stands.endsCall_sendError hnext]
        cases RAct.diesFirst (a :: as) <;> decide
  · rw [RAct.performAll_of_dead aborts hd, RState.sendError, RState.send_sent, hd]
    rfl
  · exact (RAct.grows_performAll aborts s body).trans (RState.grows_send _ _)

end

end PlContainer
