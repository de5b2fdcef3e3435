import PlContainer.Clients.Python.Frame
import PlContainer.Clients.Standing

set_option autoImplicit false

/-! # One terminal message per call, in the Python client

`PyCall.polite` says, of a call's script alone, when the client sends one terminal message for the
call and nothing after it. It follows where a call stands: whether it has told the backend of an
error, and whether `plc_is_execution_terminated` is set. The two fall apart because some entry points
do not test the flag, because entry points test it before they run user code and not after, because
the flag is not set by a RESULT, and because a call that was handled in between leaves its own value
behind. -/

namespace PlContainer

/-! ## Scripts -/

mutual

/-- Once the flag is set, the action sends nothing. -/
def PyAct.guarded : PyAct → Bool
  | .quote | .subtransaction _ => false
  | .report format => PyAct.guardedAll format
  | _ => true

def PyAct.guardedAll : List PyAct → Bool
  | [] => true
  | a :: as => a.guarded && (a.exits || PyAct.guardedAll as)

/-- Once the flag is set, the action ends the process. -/
def PyAct.exits : PyAct → Bool
  | .exit => true
  | .report format => PyAct.exitsAny format
  | _ => false

def PyAct.exitsAny : List PyAct → Bool
  | [] => false
  | a :: as => a.exits || PyAct.exitsAny as

/-- The first thing that the action does is to end the process. -/
def PyAct.dies : PyAct → Bool
  | .exit => true
  | .execute during _ _ | .prepare during _ | .output during _ | .report during =>
      PyAct.diesFirst during
  | _ => false

def PyAct.diesFirst : List PyAct → Bool
  | [] => false
  | a :: _ => a.dies

/-- The action only finds errors, which go into a RESULT that is being sent. -/
def PyAct.quiet : PyAct → Bool
  | .report format => PyAct.quietAll format
  | _ => false

def PyAct.quietAll : List PyAct → Bool
  | [] => true
  | a :: as => a.quiet && PyAct.quietAll as

end

/-- A standing with the flag set, after further actions. -/
def Standing.flagged (st : Standing) (as : List PyAct) : Standing :=
  match st with
  | .stuck => if PyAct.exitsAny as then .lost else .stuck
  | .told =>
      if PyAct.guardedAll as then (if PyAct.exitsAny as then .gone else .told) else .spoiled
  | st => st

/-- The standing after an error has been found. -/
def Standing.found : Standing → Standing
  | .free => .told
  | st => st

/-- The standing after the calls that were handled before an answer. -/
def Standing.answered (st : Standing) (calls : List PyCall) : Standing :=
  match st, calls with
  | .free, _ :: _ | .stuck, _ :: _ =>
      let s := PyCall.runAll PyState.idle calls
      if s.alive then (if s.terminated then .stuck else .free) else .lost
  | st, _ => st

mutual

/-- Where a call stands after an action, if it stood free before. -/
def PyAct.standing : PyAct → Standing
  | .execute during calls ok =>
      let st := (PyAct.standingAll during).late.answered calls
      if ok then st else st.found
  | .prepare during ok =>
      let st := (PyAct.standingAll during).late
      if ok then st else st.found
  | .freePlan | .quote => .free
  | .subtransaction ok => if ok then .free else .told
  | .output during isError =>
      if isError then (PyAct.standingAll during).failed else (PyAct.standingAll during).late
  | .report format => (PyAct.standingAll format).found
  | .exit => .lost

def PyAct.standingAll : List PyAct → Standing
  | [] => .free
  | a :: as =>
      match a.standing with
      | .free => PyAct.standingAll as
      | st => st.flagged as

end

/-- The client sends one terminal message for a call whose function has returned and that stands free
    when its value is looked at, and then nothing. -/
def PyResult.polite (convert release : List PyAct) : PyResult → Bool
  | .sends during =>
      match PyAct.standingAll convert with
      | .free => PyAct.quietAll during && (release.isEmpty || PyAct.diesFirst release)
      | .stuck => PyAct.guardedAll during && !PyAct.exitsAny during && PyAct.guardedAll release
      | st => decide (st = .gone)
  | .fails format =>
      decide ((PyAct.standingAll (convert ++ format)).found.flagged release ∈ [.told, .gone])

/-- What the client's own code says next, and what runs before it. -/
def PyResult.next : PyResult → List PyAct
  | .sends _ => []
  | .fails format => format

/-- **The client sends one terminal message for the call, and then nothing.** -/
def PyCall.polite : PyCall → Bool
  | .refused dropped _ => decide ((PyAct.standingAll dropped).found ∈ [.told, .gone])
  | .raised dropped body release format =>
      (PyAct.standingAll dropped).restarted (PyAct.diesFirst (body ++ release ++ format))
        (decide ((PyAct.standingAll (body ++ release ++ format)).found ∈ [.told, .gone]))
  | .returned dropped body convert result release =>
      let st := PyAct.standingAll body
      (PyAct.standingAll dropped).restarted (PyAct.diesFirst (body ++ (convert ++ result.next)))
        (if st = .free then result.polite convert release
          else decide (st.flagged release ∈ [.told, .gone]))

/-! ## Once the flag is set -/

/-- What actions do to a client whose flag is set. -/
structure PyState.Flagged (s s' : PyState) (exits guarded : Bool) : Prop where
  terminated : s'.alive = true → s'.terminated = true
  alive : s'.alive = !exits
  sent : ∃ ms, s'.sent = s.sent ++ ms ∧ Unended ms ∧ (ms = [] ↔ guarded = true)

theorem PyState.Flagged.same {s : PyState} (ha : s.alive = true) (ht : s.terminated = true) :
    s.Flagged s false true :=
  ⟨fun _ => ht, ha, [], (List.append_nil _).symm, unended_nil, by simp⟩

theorem PyAct.performAll_flagged_of {as : List PyAct}
    (h : ∀ a ∈ as, ∀ s : PyState, s.alive = true → s.terminated = true →
      s.Flagged (a.perform s) a.exits a.guarded) (s : PyState) (ha : s.alive = true)
    (ht : s.terminated = true) :
    s.Flagged (PyAct.performAll s as) (PyAct.exitsAny as) (PyAct.guardedAll as) := by
  induction as generalizing s with
  | nil => exact .same ha ht
  | cons a as ih =>
      rw [List.forall_mem_cons] at h
      have hfirst := h.1 s ha ht
      rw [PyAct.performAll, PyAct.exitsAny, PyAct.guardedAll]
      cases hexits : a.exits with
      | true =>
          -- the process is gone, so the rest changes nothing
          have hdead : (a.perform s).alive = false := by rw [hfirst.alive, hexits]; rfl
          obtain ⟨hdead', hsent⟩ := (PyAct.frame_performAll as (a.perform s)).dead hdead
          refine ⟨fun h => (by cases hdead'.symm.trans h), hdead', ?_⟩
          rw [hsent, Bool.true_or, Bool.and_true]
          exact hfirst.sent
      | false =>
          have halive : (a.perform s).alive = true := by rw [hfirst.alive, hexits]; rfl
          have hrest := ih h.2 (a.perform s) halive (hfirst.terminated halive)
          refine ⟨hrest.terminated, hrest.alive, ?_⟩
          obtain ⟨ms, hms, hun, hnil⟩ := hfirst.sent
          obtain ⟨ms', hms', hun', hnil'⟩ := hrest.sent
          refine ⟨ms ++ ms', by rw [hms', hms, List.append_assoc], hun.append hun', ?_⟩
          rw [List.append_eq_nil_iff, hnil, hnil', Bool.false_or, Bool.and_eq_true]

theorem PyState.flagged_send {s : PyState} (ha : s.alive = true) (ht : s.terminated = true)
    (kind : RequestKind) : s.Flagged (s.send (.request kind)) false false := by
  rw [PyState.send_of_alive ha]
  refine ⟨fun _ => ht, ha, [.request kind], rfl, ?_, by simp⟩
  exact fun m hm => by cases List.mem_singleton.1 hm; rfl

theorem PyState.raiseDelayedError_of_terminated {s : PyState} (ht : s.terminated = true) :
    s.raiseDelayedError = s := by
  unfold PyState.raiseDelayedError
  rw [ht, Bool.not_true, Bool.and_false]
  rfl

theorem PyState.raiseExecutionError_of_terminated {s : PyState} (ht : s.terminated = true) :
    s.raiseExecutionError = s := by
  unfold PyState.raiseExecutionError
  rw [s.raiseDelayedError_of_terminated ht, PyState.reportError_of_terminated ht]

theorem pyFlagged : PyInduction (fun a => ∀ s : PyState, s.alive = true → s.terminated = true →
    s.Flagged (a.perform s) a.exits a.guarded) (fun _ => True) where
  execute := by
    intro during calls ok _ _ s ha ht
    rw [PyAct.perform, if_pos ht]
    exact .same ha ht
  prepare := by
    intro during ok _ s ha ht
    rw [PyAct.perform, if_pos ht]
    exact .same ha ht
  freePlan := by
    intro s ha ht
    rw [PyAct.perform, PyState.freePlan, if_pos ht]
    exact .same ha ht
  quote := fun s ha ht => PyState.flagged_send ha ht .quote
  subtransaction := by
    intro ok s ha ht
    have hsend := PyState.flagged_send ha ht .subtransaction
    show s.Flagged (if ok = true then _ else _) false false
    split
    · exact hsend
    · rw [PyState.raiseExecutionError_of_terminated (hsend.terminated hsend.alive)]
      exact hsend
  output := by
    intro during isError _ s ha ht
    rw [PyAct.perform, if_pos ht]
    exact .same ha ht
  report := by
    intro format hformat s ha ht
    have hall := PyAct.performAll_flagged_of hformat s ha ht
    rw [PyAct.perform, PyState.raiseDelayedError_of_terminated ht]
    -- a live process finds the flag set, a dead one sends nothing
    cases hlive : (PyAct.performAll s format).alive with
    | true =>
        rw [PyState.reportError_of_terminated (hall.terminated hlive)]
        exact hall
    | false =>
        obtain ⟨hdead, hsent⟩ := (PyState.frame_reportError (PyAct.performAll s format)).dead hlive
        refine ⟨fun h => (by cases hdead.symm.trans h), ?_, ?_⟩
        · rw [hdead, ← hlive]
          exact hall.alive
        · rw [hsent]
          exact hall.sent
  exit := by
    intro s ha ht
    exact ⟨fun _ => ht, rfl, [], (List.append_nil _).symm, unended_nil, by simp [PyAct.guarded]⟩

theorem PyAct.performAll_flagged (as : List PyAct) (s : PyState) (ha : s.alive = true)
    (ht : s.terminated = true) :
    s.Flagged (PyAct.performAll s as) (PyAct.exitsAny as) (PyAct.guardedAll as) :=
  PyAct.performAll_flagged_of (fun a _ => pyFlagged.act a) s ha ht

/-! ## Standings and states -/

/-- The states of a client whose call stands so. -/
def Standing.Matches (st : Standing) (s : PyState) : Prop := st.Holds s.alive s.terminated s.sent

/-- `handle_call` begins by clearing the flag. -/
theorem PyCall.run_terminated (c : PyCall) (s : PyState) (t : Bool) :
    c.run { s with terminated := t } = c.run s := by
  cases c <;> rfl

namespace Standing.Matches

variable {st : Standing} {s s' : PyState}

/-- Steps of a dead process, and steps of a client that has already spoiled the call. -/
theorem frame_final (hst : st = .lost ∨ st = .gone ∨ st = .spoiled) (h : st.Matches s)
    (hframe : s.Frames s') : st.Matches s' := by
  rcases hst with rfl | rfl | rfl
  · obtain ⟨hdead, hsent⟩ := hframe.dead h.1
    exact ⟨hdead, by rw [hsent]; exact h.2⟩
  · obtain ⟨hdead, hsent⟩ := hframe.dead h.1
    exact ⟨hdead, by rw [hsent]; exact h.2⟩
  · obtain ⟨ms, hms⟩ := hframe.grows
    rw [Standing.Matches, hms]
    exact Spoiled.append h ms

theorem flagged (as : List PyAct) (hst : st ≠ .free) (h : st.Matches s) :
    (st.flagged as).Matches (PyAct.performAll s as) := by
  cases st with
  | free => exact absurd rfl hst
  | stuck =>
      obtain ⟨ha, ht, hun⟩ := h
      have hall := PyAct.performAll_flagged as s ha ht
      obtain ⟨ms, hms, hun', -⟩ := hall.sent
      have hunended : Unended (PyAct.performAll s as).sent := by
        rw [hms]
        exact hun.append hun'
      rw [Standing.flagged]
      split
      next hexits => exact ⟨by rw [hall.alive, hexits]; rfl, hunended⟩
      next hexits =>
        have halive : (PyAct.performAll s as).alive = true := by
          rw [hall.alive, Bool.eq_false_iff.2 hexits]
          rfl
        exact ⟨halive, hall.terminated halive, hunended⟩
  | told =>
      obtain ⟨ha, ht, hend⟩ := h
      have hall := PyAct.performAll_flagged as s ha ht
      obtain ⟨ms, hms, -, hnil⟩ := hall.sent
      rw [Standing.flagged]
      split
      next hguarded =>
        have hsent : endsCall (PyAct.performAll s as).sent = true := by
          rw [hms, hnil.2 hguarded, List.append_nil]
          exact hend
        split
        next hexits => exact ⟨by rw [hall.alive, hexits]; rfl, hsent⟩
        next hexits =>
          have halive : (PyAct.performAll s as).alive = true := by
            rw [hall.alive, Bool.eq_false_iff.2 hexits]
            rfl
          exact ⟨halive, hall.terminated halive, hsent⟩
      next hguarded =>
        rw [Standing.Matches, hms]
        exact spoiled_of_endsCall hend fun hms' => hguarded (hnil.1 hms')
  | lost => exact frame_final (.inl rfl) h (PyAct.frame_performAll as s)
  | gone => exact frame_final (.inr (.inl rfl)) h (PyAct.frame_performAll as s)
  | spoiled => exact frame_final (.inr (.inr rfl)) h (PyAct.frame_performAll as s)

/-- A message of an entry point. -/
theorem late (h : st.Matches s) {m : ClientMsg} (hm : m.isPlain = true) :
    st.late.Matches (s.send m) := by
  have hlate := Holds.late h hm
  unfold PyState.send
  cases ha : s.alive <;> simpa [Matches, ha] using hlate

/-- A LOG of level ERROR or above. -/
theorem failed (h : st.Matches s) :
    st.failed.Matches ({ s with terminated := true }.send (.terminal .logError)) := by
  have hfailed := Holds.failed h .logError
  unfold PyState.send
  cases ha : s.alive <;> simpa [Matches, ha] using hfailed

/-- An error is reported unless the flag is set. -/
theorem found (h : st.Matches s) (hc : s.Calm) : st.found.Matches s.reportError := by
  cases st with
  | free =>
      rw [PyState.reportError_of_calm hc h.2.1, PyState.send_of_alive h.1]
      exact ⟨h.1, rfl, h.2.2.ends .exception⟩
  | stuck =>
      rw [PyState.reportError_of_terminated h.2.1]
      exact h
  | told =>
      rw [PyState.reportError_of_terminated h.2.1]
      exact h
  | lost => exact frame_final (.inl rfl) h s.frame_reportError
  | gone => exact frame_final (.inr (.inl rfl)) h s.frame_reportError
  | spoiled => exact frame_final (.inr (.inr rfl)) h s.frame_reportError

theorem found_raise (h : st.Matches s) (hc : s.Calm) : st.found.Matches s.raiseExecutionError := by
  rw [PyState.raiseExecutionError, PyState.raiseDelayedError_of_calm hc]
  exact h.found hc

/-- The calls that are handled before an answer see a client without a delayed error. -/
theorem answered (calls : List PyCall) (hst : st ≠ .told) (h : st.Matches s) (hc : s.Calm) :
    (st.answered calls).Matches
      { PyCall.runAll { s with sent := [] } calls with sent := s.sent } := by
  cases calls with
  | nil => cases st <;> exact h
  | cons c cs =>
      -- the flag that the calls find does not matter, so they start like the first call
      have hidle : s.alive = true →
          PyCall.runAll { s with sent := [] } (c :: cs) = PyCall.runAll PyState.idle (c :: cs) := by
        intro ha
        obtain ⟨terminated, sending, delayed, alive, sent⟩ := s
        cases ha
        cases hc.1
        cases hc.2
        show PyCall.runAll { c.run { PyState.idle with terminated := terminated } with sent := [] } cs
          = PyCall.runAll { c.run PyState.idle with sent := [] } cs
        rw [PyCall.run_terminated]
      have hrun : ∀ r : PyState, Unended s.sent →
          (if r.alive then (if r.terminated then Standing.stuck else .free) else .lost).Matches
            { r with sent := s.sent } := by
        intro r hun
        cases ha : r.alive with
        | false => exact ⟨rfl, hun⟩
        | true =>
            cases ht : r.terminated with
            | false => exact ⟨rfl, rfl, hun⟩
            | true => exact ⟨rfl, rfl, hun⟩
      have hdead : s.alive = false →
          (PyCall.runAll { s with sent := [] } (c :: cs)).alive = false :=
        fun hd => ((PyCall.frame_runAll (c :: cs) s).dead hd).1
      cases st with
      | free =>
          rw [hidle h.1]
          exact hrun _ h.2.2
      | stuck =>
          rw [hidle h.1]
          exact hrun _ h.2.2
      | told => exact absurd rfl hst
      | lost => exact ⟨hdead h.1, h.2⟩
      | gone => exact ⟨hdead h.1, h.2⟩
      | spoiled => exact h

end Standing.Matches

theorem PyAct.performAll_standing_of {as : List PyAct}
    (h : ∀ a ∈ as, ∀ s, Standing.free.Matches s → s.Calm → a.standing.Matches (a.perform s))
    (s : PyState) (hs : Standing.free.Matches s) (hc : s.Calm) :
    (PyAct.standingAll as).Matches (PyAct.performAll s as) := by
  induction as generalizing s with
  | nil => exact hs
  | cons a as ih =>
      rw [List.forall_mem_cons] at h
      have hfirst := h.1 s hs hc
      rw [PyAct.performAll, PyAct.standingAll]
      split
      next hfree =>
        rw [hfree] at hfirst
        exact ih h.2 (a.perform s) hfirst ((a.frame_perform s).calm hc)
      next hst => exact hfirst.flagged as hst

theorem pyStanding : PyInduction
    (fun a => ∀ s, Standing.free.Matches s → s.Calm → a.standing.Matches (a.perform s))
    (fun _ => True) where
  execute := by
    intro during calls ok hduring _ s hs hc
    have hcalm := (PyAct.frame_performAll during s).calm hc
    have hsend := (PyAct.performAll_standing_of hduring s hs hc).late
      (m := .request .statement) rfl
    have hcalm' := PyState.send_calm hcalm (.request .statement)
    rw [PyAct.perform, if_neg (by simp [hs.2.1])]
    generalize (PyAct.performAll s during).send (.request .statement) = s₁ at hsend hcalm'
    have hanswer := hsend.answered calls (Standing.late_ne_told _) hcalm'
    cases ok with
    | true => exact hanswer
    | false => exact hanswer.found_raise ((PyCall.frame_runAll calls s₁).calm hcalm')
  prepare := by
    intro during ok hduring s hs hc
    have hsend := (PyAct.performAll_standing_of hduring s hs hc).late (m := .request .prepare) rfl
    rw [PyAct.perform, if_neg (by simp [hs.2.1])]
    cases ok with
    | true => exact hsend
    | false =>
        exact hsend.found_raise (PyState.send_calm ((PyAct.frame_performAll during s).calm hc) _)
  freePlan := by
    intro s hs _
    rw [PyAct.perform, PyState.freePlan, if_neg (by simp [hs.2.1])]
    exact hs.late rfl
  quote := fun s hs _ => hs.late rfl
  subtransaction := by
    intro ok s hs hc
    have hsend : Standing.free.Matches (s.send (.request .subtransaction)) := hs.late rfl
    cases ok with
    | true => exact hsend
    | false => exact hsend.found_raise (PyState.send_calm hc _)
  output := by
    intro during isError hduring s hs hc
    have hall := PyAct.performAll_standing_of hduring s hs hc
    rw [PyAct.perform, if_neg (by simp [hs.2.1])]
    cases isError with
    | false => exact hall.late rfl
    | true => exact hall.failed
  report := by
    intro format hformat s hs hc
    rw [PyAct.perform, PyState.raiseDelayedError_of_calm hc]
    exact (PyAct.performAll_standing_of hformat s hs hc).found
      ((PyAct.frame_performAll format s).calm hc)
  exit := fun s hs _ => ⟨rfl, hs.2.2⟩

/-- **Where a call stands after a list of actions.** -/
theorem PyAct.performAll_standing (as : List PyAct) {s : PyState} (hs : Standing.free.Matches s)
    (hc : s.Calm) : (PyAct.standingAll as).Matches (PyAct.performAll s as) :=
  PyAct.performAll_standing_of (fun a _ => pyStanding.act a) s hs hc

/-! ## While a RESULT is being sent -/

/-- The client is sending a RESULT and the flag is clear. -/
structure PyState.Sending (s : PyState) : Prop where
  alive : s.alive = true
  terminated : s.terminated = false
  sending : s.sending = true

/-- The client has said something, or has exited. -/
def PyState.Loud (s s' : PyState) : Prop := s'.alive = false ∨ ∃ m ms, s'.sent = s.sent ++ m :: ms

theorem PyState.Loud.trans {s s' s'' : PyState} (h : s.Loud s') (h' : s'.Frames s'') :
    s.Loud s'' := by
  rcases h with hd | ⟨m, ms, hms⟩
  · exact .inl (h'.dead hd).1
  · obtain ⟨ms', hms'⟩ := h'.grows
    exact .inr ⟨m, ms ++ ms', by rw [hms', hms, List.append_assoc, List.cons_append]⟩

theorem PyState.Frames.loud_send {s s' : PyState} (h : s.Frames s') (m : ClientMsg) :
    s.Loud (s'.send m) := by
  cases ha : s'.alive with
  | false => exact .inl (by rw [PyState.send_alive, ha])
  | true =>
      obtain ⟨ms, hms⟩ := h.grows
      cases ms with
      | nil =>
          refine .inr ⟨m, [], ?_⟩
          rw [PyState.send_of_alive ha, hms, List.append_nil]
      | cons m' ms =>
          refine .inr ⟨m', ms ++ [m], ?_⟩
          rw [PyState.send_of_alive ha, hms, List.append_assoc, List.cons_append]

/-- An error that is found while a RESULT is being sent is kept for later. -/
theorem PyState.Sending.reportError {s : PyState} (h : s.Sending) :
    s.reportError.Sending ∧ s.reportError.sent = s.sent := by
  obtain ⟨ha, ht, hs⟩ := h
  unfold PyState.reportError PyState.raiseDelayedError
  rw [ht, hs]
  cases hd : s.delayed with
  | false => exact ⟨⟨ha, rfl, rfl⟩, rfl⟩
  | true => exact ⟨⟨ha, ht, hs⟩, rfl⟩

theorem PyState.Sending.raiseDelayedError {s : PyState} (h : s.Sending) :
    s.raiseDelayedError = s := by
  unfold PyState.raiseDelayedError
  rw [h.sending, Bool.not_true, Bool.and_false]
  rfl

/-- Quiet actions leave a client that is sending as it is, all others are heard. -/
def PyState.Hears (s s' : PyState) (quiet : Bool) : Prop :=
  if quiet then s'.Sending ∧ s'.sent = s.sent else s.Loud s'

theorem PyAct.performAll_hears_of {as : List PyAct}
    (h : ∀ a ∈ as, ∀ s : PyState, s.Sending → s.Hears (a.perform s) a.quiet) (s : PyState)
    (hs : s.Sending) : s.Hears (PyAct.performAll s as) (PyAct.quietAll as) := by
  induction as generalizing s with
  | nil => exact ⟨hs, rfl⟩
  | cons a as ih =>
      rw [List.forall_mem_cons] at h
      have hfirst := h.1 s hs
      rw [PyAct.performAll, PyAct.quietAll]
      cases hquiet : a.quiet with
      | false =>
          rw [hquiet] at hfirst
          exact PyState.Loud.trans hfirst (PyAct.frame_performAll as _)
      | true =>
          rw [hquiet] at hfirst
          obtain ⟨hsending, hsent⟩ : (a.perform s).Sending ∧ (a.perform s).sent = s.sent := hfirst
          have hrest := ih h.2 (a.perform s) hsending
          rw [PyState.Hears, PyState.Loud, hsent] at hrest
          exact hrest

theorem pyHears : PyInduction
    (fun a => ∀ s : PyState, s.Sending → s.Hears (a.perform s) a.quiet) (fun _ => True) where
  execute := by
    intro during calls ok _ _ s hs
    rw [PyAct.perform, if_neg (by simp [hs.terminated])]
    have hloud := ((PyAct.frame_performAll during s).loud_send (.request .statement)).trans
      (PyCall.frame_runAll calls _)
    cases ok with
    | true => exact hloud
    | false => exact hloud.trans (PyState.frame_raiseExecutionError _)
  prepare := by
    intro during ok _ s hs
    rw [PyAct.perform, if_neg (by simp [hs.terminated])]
    have hloud := (PyAct.frame_performAll during s).loud_send (.request .prepare)
    cases ok with
    | true => exact hloud
    | false => exact hloud.trans (PyState.frame_raiseExecutionError _)
  freePlan := by
    intro s hs
    rw [PyAct.perform, PyState.freePlan, if_neg (by simp [hs.terminated])]
    exact (PyState.Frames.refl s).loud_send _
  quote := fun s _ => (PyState.Frames.refl s).loud_send _
  subtransaction := by
    intro ok s _
    have hloud := (PyState.Frames.refl s).loud_send (.request .subtransaction)
    cases ok with
    | true => exact hloud
    | false => exact hloud.trans (PyState.frame_raiseExecutionError _)
  output := by
    intro during isError _ s hs
    rw [PyAct.perform, if_neg (by simp [hs.terminated])]
    have hframe := PyAct.frame_performAll during s
    cases isError with
    | true => exact (hframe.trans (PyState.frame_terminated _ true)).loud_send _
    | false => exact hframe.loud_send _
  report := by
    intro format hformat s hs
    have hall := PyAct.performAll_hears_of hformat s hs
    rw [PyAct.perform, hs.raiseDelayedError, PyAct.quiet]
    cases hquiet : PyAct.quietAll format with
    | false =>
        rw [hquiet] at hall
        exact PyState.Loud.trans hall (PyState.frame_reportError _)
    | true =>
        rw [hquiet] at hall
        obtain ⟨hsending, hsent⟩ : (PyAct.performAll s format).Sending ∧
          (PyAct.performAll s format).sent = s.sent := hall
        exact ⟨hsending.reportError.1, hsending.reportError.2.trans hsent⟩
  exit := fun _ _ => .inl rfl

theorem PyAct.performAll_hears (as : List PyAct) {s : PyState} (hs : s.Sending) :
    s.Hears (PyAct.performAll s as) (PyAct.quietAll as) :=
  PyAct.performAll_hears_of (fun a _ => pyHears.act a) s hs

/-! ## After a RESULT -/

/-- The client is alive and the flag is clear, whatever it has sent. -/
structure PyState.Clear (s : PyState) : Prop where
  alive : s.alive = true
  terminated : s.terminated = false
  calm : s.Calm

/-- With the flag clear, an action speaks unless it ends the process first. -/
def PyState.Speaks (s s' : PyState) (dies : Bool) : Prop :=
  if dies then s'.alive = false ∧ s'.sent = s.sent else ∃ m ms, s'.sent = s.sent ++ m :: ms

theorem PyState.Speaks.trans {s s' s'' : PyState} {dies : Bool} (h : s.Speaks s' dies)
    (h' : s'.Frames s'') : s.Speaks s'' dies := by
  cases dies with
  | true =>
      obtain ⟨hdead, hsent⟩ : s'.alive = false ∧ s'.sent = s.sent := h
      obtain ⟨hdead', hsent'⟩ := h'.dead hdead
      exact ⟨hdead', hsent'.trans hsent⟩
  | false =>
      obtain ⟨m, ms, hms⟩ : ∃ m ms, s'.sent = s.sent ++ m :: ms := h
      obtain ⟨ms', hms'⟩ := h'.grows
      exact ⟨m, ms ++ ms', by rw [hms', hms, List.append_assoc, List.cons_append]⟩

theorem PyState.Clear.speaks_send {s : PyState} (h : s.Clear) (m : ClientMsg) :
    s.Speaks (s.send m) false :=
  ⟨m, [], by rw [PyState.send_of_alive h.alive]⟩

theorem PyState.Clear.speaks_terminal {s : PyState} (h : s.Clear) :
    s.Speaks ({ s with terminated := true }.send (.terminal .logError)) false :=
  ⟨.terminal .logError, [], by rw [PyState.send_of_alive (s := { s with terminated := true }) h.alive]⟩

theorem PyState.Clear.speaks_reportError {s : PyState} (h : s.Clear) :
    s.Speaks s.reportError false := by
  rw [PyState.reportError_of_calm h.calm h.terminated]
  exact (h.speaks_send _).trans (PyState.frame_terminated _ true)

/-- What runs in an entry point before it sends its message. -/
theorem PyAct.during_speaks {during : List PyAct}
    (h : ∀ a ∈ during, ∀ s : PyState, s.Clear → s.Speaks (a.perform s) a.dies) {s s' : PyState}
    (hs : s.Clear) (hsilent : during = [] → s.Speaks s' false)
    (hframe : (PyAct.performAll s during).Frames s') : s.Speaks s' (PyAct.diesFirst during) := by
  cases during with
  | nil => exact hsilent rfl
  | cons a as =>
      rw [List.forall_mem_cons] at h
      exact (h.1 s hs).trans ((PyAct.frame_performAll as (a.perform s)).trans hframe)

theorem pySpeaks : PyInduction
    (fun a => ∀ s : PyState, s.Clear → s.Speaks (a.perform s) a.dies) (fun _ => True) where
  execute := by
    intro during calls ok hduring _ s hs
    rw [PyAct.perform, if_neg (by simp [hs.terminated])]
    have hrest : ∀ s₁ : PyState, s₁.Frames (if ok = true then
        { PyCall.runAll { s₁ with sent := [] } calls with sent := s₁.sent }
        else PyState.raiseExecutionError
          { PyCall.runAll { s₁ with sent := [] } calls with sent := s₁.sent }) := by
      intro s₁
      split
      · exact PyCall.frame_runAll calls s₁
      · exact (PyCall.frame_runAll calls s₁).trans (PyState.frame_raiseExecutionError _)
    refine PyAct.during_speaks hduring hs ?_ ((PyState.frame_send _ _).trans (hrest _))
    rintro rfl
    exact (hs.speaks_send (.request .statement)).trans (hrest _)
  prepare := by
    intro during ok hduring s hs
    rw [PyAct.perform, if_neg (by simp [hs.terminated])]
    have hrest : ∀ s₁ : PyState, s₁.Frames (if ok = true then s₁ else s₁.raiseExecutionError) := by
      intro s₁
      split
      · exact PyState.Frames.refl s₁
      · exact s₁.frame_raiseExecutionError
    refine PyAct.during_speaks hduring hs ?_ ((PyState.frame_send _ _).trans (hrest _))
    rintro rfl
    exact (hs.speaks_send (.request .prepare)).trans (hrest _)
  freePlan := by
    intro s hs
    rw [PyAct.perform, PyState.freePlan, if_neg (by simp [hs.terminated])]
    exact hs.speaks_send _
  quote := fun s hs => hs.speaks_send _
  subtransaction := by
    intro ok s hs
    cases ok with
    | true => exact hs.speaks_send _
    | false => exact (hs.speaks_send _).trans (PyState.frame_raiseExecutionError _)
  output := by
    intro during isError hduring s hs
    rw [PyAct.perform, if_neg (by simp [hs.terminated])]
    cases isError with
    | true =>
        refine PyAct.during_speaks hduring hs ?_
          ((PyState.frame_terminated _ true).trans (PyState.frame_send _ _))
        rintro rfl
        exact PyState.Clear.speaks_terminal hs
    | false =>
        refine PyAct.during_speaks hduring hs ?_ (PyState.frame_send _ _)
        rintro rfl
        exact hs.speaks_send _
  report := by
    intro format hformat s hs
    rw [PyAct.perform, PyState.raiseDelayedError_of_calm hs.calm]
    refine PyAct.during_speaks hformat hs ?_ (PyState.frame_reportError _)
    rintro rfl
    exact hs.speaks_reportError
  exit := fun _ _ => ⟨rfl, rfl⟩

theorem PyState.Speaks.endsCall_eq {s s' : PyState} {dies : Bool} (h : s.Speaks s' dies)
    (hend : endsCall s.sent = true) : endsCall s'.sent = dies := by
  cases dies with
  | true =>
      obtain ⟨-, hsent⟩ : _ ∧ s'.sent = s.sent := h
      rw [hsent, hend]
  | false =>
      obtain ⟨m, ms, hms⟩ : ∃ m ms, s'.sent = s.sent ++ m :: ms := h
      rw [hms, endsCall_append hend]
      rfl

/-- After a RESULT, what is released must not do anything but end the process. -/
theorem PyAct.release_after_result (as : List PyAct) {s : PyState} (hs : s.Clear)
    (hend : endsCall s.sent = true) :
    endsCall (PyAct.performAll s as).sent = (as.isEmpty || PyAct.diesFirst as) := by
  cases as with
  | nil => exact hend
  | cons a as =>
      exact ((pySpeaks.act a s hs).trans (PyAct.frame_performAll as (a.perform s))).endsCall_eq hend

/-! ## Calls -/

theorem Standing.Matches.endsCall_eq {st : Standing} {s : PyState} (h : st.Matches s) :
    endsCall s.sent = decide (st ∈ [.told, .gone]) :=
  Standing.Holds.endsCall_eq h

theorem PyAct.performAll_append (s : PyState) (as bs : List PyAct) :
    PyAct.performAll s (as ++ bs) = PyAct.performAll (PyAct.performAll s as) bs := by
  induction as generalizing s with
  | nil => rfl
  | cons a as ih => exact ih (a.perform s)

/-- A RESULT has been sent, and `r` is what became of the client meanwhile. -/
def PyState.afterResult (s r : PyState) : PyState :=
  { r with
    delayed := false, sending := false
    sent := s.sent ++ (if r.alive then .terminal .result else .truncated) :: r.sent }

theorem PyResult.process_sends {s : PyState} (ha : s.alive = true) (during : List PyAct) :
    (PyResult.sends during).process s
      = s.afterResult (PyAct.performAll { s with sending := true, sent := [] } during) := by
  rw [PyResult.process, if_pos ha]
  exact PyState.raiseDelayedError_of_calm ⟨rfl, rfl⟩

theorem PyState.spoiled_afterResult {s r : PyState} (hun : Unended s.sent)
    (h : r.alive = false ∨ r.sent ≠ []) : Standing.spoiled.Matches (s.afterResult r) :=
  hun.spoiled_result h

theorem Standing.Matches.spoiled_release {s : PyState} (h : Standing.spoiled.Matches s)
    (release : List PyAct) : endsCall (PyAct.performAll s release).sent = false :=
  Spoiled.endsCall_eq_false (h.frame_final (.inr (.inr rfl)) (PyAct.frame_performAll release s))

/-- A RESULT of a call that stands free. -/
theorem PyResult.sends_free {s : PyState} (hs : Standing.free.Matches s)
    (during release : List PyAct) :
    endsCall (PyAct.performAll ((PyResult.sends during).process s) release).sent
      = (PyAct.quietAll during && (release.isEmpty || PyAct.diesFirst release)) := by
  obtain ⟨ha, ht, hun⟩ := hs
  have hhears := PyAct.performAll_hears during
    (s := { s with sending := true, sent := [] }) ⟨ha, ht, rfl⟩
  rw [PyResult.process_sends ha]
  generalize PyAct.performAll { s with sending := true, sent := [] } during = r at hhears
  cases hquiet : PyAct.quietAll during with
  | true =>
      rw [hquiet] at hhears
      obtain ⟨hsending, hsent⟩ : r.Sending ∧ r.sent = [] := hhears
      have hend : endsCall (s.afterResult r).sent = true := by
        rw [PyState.afterResult, hsending.alive, hsent]
        exact hun.ends .result
      exact PyAct.release_after_result release
        ⟨hsending.alive, hsending.terminated, rfl, rfl⟩ hend
  | false =>
      rw [hquiet] at hhears
      refine Standing.Matches.spoiled_release (PyState.spoiled_afterResult hun ?_) release
      rcases hhears with hd | ⟨m, ms, hms⟩
      · exact .inl hd
      · exact .inr (by simp [hms])

/-- A RESULT of a call that another one, handled in between, has left with the flag set. -/
theorem PyResult.sends_stuck {s : PyState} (hs : Standing.stuck.Matches s)
    (during release : List PyAct) :
    endsCall (PyAct.performAll ((PyResult.sends during).process s) release).sent
      = (PyAct.guardedAll during && !PyAct.exitsAny during && PyAct.guardedAll release) := by
  obtain ⟨ha, ht, hun⟩ := hs
  have hall := PyAct.performAll_flagged during { s with sending := true, sent := [] } ha ht
  rw [PyResult.process_sends ha]
  generalize PyAct.performAll { s with sending := true, sent := [] } during = r at hall
  obtain ⟨ms, hms, -, hnil⟩ := hall.sent
  have hsent : r.sent = ms := hms
  cases hexits : PyAct.exitsAny during with
  | true =>
      have hdead : r.alive = false := by rw [hall.alive, hexits]; rfl
      rw [Bool.not_true, Bool.and_false, Bool.false_and]
      exact Standing.Matches.spoiled_release (PyState.spoiled_afterResult hun (.inl hdead)) release
  | false =>
      have halive : r.alive = true := by rw [hall.alive, hexits]; rfl
      cases hguarded : PyAct.guardedAll during with
      | false =>
          refine Standing.Matches.spoiled_release
            (PyState.spoiled_afterResult hun (.inr fun hr => ?_)) release
          cases hguarded.symm.trans (hnil.1 (hsent.symm.trans hr))
      | true =>
          have htold : Standing.told.Matches (s.afterResult r) := by
            refine ⟨halive, hall.terminated halive, ?_⟩
            rw [PyState.afterResult, halive, hsent, hnil.2 hguarded]
            exact hun.ends .result
          rw [(htold.flagged release (by decide)).endsCall_eq, Standing.flagged]
          cases PyAct.guardedAll release <;> cases PyAct.exitsAny release <;> decide

/-- A RESULT of a call that stands in any other way. -/
theorem PyResult.sends_ended {st : Standing} {s : PyState} (hst : st ≠ .free) (hst' : st ≠ .stuck)
    (hs : st.Matches s) (during release : List PyAct) :
    endsCall (PyAct.performAll ((PyResult.sends during).process s) release).sent
      = decide (st = .gone) := by
  have hframe := (PyResult.frame_process (.sends during) s).trans (PyAct.frame_performAll release _)
  cases st with
  | free => exact absurd rfl hst
  | stuck => exact absurd rfl hst'
  | told =>
      rw [PyResult.process_sends hs.1]
      refine Standing.Matches.spoiled_release ?_ release
      exact spoiled_of_endsCall hs.2.2 (List.cons_ne_nil _ _)
  | lost => exact (hs.frame_final (.inl rfl) hframe).2.endsCall_eq_false
  | gone => exact (hs.frame_final (.inr (.inl rfl)) hframe).2
  | spoiled => exact Spoiled.endsCall_eq_false (hs.frame_final (.inr (.inr rfl)) hframe)

/-- Formatting and reporting an error, after some actions. -/
theorem PyAct.reported_standing (as format : List PyAct) {s : PyState}
    (hs : Standing.free.Matches s) (hc : s.Calm) :
    (PyAct.standingAll (as ++ format)).found.Matches
      (PyAct.performAll (PyAct.performAll s as).raiseDelayedError format).reportError := by
  have hcalm := (PyAct.frame_performAll as s).calm hc
  rw [PyState.raiseDelayedError_of_calm hcalm, ← PyAct.performAll_append]
  exact (PyAct.performAll_standing (as ++ format) hs hc).found
    ((PyAct.frame_performAll (as ++ format) s).calm hc)

theorem Standing.found_found (st : Standing) : st.found.found = st.found := by
  cases st <;> rfl

theorem Standing.found_ne_free (st : Standing) : st.found ≠ .free := by
  cases st <;> decide

theorem PyResult.endsCall_process {s : PyState} (hs : Standing.free.Matches s) (hc : s.Calm)
    (convert release : List PyAct) (result : PyResult) :
    endsCall (PyAct.performAll (result.process (PyAct.performAll s convert)) release).sent
      = result.polite convert release := by
  cases result with
  | sends during =>
      have hconvert := PyAct.performAll_standing convert hs hc
      rw [PyResult.polite]
      split
      next hst =>
        rw [hst] at hconvert
        exact PyResult.sends_free hconvert during release
      next hst =>
        rw [hst] at hconvert
        exact PyResult.sends_stuck hconvert during release
      next hne hne' => exact PyResult.sends_ended hne hne' hconvert during release
  | fails format =>
      have hreport := (PyAct.reported_standing convert format hs hc).flagged release
        (Standing.found_ne_free _)
      exact hreport.endsCall_eq

/-- A call that has been told of an error before its function starts. -/
theorem Standing.Matches.restarted {st : Standing} {s s' : PyState} {dies polite : Bool}
    (h : st.Matches s) (hc : s.Calm)
    (hframe : { s with terminated := false }.Frames s')
    (hspeaks : PyState.Clear { s with terminated := false } →
      PyState.Speaks { s with terminated := false } s' dies)
    (hfree : Standing.free.Matches { s with terminated := false } → endsCall s'.sent = polite) :
    endsCall s'.sent = st.restarted dies polite := by
  have hfinal := (s.frame_terminated false).trans hframe
  cases st with
  | free => exact hfree ⟨h.1, rfl, h.2.2⟩
  | stuck => exact hfree ⟨h.1, rfl, h.2.2⟩
  | told => exact (hspeaks ⟨h.1, rfl, hc⟩).endsCall_eq h.2.2
  | lost => exact (h.frame_final (.inl rfl) hfinal).2.endsCall_eq_false
  | gone => exact (h.frame_final (.inr (.inl rfl)) hfinal).2
  | spoiled => exact Spoiled.endsCall_eq_false (h.frame_final (.inr (.inr rfl)) hfinal)

/-- Actions after which an error is reported. -/
theorem PyAct.reported_speaks (as format : List PyAct) {s : PyState} (hs : s.Clear) :
    s.Speaks (PyAct.performAll (PyAct.performAll s as).raiseDelayedError format).reportError
      (PyAct.diesFirst (as ++ format)) := by
  rw [PyState.raiseDelayedError_of_calm ((PyAct.frame_performAll as s).calm hs.calm),
    ← PyAct.performAll_append]
  refine PyAct.during_speaks (fun a _ => pySpeaks.act a) hs (fun hnil => ?_)
    (PyState.frame_reportError _)
  rw [hnil]
  exact hs.speaks_reportError

theorem PyResult.process_speaks (convert : List PyAct) (result : PyResult) {s : PyState}
    (hs : s.Clear) :
    s.Speaks (result.process (PyAct.performAll s convert))
      (PyAct.diesFirst (convert ++ result.next)) := by
  cases result with
  | sends during =>
      rw [PyResult.next, List.append_nil]
      refine PyAct.during_speaks (fun a _ => pySpeaks.act a) hs ?_ (PyResult.frame_process _ _)
      rintro rfl
      rw [PyAct.performAll, PyResult.process_sends hs.alive]
      exact ⟨_, _, rfl⟩
  | fails format => exact PyAct.reported_speaks convert format hs

section Returned

variable (body convert : List PyAct) (result : PyResult) (release : List PyAct)

theorem PyResult.frame_processed (s : PyState) :
    s.Frames (PyAct.performAll
      (if s.terminated then s else result.process (PyAct.performAll s convert)) release) := by
  refine PyState.Frames.trans ?_ (PyAct.frame_performAll release _)
  split
  · exact PyState.Frames.refl s
  · exact (PyAct.frame_performAll convert s).trans (result.frame_process _)

/-- A function that returns with the flag set has no result: `handle_call` goes on to release. -/
theorem Standing.Matches.unprocessed {st : Standing} {s : PyState} (hst : st ≠ .free)
    (hs : st.Matches s) :
    (st.flagged release).Matches (PyAct.performAll
      (if s.terminated then s else result.process (PyAct.performAll s convert)) release) := by
  have hframe := PyResult.frame_processed convert result release s
  cases st with
  | free => exact absurd rfl hst
  | stuck =>
      rw [if_pos hs.2.1]
      exact hs.flagged release hst
  | told =>
      rw [if_pos hs.2.1]
      exact hs.flagged release hst
  | lost => exact hs.frame_final (.inl rfl) hframe
  | gone => exact hs.frame_final (.inr (.inl rfl)) hframe
  | spoiled => exact hs.frame_final (.inr (.inr rfl)) hframe

/-- The end of `handle_call` for a function that returns. -/
def PyResult.returned (s : PyState) : PyState :=
  let s := PyAct.performAll s body
  PyAct.performAll (if s.terminated then s else result.process (PyAct.performAll s convert)) release

theorem PyResult.frame_returned (s : PyState) :
    s.Frames (PyResult.returned body convert result release s) :=
  (PyAct.frame_performAll body s).trans (PyResult.frame_processed convert result release _)

theorem PyResult.returned_speaks {s : PyState} (hs : s.Clear) :
    s.Speaks (PyResult.returned body convert result release s)
      (PyAct.diesFirst (body ++ (convert ++ result.next))) := by
  cases body with
  | nil =>
      rw [PyResult.returned, PyAct.performAll, if_neg (by simp [hs.terminated])]
      exact (PyResult.process_speaks convert result hs).trans (PyAct.frame_performAll release _)
  | cons a as =>
      exact ((pySpeaks.act a s hs).trans (PyAct.frame_performAll as (a.perform s))).trans
        (PyResult.frame_processed convert result release _)

theorem PyResult.endsCall_returned {s : PyState} (hs : Standing.free.Matches s) (hc : s.Calm) :
    endsCall (PyResult.returned body convert result release s).sent
      = if PyAct.standingAll body = .free then result.polite convert release
        else decide ((PyAct.standingAll body).flagged release ∈ [.told, .gone]) := by
  have hbody := PyAct.performAll_standing body hs hc
  have hcalm := (PyAct.frame_performAll body s).calm hc
  rw [PyResult.returned]
  generalize PyAct.performAll s body = s₁ at hbody hcalm
  by_cases hst : PyAct.standingAll body = .free
  · rw [hst] at hbody
    rw [if_pos hst, if_neg (by simp [hbody.2.1])]
    exact PyResult.endsCall_process hbody hcalm convert release result
  · rw [if_neg hst]
    exact (hbody.unprocessed convert result release hst).endsCall_eq

end Returned

namespace Standing.Matches

variable {st : Standing} {s : PyState} (h : st.Matches s) (hc : s.Calm)
include h hc

/-- A call that never comes to run its function. -/
theorem endsCall_refused (again : Bool) :
    endsCall (if again then s.raiseExecutionError.raiseExecutionError
        else s.raiseExecutionError).sent = decide (st.found ∈ [.told, .gone]) := by
  have hfound := h.found_raise hc
  cases again with
  | false => exact hfound.endsCall_eq
  | true =>
      -- the second report finds the flag set
      rw [← Standing.found_found]
      exact (hfound.found_raise ((PyState.frame_raiseExecutionError s).calm hc)).endsCall_eq

/-- A call whose function raises. -/
theorem endsCall_raised (body release format : List PyAct) :
    endsCall (PyAct.performAll (PyAct.performAll (PyAct.performAll { s with terminated := false }
        body) release).raiseDelayedError format).reportError.sent
      = st.restarted (PyAct.diesFirst (body ++ release ++ format))
        (decide ((PyAct.standingAll (body ++ release ++ format)).found ∈ [.told, .gone])) := by
  rw [← PyAct.performAll_append]
  refine h.restarted hc ?_ (PyAct.reported_speaks (body ++ release) format) fun hfree => ?_
  · exact (PyAct.frame_performAll (body ++ release) _).trans
      (PyResult.frame_process (.fails format) _)
  · exact (PyAct.reported_standing (body ++ release) format hfree hc).endsCall_eq

end Standing.Matches

end PlContainer
