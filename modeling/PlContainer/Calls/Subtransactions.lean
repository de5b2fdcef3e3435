import PlContainer.Library.Runs
import Mathlib.Data.List.Infix

set_option autoImplicit false

/-! # Explicit subtransactions

`subtransaction_handler.c`: a Python function can open and close subtransactions of the database by
SUBTRANSACTION messages. The backend keeps the open ones in one list, `explicit_subtransactions`,
shared by all nested calls; `plcontainer_get_result` remembers the length of the list when it begins
and aborts what is above it when it ends. Besides these, each SQL message runs in an internal
subtransaction of its own, and so do the exception blocks of the SQL it executes.

The database has a stack of open subtransactions: releasing or rolling back always acts on the
innermost one, whoever opened it. Messages are arbitrary; whether the database begins or releases a
subtransaction or fails to is part of the step. -/

namespace PlContainer

open Runs

/-- A subtransaction of the database, by the number it got when it began. -/
abbrev Subxact := ℕ

/-- `SUBTRANSACTION_RETURN_TYPE`. -/
inductive SubtransactionReturn where
  | noSubtransactionError
  | createSubtransactionError
  | releaseSubtransactionError
  | success
deriving DecidableEq, Repr

/-- One activation of `plcontainer_get_result`. -/
structure SubxactFrame where
  saveSubxactLevel : ℕ
  /-- the list when the call began; the code only has its length -/
  entry : List Subxact
  /-- the subtransactions of the SQL that the call executes, innermost first: those of exception
      blocks, and at the end that of `handle_sql_message`; none while the call waits for messages -/
  running : List Subxact
deriving DecidableEq, Repr

/-- An exit that succeeded: the subtransaction whose entry it took off the list, the one that the
    database ended, and whether that was rolled back. -/
structure SubxactExit where
  popped : Subxact
  ended : Option Subxact
  rolledBack : Bool
deriving DecidableEq, Repr

structure SubxactState where
  /-- the active calls, innermost first -/
  frames : List SubxactFrame
  /-- `explicit_subtransactions` -/
  explicitSubtransactions : List Subxact
  /-- the open subtransactions of the database, innermost first -/
  xacts : List Subxact
  /-- an error is on its way up the stack -/
  unwinding : Bool
  next : Subxact
  /-- the exits so far -/
  exits : List SubxactExit
deriving DecidableEq, Repr

def SubxactState.start : SubxactState := ⟨[], [], [], false, 0, []⟩

/-! ## The handler -/

/-- `plcontainer_subtransaction_enter`; `begins` says whether the database begins a subtransaction. -/
def plcontainerSubtransactionEnter (s : SubxactState) (begins : Bool) :
    SubtransactionReturn × SubxactState :=
  if begins then
    (.success, { s with
      explicitSubtransactions := s.next :: s.explicitSubtransactions
      xacts := s.next :: s.xacts
      next := s.next + 1 })
  else (.createSubtransactionError, s)

/-- `plcontainer_subtransaction_exit`; `ends` says whether the database ends its innermost
    subtransaction, by releasing it for the type `'e'` and by rolling it back for any other. -/
def plcontainerSubtransactionExit (s : SubxactState) (type : UInt8) (ends : Bool) :
    SubtransactionReturn × SubxactState :=
  match s.explicitSubtransactions with
  | [] => (.noSubtransactionError, s)
  | popped :: rest =>
      if ends then
        (.success, { s with
          explicitSubtransactions := rest
          xacts := s.xacts.tail
          exits := s.exits ++ [⟨popped, s.xacts.head?, decide (type ≠ 'e'.toUInt8)⟩] })
      else (.releaseSubtransactionError, s)

/-- `plcontainer_process_subtransaction`; the result of an unknown action is 0. -/
def plcontainerProcessSubtransaction (s : SubxactState) (action type : UInt8) (ok : Bool) :
    SubtransactionReturn × SubxactState :=
  if action = 'n'.toUInt8 then plcontainerSubtransactionEnter s ok
  else if action = 'x'.toUInt8 then plcontainerSubtransactionExit s type ok
  else (.noSubtransactionError, s)

/-- The loop of `plcontainer_abort_xactssubtransactions` over the list and the database's stack. -/
def abortOpen (saveSubxactLevel : ℕ) : List Subxact → List Subxact → List Subxact × List Subxact
  | [], xacts => ([], xacts)
  | x :: xs, xacts =>
      if saveSubxactLevel < (x :: xs).length then abortOpen saveSubxactLevel xs xacts.tail
      else (x :: xs, xacts)

def plcontainerAbortOpenSubtransactions (s : SubxactState) (saveSubxactLevel : ℕ) : SubxactState :=
  let (explicit, xacts) := abortOpen saveSubxactLevel s.explicitSubtransactions s.xacts
  { s with explicitSubtransactions := explicit, xacts := xacts }

/-! ## Steps -/

inductive SubxactStep where
  /-- a call's `plcontainer_get_result` begins -/
  | call
  /-- a SUBTRANSACTION message is processed -/
  | subtransaction (action type : UInt8) (ok : Bool)
  /-- `handle_sql_message` begins -/
  | statement
  /-- an exception block of the SQL begins -/
  | block
  | blockEnd
  | statementEnd
  /-- an error is raised -/
  | fail
  /-- an exception block catches the error -/
  | catchError
  /-- an exception block, or `handle_sql_message`, passes the error on -/
  | unwindSql
  /-- `plcontainer_get_result` returns -/
  | finish
  /-- `plcontainer_get_result` passes the error on -/
  | unwind
deriving DecidableEq, Repr

/-- The innermost call runs SQL with these subtransactions. -/
def SubxactState.setRunning (s : SubxactState) (running : List Subxact) : SubxactState :=
  match s.frames with
  | [] => s
  | f :: fs => { s with frames := { f with running := running } :: fs }

/-- The SQL of the innermost call begins a subtransaction. -/
def SubxactState.beginSql (s : SubxactState) (running : List Subxact) : SubxactState :=
  { s.setRunning (s.next :: running) with xacts := s.next :: s.xacts, next := s.next + 1 }

/-- The database's innermost subtransaction is released or rolled back by the SQL. -/
def SubxactState.endSql (s : SubxactState) (running : List Subxact) : SubxactState :=
  { s.setRunning running with xacts := s.xacts.tail }

/-- One step, if it is possible. -/
def SubxactState.step (s : SubxactState) : SubxactStep → Option SubxactState
  | .call =>
      match s.unwinding, s.frames with
      | false, [] => some { s with
          frames := [⟨s.explicitSubtransactions.length, s.explicitSubtransactions, []⟩] }
      | false, ⟨level, entry, x :: xs⟩ :: fs => some { s with
          frames := ⟨s.explicitSubtransactions.length, s.explicitSubtransactions, []⟩ ::
            ⟨level, entry, x :: xs⟩ :: fs }
      | _, _ => none
  | .subtransaction action type ok =>
      match s.unwinding, s.frames with
      | false, ⟨_, _, []⟩ :: _ => some (plcontainerProcessSubtransaction s action type ok).2
      | _, _ => none
  | .statement =>
      match s.unwinding, s.frames with
      | false, ⟨_, _, []⟩ :: _ => some (s.beginSql [])
      | _, _ => none
  | .block =>
      match s.unwinding, s.frames with
      | false, ⟨_, _, x :: xs⟩ :: _ => some (s.beginSql (x :: xs))
      | _, _ => none
  | .blockEnd =>
      match s.unwinding, s.frames with
      | false, ⟨_, _, _ :: x :: xs⟩ :: _ => some (s.endSql (x :: xs))
      | _, _ => none
  | .statementEnd =>
      match s.unwinding, s.frames with
      | false, ⟨_, _, [_]⟩ :: _ => some (s.endSql [])
      | _, _ => none
  | .fail =>
      match s.unwinding, s.frames with
      | false, _ :: _ => some { s with unwinding := true }
      | _, _ => none
  | .catchError =>
      match s.unwinding, s.frames with
      | true, ⟨_, _, _ :: x :: xs⟩ :: _ => some { s.endSql (x :: xs) with unwinding := false }
      | _, _ => none
  | .unwindSql =>
      match s.unwinding, s.frames with
      | true, ⟨_, _, _ :: xs⟩ :: _ => some (s.endSql xs)
      | _, _ => none
  | .finish =>
      match s.unwinding, s.frames with
      | false, ⟨level, _, []⟩ :: fs =>
          some { plcontainerAbortOpenSubtransactions s level with frames := fs }
      | _, _ => none
  | .unwind =>
      match s.unwinding, s.frames with
      | true, ⟨level, _, []⟩ :: fs =>
          some { plcontainerAbortOpenSubtransactions s level with
            frames := fs, unwinding := !fs.isEmpty }
      | _, _ => none

/-! ## What a step can do -/

/-- The ways in which a step changes the state. -/
inductive SubxactState.Moves (s : SubxactState) : SubxactStep → SubxactState → Prop where
  | call {fs : List SubxactFrame} (hframes : s.frames = fs) : Moves s .call { s with
      frames := ⟨s.explicitSubtransactions.length, s.explicitSubtransactions, []⟩ :: fs }
  | subtransaction {action type : UInt8} {ok : Bool} {level : ℕ} {entry : List Subxact}
      {fs : List SubxactFrame} (hframes : s.frames = ⟨level, entry, []⟩ :: fs) :
      Moves s (.subtransaction action type ok) (plcontainerProcessSubtransaction s action type ok).2
  | beginSql {step : SubxactStep} {level : ℕ} {entry running : List Subxact}
      {fs : List SubxactFrame} (hstep : step ∈ [.statement, .block])
      (hframes : s.frames = ⟨level, entry, running⟩ :: fs) : Moves s step (s.beginSql running)
  | endSql {step : SubxactStep} {x : Subxact} {level : ℕ} {entry running : List Subxact}
      {fs : List SubxactFrame} (u : Bool)
      (hstep : step ∈ [.blockEnd, .statementEnd, .catchError, .unwindSql])
      (hframes : s.frames = ⟨level, entry, x :: running⟩ :: fs) :
      Moves s step { s.endSql running with unwinding := u }
  | fail : Moves s .fail { s with unwinding := true }
  | leave {step : SubxactStep} {level : ℕ} {entry : List Subxact} {fs : List SubxactFrame} (u : Bool)
      (hstep : step ∈ [.finish, .unwind]) (hframes : s.frames = ⟨level, entry, []⟩ :: fs) :
      Moves s step { plcontainerAbortOpenSubtransactions s level with frames := fs, unwinding := u }

theorem SubxactState.step_moves {s s' : SubxactState} {step : SubxactStep}
    (h : s.step step = some s') : s.Moves step s' := by
  cases step with
  | call =>
      rw [step] at h
      split at h <;> cases h
      all_goals exact .call ‹_›
  | subtransaction action type ok =>
      rw [step] at h
      split at h <;> cases h
      exact .subtransaction ‹_›
  | statement | block =>
      rw [step] at h
      split at h <;> cases h
      exact .beginSql (by decide) ‹_›
  | blockEnd | statementEnd | catchError | unwindSql =>
      rw [step] at h
      split at h <;> cases h
      exact .endSql _ (by decide) ‹_›
  | fail =>
      rw [step] at h
      split at h <;> cases h
      exact .fail
  | finish | unwind =>
      rw [step] at h
      split at h <;> cases h
      exact .leave _ (by decide) ‹_›

/-! ## The layout of the stacks -/

/-- Each call has its own part of the list on top of what it found, and the same subtransactions in
    the same order on the database's stack, below those of the SQL it executes. -/
inductive Layout : List SubxactFrame → List Subxact → List Subxact → Prop where
  | nil : Layout [] [] []
  | cons {f : SubxactFrame} {fs : List SubxactFrame} (own : List Subxact) {below : List Subxact}
      (hlevel : f.saveSubxactLevel = f.entry.length) (hbelow : Layout fs f.entry below) :
      Layout (f :: fs) (own ++ f.entry) (f.running ++ own ++ below)

theorem Layout.cases {f : SubxactFrame} {fs : List SubxactFrame} {explicit xacts : List Subxact}
    (h : Layout (f :: fs) explicit xacts) :
    ∃ own below, explicit = own ++ f.entry ∧ xacts = f.running ++ own ++ below ∧
      f.saveSubxactLevel = f.entry.length ∧ Layout fs f.entry below := by
  cases h with
  | cons own hlevel hbelow => exact ⟨_, _, rfl, rfl, hlevel, hbelow⟩

/-- The SQL of the innermost call changes its subtransactions. -/
theorem Layout.setRunning {level : ℕ} {entry running : List Subxact} {fs : List SubxactFrame}
    {explicit xacts : List Subxact} (h : Layout (⟨level, entry, running⟩ :: fs) explicit xacts)
    (running' : List Subxact) :
    ∃ rest, xacts = running ++ rest ∧
      Layout (⟨level, entry, running'⟩ :: fs) explicit (running' ++ rest) := by
  obtain ⟨own, below, rfl, rfl, hlevel, hbelow⟩ := h.cases
  refine ⟨own ++ below, List.append_assoc .., ?_⟩
  rw [← List.append_assoc]
  exact Layout.cons (f := ⟨_, _, running'⟩) own hlevel hbelow

/-- What every call found when it began is still at the end of the list. -/
theorem Layout.entry_suffix {frames : List SubxactFrame} {explicit xacts : List Subxact}
    (h : Layout frames explicit xacts) : ∀ f ∈ frames, f.entry <:+ explicit := by
  induction h with
  | nil => simp
  | cons own hlevel hbelow ih =>
      refine List.forall_mem_cons.2 ⟨List.suffix_append _ _, fun g hg => ?_⟩
      exact (ih g hg).trans (List.suffix_append _ _)

theorem Layout.level_eq {frames : List SubxactFrame} {explicit xacts : List Subxact}
    (h : Layout frames explicit xacts) : ∀ f ∈ frames, f.saveSubxactLevel = f.entry.length := by
  induction h with
  | nil => simp
  | cons own hlevel hbelow ih => exact List.forall_mem_cons.2 ⟨hlevel, ih⟩

/-- Aborting down to the remembered level leaves what the call found, on both stacks. -/
theorem abortOpen_append (own entry below : List Subxact) :
    abortOpen entry.length (own ++ entry) (own ++ below) = (entry, below) := by
  induction own with
  | nil =>
      cases entry with
      | nil => rfl
      | cons x xs => rw [List.nil_append, abortOpen, if_neg (Nat.lt_irrefl _), List.nil_append]
  | cons x own ih =>
      have hlonger : entry.length < (x :: (own ++ entry)).length := by
        rw [List.length_cons, List.length_append]
        omega
      rw [List.cons_append, List.cons_append, abortOpen, if_pos hlonger, List.tail_cons]
      exact ih

theorem Layout.abortOpen {level : ℕ} {entry : List Subxact} {fs : List SubxactFrame}
    {explicit xacts : List Subxact} (h : Layout (⟨level, entry, []⟩ :: fs) explicit xacts) :
    ∃ below, PlContainer.abortOpen level explicit xacts = (entry, below) ∧
      Layout fs entry below := by
  obtain ⟨own, below, rfl, rfl, hlevel, hbelow⟩ := h.cases
  obtain rfl : level = entry.length := hlevel
  exact ⟨below, abortOpen_append own entry below, hbelow⟩

/-- **The calls are nested** in a state: what each call found when it began is at the end of the list,
    as far from its start as the call remembers, and every exit has ended the subtransaction that it
    took off the list. -/
structure SubxactState.Nested (s : SubxactState) : Prop where
  entry_suffix : ∀ f ∈ s.frames, f.entry <:+ s.explicitSubtransactions
  level : ∀ f ∈ s.frames, f.saveSubxactLevel = f.entry.length
  ended : ∀ e ∈ s.exits, e.ended = some e.popped

/-- What is kept from step to step. -/
structure SubxactState.Laid (s : SubxactState) : Prop where
  layout : Layout s.frames s.explicitSubtransactions s.xacts
  ended : ∀ e ∈ s.exits, e.ended = some e.popped

theorem SubxactState.Laid.nested {s : SubxactState} (h : s.Laid) : s.Nested :=
  ⟨h.layout.entry_suffix, h.layout.level_eq, h.ended⟩

/-- An exit that succeeds finds an open subtransaction of the innermost call's own, if it finds any. -/
def exitsOwn (s : SubxactState) : SubxactStep → Prop
  | .subtransaction action _ ok =>
      action = 'x'.toUInt8 → ok = true → s.explicitSubtransactions ≠ [] →
        ∀ f ∈ s.frames.head?, f.saveSubxactLevel < s.explicitSubtransactions.length
  | _ => True

section Moves

variable {s : SubxactState}

theorem SubxactState.Laid.enter (h : s.Laid) {level : ℕ} {entry : List Subxact}
    {fs : List SubxactFrame} (hframes : s.frames = ⟨level, entry, []⟩ :: fs) (begins : Bool) :
    (plcontainerSubtransactionEnter s begins).2.Laid := by
  obtain ⟨hlayout, hended⟩ := h
  cases begins with
  | false => exact ⟨hlayout, hended⟩
  | true =>
      rw [hframes] at hlayout
      obtain ⟨own, below, hexplicit, hxacts, hlevel, hbelow⟩ := hlayout.cases
      refine ⟨?_, hended⟩
      show Layout s.frames (s.next :: s.explicitSubtransactions) (s.next :: s.xacts)
      rw [hframes, hexplicit, hxacts]
      exact Layout.cons (s.next :: own) hlevel hbelow

/-- An exit of the innermost call's own subtransaction ends the one it takes off the list. -/
theorem SubxactState.Laid.exit (h : s.Laid) {level : ℕ} {entry : List Subxact}
    {fs : List SubxactFrame} (hframes : s.frames = ⟨level, entry, []⟩ :: fs) (type : UInt8)
    (ends : Bool)
    (hown : ends = true → s.explicitSubtransactions ≠ [] →
      level < s.explicitSubtransactions.length) :
    (plcontainerSubtransactionExit s type ends).2.Laid := by
  obtain ⟨hlayout, hended⟩ := h
  rw [hframes] at hlayout
  obtain ⟨own, below, hexplicit, hxacts, hlevel, hbelow⟩ := hlayout.cases
  rw [plcontainerSubtransactionExit]
  split
  next => exact ⟨by rw [hframes]; exact hlayout, hended⟩
  next popped rest hpopped =>
    cases ends with
    | false => exact ⟨by rw [if_neg Bool.false_ne_true, hframes]; exact hlayout, hended⟩
    | true =>
        rw [if_pos rfl]
        -- the popped subtransaction is the call's own, so it is also the database's innermost
        have hlt := hown rfl (by simp [hpopped])
        cases own with
        | nil =>
            have hlen := congrArg List.length hexplicit
            dsimp only [List.nil_append] at hlen hlevel
            omega
        | cons x own =>
            rw [hpopped] at hexplicit
            cases hexplicit
            refine ⟨?_, ?_⟩
            · show Layout s.frames (own ++ entry) s.xacts.tail
              rw [hframes, hxacts]
              exact Layout.cons own hlevel hbelow
            · intro e he
              rcases List.mem_append.1 he with he | he
              · exact hended e he
              · rw [List.mem_singleton.1 he, hxacts]
                rfl

theorem SubxactState.Laid.process (h : s.Laid) {level : ℕ} {entry : List Subxact}
    {fs : List SubxactFrame} (hframes : s.frames = ⟨level, entry, []⟩ :: fs)
    {action type : UInt8} {ok : Bool} (hown : exitsOwn s (.subtransaction action type ok)) :
    (plcontainerProcessSubtransaction s action type ok).2.Laid := by
  rw [plcontainerProcessSubtransaction]
  split
  · exact h.enter hframes ok
  · split
    next haction =>
      refine h.exit hframes type ok fun hok hne => ?_
      exact hown haction hok hne ⟨level, entry, []⟩ (by rw [hframes]; rfl)
    next => exact h

theorem SubxactState.Laid.moves (h : s.Laid) {step : SubxactStep} (hown : exitsOwn s step)
    {s' : SubxactState} (hmoves : s.Moves step s') : s'.Laid := by
  cases hmoves with
  | call hframes =>
      refine ⟨?_, h.ended⟩
      rw [← hframes]
      exact Layout.cons [] rfl h.layout
  | subtransaction hframes => exact h.process hframes hown
  | beginSql _ hframes =>
      obtain ⟨hlayout, hended⟩ := h
      rw [hframes] at hlayout
      obtain ⟨rest, hxacts, hrunning⟩ := hlayout.setRunning (s.next :: _)
      rw [SubxactState.beginSql, SubxactState.setRunning, hframes]
      refine ⟨?_, hended⟩
      dsimp only
      rw [hxacts]
      exact hrunning
  | endSql u _ hframes =>
      obtain ⟨hlayout, hended⟩ := h
      rw [hframes] at hlayout
      obtain ⟨rest, hxacts, hrunning⟩ := hlayout.setRunning _
      rw [SubxactState.endSql, SubxactState.setRunning, hframes]
      refine ⟨?_, hended⟩
      dsimp only
      rw [hxacts]
      exact hrunning
  | fail => exact ⟨h.layout, h.ended⟩
  | leave u _ hframes =>
      obtain ⟨hlayout, hended⟩ := h
      rw [hframes] at hlayout
      obtain ⟨below, habort, hbelow⟩ := hlayout.abortOpen
      rw [plcontainerAbortOpenSubtransactions, habort]
      exact ⟨hbelow, hended⟩

end Moves

/-! ## Runs -/

/-- The states of the runs in which exits take only what the exiting call has opened. -/
abbrev SubxactState.Reached : SubxactState → Prop :=
  ReachableUnder (fun s => s = SubxactState.start) (fun s step s' => s.step step = some s') exitsOwn

theorem SubxactState.laid_of_reached {s : SubxactState} (h : s.Reached) : s.Laid := by
  refine h.invariant ?_ ?_
  · rintro s rfl
    exact ⟨.nil, by simp [SubxactState.start]⟩
  · intro s step s' hs hown hstep
    exact hs.moves hown (SubxactState.step_moves hstep)

/-- A call that ends leaves the list as it found it. -/
theorem SubxactState.Laid.left {s s' : SubxactState} (h : s.Laid) {f : SubxactFrame}
    {fs : List SubxactFrame} (hframes : s.frames = f :: fs) {step : SubxactStep}
    (hmoves : s.Moves step s') (hstep : step ∈ [.finish, .unwind]) :
    s'.explicitSubtransactions = f.entry := by
  cases hmoves with
  | leave u _ hleave =>
      have hlayout := h.layout
      rw [hleave] at hlayout hframes
      cases hframes
      obtain ⟨below, habort, -⟩ := hlayout.abortOpen
      rw [plcontainerAbortOpenSubtransactions, habort]
  | beginSql hother | endSql _ hother =>
      simp only [List.mem_cons, List.not_mem_nil, or_false] at hstep hother
      rcases hstep with rfl | rfl <;> simp at hother
  | call _ | subtransaction _ | fail => simp at hstep

/-- An exit that takes what an enclosing call has opened. -/
theorem SubxactState.Laid.not_nested {s : SubxactState} (h : s.Laid) {level : ℕ}
    {entry : List Subxact} {fs : List SubxactFrame} (hframes : s.frames = ⟨level, entry, []⟩ :: fs)
    (type : UInt8) (hne : s.explicitSubtransactions ≠ [])
    (hlevel : ¬ level < s.explicitSubtransactions.length) :
    ¬ (plcontainerSubtransactionExit s type true).2.Nested := by
  intro hnested
  obtain ⟨popped, rest, hpopped⟩ := List.exists_cons_of_ne_nil hne
  rw [plcontainerSubtransactionExit, hpopped] at hnested
  have hentry : (⟨level, entry, []⟩ : SubxactFrame) ∈ s.frames := by
    rw [hframes]
    exact List.mem_cons_self ..
  have hsuffix : entry <:+ rest := hnested.entry_suffix _ hentry
  have hlen : level = entry.length := h.layout.level_eq _ hentry
  have hle := hsuffix.length_le
  rw [hpopped, List.length_cons] at hlevel
  omega

/-- **Explicit subtransactions stay nested**, in every run in which each exit finds a subtransaction
    that the exiting call has opened itself. A call then leaves the list as it found it, whether it
    returns or fails. For the message at hand the condition is exact. -/
theorem subtransactions_stay_nested (s : SubxactState) (h : s.Reached) :
    s.Nested ∧
    (∀ f fs s', s.frames = f :: fs → s.step .finish = some s' ∨ s.step .unwind = some s' →
      s'.explicitSubtransactions = f.entry) ∧
    ∀ action type ok s', s.step (.subtransaction action type ok) = some s' →
      (s'.Nested ↔ exitsOwn s (.subtransaction action type ok)) := by
  have hlaid := SubxactState.laid_of_reached h
  refine ⟨hlaid.nested, ?_, ?_⟩
  · intro f fs s' hframes hstep
    rcases hstep with hstep | hstep
    all_goals
      exact hlaid.left hframes (SubxactState.step_moves hstep) (by decide)
  · intro action type ok s' hstep
    have hmoves := SubxactState.step_moves hstep
    refine ⟨?_, fun hown => (hlaid.moves hown hmoves).nested⟩
    intro hnested haction hok hne f hf
    cases hmoves with
    | subtransaction hframes =>
        rw [hframes] at hf
        cases hf
        by_contra hlevel
        subst haction hok
        exact hlaid.not_nested hframes type hne hlevel hnested
    | beginSql hother | endSql _ hother | leave _ hother => simp at hother

/-- A run of given steps. -/
def SubxactState.run (s : SubxactState) : List SubxactStep → Option SubxactState
  | [] => some s
  | step :: steps => (s.step step).bind fun s => s.run steps

/-- A function opens a subtransaction and executes a statement that calls another function. -/
def nestedCall : SubxactState :=
  ⟨[⟨1, [0], []⟩, ⟨0, [], [1]⟩], [0], [1, 0], false, 2, []⟩

theorem subtransactions_stay_nested_nestedCall : nestedCall.Nested := by
  have hcall : SubxactState.Reached { SubxactState.start with frames := [⟨0, [], []⟩] } :=
    .step (i := .call) (.init rfl) trivial rfl
  have henter : SubxactState.Reached ⟨[⟨0, [], []⟩], [0], [0], false, 1, []⟩ :=
    .step (i := .subtransaction 'n'.toUInt8 'n'.toUInt8 true) hcall
      (fun h => absurd h (by decide)) rfl
  have hstatement : SubxactState.Reached ⟨[⟨0, [], [1]⟩], [0], [1, 0], false, 2, []⟩ :=
    .step (i := .statement) henter trivial rfl
  have hnested : nestedCall.Reached := .step (i := .call) hstatement trivial rfl
  exact (subtransactions_stay_nested nestedCall hnested).1

/-- The inner function exits the subtransaction that the outer one has opened. The list that the
    inner call found is no longer there, and the database has released the subtransaction of the
    outer statement. -/
theorem subtransactions_unnested :
    ∃ s, SubxactState.start.run [.call, .subtransaction 'n'.toUInt8 'n'.toUInt8 true, .statement,
        .call, .subtransaction 'x'.toUInt8 'e'.toUInt8 true] = some s ∧
      (¬ ∀ f ∈ s.frames, f.entry <:+ s.explicitSubtransactions) ∧
      s.exits = [⟨0, some 1, false⟩] ∧
      (s.run [.finish]).map SubxactState.explicitSubtransactions = some [] := by
  refine ⟨_, rfl, ?_, rfl, rfl⟩
  decide

end PlContainer
