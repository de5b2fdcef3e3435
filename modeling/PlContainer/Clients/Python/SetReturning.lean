import PlContainer.Clients.Python.CallResults

set_option autoImplicit false

/-! # Functions that return a set

What a set-returning function returns should lead to a RESULT with one row for each item that an
iteration over it produces, or to an error. `PyIter_Next` returns `NULL` both at the end and when the
iterator raises, and `process_call_results` does not tell them apart; nor does it look at what
`PySequence_Length` and `PySequence_GetItem` return when they raise. -/

namespace PlContainer

open Odometer Checked

/-! ## What the client has said -/

/-- An error has ended the call, as an EXCEPTION or as a LOG of level ERROR. -/
def PyState.ToldError (s : PyState) : Prop :=
  ClientMsg.terminal .exception ∈ s.sent ∨ ClientMsg.terminal .logError ∈ s.sent

theorem raiseAll_of_terminated {s : PyState} (ht : s.terminated = true) (errors : List PlcMsgError) :
    s.raiseAll errors = s := by
  induction errors with
  | nil => rfl
  | cons err errors ih =>
      rw [PyState.raiseAll, List.foldl_cons, PyState.raiseExecutionError_of_terminated ht]
      exact ih

/-- The first error is sent, the others are not. -/
theorem raiseAll_of_clear {s : PyState} (hc : s.Calm) (ht : s.terminated = false) (err : PlcMsgError)
    (errors : List PlcMsgError) :
    s.raiseAll (err :: errors) = { s.send (.terminal .exception) with terminated := true } := by
  have hfirst : s.raiseExecutionError = { s.send (.terminal .exception) with terminated := true } := by
    rw [PyState.raiseExecutionError, PyState.raiseDelayedError_of_calm hc,
      PyState.reportError_of_calm hc ht]
  rw [PyState.raiseAll, List.foldl_cons, hfirst]
  exact raiseAll_of_terminated rfl errors

/-- Reported errors end the call, unless the flag keeps all of them back. -/
theorem toldError_raiseAll {s : PyState} (ha : s.alive = true) (hc : s.Calm)
    {errors : List PlcMsgError} (hne : errors ≠ []) :
    (s.raiseAll errors).ToldError ↔ (s.terminated = true → s.ToldError) := by
  cases ht : s.terminated with
  | true =>
      rw [raiseAll_of_terminated ht]
      simp
  | false =>
      obtain ⟨err, errors, rfl⟩ := List.exists_cons_of_ne_nil hne
      rw [raiseAll_of_clear hc ht, PyState.send_of_alive ha]
      simp [PyState.ToldError]

/-- Errors that are found while a RESULT is being sent are at most parked. -/
theorem performAll_reports {s : PyState} (hs : s.sending = true) {β : Type} (errors : List β) :
    ∃ d, PyAct.performAll s (errors.map fun _ => .report []) = { s with delayed := d } := by
  induction errors generalizing s with
  | nil => exact ⟨s.delayed, rfl⟩
  | cons err errors ih =>
      have hdelayed (s : PyState) (hs : s.sending = true) : s.raiseDelayedError = s := by
        unfold PyState.raiseDelayedError
        simp [hs]
      have hfirst : ∃ d, (PyAct.report []).perform s = { s with delayed := d } := by
        rw [PyAct.perform, hdelayed s hs, PyAct.performAll]
        unfold PyState.reportError
        split
        · exact ⟨true, hdelayed { s with delayed := true } hs⟩
        · exact ⟨s.delayed, rfl⟩
      obtain ⟨d, hd⟩ := hfirst
      rw [List.map_cons, PyAct.performAll, hd]
      exact ih hs

/-- The RESULT is the only message of its kind, and nothing follows it. -/
theorem sent_process_sends {s : PyState} (ha : s.alive = true) {β : Type} (errors : List β) :
    (PyResult.process s (.sends (errors.map fun _ => .report []))).sent
      = s.sent ++ [.terminal .result] := by
  obtain ⟨d, hd⟩ := performAll_reports (s := { s with sending := true, sent := [] }) rfl errors
  rw [PyResult.process, if_pos ha]
  simp only [hd]
  rw [if_pos ha]
  rfl

section

variable {α : Type} {api : PyApi α}

/-! ## The RESULT arrives -/

/-- The backend reads the message to its end, and gets the error in it or the rows, as far as they are
    not too large for the channel. -/
def PlcMsgResult.Arrives (msg : PlcMsgResult) : Prop :=
  (∀ row ∈ msg.data, ∀ d ∈ row, Value.rawWithinLimits d = true) →
    (∀ err, msg.exceptionCallback = some (some err) → cstringOk err.stacktrace = true) →
    ∀ mask, MsgType.allowedBy .result mask = true →
      ∃ bytes m, plcontainerChannelSend (.result msg) = some bytes ∧
        (∀ rest, (plcontainerChannelReceive mask).run (bytes ++ rest) = .ok (m, rest)) ∧
        m.readBack = (PlcMessage.result msg).answer

theorem hasOutput_of_hasOutputs {type : PlcType} (h : type.hasOutputs = true) :
    type.type.hasOutput = true := by
  obtain ⟨type, typeName, n, subTypes⟩ := type
  rw [PlcType.hasOutputs, Bool.and_eq_true] at h
  exact h.1

/-- A row fits the type of its column. -/
theorem rawMatches_rowSent {type : PlcType} (ht : type.wellFormed = true)
    (hout : type.hasOutputs = true) {o : Option (PyObj α)} {r : RawData × List (ConvError α)}
    (h : api.RowSent type o r) (hr : Value.rawWithinLimits r.1 = true) : rawMatches type r.1 = true := by
  cases o with
  | none =>
      obtain ⟨type, typeName, n, subTypes⟩ := type
      obtain ⟨-, htype, rfl⟩ := h
      cases htype
      exact rawMatches_of_flat rfl (by decide)
  | some o =>
      by_cases ho : o = .none
      · subst ho
        cases h
        rw [rawMatches]
      · obtain ⟨c, v, hc, -, -, hv, hr1⟩ := (rowOf_value type r ho).1 h
        rw [hr1] at hr ⊢
        have hsent : api.beforeSending.convertAndSend type o = .ok (v, c.errors ++ r.2) := by
          rw [PyApi.convertAndSend, hc]
          show api.beforeSending.sendValue type c.output >>= _ = _
          rw [sendValue_beforeSending type c.output _ hv]
          rfl
        exact rawMatches_sent ht hout hsent hr

/-- The rows that are sent arrive. -/
theorem rowsMessage_arrives {type : PlcType} (ht : type.wellFormed = true)
    (hout : type.hasOutputs = true) {objs : List (Option (PyObj α))}
    {rows : List (RawData × List (ConvError α))} (hrows : List.Forall₂ (api.RowSent type) objs rows)
    (hlength : rows.length < 2 ^ 32) (parked : List (ConvError α)) :
    (api.rowsMessage type (rows.map Prod.fst) parked).Arrives := by
  intro hlimits hstack mask hmask
  have hmatches : ∀ r ∈ rows, Value.rawWithinLimits r.1 = true → rawMatches type r.1 = true :=
    forall_mem_of_forall₂ hrows fun o r hr => rawMatches_rowSent ht hout hr
  have hwf : (PlcMessage.result (api.rowsMessage type (rows.map Prod.fst) parked)).wellFormed = true := by
    refine rowsMessage_wellFormed ht (by rwa [List.length_map]) ?_ ?_
    · rw [List.forall_mem_map]
      intro r hr
      refine hmatches r hr (hlimits [r.1] ?_ r.1 (List.mem_singleton_self _))
      exact List.mem_map.2 ⟨r.1, List.mem_map_of_mem hr, rfl⟩
    · intro err herr
      refine hstack (api.exception err) ?_
      rw [PyApi.rowsMessage, Option.mem_def.1 herr]
      rfl
  obtain ⟨bytes, hbytes, hreads⟩ := transfers_plcontainerChannelSend _ mask hwf hmask
  exact ⟨bytes, _, hbytes, hreads, readBack_answer _ hwf⟩

/-! ## All rows, or an error -/

variable (api)

/-- The RESULT has one row for each item of an iteration that ends normally, in order, and each is the
    conversion of its item. -/
def PyApi.HasRows (type : PlcType) (msg : PlcMsgResult) (it : Iteration α) : Prop :=
  it.ended = true ∧ msg.rows.toNat = it.items.length ∧
    ∃ rows : List RawData, msg.data = rows.map (fun d => [d]) ∧
      List.Forall₂ (fun o d => api.RowOf type (d, []) o) it.items rows

/-- A set-returning function that returns something iterable delivers everything or fails: one RESULT is
    sent that has all rows or an error in it, and it arrives; or none is sent and an error ends the
    call. -/
def PyApi.DeliversOrFails (s : PyState) (type : PlcType) (retval : Retval α) : Prop :=
  ∀ it, retval.iteration = some it →
    ∃ reply s', api.processCallResults s true type retval = .ok (reply, s') ∧
      match reply with
      | none => s'.ToldError
      | some msg => s'.sent = s.sent ++ [.terminal .result] ∧ msg.Arrives ∧
          ((∃ err, (PlcMessage.result msg).answer = .exception err) ∨ api.HasRows type msg it)

/-- The row that is made of the object is the conversion of the item. -/
def PyApi.SameRow (type : PlcType) (item : PyObj α) (o : Option (PyObj α)) : Prop :=
  ∃ r, api.RowSent type o r ∧ api.RowOf type (r.1, []) item

/-- The object is sent, and an error is found meanwhile. -/
def PyApi.RowParks (type : PlcType) (o : Option (PyObj α)) : Prop :=
  ∃ r, api.RowSent type o r ∧ r.2 ≠ []

/-- The objects that the rows are made of can all be sent, and an error is found meanwhile, or the
    iteration ends normally and they stand for its items. -/
def PyApi.SetSent (s : PyState) (type : PlcType) (retval : Retval α) (it : Iteration α) : Prop :=
  ∃ objs, retval.objects = .ok objs ∧ (∀ o ∈ objs, ∃ r, api.RowSent type o r) ∧
    (s.terminated = false ∧ (∃ o ∈ objs, api.RowParks type o) ∨
      it.ended = true ∧ List.Forall₂ (api.SameRow type) it.items objs)

variable {api}

theorem rowOf_unique {type : PlcType} {r r' : RawData × List (ConvError α)} {o : PyObj α}
    (h : api.RowOf type r o) (h' : api.RowOf type r' o) : r = r' := by
  by_cases ho : o = .none
  · subst ho
    exact Eq.trans h (Eq.symm h')
  · obtain ⟨c, v, hc, -, -, hv, hr⟩ := (rowOf_value type r ho).1 h
    obtain ⟨c', v', hc', -, -, hv', hr'⟩ := (rowOf_value type r' ho).1 h'
    cases hc.symm.trans hc'
    obtain ⟨rfl, herrors⟩ : v = v' ∧ r.2 = r'.2 := by simpa using hv.symm.trans hv'
    exact Prod.ext (hr.trans hr'.symm) herrors

theorem rowSent_unique {type : PlcType} {r r' : RawData × List (ConvError α)} {o : Option (PyObj α)}
    (h : api.RowSent type o r) (h' : api.RowSent type o r') : r = r' := by
  cases o with
  | none => exact h.2.2.trans h'.2.2.symm
  | some o => exact rowOf_unique h h'

/-- An error is found while the rows are sent, if it is for one of the objects. -/
theorem errors_ne_nil_iff {type : PlcType} {objs : List (Option (PyObj α))}
    {rows : List (RawData × List (ConvError α))} (hrows : List.Forall₂ (api.RowSent type) objs rows) :
    rows.flatMap Prod.snd ≠ [] ↔ ∃ o ∈ objs, api.RowParks type o := by
  induction hrows with
  | nil => simp
  | @cons o r objs rows hr _ ih =>
      have hfirst : api.RowParks type o ↔ r.2 ≠ [] :=
        ⟨fun ⟨r', hr', hne⟩ => rowSent_unique hr hr' ▸ hne, fun hne => ⟨r, hr, hne⟩⟩
      rw [List.flatMap_cons, Ne, List.append_eq_nil_iff, not_and_or]
      simp only [List.mem_cons, exists_eq_or_imp, hfirst, ← ih, ne_eq]

/-- The RESULT has an error in it if one was found while the rows were sent, and the flag was clear. -/
theorem answer_exception_iff (s : PyState) {type : PlcType} {objs : List (Option (PyObj α))}
    {rows : List (RawData × List (ConvError α))} (hrows : List.Forall₂ (api.RowSent type) objs rows) :
    (∃ err, (PlcMessage.result (api.rowsMessage type (rows.map Prod.fst)
        (if s.terminated then [] else rows.flatMap Prod.snd))).answer = .exception err)
      ↔ s.terminated = false ∧ ∃ o ∈ objs, api.RowParks type o := by
  have hanswer (parked : List (ConvError α)) :
      (∃ err, (PlcMessage.result (api.rowsMessage type (rows.map Prod.fst) parked)).answer
        = .exception err) ↔ parked ≠ [] := by
    cases parked with
    | nil => exact iff_of_false (fun ⟨_, h⟩ => nomatch h) (by simp)
    | cons err parked => exact iff_of_true ⟨_, rfl⟩ (by simp)
  rw [hanswer, ← errors_ne_nil_iff hrows]
  cases s.terminated <;> simp

/-- The rows that are sent are those of the iteration if they are made of objects that stand for its
    items. -/
theorem forall₂_sameRow_iff {type : PlcType} {objs : List (Option (PyObj α))}
    {rows : List (RawData × List (ConvError α))} (hrows : List.Forall₂ (api.RowSent type) objs rows)
    (items : List (PyObj α)) :
    List.Forall₂ (fun o d => api.RowOf type (d, []) o) items (rows.map Prod.fst)
      ↔ List.Forall₂ (api.SameRow type) items objs := by
  rw [List.forall₂_map_right_iff]
  constructor
  · intro h
    refine (forall₂_comp.1 ⟨rows, h, hrows.flip⟩).imp fun item o => ?_
    rintro ⟨r, hitem, hr⟩
    exact ⟨r, hr, hitem⟩
  · intro h
    refine (forall₂_comp.1 ⟨objs, h, hrows⟩).imp fun item r => ?_
    rintro ⟨o, ⟨r', hr', hitem⟩, hr⟩
    rwa [rowSent_unique hr hr']

theorem hasRows_iff {type : PlcType} {objs : List (Option (PyObj α))}
    {rows : List (RawData × List (ConvError α))} (hrows : List.Forall₂ (api.RowSent type) objs rows)
    (hlength : rows.length < 2 ^ 32) (parked : List (ConvError α)) (it : Iteration α) :
    api.HasRows type (api.rowsMessage type (rows.map Prod.fst) parked) it
      ↔ it.ended = true ∧ List.Forall₂ (api.SameRow type) it.items objs := by
  rw [← forall₂_sameRow_iff hrows]
  refine and_congr_right fun _ => ?_
  have hcount : (api.rowsMessage type (rows.map Prod.fst) parked).rows.toNat = rows.length := by
    rw [PyApi.rowsMessage, List.length_map, BitVec.toNat_ofNat, Nat.mod_eq_of_lt hlength]
  rw [hcount]
  constructor
  · rintro ⟨-, rows', hdata, hrows'⟩
    have hinj : Function.Injective fun d : RawData => [d] := fun _ _ h => List.head_eq_of_cons_eq h
    rwa [← List.map_injective_iff.2 hinj hdata] at hrows'
  · intro h
    refine ⟨?_, _, rfl, h⟩
    rw [h.length_eq, List.length_map]

/-! ## Iterators -/

/-- The loop collects the items, however the iterator ends. -/
theorem collect_eq_items {append : ℕ → Bool} {len : ℕ} {it : Iteration α}
    (h : ∀ i < it.items.length, append (len + i) = true) : it.collect append len = some it.items := by
  induction it generalizing len with
  | stop => rfl
  | raise => rfl
  | next o rest ih =>
      have hfirst : append len = true := h 0 (Nat.succ_pos _)
      have hrest : rest.collect append (len + 1) = some rest.items := by
        refine ih fun i hi => ?_
        rw [Nat.add_right_comm]
        exact h (i + 1) (Nat.succ_lt_succ hi)
      rw [Iteration.collect, if_pos hfirst, hrest]
      rfl

/-- The rows of a value that is not a sequence are made of the items of the iteration. -/
theorem objects_iterator {retval : Retval α} {it : Iteration α} (hsequence : retval.sequence = none)
    (hit : retval.iteration = some it) (happend : ∀ i < it.items.length, retval.append i = true)
    (hlength : it.items.length < 2 ^ 31) : retval.objects = .ok (it.items.map some) := by
  have hcollect : it.collect retval.append 0 = some it.items :=
    collect_eq_items fun i hi => by rw [Nat.zero_add, happend i hi]
  have hitems : (List.range it.items.length).map (it.items[·]?) = it.items.map some := by
    refine List.ext_getElem (by simp) fun i hi _ => ?_
    simp at hi
    simp [hi]
  simp only [Retval.objects, hsequence, hit, hcollect, rowObjects, toInt_ofNat32 hlength]
  rw [if_neg (by omega), Int.toNat_natCast, hitems]
  rfl

/-- An iterator that ends normally, and whose items are all converted without an error. -/
theorem setSent_iterator {retval : Retval α} {it : Iteration α} {type : PlcType} (s : PyState)
    (hobjects : retval.objects = .ok (it.items.map some)) (hended : it.ended = true)
    (hitems : ∀ o ∈ it.items, ∃ d, api.RowOf type (d, []) o) : api.SetSent s type retval it := by
  refine ⟨_, hobjects, ?_, .inr ⟨hended, ?_⟩⟩
  · rw [List.forall_mem_map]
    intro o ho
    obtain ⟨d, hd⟩ := hitems o ho
    exact ⟨(d, []), hd⟩
  · rw [List.forall₂_map_right_iff, List.forall₂_same]
    intro o ho
    obtain ⟨d, hd⟩ := hitems o ho
    exact ⟨(d, []), hd, hd⟩

/-! ## Sets in full -/

end

/-- What a generator returns, and other objects that are not sequences. -/
def generator (it : Iteration PyLeaf) : Retval PyLeaf where
  object := .leaf .object
  sequence := none
  iteration := some it
  append _ := true
  stack := none

/-- A sequence, with what an iteration over it does. -/
def sequenceOf (length : Option ℕ) (item : ℕ → Option (PyObj PyLeaf)) (it : Iteration PyLeaf) :
    Retval PyLeaf where
  object := .leaf .object
  sequence := some (length, item)
  iteration := some it
  append _ := true
  stack := none

/-- An iteration that ends normally. -/
def Iteration.ofList {α : Type} (items : List (PyObj α)) : Iteration α := items.foldr .next .stop

theorem items_ofList {α : Type} (items : List (PyObj α)) : (Iteration.ofList items).items = items := by
  induction items with
  | nil => rfl
  | cons o items ih => exact congrArg _ ih

end PlContainer
