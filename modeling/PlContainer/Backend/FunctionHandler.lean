import PlContainer.Backend.Datums

set_option autoImplicit false

/-! # Calls of one function expression

`plcontainer_function_handler` gets the RESULT of a set-returning function in the first call and keeps it
in `user_fctx`. Each call returns its next row, and the call after the last row ends the set. The RESULT
of another function is used up by one call. -/

namespace PlContainer

/-! ## The handler -/

/-- `plcProcResult`; `id` says which RESULT it is, in the order in which they were got. -/
structure PlcProcResult where
  id : ℕ
  resmsg : PlcMsgResult
  resrow : ℕ

/-- How a call ends. -/
inductive CallEnd where
  | row (id resrow : ℕ)
  | done (id : ℕ)
  | raised

/-- The `flinfo` of the expression, and what its calls have done. -/
structure CallSite where
  /-- `fn_extra`, which holds `user_fctx` -/
  funcctx : Option (Option PlcProcResult)
  results : List PlcMsgResult
  /-- the RESULTs that were freed, in that order -/
  freed : List ℕ
  ends : List CallEnd

/-- What happens in a call outside of the handler. -/
structure HandlerEnv where
  /-- `plcontainer_get_result`; nothing if it raises -/
  getResult : Option PlcMsgResult
  /-- the caller allows `SFRM_ValuePerCall` -/
  valuePerCall : Bool
  /-- the conversion of the row does not raise -/
  converts : Bool

/-- `PG_CATCH`: `user_fctx` is cleared, and `presult` is freed. -/
def CallSite.caught (s : CallSite) (presult : Option PlcProcResult) : CallSite :=
  { s with
    funcctx := s.funcctx.map fun _ => none
    freed := s.freed ++ presult.toList.map PlcProcResult.id
    ends := s.ends ++ [.raised] }

section

variable (type : PlcTypeInfo) (retset : Bool)

/-- The end of the handler, from `plcontainer_process_result` on. -/
def CallSite.returnRow (s : CallSite) (env : HandlerEnv) (p : PlcProcResult) : CallSite :=
  match plcontainerProcessResult type p.resmsg p.resrow, env.converts with
  | .ok _, true =>
      { s with
        funcctx := if retset then some (some { p with resrow := p.resrow + 1 }) else s.funcctx
        freed := if retset then s.freed else s.freed ++ [p.id]
        ends := s.ends ++ [.row p.id p.resrow] }
  | _, _ => s.caught (some p)

/-- The next row of a set, or `SRF_RETURN_DONE`. -/
def CallSite.nextRow (s : CallSite) (env : HandlerEnv) (p : PlcProcResult) : CallSite :=
  if p.resrow < p.resmsg.rows.toNat then s.returnRow type true env p
  else { s with funcctx := none, freed := s.freed ++ [p.id], ends := s.ends ++ [.done p.id] }

def plcontainerFunctionHandler (s : CallSite) (env : HandlerEnv) : CallSite :=
  match retset, s.funcctx, env.getResult with
  | true, some (some p), _ => s.nextRow type env p
  -- `presult` is `NULL`: the set cannot be iterated, unless its mode is refused first
  | true, some none, _ => s.caught none
  -- the first call for a set begins with `SRF_FIRSTCALL_INIT`
  | true, none, none => { s with funcctx := some none }.caught none
  | true, none, some resmsg =>
      let p : PlcProcResult := ⟨s.results.length, resmsg, 0⟩
      let s := { s with funcctx := some none, results := s.results ++ [resmsg] }
      if env.valuePerCall then s.nextRow type env p else s.caught (some p)
  | false, _, none => s.caught none
  | false, _, some resmsg =>
      { s with results := s.results ++ [resmsg] }.returnRow type false env
        ⟨s.results.length, resmsg, 0⟩

end

/-! ## Sets -/

/-- The calls that return the first `k` rows of a RESULT. -/
def rowCalls (id k : ℕ) : List CallEnd := (List.range k).map (.row id)

/-- The calls that return whole sets, one after the other. -/
def wholeSets (ms : List PlcMsgResult) : List CallEnd :=
  ms.zipIdx.flatMap fun m => rowCalls m.2 m.1.rows.toNat ++ [.done m.2]

/-- After the sets `ms` and the first `k` rows of `m`. -/
def CallSite.within (ms : List PlcMsgResult) (m : PlcMsgResult) (k : ℕ) : CallSite where
  funcctx := some (some ⟨ms.length, m, k⟩)
  results := ms ++ [m]
  freed := List.range ms.length
  ends := wholeSets ms ++ rowCalls ms.length k

/-- No call has raised: the calls have returned whole sets, and perhaps the first rows of another one. -/
inductive CallSite.Served : CallSite → Prop where
  | between (ms : List PlcMsgResult) : Served ⟨none, ms, List.range ms.length, wholeSets ms⟩
  | within (ms : List PlcMsgResult) (m : PlcMsgResult) (k : ℕ) (hk : k ≤ m.rows.toNat) :
      Served (.within ms m k)

/-- The last `n + 1` calls have raised. Nothing is kept, and every RESULT has been freed. -/
def CallSite.failed (s : CallSite) (n : ℕ) : CallSite :=
  ⟨some none, s.results, List.range s.results.length, s.ends ++ List.replicate (n + 1) .raised⟩

/-- The calls have returned whole sets, perhaps the first rows of another one, and from the first error on
    only errors. -/
def CallSite.Regular (s : CallSite) : Prop := s.Served ∨ ∃ t n, CallSite.Served t ∧ s = t.failed n

section

variable {type : PlcTypeInfo} {ms : List PlcMsgResult} {m : PlcMsgResult} {k : ℕ}

theorem wholeSets_append (ms : List PlcMsgResult) (m : PlcMsgResult) :
    wholeSets (ms ++ [m]) = wholeSets ms ++ rowCalls ms.length m.rows.toNat ++ [.done ms.length] := by
  simp [wholeSets, List.zipIdx_append]

theorem regular_caught (hk : k ≤ m.rows.toNat) (f : Option PlcProcResult) :
    ({ CallSite.within ms m k with funcctx := some f }.caught
      (some ⟨ms.length, m, k⟩)).Regular := by
  refine .inr ⟨_, 0, .within ms m k hk, ?_⟩
  simp [CallSite.caught, CallSite.failed, CallSite.within, List.range_succ]

/-- A call within a set, or the first one, which has not set `user_fctx` yet. -/
theorem regular_nextRow (hk : k ≤ m.rows.toNat) (f : Option PlcProcResult) (env : HandlerEnv) :
    ({ CallSite.within ms m k with funcctx := some f }.nextRow type env
      ⟨ms.length, m, k⟩).Regular := by
  rw [CallSite.nextRow]
  split
  next hlt =>
    rw [CallSite.returnRow]
    split
    · left
      have hnext := CallSite.Served.within ms m (k + 1) hlt
      simpa [CallSite.within, rowCalls, List.range_succ] using hnext
    · exact regular_caught hk f
  next hend =>
    left
    obtain rfl : k = m.rows.toNat := Nat.le_antisymm hk (Nat.le_of_not_lt hend)
    have hnext := CallSite.Served.between (ms ++ [m])
    simpa [CallSite.within, wholeSets_append, List.range_succ] using hnext

theorem CallSite.Served.call {s : CallSite} (h : s.Served) (env : HandlerEnv) :
    (plcontainerFunctionHandler type true s env).Regular := by
  cases h with
  | within ms m k hk => exact regular_nextRow hk _ env
  | between ms =>
      obtain ⟨getResult, valuePerCall, converts⟩ := env
      cases getResult with
      | none => exact .inr ⟨_, 0, .between ms, by simp [plcontainerFunctionHandler, caught, failed]⟩
      | some m =>
          have hstart : (⟨some none, ms ++ [m], List.range ms.length, wholeSets ms⟩ : CallSite)
              = { CallSite.within ms m 0 with funcctx := some none } := by
            simp [CallSite.within, rowCalls]
          dsimp only [plcontainerFunctionHandler]
          rw [hstart]
          cases valuePerCall with
          | true => exact regular_nextRow (Nat.zero_le _) none _
          | false => exact regular_caught (Nat.zero_le _) none

/-- Nothing is iterated again after an error. -/
theorem call_failed (s : CallSite) (n : ℕ) (env : HandlerEnv) :
    plcontainerFunctionHandler type true (s.failed n) env = s.failed (n + 1) := by
  simp [plcontainerFunctionHandler, CallSite.failed, CallSite.caught, List.replicate_succ']

/-! ## Other functions -/

/-- Every RESULT has been freed, and nothing is kept for the next call. -/
def CallSite.Idle (s : CallSite) : Prop :=
  s.funcctx = none ∧ s.freed = List.range s.results.length

theorem CallSite.Idle.call {s : CallSite} (h : s.Idle) (env : HandlerEnv) :
    (plcontainerFunctionHandler type false s env).Idle := by
  obtain ⟨hctx, hfreed⟩ := h
  cases hget : env.getResult with
  | none => simp [plcontainerFunctionHandler, hget, caught, Idle, hctx, hfreed]
  | some resmsg =>
      simp only [plcontainerFunctionHandler, hget, returnRow]
      split <;> simp [caught, Idle, hctx, hfreed, List.range_succ]

end

end PlContainer
