import PlContainer.Clients.Messages

set_option autoImplicit false

/-! # The Python client

What the Python client sends for a call, as a function of what the user's code does. The code is
given by the actions of the client that it runs into, in order: whatever it computes, catches or
raises in between sends nothing. The client's own control is in three globals,
`plc_is_execution_terminated`, `plc_sending_data` and `plcLastErrMessage`.

User code runs at several points of `handle_call`: in the function itself, in what converts and
iterates over its result, in what formats an exception, and in whatever is released on the way (plans
are freed with the last reference to them, and other objects have destructors). Between the test of
`plc_is_execution_terminated` in an entry point and the message that it sends, user code may run too
(`__str__`, `__getitem__`).

The backend answers every request. While the client waits for the answer to an `execute` it handles
the calls that the backend sends instead. -/

namespace PlContainer

structure PyState where
  /-- `plc_is_execution_terminated` -/
  terminated : Bool
  /-- `plc_sending_data` -/
  sending : Bool
  /-- `plcLastErrMessage` is set -/
  delayed : Bool
  /-- the process has not exited -/
  alive : Bool
  /-- what was sent for the current call -/
  sent : List ClientMsg
deriving DecidableEq, Repr

/-- The client in its receive loop. -/
def PyState.idle : PyState := ⟨false, false, false, true, []⟩

/-- `plcontainer_channel_send` -/
def PyState.send (s : PyState) (m : ClientMsg) : PyState :=
  if s.alive then { s with sent := s.sent ++ [m] } else s

/-- `plc_raise_delayed_error` -/
def PyState.raiseDelayedError (s : PyState) : PyState :=
  if s.delayed && !s.terminated && !s.sending then
    { s.send (.terminal .exception) with delayed := false, terminated := true }
  else s

/-- The end of `raise_execution_error`, after the pending exception has been formatted. -/
def PyState.reportError (s : PyState) : PyState :=
  if !s.delayed && !s.terminated then { s with delayed := true }.raiseDelayedError else s

/-- `raise_execution_error` when no exception is pending. -/
def PyState.raiseExecutionError (s : PyState) : PyState := s.raiseDelayedError.reportError

/-- `PLy_freeplan` -/
def PyState.freePlan (s : PyState) : PyState :=
  if s.terminated then s else s.send (.request .unprepare)

mutual

/-- What user code runs into. -/
inductive PyAct where
  /-- `plpy.execute`; `during` runs before the request is sent, `calls` are handled before its answer
      arrives, and `ok` says that the answer could be converted -/
  | execute (during : List PyAct) (calls : List PyCall) (ok : Bool)
  /-- `plpy.prepare`; `ok` says that the backend could prepare the plan -/
  | prepare (during : List PyAct) (ok : Bool)
  /-- the last reference to a plan goes away -/
  | freePlan
  /-- `plpy.quote_literal`, `quote_nullable`, `quote_ident` -/
  | quote
  /-- enter or exit of a subtransaction; `ok` says that the backend could do it -/
  | subtransaction (ok : Bool)
  /-- `plpy.debug` to `plpy.fatal`; `isError` says that the level is ERROR or above, or that the
      message has no text -/
  | output (during : List PyAct) (isError : Bool)
  /-- an error that the client itself reports, such as a value that cannot be converted; `format`
      runs to format the exception behind it -/
  | report (format : List PyAct)
  /-- the process exits, as it does for text that the server encoding cannot represent
      (`PLyUnicode_Bytes`) -/
  | exit

/-- What becomes of the value that a function returned. -/
inductive PyResult where
  /-- it is sent, and `during` runs while it is -/
  | sends (during : List PyAct)
  /-- it cannot be converted -/
  | fails (format : List PyAct)

/-- A call. `dropped` runs when the cache drops a function, and the `SD` that goes with it, for this
    one. -/
inductive PyCall where
  /-- the function cannot be compiled, or its arguments cannot be converted; the latter is reported
      `again` by `handle_call` -/
  | refused (dropped : List PyAct) (again : Bool)
  /-- the function raises; `release` runs when the arguments are released -/
  | raised (dropped body release format : List PyAct)
  /-- the function returns; `convert` runs to convert the value and `release` when arguments and
      value are released -/
  | returned (dropped body convert : List PyAct) (result : PyResult) (release : List PyAct)

end

mutual

def PyAct.perform (s : PyState) : PyAct → PyState
  | .execute during calls ok =>
      if s.terminated then s
      else
        let s := (PyAct.performAll s during).send (.request .statement)
        let s := { PyCall.runAll { s with sent := [] } calls with sent := s.sent }
        if ok then s else s.raiseExecutionError
  | .prepare during ok =>
      if s.terminated then s
      else
        let s := (PyAct.performAll s during).send (.request .prepare)
        if ok then s else s.raiseExecutionError
  | .freePlan => s.freePlan
  | .quote => s.send (.request .quote)
  | .subtransaction ok =>
      let s := s.send (.request .subtransaction)
      if ok then s else s.raiseExecutionError
  | .output during isError =>
      if s.terminated then s
      else
        let s := PyAct.performAll s during
        if isError then { s with terminated := true }.send (.terminal .logError) else s.send .log
  | .report format => (PyAct.performAll s.raiseDelayedError format).reportError
  | .exit => { s with alive := false }

def PyAct.performAll (s : PyState) : List PyAct → PyState
  | [] => s
  | a :: as => PyAct.performAll (a.perform s) as

/-- The end of `process_call_results`, after the value has been looked at. -/
def PyResult.process (s : PyState) : PyResult → PyState
  | .sends during =>
      if s.alive then
        let r := PyAct.performAll { s with sending := true, sent := [] } during
        let m := if r.alive then .terminal .result else .truncated
        -- an error found meanwhile goes into the RESULT (`plc_error_callback`)
        let r := { r with delayed := false, sending := false, sent := s.sent ++ m :: r.sent }
        r.raiseDelayedError
      else s
  | .fails format => (PyAct.performAll s.raiseDelayedError format).reportError

/-- `handle_call` -/
def PyCall.run (s : PyState) : PyCall → PyState
  | .refused dropped again =>
      let s := PyAct.performAll { s with sending := false, terminated := false } dropped
      let s := s.raiseExecutionError
      if again then s.raiseExecutionError else s
  | .raised dropped body release format =>
      let s := PyAct.performAll { s with sending := false, terminated := false } dropped
      let s := PyAct.performAll { s with terminated := false } body
      let s := PyAct.performAll s release
      (PyAct.performAll s.raiseDelayedError format).reportError
  | .returned dropped body convert result release =>
      let s := PyAct.performAll { s with sending := false, terminated := false } dropped
      let s := PyAct.performAll { s with terminated := false } body
      let s := if s.terminated then s else result.process (PyAct.performAll s convert)
      PyAct.performAll s release

def PyCall.runAll (s : PyState) : List PyCall → PyState
  | [] => s
  | c :: cs => PyCall.runAll { c.run s with sent := [] } cs

end

end PlContainer
