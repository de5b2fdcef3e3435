import PlContainer.Clients.Messages

set_option autoImplicit false

/-! # The R client

What the R client sends for a call, as a function of what the user's code does. As for the Python
client, the code is given by the actions of the client that it runs into.

The R client reports errors in two ways. `raise_execution_error` tests and sets
`plc_is_execution_terminated`; `send_error`, for code that R cannot parse or that ends in an R error,
does neither. `handle_call` clears the flag after it has converted the arguments, so what is reported
before that meets the flag of the call before.

R code runs in the function itself and also where `serialize` and `unserialize` convert a value, which
R looks up in its global environment, and in finalizers.

`raise_execution_error` has `free_error` free a string literal after the EXCEPTION is sent. That is
undefined; `aborts` says whether the process ends there. -/

namespace PlContainer

structure RState where
  /-- `plc_is_execution_terminated` -/
  terminated : Bool
  /-- the process has not exited -/
  alive : Bool
  /-- what was sent for the current call -/
  sent : List ClientMsg
deriving DecidableEq, Repr

/-- The client in its receive loop, before the first call. -/
def RState.idle : RState := ⟨false, true, []⟩

/-- `plcontainer_channel_send` -/
def RState.send (s : RState) (m : ClientMsg) : RState :=
  if s.alive then { s with sent := s.sent ++ [m] } else s

/-- `send_error` -/
def RState.sendError (s : RState) : RState := s.send (.terminal .exception)

/-- `raise_execution_error`; there always is a connection, so no error is delayed. -/
def RState.raiseExecutionError (aborts : Bool) (s : RState) : RState :=
  if s.alive && !s.terminated then
    { s.send (.terminal .exception) with terminated := true, alive := !aborts }
  else s

mutual

/-- What user code runs into. -/
inductive RAct where
  /-- `pg.spi.exec`; `calls` are handled before the answer arrives, and `ok` says that the answer
      could be converted -/
  | exec (calls : List RCall) (ok : Bool)
  /-- `pg.spi.prepare`; `ok` says that the backend could prepare the plan -/
  | prepare (ok : Bool)
  /-- `pg.spi.execp`; `bad` says that the arguments are not a list of the plan's length, which is
      reported before the request is sent -/
  | execp (bad : Bool) (calls : List RCall) (ok : Bool)
  /-- `plr.debug` to `plr.fatal`; `isError` says that the level is ERROR or above -/
  | output (isError : Bool)
  /-- an error that the client itself reports, such as a plan that is not one -/
  | report
  /-- the process exits -/
  | exit

/-- A call. `setup` says that `plc_R_init_function` finds a type that it does not support, `args` runs
    when the arguments are converted. -/
inductive RCall where
  /-- R cannot parse the function -/
  | unparsed (setup : Bool)
  /-- the function ends in an R error -/
  | failed (setup : Bool) (args body : List RAct)
  /-- the function returns a value that cannot be converted; `convert` runs before that is found -/
  | unconverted (setup : Bool) (args body convert : List RAct)
  /-- the function returns; `convert` runs to convert the value and `during` while it is sent -/
  | returned (setup : Bool) (args body convert during : List RAct)

end

section

variable (aborts : Bool)

mutual

def RAct.perform (s : RState) : RAct → RState
  | .exec calls ok =>
      if s.terminated then s
      else
        let s := s.send (.request .statement)
        let s := { RCall.runAll { s with sent := [] } calls with sent := s.sent }
        if ok then s else s.raiseExecutionError aborts
  | .prepare ok =>
      let s := s.send (.request .prepare)
      if ok then s else s.raiseExecutionError aborts
  | .execp bad calls ok =>
      let s := if bad then s.raiseExecutionError aborts else s
      let s := s.send (.request .statement)
      let s := { RCall.runAll { s with sent := [] } calls with sent := s.sent }
      if ok then s else s.raiseExecutionError aborts
  | .output isError =>
      if s.terminated then s
      else if isError then { s with terminated := true }.send (.terminal .logError)
      else s.send .log
  | .report => s.raiseExecutionError aborts
  | .exit => { s with alive := false }

/-- A process that has exited runs nothing more. -/
def RAct.performAll (s : RState) : List RAct → RState
  | [] => s
  | a :: as => if s.alive then RAct.performAll (RAct.perform s a) as else s

/-- `handle_call` -/
def RCall.run (s : RState) : RCall → RState
  | .unparsed setup =>
      let s := if setup then s.raiseExecutionError aborts else s
      s.sendError
  | .failed setup args body =>
      let s := if setup then s.raiseExecutionError aborts else s
      let s := RAct.performAll s args
      let s := RAct.performAll { s with terminated := false } body
      s.sendError
  | .unconverted setup args body convert =>
      let s := if setup then s.raiseExecutionError aborts else s
      let s := RAct.performAll s args
      let s := RAct.performAll { s with terminated := false } body
      if s.terminated then s else (RAct.performAll s convert).raiseExecutionError aborts
  | .returned setup args body convert during =>
      let s := if setup then s.raiseExecutionError aborts else s
      let s := RAct.performAll s args
      let s := RAct.performAll { s with terminated := false } body
      if s.terminated then s
      else
        let s := RAct.performAll s convert
        if s.alive then
          -- nothing keeps other messages out of a RESULT
          let r := RAct.performAll { s with sent := [] } during
          let m := if r.alive then .terminal .result else .truncated
          { r with sent := s.sent ++ m :: r.sent }
        else s

def RCall.runAll (s : RState) : List RCall → RState
  | [] => s
  | c :: cs => if s.alive then RCall.runAll { RCall.run s c with sent := [] } cs else s

end

end

end PlContainer
