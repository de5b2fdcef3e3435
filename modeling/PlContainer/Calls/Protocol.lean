import PlContainer.Common.Messages

set_option autoImplicit false

/-! # The call protocol between a session's backend and its containers

The backend has a stack of call frames, one per active `plcontainer_call_handler`: a frame sends a
CALLREQ to the container of its runtime and then serves the messages of the client until a terminal
one arrives (`plcontainer_get_result`). While it executes a STATEMENT or PEXECUTE, the SQL may call
further PL/Container functions, each a new frame on top. Each container runs one client, with a stack
of its own: a client that waits for the answer to a request may get another CALLREQ instead
(`receive_from_frontend`, `process_SPI_results`). Messages travel in two queues per connection.

Errors are part of the model. An error unwinds the frames one by one; each frame's handler deletes
all containers if the flag `DeleteBackendsWhenError` is set or an interrupt is pending, and an SQL
level handler below a frame may stop the error there. Clients keep to their side of the protocol:
they send only while they run a call, and end each call with one terminal message.

The limit on the number of containers is left out: reaching it ends the session. -/

namespace PlContainer

/-! ## Messages -/

inductive Language where
  | python
  | r
deriving DecidableEq, Repr

/-- What a client can ask the backend for. -/
inductive RequestKind where
  | statement
  | prepare
  | pexecute
  | unprepare
  | quote
  | subtransaction
deriving DecidableEq, Repr

/-- The requests of each client; the R client has only `pg.spi.exec`, `prepare` and `execp`. -/
def Language.sends : Language → RequestKind → Bool
  | .python, _ => true
  | .r, kind => decide (kind ∈ [.statement, .prepare, .pexecute])

/-- The requests whose execution can call further functions. -/
def RequestKind.nests (kind : RequestKind) : Bool := decide (kind ∈ [.statement, .pexecute])

def RequestKind.msgtype : RequestKind → MsgType
  | .statement | .prepare | .pexecute | .unprepare => .sql
  | .quote => .quote
  | .subtransaction => .subtransaction

/-- The type of the backend's answer. -/
def RequestKind.answer : RequestKind → MsgType
  | .statement | .pexecute => .result
  | .prepare | .unprepare => .raw
  | .quote => .quoteResult
  | .subtransaction => .subtranResult

def maskOf (types : List MsgType) : BitVec 64 := types.foldl (fun mask t => mask ||| t.bit) 0

/-- The mask a client waits with after a request. -/
def waitMask : Language → RequestKind → BitVec 64
  | .python, .statement | .python, .pexecute | .python, .subtransaction =>
      maskOf [.callreq, .result, .subtranResult]
  | .python, .prepare | .python, .unprepare => maskOf [.raw]
  | .python, .quote => maskOf [.quoteResult]
  | .r, .prepare => maskOf [.raw, .exception]
  | .r, _ => maskOf [.ping, .callreq, .result, .exception]

/-- A message to a client. The number of an answer is that of the request it answers; it is not on
    the wire. -/
inductive ToClient where
  | callreq
  | answer (id : ℕ) (kind : RequestKind)
deriving DecidableEq, Repr

def ToClient.msgtype : ToClient → MsgType
  | .callreq => .callreq
  | .answer _ kind => kind.answer

/-- The message that ends a call; `logError` is a LOG of level ERROR or above. -/
inductive Terminal where
  | result
  | exception
  | logError
deriving DecidableEq, Repr

inductive ToBackend where
  | log
  | request (id : ℕ) (kind : RequestKind)
  | terminal (t : Terminal)
deriving DecidableEq, Repr

def ToBackend.msgtype : ToBackend → MsgType
  | .log | .terminal .logError => .log
  | .request _ kind => kind.msgtype
  | .terminal .result => .result
  | .terminal .exception => .exception

/-! ## Clients and connections -/

/-- One activation of `handle_call`. -/
inductive ClientFrame where
  | running
  /-- waiting for the answer to a request -/
  | pending (id : ℕ) (kind : RequestKind)
deriving DecidableEq, Repr

/-- A connection with the client at its other end. A client without frames is in `receive_loop`. -/
structure Conn where
  lang : Language
  client : List ClientFrame
  toClient : List ToClient
  toBackend : List ToBackend
deriving DecidableEq, Repr

/-- The mask the client waits with, if it waits. -/
def Conn.mask (conn : Conn) : Option (BitVec 64) :=
  match conn.client with
  | [] => some (maskOf [.callreq])
  | .running :: _ => none
  | .pending _ kind :: _ => some (waitMask conn.lang kind)

/-- What the client does with a message that its mask allows. -/
def Conn.accept (conn : Conn) (m : ToClient) (rest : List ToClient) : Conn :=
  match m with
  | .callreq => { conn with client := .running :: conn.client, toClient := rest }
  | .answer _ _ => { conn with client := .running :: conn.client.tail, toClient := rest }

/-! ## The backend -/

abbrev ConnId := ℕ

abbrev RuntimeId := ℕ

/-- One activation of `plcontainer_call_handler`. -/
inductive Frame where
  /-- before the CALLREQ is sent -/
  | entering
  /-- in the receive loop of `plcontainer_get_result` -/
  | waiting (c : ConnId)
  /-- in `handle_sql_message` for a STATEMENT or PEXECUTE -/
  | executing (c : ConnId) (id : ℕ) (kind : RequestKind)
  /-- after the terminal message of the client -/
  | finished
deriving DecidableEq, Repr

/-- The connection on which a frame has an unanswered CALLREQ. -/
def Frame.conn : Frame → Option ConnId
  | .entering | .finished => none
  | .waiting c | .executing c _ _ => some c

structure CallState where
  /-- the active calls, innermost first -/
  stack : List Frame
  /-- `DeleteBackendsWhenError` -/
  flag : Bool
  /-- an error is on its way up the stack -/
  unwinding : Bool
  /-- `delete_containers` ran since that error was raised -/
  deleted : Bool
  /-- `containers[]`: the connection registered for a runtime -/
  containers : RuntimeId → Option ConnId
  /-- the connections that are open -/
  conns : ConnId → Option Conn
  nextConn : ConnId
  nextId : ℕ

def CallState.start : CallState :=
  ⟨[], false, false, false, fun _ => none, fun _ => none, 0, 0⟩

def CallState.setConn (s : CallState) (c : ConnId) (conn : Conn) : CallState :=
  { s with conns := fun d => if d = c then some conn else s.conns d }

theorem CallState.setConn_self (s : CallState) (c : ConnId) (conn : Conn) :
    (s.setConn c conn).conns c = some conn :=
  if_pos rfl

theorem CallState.setConn_of_ne (s : CallState) {c d : ConnId} (conn : Conn) (h : d ≠ c) :
    (s.setConn c conn).conns d = s.conns d :=
  if_neg h

/-- `delete_containers`: every connection is closed and its slot is cleared. -/
def CallState.deleteContainers (s : CallState) : CallState :=
  { s with containers := fun _ => none, conns := fun _ => none, flag := false, deleted := true }

/-- A call begins: at top level, or from the SQL that the innermost call executes. -/
def CallState.enter (s : CallState) : Option CallState :=
  match s.unwinding, s.stack with
  | false, [] => some { s with stack := [.entering] }
  | false, .executing c id kind :: fs =>
      some { s with stack := .entering :: .executing c id kind :: fs }
  | _, _ => none

/-- The call gets the connection of its runtime, starting a container if there is none, and sends
    its CALLREQ. -/
def CallState.dispatch (s : CallState) (r : RuntimeId) (lang : Language) : Option CallState :=
  match s.unwinding, s.stack with
  | false, .entering :: fs =>
      match s.containers r with
      | some c =>
          match s.conns c with
          | some conn =>
              let s := s.setConn c { conn with toClient := conn.toClient ++ [.callreq] }
              some { s with stack := .waiting c :: fs, flag := true }
          | none => none
      | none =>
          let c := s.nextConn
          let s := s.setConn c ⟨lang, [], [.callreq], []⟩
          some { s with
            stack := .waiting c :: fs
            flag := true
            containers := fun q => if q = r then some c else s.containers q
            nextConn := c + 1 }
  | _, _ => none

/-- `start_backend` fails; the flag is set while it runs. -/
def CallState.startFails (s : CallState) (r : RuntimeId) : Option CallState :=
  match s.unwinding, s.stack, s.containers r with
  | false, .entering :: _, none => some { s with flag := true, unwinding := true }
  | _, _, _ => none

/-- Any other error raised by the innermost call or by the SQL it executes. -/
def CallState.fail (s : CallState) : Option CallState :=
  match s.unwinding, s.stack with
  | false, _ :: _ => some { s with unwinding := true }
  | _, _ => none

/-- What the innermost call does with a message of its client. -/
def CallState.serve (s : CallState) (c : ConnId) (fs : List Frame) (conn : Conn) :
    ToBackend → CallState
  | .log => s.setConn c conn
  | .request id kind =>
      if kind.nests then { s.setConn c conn with stack := .executing c id kind :: fs }
      else s.setConn c { conn with toClient := conn.toClient ++ [.answer id kind] }
  | .terminal .result => { s.setConn c conn with stack := .finished :: fs, flag := false }
  | .terminal .exception =>
      { s.setConn c conn with stack := .finished :: fs, flag := false, unwinding := true }
  | .terminal .logError => { s.setConn c conn with stack := .finished :: fs, unwinding := true }

/-- The innermost call receives a message. -/
def CallState.backendReceive (s : CallState) : Option CallState :=
  match s.unwinding, s.stack with
  | false, .waiting c :: fs =>
      match s.conns c with
      | some conn =>
          match conn.toBackend with
          | m :: rest => some (s.serve c fs { conn with toBackend := rest } m)
          | [] => none
      | none => none
  | _, _ => none

/-- `handle_sql_message` returns normally and its result is sent. On a connection that was closed
    in the meantime the answer goes nowhere. -/
def CallState.complete (s : CallState) : Option CallState :=
  match s.unwinding, s.stack with
  | false, .executing c id kind :: fs =>
      match s.conns c with
      | some conn =>
          let s := s.setConn c { conn with toClient := conn.toClient ++ [.answer id kind] }
          some { s with stack := .waiting c :: fs }
      | none => some { s with stack := .waiting c :: fs }
  | _, _ => none

/-- The innermost call returns. -/
def CallState.finish (s : CallState) : Option CallState :=
  match s.unwinding, s.stack with
  | false, .finished :: fs => some { s with stack := fs }
  | _, _ => none

/-- The error reaches the handler of the innermost call, which passes it on; `interrupt` says whether
    an interrupt is pending. The error ends when no call is left. -/
def CallState.unwind (s : CallState) (interrupt : Bool) : Option CallState :=
  match s.unwinding, s.stack with
  | true, _ :: fs =>
      let s := if s.flag || interrupt then s.deleteContainers else s
      some { s with
        stack := fs
        unwinding := !fs.isEmpty
        deleted := s.deleted && !fs.isEmpty }
  | _, _ => none

/-- An SQL-level handler in the SQL of the innermost call catches the error. -/
def CallState.catchError (s : CallState) : Option CallState :=
  match s.unwinding, s.stack with
  | true, .executing _ _ _ :: _ => some { s with unwinding := false, deleted := false }
  | _, _ => none

/-! ## The clients' steps -/

def CallState.clientReceive (s : CallState) (c : ConnId) : Option CallState :=
  match s.conns c with
  | some conn =>
      match conn.toClient, conn.mask with
      | m :: rest, some mask =>
          if m.msgtype.allowedBy mask then some (s.setConn c (conn.accept m rest)) else none
      | _, _ => none
  | none => none

def CallState.clientLog (s : CallState) (c : ConnId) : Option CallState :=
  match s.conns c with
  | some ⟨lang, .running :: cs, toClient, toBackend⟩ =>
      some (s.setConn c ⟨lang, .running :: cs, toClient, toBackend ++ [.log]⟩)
  | _ => none

def CallState.clientRequest (s : CallState) (c : ConnId) (kind : RequestKind) : Option CallState :=
  match s.conns c with
  | some ⟨lang, .running :: cs, toClient, toBackend⟩ =>
      if lang.sends kind then
        some { s.setConn c ⟨lang, .pending s.nextId kind :: cs, toClient,
            toBackend ++ [.request s.nextId kind]⟩ with nextId := s.nextId + 1 }
      else none
  | _ => none

def CallState.clientEnd (s : CallState) (c : ConnId) (t : Terminal) : Option CallState :=
  match s.conns c with
  | some ⟨lang, .running :: cs, toClient, toBackend⟩ =>
      some (s.setConn c ⟨lang, cs, toClient, toBackend ++ [.terminal t]⟩)
  | _ => none

/-! ## Steps -/

inductive CallStep where
  | enter
  | dispatch (r : RuntimeId) (lang : Language)
  | startFails (r : RuntimeId)
  | fail
  | backendReceive
  | complete
  | finish
  | unwind (interrupt : Bool)
  | catchError
  | clientReceive (c : ConnId)
  | clientLog (c : ConnId)
  | clientRequest (c : ConnId) (kind : RequestKind)
  | clientEnd (c : ConnId) (t : Terminal)
deriving DecidableEq, Repr

/-- One step, if it is possible. -/
def CallState.step (s : CallState) : CallStep → Option CallState
  | .enter => s.enter
  | .dispatch r lang => s.dispatch r lang
  | .startFails r => s.startFails r
  | .fail => s.fail
  | .backendReceive => s.backendReceive
  | .complete => s.complete
  | .finish => s.finish
  | .unwind interrupt => s.unwind interrupt
  | .catchError => s.catchError
  | .clientReceive c => s.clientReceive c
  | .clientLog c => s.clientLog c
  | .clientRequest c kind => s.clientRequest c kind
  | .clientEnd c t => s.clientEnd c t

/-- A run of given steps. -/
def CallState.run (s : CallState) : List CallStep → Option CallState
  | [] => some s
  | step :: steps => (s.step step).bind fun s => s.run steps

end PlContainer
