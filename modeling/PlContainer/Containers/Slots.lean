import PlContainer.Common.Messages
import PlContainer.Library.Runs
import Mathlib.Data.List.Basic

set_option autoImplicit false

/-! # The containers of a session

A session keeps its containers in a table of ten slots, found by the id of the runtime. A slot is taken
while the container is created, gets the id when it exists, and gets the connection when the client in it
answers. An error on the way lets the call handler drop all containers: `delete_containers` clears the
connections and leaves the ids in the table, but the flag `containers_init` says that the table is not
in use any more, and the next lookup makes a new one.

Calls are nested: a function can run SQL that calls other functions. The state of a session has the stack
of its calls, each with what it does next. An error leaves the innermost call; whether the call below
goes on (the SQL command can have caught the error) or is left by the error, too, is open, also if its
connection has been closed by the inner call. -/

namespace PlContainer

/-! ## The table -/

/-- `MAX_CONTAINER_NUMBER` -/
def maxContainerNumber : ℕ := 10

/-- `plcConn`, of which the slot matters here; connections are numbered in the order in which they are
    made. -/
structure ContainerConn where
  number : ℕ
  containerSlot : ℕ
deriving DecidableEq

/-- `container_t`, without the address of the backend; of `connection` it has the identity of the
    container. -/
structure ContainerSlot where
  runtimeid : Option CString
  connection : Option CString
  conn : Option ContainerConn
deriving DecidableEq

/-- What a call does next. -/
inductive CallPhase where
  /-- `get_container_conn` -/
  | entered
  /-- `plc_backend_create`, with the slot that was found -/
  | starting (slot : ℕ)
  /-- `plc_backend_start` and `cleanup`; the slot has its id -/
  | registered (slot : ℕ)
  /-- the connection attempts -/
  | launched (slot : ℕ)
  /-- `add_containerid_entry`; the slot has its connection -/
  | connected (conn : ContainerConn)
  /-- the exchange of messages -/
  | running (conn : ContainerConn)
  /-- what follows `plcontainer_get_result` -/
  | returning
deriving DecidableEq

/-- Whether other functions may be called meanwhile: not from `start_backend`. -/
def CallPhase.callsOut : CallPhase → Bool
  | .entered | .running _ | .returning => true
  | .starting _ | .registered _ | .launched _ | .connected _ => false

/-- A call of a function, with its name and the id of its runtime. -/
structure PlcCall where
  runtime : CString
  proname : CString
  phase : CallPhase
deriving DecidableEq

/-- The static variables of a session, and its calls, the innermost one first. -/
structure ContainerSession where
  containersInit : Bool
  containers : List ContainerSlot
  deleteBackendsWhenError : Bool
  calls : List PlcCall
  /-- how many connections were made -/
  made : ℕ
  ended : Bool
deriving DecidableEq

namespace ContainerSession

def start : ContainerSession := ⟨false, [], false, [], 0, false⟩

/-- `find_container_slot` -/
def findContainerSlot (s : ContainerSession) : Option ℕ :=
  s.containers.findIdx? fun slot => slot.runtimeid.isNone

/-- `init_containers` -/
def initContainers (s : ContainerSession) : ContainerSession :=
  { s with containersInit := true, containers := List.replicate maxContainerNumber ⟨none, none, none⟩ }

/-- `if (containers_init == 0) init_containers();` -/
def ready (s : ContainerSession) : ContainerSession :=
  if s.containersInit then s else s.initContainers

/-- The first slot with the id. -/
def slotOf (s : ContainerSession) (runtime : CString) : Option ContainerSlot :=
  s.containers.find? fun slot => slot.runtimeid = some runtime

/-- `get_container_conn` -/
def getContainerConn (s : ContainerSession) (runtime : CString) :
    ContainerSession × Option ContainerConn :=
  (s.ready, (s.ready.slotOf runtime).bind ContainerSlot.conn)

/-- `get_container_id` -/
def getContainerId (s : ContainerSession) (runtime : CString) : ContainerSession × Option CString :=
  (s.ready, (s.ready.slotOf runtime).bind ContainerSlot.connection)

/-- `insert_container_slot`; it leaves `conn` as it is. -/
def insertContainerSlot (s : ContainerSession) (runtime identity : CString) (slot : ℕ) :
    ContainerSession :=
  { s with containers := s.containers.modify slot fun c =>
      { c with runtimeid := some runtime, connection := some identity } }

/-- `set_container_conn` -/
def setContainerConn (s : ContainerSession) (conn : ContainerConn) : ContainerSession :=
  { s with containers := s.containers.modify conn.containerSlot fun c => { c with conn := some conn } }

/-- `delete_containers` -/
def deleteContainers (s : ContainerSession) : ContainerSession :=
  if s.containersInit then
    { s with
      containers := s.containers.map fun c => { c with connection := none, conn := none }
      containersInit := false }
  else s

/-- The end of the process, with `plcontainer_cleanup`. -/
def exit (s : ContainerSession) : ContainerSession :=
  { s.deleteContainers with calls := [], ended := true }

/-- The slots in use. -/
def table (s : ContainerSession) : List ContainerSlot := if s.containersInit then s.containers else []

end ContainerSession

/-! ## The steps of a session -/

/-- What a session does. -/
inductive SessionStep where
  /-- `plcontainer_call_handler` up to the lookup of the connection -/
  | call (runtime proname : CString)
  /-- the runtime has a connection -/
  | found
  /-- it has none, and a slot is free -/
  | missing
  /-- it has none, and there is no free slot -/
  | full
  /-- `plc_backend_create` returns a container -/
  | created (identity : CString)
  /-- the container is started and its cleanup process exists -/
  | launched
  /-- a ping is answered -/
  | connected
  /-- the container is entered into the shared map -/
  | added
  /-- the client sends `MT_EXCEPTION`, and the error leaves the innermost call -/
  | exception (interrupt : Bool)
  /-- the client sends `MT_RESULT` -/
  | result
  | returned
  /-- another error leaves the innermost call; `interrupt` says whether a cancel or finish request is
  pending -/
  | raised (interrupt : Bool)
  /-- the session ends, also by an error of level `FATAL` -/
  | exited
deriving DecidableEq

namespace ContainerSession

/-- A function can be called. -/
def CanCall (s : ContainerSession) : Prop :=
  s.ended = false ∧ ∀ call ∈ s.calls.head?, call.phase.callsOut

/-- The innermost call in another phase. -/
def enter (s : ContainerSession) (call : PlcCall) (calls : List PlcCall) (phase : CallPhase) :
    ContainerSession :=
  { s with calls := { call with phase := phase } :: calls }

/-- `DeleteBackendsWhenError = flag` -/
def setDelete (s : ContainerSession) (flag : Bool) : ContainerSession :=
  { s with deleteBackendsWhenError := flag }

/-- The `PG_CATCH` block of the call handler. -/
def caught (s : ContainerSession) (interrupt : Bool) : ContainerSession :=
  if interrupt || s.deleteBackendsWhenError then s.deleteContainers.setDelete false else s

inductive Step (s : ContainerSession) : SessionStep → ContainerSession → Prop where
  | call (runtime proname : CString) (hcan : s.CanCall) :
      Step s (.call runtime proname) { s with calls := ⟨runtime, proname, .entered⟩ :: s.calls }
  | found {call : PlcCall} {calls : List PlcCall} {conn : ContainerConn} (hcalls : s.calls = call :: calls)
      (hphase : call.phase = .entered) (hconn : (s.getContainerConn call.runtime).2 = some conn) :
      Step s .found (((s.getContainerConn call.runtime).1.enter call calls (.running conn)).setDelete true)
  | missing {call : PlcCall} {calls : List PlcCall} {slot : ℕ} (hcalls : s.calls = call :: calls)
      (hphase : call.phase = .entered) (hconn : (s.getContainerConn call.runtime).2 = none)
      (hslot : (s.getContainerConn call.runtime).1.findContainerSlot = some slot) :
      Step s .missing
        (((s.getContainerConn call.runtime).1.enter call calls (.starting slot)).setDelete true)
  | full {call : PlcCall} {calls : List PlcCall} (hcalls : s.calls = call :: calls)
      (hphase : call.phase = .entered) (hconn : (s.getContainerConn call.runtime).2 = none)
      (hslot : (s.getContainerConn call.runtime).1.findContainerSlot = none) :
      Step s .full (s.getContainerConn call.runtime).1.exit
  | created {call : PlcCall} {calls : List PlcCall} {slot : ℕ} (identity : CString)
      (hcalls : s.calls = call :: calls) (hphase : call.phase = .starting slot) :
      Step s (.created identity)
        ((s.insertContainerSlot call.runtime identity slot).enter call calls (.registered slot))
  | launched {call : PlcCall} {calls : List PlcCall} {slot : ℕ} (hcalls : s.calls = call :: calls)
      (hphase : call.phase = .registered slot) :
      Step s .launched (s.enter call calls (.launched slot))
  | connected {call : PlcCall} {calls : List PlcCall} {slot : ℕ} (hcalls : s.calls = call :: calls)
      (hphase : call.phase = .launched slot) :
      Step s .connected
        { (s.setContainerConn ⟨s.made, slot⟩).enter call calls (.connected ⟨s.made, slot⟩) with
          made := s.made + 1 }
  | added {call : PlcCall} {calls : List PlcCall} {conn : ContainerConn} (hcalls : s.calls = call :: calls)
      (hphase : call.phase = .connected conn) :
      Step s .added ((s.enter call calls (.running conn)).setDelete true)
  | exception {call : PlcCall} {calls : List PlcCall} {conn : ContainerConn} (interrupt : Bool)
      (hcalls : s.calls = call :: calls) (hphase : call.phase = .running conn) :
      Step s (.exception interrupt) { (s.setDelete false).caught interrupt with calls := calls }
  | result {call : PlcCall} {calls : List PlcCall} {conn : ContainerConn} (hcalls : s.calls = call :: calls)
      (hphase : call.phase = .running conn) :
      Step s .result (((s.getContainerId call.runtime).1.enter call calls .returning).setDelete false)
  | returned {call : PlcCall} {calls : List PlcCall} (hcalls : s.calls = call :: calls)
      (hphase : call.phase = .returning) : Step s .returned { s with calls := calls }
  | raised {call : PlcCall} {calls : List PlcCall} (interrupt : Bool) (hcalls : s.calls = call :: calls) :
      Step s (.raised interrupt) { s.caught interrupt with calls := calls }
  | exited : Step s .exited s.exit

/-! ## What a table has at any time -/

@[simp] theorem ready_made (s : ContainerSession) : s.ready.made = s.made := by
  rw [ready]
  split <;> rfl

theorem table_of_init {s : ContainerSession} (h : s.containersInit = true) :
    s.table = s.containers := by
  rw [table, if_pos h]

theorem ready_containersInit (s : ContainerSession) : s.ready.containersInit = true := by
  rw [ready]
  split
  · assumption
  · rfl

/-- The table after a lookup: the one in use, or a new one. -/
theorem table_ready (s : ContainerSession) :
    s.ready.table = s.table ∨
      s.ready.table = List.replicate maxContainerNumber ⟨none, none, none⟩ := by
  rw [ready]
  split
  · exact .inl rfl
  · exact .inr rfl

theorem table_modify (s : ContainerSession) (i : ℕ) (f : ContainerSlot → ContainerSlot) :
    ContainerSession.table { s with containers := s.containers.modify i f } = s.table.modify i f := by
  rw [table, table]
  split
  · rfl
  · rw [List.modify_nil]

theorem table_insertContainerSlot (s : ContainerSession) (runtime identity : CString) (i : ℕ) :
    (s.insertContainerSlot runtime identity i).table = s.table.modify i fun c =>
      { c with runtimeid := some runtime, connection := some identity } := s.table_modify i _

theorem table_setContainerConn (s : ContainerSession) (conn : ContainerConn) :
    (s.setContainerConn conn).table =
      s.table.modify conn.containerSlot fun c => { c with conn := some conn } := s.table_modify _ _

@[simp] theorem table_deleteContainers (s : ContainerSession) : s.deleteContainers.table = [] := by
  rw [deleteContainers]
  split
  · rfl
  · next h => rw [table, if_neg h]

@[simp] theorem deleteContainers_made (s : ContainerSession) : s.deleteContainers.made = s.made := by
  rw [deleteContainers]
  split <;> rfl

end ContainerSession

/-- The slots of a table, whatever the calls are doing. -/
structure TableInv (table : List ContainerSlot) : Prop where
  length_le : table.length ≤ maxContainerNumber
  distinct : ∀ (i j : ℕ) (a b : ContainerSlot) (runtime : CString), table[i]? = some a →
    table[j]? = some b → a.runtimeid = some runtime → b.runtimeid = some runtime → i = j
  free : ∀ slot ∈ table, slot.runtimeid = none → slot.conn = none
  identity : ∀ slot ∈ table, slot.runtimeid ≠ none → slot.connection ≠ none
  home : ∀ (i : ℕ) (slot : ContainerSlot) (conn : ContainerConn), table[i]? = some slot →
    slot.conn = some conn → conn.containerSlot = i

/-- Every slot with an id has a connection. -/
def TableSettled (table : List ContainerSlot) : Prop :=
  ∀ slot ∈ table, slot.runtimeid ≠ none → slot.conn ≠ none

/-- A slot with an id and no connection belongs to the innermost call, which is connecting. -/
def Pending (calls : List PlcCall) (table : List ContainerSlot) : Prop :=
  ∀ (i : ℕ) (slot : ContainerSlot), table[i]? = some slot → slot.runtimeid ≠ none →
    slot.conn = none → ∃ call ∈ calls.head?, call.phase = .registered i ∨ call.phase = .launched i

namespace TableInv

theorem nil : TableInv [] := by
  constructor <;> simp

theorem replicate : TableInv (List.replicate maxContainerNumber ⟨none, none, none⟩) := by
  have hfree : ∀ slot ∈ List.replicate maxContainerNumber (⟨none, none, none⟩ : ContainerSlot),
      slot = ⟨none, none, none⟩ := fun slot hslot => (List.mem_replicate.1 hslot).2
  refine ⟨?_, ?_, ?_, ?_, ?_⟩
  · rw [List.length_replicate]
  · intro i j a b runtime ha hb hida hidb
    rw [hfree a (List.mem_of_getElem? ha)] at hida
    cases hida
  · intro slot hslot hid
    rw [hfree slot hslot]
  · intro slot hslot hid
    rw [hfree slot hslot] at hid
    exact absurd rfl hid
  · intro i slot conn hslot hconn
    rw [hfree slot (List.mem_of_getElem? hslot)] at hconn
    cases hconn

/-- A slot of a table in which one slot was changed. -/
theorem of_modify {table : List ContainerSlot} {f : ContainerSlot → ContainerSlot} {i j : ℕ}
    {b : ContainerSlot} (h : (table.modify i f)[j]? = some b) :
    ∃ a, table[j]? = some a ∧ b = if i = j then f a else a := by
  rw [List.getElem?_modify] at h
  obtain ⟨a, ha, hb⟩ := Option.map_eq_some_iff.1 h
  exact ⟨a, ha, hb.symm⟩

theorem of_mem_modify {table : List ContainerSlot} {f : ContainerSlot → ContainerSlot} {i : ℕ}
    {b : ContainerSlot} (h : b ∈ table.modify i f) :
    ∃ j a, table[j]? = some a ∧ b = if i = j then f a else a := by
  obtain ⟨j, hj⟩ := List.mem_iff_getElem?.1 h
  exact ⟨j, of_modify hj⟩

/-- The container of a runtime that has no slot yet is entered into one. -/
theorem insert {table : List ContainerSlot} (h : TableInv table) {runtime : CString}
    (identity : CString) (i : ℕ) (hnew : ∀ slot ∈ table, slot.runtimeid ≠ some runtime) :
    TableInv (table.modify i fun c =>
      { c with runtimeid := some runtime, connection := some identity }) := by
  refine ⟨?_, ?_, ?_, ?_, ?_⟩
  · rw [List.length_modify]
    exact h.length_le
  · intro j k a b r ha hb hida hidb
    obtain ⟨a, ha', rfl⟩ := of_modify ha
    obtain ⟨b, hb', rfl⟩ := of_modify hb
    by_cases hj : i = j
    · by_cases hk : i = k
      · exact hj.symm.trans hk
      · rw [if_pos hj] at hida
        rw [if_neg hk] at hidb
        exact absurd (hidb.trans hida.symm) (hnew b (List.mem_of_getElem? hb'))
    · rw [if_neg hj] at hida
      by_cases hk : i = k
      · rw [if_pos hk] at hidb
        exact absurd (hida.trans hidb.symm) (hnew a (List.mem_of_getElem? ha'))
      · rw [if_neg hk] at hidb
        exact h.distinct j k a b r ha' hb' hida hidb
  · intro c hc hid
    obtain ⟨j, a, ha, rfl⟩ := of_mem_modify hc
    split at hid
    · cases hid
    · next hij =>
        rw [if_neg hij]
        exact h.free a (List.mem_of_getElem? ha) hid
  · intro c hc hid
    obtain ⟨j, a, ha, rfl⟩ := of_mem_modify hc
    split
    · exact Option.some_ne_none _
    · next hij =>
        rw [if_neg hij] at hid
        exact h.identity a (List.mem_of_getElem? ha) hid
  · intro j c conn hj hconn
    obtain ⟨a, ha, rfl⟩ := of_modify hj
    refine h.home j a conn ha ?_
    split at hconn <;> exact hconn

/-- The connection is entered into its slot. -/
theorem setConn {table : List ContainerSlot} (h : TableInv table) (conn : ContainerConn)
    {slot : ContainerSlot} (hi : table[conn.containerSlot]? = some slot) (hslot : slot.runtimeid ≠ none) :
    TableInv (table.modify conn.containerSlot fun c => { c with conn := some conn }) := by
  refine ⟨?_, ?_, ?_, ?_, ?_⟩
  · rw [List.length_modify]
    exact h.length_le
  · intro j k a b r ha hb hida hidb
    obtain ⟨a, ha', rfl⟩ := of_modify ha
    obtain ⟨b, hb', rfl⟩ := of_modify hb
    refine h.distinct j k a b r ha' hb' ?_ ?_
    · split at hida <;> exact hida
    · split at hidb <;> exact hidb
  · intro c hc hid
    obtain ⟨j, a, ha, rfl⟩ := of_mem_modify hc
    by_cases hij : conn.containerSlot = j
    · rw [if_pos hij] at hid
      rw [← hij, hi, Option.some.injEq] at ha
      exact absurd (ha ▸ hid) hslot
    · rw [if_neg hij] at hid ⊢
      exact h.free a (List.mem_of_getElem? ha) hid
  · intro c hc hid
    obtain ⟨j, a, ha, rfl⟩ := of_mem_modify hc
    have hkeep : ∀ b, b = (if conn.containerSlot = j then { a with conn := some conn } else a) →
        b.runtimeid = a.runtimeid ∧ b.connection = a.connection := by
      rintro b rfl
      split <;> exact ⟨rfl, rfl⟩
    rw [(hkeep _ rfl).1] at hid
    rw [(hkeep _ rfl).2]
    exact h.identity a (List.mem_of_getElem? ha) hid
  · intro j c conn' hj hconn
    obtain ⟨a, ha, rfl⟩ := of_modify hj
    split at hconn
    · next hij => rwa [← Option.some.inj hconn]
    · exact h.home j a conn' ha hconn

end TableInv

namespace ContainerSession

/-- What the phase of the innermost call says about the table. -/
def Holds (s : ContainerSession) (call : PlcCall) : Prop :=
  match call.phase with
  | .starting i => s.deleteBackendsWhenError = true ∧ s.containersInit = true ∧
      (∃ slot, s.table[i]? = some slot ∧ slot.runtimeid = none) ∧
      ∀ slot ∈ s.table, slot.runtimeid ≠ some call.runtime
  | .registered i | .launched i => s.deleteBackendsWhenError = true ∧ s.containersInit = true ∧
      ∃ slot, s.table[i]? = some slot ∧ slot.runtimeid = some call.runtime ∧ slot.conn = none
  | .connected _ => s.deleteBackendsWhenError = true ∧
      ∃ slot ∈ s.table, slot.runtimeid = some call.runtime
  | .entered | .running _ | .returning => True

structure Inv (s : ContainerSession) : Prop where
  table : TableInv s.table
  pending : Pending s.calls s.table
  top : ∀ call ∈ s.calls.head?, s.Holds call
  below : ∀ call ∈ s.calls.tail, call.phase.callsOut

theorem holds_of_callsOut {s : ContainerSession} {call : PlcCall} (h : call.phase.callsOut) :
    s.Holds call := by
  rw [Holds]
  cases hphase : call.phase <;> simp_all [CallPhase.callsOut]

theorem Inv.settled {s : ContainerSession} (h : s.Inv)
    (hphase : ∀ call ∈ s.calls.head?, ∀ i, call.phase ≠ .registered i ∧ call.phase ≠ .launched i) :
    TableSettled s.table := by
  intro slot hslot hid hconn
  obtain ⟨i, hi⟩ := List.mem_iff_getElem?.1 hslot
  obtain ⟨call, hcall, hregistered | hlaunched⟩ := h.pending i slot hi hid hconn
  · exact (hphase call hcall i).1 hregistered
  · exact (hphase call hcall i).2 hlaunched

theorem Inv.of_settled {s : ContainerSession} (htable : TableInv s.table) (hsettled : TableSettled s.table)
    (htop : ∀ call ∈ s.calls.head?, s.Holds call) (hbelow : ∀ call ∈ s.calls.tail, call.phase.callsOut) :
    s.Inv :=
  ⟨htable, fun _ slot hi hid hconn => absurd hconn (hsettled slot (List.mem_of_getElem? hi) hid), htop,
    hbelow⟩

theorem Inv.of_callsOut {s : ContainerSession} (htable : TableInv s.table) (hsettled : TableSettled s.table)
    (hcalls : ∀ call ∈ s.calls, call.phase.callsOut) : s.Inv := by
  refine .of_settled htable hsettled ?_ ?_
  · intro call hcall
    exact holds_of_callsOut (hcalls call (List.mem_of_mem_head? hcall))
  · intro call hcall
    exact hcalls call (List.mem_of_mem_tail hcall)

/-- Without a table in use. -/
theorem Inv.of_table_nil {s : ContainerSession} (htable : s.table = [])
    (hcalls : ∀ call ∈ s.calls, call.phase.callsOut) : s.Inv := by
  refine .of_callsOut (htable ▸ .nil) ?_ hcalls
  rw [htable]
  exact List.forall_mem_nil _

theorem Inv.table_ready {s : ContainerSession} (h : s.Inv) : TableInv s.ready.table := by
  obtain hready | hready := s.table_ready
  · rw [hready]
    exact h.table
  · rw [hready]
    exact .replicate

theorem settled_ready {s : ContainerSession} (h : TableSettled s.table) : TableSettled s.ready.table := by
  obtain hready | hready := s.table_ready
  · rw [hready]
    exact h
  · rw [hready]
    intro slot hslot hid
    rw [(List.mem_replicate.1 hslot).2] at hid
    exact absurd rfl hid

/-! ## One step -/

variable {s : ContainerSession} {call : PlcCall} {calls : List PlcCall}

theorem Inv.head (h : s.Inv) (hcalls : s.calls = call :: calls) : s.Holds call :=
  h.top call (by rw [hcalls]; rfl)

theorem Inv.tail (h : s.Inv) (hcalls : s.calls = call :: calls) :
    ∀ call ∈ calls, call.phase.callsOut := by
  have hbelow := h.below
  rwa [hcalls, List.tail_cons] at hbelow

/-- All slots have their connection while the innermost call is not connecting. -/
theorem Inv.settled_of_phase (h : s.Inv) (hcalls : s.calls = call :: calls)
    (hphase : ∀ i, call.phase ≠ .registered i ∧ call.phase ≠ .launched i) : TableSettled s.table := by
  refine h.settled fun top htop => ?_
  rw [hcalls, List.head?_cons, Option.mem_some_iff] at htop
  rw [← htop]
  exact hphase

/-- The innermost call goes on in a phase that says nothing about the table. -/
theorem Inv.move {s' : ContainerSession} (htable : TableInv s'.table) (hsettled : TableSettled s'.table)
    (hcalls : s'.calls = call :: calls) (hphase : call.phase.callsOut)
    (hbelow : ∀ call ∈ calls, call.phase.callsOut) : s'.Inv := by
  refine .of_callsOut htable hsettled ?_
  rw [hcalls]
  exact List.forall_mem_cons.2 ⟨hphase, hbelow⟩

theorem not_connecting_of_callsOut (h : call.phase.callsOut) (i : ℕ) :
    call.phase ≠ .registered i ∧ call.phase ≠ .launched i := by
  constructor <;> intro hphase <;> simp [hphase, CallPhase.callsOut] at h

/-- A runtime without a connection has no slot, if all slots have theirs. -/
theorem not_mem_table_of_conn_none {runtime : CString} (hsettled : TableSettled s.ready.table)
    (hconn : (s.getContainerConn runtime).2 = none) :
    ∀ slot ∈ s.ready.table, slot.runtimeid ≠ some runtime := by
  rw [getContainerConn, slotOf] at hconn
  rw [table_of_init s.ready_containersInit] at hsettled ⊢
  intro slot hslot hid
  cases hfind : s.ready.containers.find? fun slot => decide (slot.runtimeid = some runtime) with
  | none => exact absurd (decide_eq_true hid) (List.find?_eq_none.1 hfind slot hslot)
  | some found =>
      have hfound : found.runtimeid = some runtime := by
        simpa using List.find?_some hfind
      refine hsettled found (List.mem_of_find?_eq_some hfind) ?_ ?_
      · rw [hfound]
        exact Option.some_ne_none _
      · rwa [hfind, Option.bind_some] at hconn

theorem free_of_findContainerSlot {i : ℕ} (h : s.ready.findContainerSlot = some i) :
    ∃ slot, s.ready.table[i]? = some slot ∧ slot.runtimeid = none := by
  rw [findContainerSlot, List.findIdx?_eq_some_iff_getElem] at h
  obtain ⟨hi, hfree, -⟩ := h
  rw [table_of_init s.ready_containersInit]
  exact ⟨_, List.getElem?_eq_getElem hi, Option.isNone_iff_eq_none.1 hfree⟩

theorem Inv.missing {i : ℕ} (h : s.Inv) (hcalls : s.calls = call :: calls) (hphase : call.phase = .entered)
    (hconn : (s.getContainerConn call.runtime).2 = none) (hslot : s.ready.findContainerSlot = some i) :
    ((s.ready.enter call calls (.starting i)).setDelete true).Inv := by
  have hsettled : TableSettled s.ready.table :=
    settled_ready (h.settled_of_phase hcalls (by simp [hphase]))
  refine .of_settled h.table_ready hsettled ?_ (h.tail hcalls)
  intro top htop
  rw [← Option.mem_some_iff.1 htop]
  exact ⟨rfl, s.ready_containersInit, free_of_findContainerSlot hslot,
    not_mem_table_of_conn_none hsettled hconn⟩

theorem Inv.created {i : ℕ} (h : s.Inv) (hcalls : s.calls = call :: calls)
    (hphase : call.phase = .starting i) (identity : CString) :
    ((s.insertContainerSlot call.runtime identity i).enter call calls (.registered i)).Inv := by
  have hholds := h.head hcalls
  rw [Holds, hphase] at hholds
  obtain ⟨hflag, hinit, ⟨slot, hslot, hfree⟩, hnew⟩ := hholds
  have htable : ((s.insertContainerSlot call.runtime identity i).enter call calls
      (.registered i)).table = s.table.modify i fun c =>
        { c with runtimeid := some call.runtime, connection := some identity } :=
    s.table_insertContainerSlot call.runtime identity i
  have hsettled := h.settled_of_phase hcalls (by simp [hphase])
  refine ⟨?_, ?_, ?_, h.tail hcalls⟩
  · rw [htable]
    exact h.table.insert identity i hnew
  · rw [htable]
    intro j c hj hid hconn
    obtain ⟨a, ha, rfl⟩ := TableInv.of_modify hj
    by_cases hij : i = j
    · exact ⟨_, rfl, .inl (hij ▸ rfl)⟩
    · rw [if_neg hij] at hid hconn
      exact absurd hconn (hsettled a (List.mem_of_getElem? ha) hid)
  · intro top htop
    rw [← Option.mem_some_iff.1 htop]
    refine ⟨hflag, hinit, ⟨some call.runtime, some identity, slot.conn⟩, ?_, rfl,
      h.table.free slot (List.mem_of_getElem? hslot) hfree⟩
    rw [htable, List.getElem?_modify, hslot]
    simp

theorem Inv.launched {i : ℕ} (h : s.Inv) (hcalls : s.calls = call :: calls)
    (hphase : call.phase = .registered i) : (s.enter call calls (.launched i)).Inv := by
  have hholds := h.head hcalls
  rw [Holds, hphase] at hholds
  refine ⟨h.table, ?_, ?_, h.tail hcalls⟩
  · intro j slot hj hid hconn
    obtain ⟨top, htop, hpending⟩ := h.pending j slot hj hid hconn
    rw [hcalls, List.head?_cons, Option.mem_some_iff] at htop
    rw [← htop, hphase] at hpending
    have hij : i = j := by simpa using hpending
    exact ⟨_, rfl, .inr (hij ▸ rfl)⟩
  · intro top htop
    rw [← Option.mem_some_iff.1 htop]
    exact hholds

theorem Inv.connected {i : ℕ} (h : s.Inv) (hcalls : s.calls = call :: calls)
    (hphase : call.phase = .launched i) :
    ContainerSession.Inv { (s.setContainerConn ⟨s.made, i⟩).enter call calls (.connected ⟨s.made, i⟩) with
      made := s.made + 1 } := by
  have hholds := h.head hcalls
  rw [Holds, hphase] at hholds
  obtain ⟨hflag, -, slot, hslot, hid, -⟩ := hholds
  have htable : ContainerSession.table
      { (s.setContainerConn ⟨s.made, i⟩).enter call calls (.connected ⟨s.made, i⟩) with
        made := s.made + 1 } = s.table.modify i fun c => { c with conn := some ⟨s.made, i⟩ } :=
    s.table_setContainerConn ⟨s.made, i⟩
  refine .of_settled ?_ ?_ ?_ (h.tail hcalls)
  · rw [htable]
    exact h.table.setConn ⟨s.made, i⟩ hslot (by rw [hid]; exact Option.some_ne_none _)
  · rw [htable]
    intro c hc hcid hconn
    obtain ⟨j, a, ha, rfl⟩ := TableInv.of_mem_modify hc
    by_cases hij : i = j
    · rw [if_pos hij] at hconn
      cases hconn
    · rw [if_neg hij] at hcid hconn
      obtain ⟨top, htop, hpending⟩ := h.pending j a ha hcid hconn
      rw [hcalls, List.head?_cons, Option.mem_some_iff] at htop
      rw [← htop, hphase] at hpending
      exact hij (by simpa using hpending)
  · intro top htop
    rw [← Option.mem_some_iff.1 htop]
    refine ⟨hflag, ⟨slot.runtimeid, slot.connection, some ⟨s.made, i⟩⟩, ?_, hid⟩
    rw [htable]
    refine List.mem_of_getElem? (i := i) ?_
    rw [List.getElem?_modify, hslot]
    simp

theorem caught_delete {interrupt : Bool} (h : interrupt || s.deleteBackendsWhenError) :
    s.caught interrupt = s.deleteContainers.setDelete false := if_pos h

theorem caught_keep {interrupt : Bool} (h : ¬ (interrupt || s.deleteBackendsWhenError)) :
    s.caught interrupt = s := if_neg h

/-- An error drops the table, if the innermost call is in `start_backend`. -/
theorem Inv.caught (h : s.Inv) (hcalls : s.calls = call :: calls) (interrupt : Bool) :
    ContainerSession.Inv { s.caught interrupt with calls := calls } := by
  by_cases hdelete : interrupt || s.deleteBackendsWhenError
  · rw [caught_delete hdelete]
    exact .of_table_nil (table_deleteContainers s) (h.tail hcalls)
  · rw [caught_keep hdelete]
    have hflag : s.deleteBackendsWhenError ≠ true := fun hflag => hdelete (by rw [hflag, Bool.or_true])
    have hholds := h.head hcalls
    have hsettled : TableSettled s.table := by
      refine h.settled_of_phase hcalls fun i => ⟨fun hphase => hflag ?_, fun hphase => hflag ?_⟩
      · rw [Holds, hphase] at hholds
        exact hholds.1
      · rw [Holds, hphase] at hholds
        exact hholds.1
    exact .of_callsOut h.table hsettled (h.tail hcalls)

/-- The invariant is kept by every step. -/
theorem Inv.step {s' : ContainerSession} {step : SessionStep} (h : s.Inv) (hstep : s.Step step s') :
    s'.Inv := by
  cases hstep with
  | call runtime proname hcan =>
      have hsettled := h.settled fun top htop => not_connecting_of_callsOut (hcan.2 top htop)
      refine .move h.table hsettled rfl rfl ?_
      intro below hbelow
      cases hcalls : s.calls with
      | nil =>
          rw [hcalls] at hbelow
          cases hbelow
      | cons top calls =>
          rw [hcalls] at hbelow
          obtain rfl | hbelow := List.mem_cons.1 hbelow
          · exact hcan.2 _ (by rw [hcalls]; rfl)
          · exact h.tail hcalls below hbelow
  | found hcalls hphase hconn =>
      have hsettled := h.settled_of_phase hcalls (by simp [hphase])
      exact .move h.table_ready (settled_ready hsettled) rfl rfl (h.tail hcalls)
  | missing hcalls hphase hconn hslot => exact h.missing hcalls hphase hconn hslot
  | full hcalls hphase hconn hslot =>
      exact .of_table_nil (table_deleteContainers _) (List.forall_mem_nil _)
  | created identity hcalls hphase => exact h.created hcalls hphase identity
  | launched hcalls hphase => exact h.launched hcalls hphase
  | connected hcalls hphase => exact h.connected hcalls hphase
  | added hcalls hphase =>
      have hsettled := h.settled_of_phase hcalls (by simp [hphase])
      exact .move h.table hsettled rfl rfl (h.tail hcalls)
  | exception interrupt hcalls hphase =>
      have hsettled := h.settled_of_phase hcalls (by simp [hphase])
      have hset : (s.setDelete false).Inv :=
        .move h.table hsettled hcalls (by rw [hphase]; rfl) (h.tail hcalls)
      exact hset.caught hcalls interrupt
  | result hcalls hphase =>
      have hsettled := h.settled_of_phase hcalls (by simp [hphase])
      exact .move h.table_ready (settled_ready hsettled) rfl rfl (h.tail hcalls)
  | returned hcalls hphase =>
      have hsettled := h.settled_of_phase hcalls (by simp [hphase])
      exact .of_callsOut h.table hsettled (h.tail hcalls)
  | raised interrupt hcalls => exact h.caught hcalls interrupt
  | exited => exact .of_table_nil (table_deleteContainers _) (List.forall_mem_nil _)

/-! ## Runs -/

open Runs

/-- The states that follow a state. -/
def Later (s s' : ContainerSession) : Prop := ReachableUnder (· = s) Step (fun _ _ => True) s'

/-- The states of a session. -/
def Reachable (s : ContainerSession) : Prop := start.Later s

theorem Reachable.next {s' : ContainerSession} {step : SessionStep} (h : s.Reachable)
    (hstep : s.Step step s') : s'.Reachable := ReachableUnder.step h trivial hstep

theorem Reachable.inv (h : s.Reachable) : s.Inv := by
  refine ReachableUnder.invariant ?_ (fun s step s' hs _ hstep => hs.step hstep) h
  rintro s rfl
  exact .of_table_nil rfl (List.forall_mem_nil _)

/-- The step calls `delete_containers`. -/
def Deletes (s : ContainerSession) : SessionStep → Prop
  | .raised interrupt => interrupt || s.deleteBackendsWhenError
  | .exception interrupt => interrupt
  | .full | .exited => True
  | _ => False

/-- From the `n`-th on, the connections of the table are new. -/
structure Fresh (n : ℕ) (s : ContainerSession) : Prop where
  made : n ≤ s.made
  conns : ∀ slot ∈ s.table, ∀ conn, slot.conn = some conn → n ≤ conn.number

theorem fresh_of_table_nil {n : ℕ} (hmade : n ≤ s.made) (htable : s.table = []) : s.Fresh n := by
  refine ⟨hmade, ?_⟩
  rw [htable]
  exact List.forall_mem_nil _

theorem fresh_of_deletes {step : SessionStep} {s' : ContainerSession} (hstep : s.Step step s')
    (hdeletes : s.Deletes step) : s'.Fresh s.made := by
  cases hstep with
  | full hcalls hphase hconn hslot =>
      exact fresh_of_table_nil (by simp [exit, getContainerConn]) (table_deleteContainers _)
  | exception interrupt hcalls hphase =>
      rw [caught_delete (by rw [show interrupt = true from hdeletes]; rfl)]
      exact fresh_of_table_nil (by simp [setDelete]) (table_deleteContainers _)
  | raised interrupt hcalls =>
      rw [caught_delete hdeletes]
      exact fresh_of_table_nil (by simp [setDelete]) (table_deleteContainers _)
  | exited => exact fresh_of_table_nil (by simp [exit]) (table_deleteContainers _)
  | _ => exact hdeletes.elim

theorem Fresh.ready {n : ℕ} (h : s.Fresh n) : s.ready.Fresh n := by
  refine ⟨by rw [ready_made]; exact h.made, ?_⟩
  obtain hready | hready := s.table_ready
  · rw [hready]
    exact h.conns
  · rw [hready]
    intro slot hslot conn hconn
    rw [(List.mem_replicate.1 hslot).2] at hconn
    cases hconn

theorem Fresh.caught {n : ℕ} (h : s.Fresh n) (interrupt : Bool) : (s.caught interrupt).Fresh n := by
  by_cases hdelete : interrupt || s.deleteBackendsWhenError
  · rw [caught_delete hdelete]
    exact fresh_of_table_nil (by rw [setDelete, deleteContainers_made]; exact h.made)
      (table_deleteContainers s)
  · rw [caught_keep hdelete]
    exact h

theorem Fresh.exit {n : ℕ} (h : s.Fresh n) : s.exit.Fresh n :=
  fresh_of_table_nil (by rw [ContainerSession.exit, deleteContainers_made]; exact h.made)
    (table_deleteContainers s)

/-- A changed slot has a new connection, if it has another one. -/
theorem Fresh.modify {n i : ℕ} {f : ContainerSlot → ContainerSlot} (h : s.Fresh n)
    (hf : ∀ a conn, (f a).conn = some conn → a.conn = some conn ∨ n ≤ conn.number) :
    ∀ slot ∈ s.table.modify i f, ∀ conn, slot.conn = some conn → n ≤ conn.number := by
  intro slot hslot conn hconn
  obtain ⟨j, a, ha, rfl⟩ := TableInv.of_mem_modify hslot
  split at hconn
  · obtain hold | hnew := hf a conn hconn
    · exact h.conns a (List.mem_of_getElem? ha) conn hold
    · exact hnew
  · exact h.conns a (List.mem_of_getElem? ha) conn hconn

theorem Fresh.step {n : ℕ} {s' : ContainerSession} {step : SessionStep} (h : s.Fresh n)
    (hstep : s.Step step s') : s'.Fresh n := by
  cases hstep with
  | call runtime proname hcan => exact ⟨h.made, h.conns⟩
  | found hcalls hphase hconn => exact ⟨h.ready.made, h.ready.conns⟩
  | missing hcalls hphase hconn hslot => exact ⟨h.ready.made, h.ready.conns⟩
  | full hcalls hphase hconn hslot => exact h.ready.exit
  | @created call calls slot identity hcalls hphase =>
      refine ⟨h.made, fun c hc conn hconn => ?_⟩
      have htable := s.table_insertContainerSlot call.runtime identity slot
      refine h.modify ?_ c (htable ▸ hc) conn hconn
      exact fun a conn hold => .inl hold
  | launched hcalls hphase => exact ⟨h.made, h.conns⟩
  | @connected call calls slot hcalls hphase =>
      refine ⟨Nat.le_succ_of_le h.made, fun c hc conn hconn => ?_⟩
      have htable := s.table_setContainerConn ⟨s.made, slot⟩
      refine h.modify (fun a conn hnew => .inr ?_) c (htable ▸ hc) conn hconn
      rw [← Option.some.inj hnew]
      exact h.made
  | added hcalls hphase => exact ⟨h.made, h.conns⟩
  | exception interrupt hcalls hphase =>
      have hset : (s.setDelete false).Fresh n := ⟨h.made, h.conns⟩
      exact ⟨(hset.caught interrupt).made, (hset.caught interrupt).conns⟩
  | result hcalls hphase => exact ⟨h.ready.made, h.ready.conns⟩
  | returned hcalls hphase => exact ⟨h.made, h.conns⟩
  | raised interrupt hcalls => exact ⟨(h.caught interrupt).made, (h.caught interrupt).conns⟩
  | exited => exact h.exit

theorem Fresh.later {n : ℕ} {s' : ContainerSession} (h : s.Fresh n) (hlater : s.Later s') :
    s'.Fresh n := by
  refine ReachableUnder.invariant ?_ (fun s step s' hs _ hstep => hs.step hstep) hlater
  rintro s rfl
  exact h

theorem Fresh.getContainerConn {n : ℕ} {runtime : CString} {conn : ContainerConn} (h : s.Fresh n)
    (hconn : (s.getContainerConn runtime).2 = some conn) : n ≤ conn.number := by
  obtain ⟨slot, hslot, hconn⟩ := Option.bind_eq_some_iff.1 hconn
  refine h.ready.conns slot ?_ conn hconn
  rw [table_of_init s.ready_containersInit]
  exact List.mem_of_find?_eq_some hslot

/-- In every state of a session: each runtime has at most one slot, at most ten slots are occupied, a
    connection is in the slot that it names, all occupied slots have a connection when no call is
    active, and after `delete_containers` only connections made later are found. -/
theorem container_slots (h : s.Reachable) :
    (∀ (i j : ℕ) (a b : ContainerSlot) (runtime : CString), s.table[i]? = some a →
      s.table[j]? = some b → a.runtimeid = some runtime → b.runtimeid = some runtime → i = j) ∧
    (s.table.filter fun slot => slot.runtimeid.isSome).length ≤ maxContainerNumber ∧
    (∀ (i : ℕ) (slot : ContainerSlot) (conn : ContainerConn), s.table[i]? = some slot →
      slot.conn = some conn → conn.containerSlot = i) ∧
    (s.calls = [] → ∀ slot ∈ s.table, slot.runtimeid ≠ none → slot.conn ≠ none) ∧
    (∀ (step : SessionStep) (s' later : ContainerSession) (runtime : CString) (conn : ContainerConn),
      s.Step step s' → s.Deletes step → s'.Later later →
      (later.getContainerConn runtime).2 = some conn → s.made ≤ conn.number) := by
  have hinv := h.inv
  refine ⟨hinv.table.distinct, ?_, hinv.table.home, ?_, ?_⟩
  · exact (List.length_filter_le _ _).trans hinv.table.length_le
  · intro hcalls
    refine hinv.settled fun call hcall => ?_
    rw [hcalls] at hcall
    cases hcall
  · intro step s' later runtime conn hstep hdeletes hlater hconn
    exact ((fresh_of_deletes hstep hdeletes).later hlater).getContainerConn hconn

/-- The state after one complete call of a function in a new container. -/
def afterOneCall : ContainerSession where
  containersInit := true
  containers := ⟨some [114], some [99], some ⟨0, 0⟩⟩ :: List.replicate 9 ⟨none, none, none⟩
  deleteBackendsWhenError := false
  calls := []
  made := 1
  ended := false

theorem reachable_afterOneCall : afterOneCall.Reachable := by
  have hstart : start.Reachable := .init rfl
  have hcall := hstart.next (.call [114] [102] ⟨rfl, by simp [start]⟩)
  have hmissing := hcall.next (.missing rfl rfl rfl rfl)
  have hcreated := hmissing.next (.created [99] rfl rfl)
  have hlaunched := hcreated.next (.launched rfl rfl)
  have hconnected := hlaunched.next (.connected rfl rfl)
  have hadded := hconnected.next (.added rfl rfl)
  have hresult := hadded.next (.result rfl rfl)
  exact hresult.next (.returned rfl rfl)

theorem container_slots_after_one_call :
    (afterOneCall.calls = [] ∧ (afterOneCall.getContainerConn [114]).2 = some ⟨0, 0⟩) ∧
      (∀ slot ∈ afterOneCall.table, slot.runtimeid ≠ none → slot.conn ≠ none) ∧
      (afterOneCall.exit.getContainerConn [114]).2 = none := by
  have hslots := container_slots reachable_afterOneCall
  exact ⟨⟨rfl, by decide⟩, hslots.2.2.2.1 rfl, by decide⟩

end ContainerSession

end PlContainer
