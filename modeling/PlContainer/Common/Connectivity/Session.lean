import PlContainer.Common.Connectivity.Fifo
import PlContainer.Library.ByteStream
import PlContainer.Library.Checked
import PlContainer.Library.Runs

set_option autoImplicit false

/-! # Runs over a connection

A session is a connection with the history of what crossed it: the bytes appended and read by the
callers, and the bytes taken and delivered by the socket. Every run of the four buffer functions
keeps both buffers valid and both queue equations, as long as each call can make room; and a call
that cannot make room goes wrong for some behaviour of the socket. -/

namespace PlContainer

open Checked Runs

structure Session where
  conn : PlcConn
  /-- the bytes of all successful appends -/
  appended : List UInt8
  /-- the bytes `send` took -/
  sent : List UInt8
  /-- the bytes `recv` delivered -/
  received : List UInt8
  /-- the bytes all successful reads returned -/
  returned : List UInt8

/-- A connection fresh from `plcConnInit`. -/
def Session.start : Session := ⟨plcConnInit, [], [], [], []⟩

inductive BufferCall where
  | append (src : List UInt8)
  | flush
  | receive (nBytes : ℕ)
  | read (nBytes : ℕ)

/-- What the socket and the allocator answer during one call. -/
structure Environment where
  sends : List ℕ
  recvs : List (List UInt8)
  alloc : Bool

def Session.exec (s : Session) (env : Environment) : BufferCall → Except Fault Session
  | .append src => do
      let r ← plcBufferAppend env.alloc env.sends s.conn.output src
      pure { s with
        conn := { s.conn with output := r.buf }
        sent := s.sent ++ r.moved
        appended := s.appended ++ (if r.ok then src else []) }
  | .flush => do
      let r ← plcBufferFlush env.sends s.conn.output
      pure { s with conn := { s.conn with output := r.buf }, sent := s.sent ++ r.moved }
  | .receive nBytes => do
      let r ← plcBufferReceive env.alloc env.recvs s.conn.input nBytes
      pure { s with conn := { s.conn with input := r.buf }, received := s.received ++ r.moved }
  | .read nBytes => do
      let r ← plcBufferRead env.alloc env.recvs s.conn.input nBytes
      pure { s with
        conn := { s.conn with input := r.2.buf }
        received := s.received ++ r.2.moved
        returned := s.returned ++ r.1.getD [] }

/-- The bytes asked for and those buffered already stay within the limit. -/
def Session.withinLimit (s : Session) : BufferCall → Prop
  | .append src => s.conn.output.pEnd - s.conn.output.pStart + src.length ≤ maxRequest
  | .flush => True
  | .receive nBytes => s.conn.input.pEnd - s.conn.input.pStart + nBytes ≤ maxRequest
  | .read nBytes => s.conn.input.pEnd - s.conn.input.pStart + nBytes ≤ maxRequest

/-- The call can make room for its bytes. -/
def Session.fits (s : Session) : BufferCall → Prop
  | .append src => appendFits s.conn.output src.length
  | .flush => True
  | .receive nBytes => receiveFits s.conn.input nBytes
  | .read nBytes => receiveFits s.conn.input nBytes

def Session.step (s : Session) (i : BufferCall × Environment) (s' : Session) : Prop :=
  s.exec i.2 i.1 = .ok s'

/-- The sessions of all runs whose calls meet `ok`. -/
def Session.Reachable (ok : Session → BufferCall → Prop) : Session → Prop :=
  ReachableUnder (· = Session.start) Session.step fun s i => ok s i.1

/-- Both buffers are valid, and nothing is lost, duplicated or reordered. -/
structure Session.Inv (s : Session) : Prop where
  input : s.conn.input.Valid
  output : s.conn.output.Valid
  sending : s.sent ++ s.conn.output.content = s.appended
  receiving : s.returned ++ s.conn.input.content = s.received

theorem plcBufferInit_valid : plcBufferInit.Valid := by
  refine ⟨le_refl 0, le_refl 0, by decide, ?_, by decide, by decide⟩
  rw [plcBufferInit, List.length_replicate]
  rfl

theorem Session.inv_start : Session.start.Inv :=
  ⟨plcBufferInit_valid, plcBufferInit_valid, rfl, rfl⟩

/-- One call that makes room keeps the invariant and commits no fault. -/
theorem Session.exec_inv {s : Session} (h : s.Inv) {call : BufferCall} (hlimit : s.withinLimit call)
    (hfits : s.fits call) (env : Environment) : ∃ s', s.exec env call = .ok s' ∧ s'.Inv := by
  obtain ⟨hin, hout, hsend, hrecv⟩ := h
  cases call with
  | append src =>
      obtain ⟨r, hr, hvalid, hqueue⟩ :=
        plcBufferAppend_spec hout hlimit hfits env.alloc env.sends
      rw [Session.exec, hr]
      refine ⟨_, rfl, hin, hvalid, ?_, hrecv⟩
      show s.sent ++ r.moved ++ r.buf.content = s.appended ++ (if r.ok then src else [])
      rw [List.append_assoc, hqueue, ← List.append_assoc, hsend]
  | flush =>
      obtain ⟨r, hr, hvalid, hqueue, _⟩ := plcBufferMaybeFlush_spec hout env.sends true
      rw [Session.exec, plcBufferFlush, hr]
      refine ⟨_, rfl, hin, hvalid, ?_, hrecv⟩
      show s.sent ++ r.moved ++ r.buf.content = s.appended
      rw [List.append_assoc, hqueue, hsend]
  | receive nBytes =>
      obtain ⟨r, hr, hvalid, hqueue, _⟩ :=
        plcBufferReceive_spec hin hlimit hfits env.alloc env.recvs
      rw [Session.exec, hr]
      refine ⟨_, rfl, hvalid, hout, hsend, ?_⟩
      show s.returned ++ r.buf.content = s.received ++ r.moved
      rw [hqueue, ← List.append_assoc, hrecv]
  | read nBytes =>
      obtain ⟨res, r, hr, hvalid, hqueue, _⟩ :=
        plcBufferRead_spec hin hlimit hfits env.alloc env.recvs
      rw [Session.exec, hr]
      refine ⟨_, rfl, hvalid, hout, hsend, ?_⟩
      show s.returned ++ res.getD [] ++ r.buf.content = s.received ++ r.moved
      rw [List.append_assoc, hqueue, ← List.append_assoc, hrecv]

/-- A call that cannot make room commits a fault for some behaviour of the socket. -/
theorem Session.exec_faults {s : Session} (h : s.Inv) {call : BufferCall}
    (hlimit : s.withinLimit call) (hfits : ¬ s.fits call) :
    ∃ env e, s.exec env call = .error e := by
  cases call with
  | append src =>
      refine ⟨⟨[], [], true⟩, .copyOutOfBounds, ?_⟩
      rw [Session.exec, plcBufferAppend_faults h.output hlimit hfits]
      rfl
  | flush => exact absurd trivial hfits
  | receive nBytes =>
      obtain ⟨recvs, hfault⟩ := plcBufferReceive_faults h.input hlimit hfits true
      refine ⟨⟨[], recvs, true⟩, .recvZeroBytes, ?_⟩
      rw [Session.exec, hfault]
      rfl
  | read nBytes =>
      obtain ⟨recvs, hfault⟩ := plcBufferReceive_faults h.input hlimit hfits true
      refine ⟨⟨[], recvs, true⟩, .recvZeroBytes, ?_⟩
      rw [Session.exec, plcBufferRead_faults hfault]
      rfl

theorem Session.inv_of_reachable {s : Session}
    (h : Session.Reachable (fun s call => s.withinLimit call ∧ s.fits call) s) : s.Inv := by
  refine ReachableUnder.invariant ?_ ?_ h
  · rintro s rfl
    exact Session.inv_start
  · intro s i s' hinv hok hstep
    obtain ⟨t, ht, htinv⟩ := Session.exec_inv hinv hok.1 hok.2 i.2
    rw [Session.step, ht] at hstep
    cases hstep
    exact htinv

/-- The channel's view of a read: on the stream of the buffered bytes and those delivered meanwhile,
    it takes the next `nBytes` and leaves the rest. -/
theorem plcBufferRead_eq_readBytes {ε : Type} (e : ε) {buf : PlcBuffer} (h : buf.Valid) {nBytes : ℕ}
    (hmax : buf.pEnd - buf.pStart + nBytes ≤ maxRequest) (hfits : receiveFits buf nBytes)
    {alloc : Bool} {recvs : List (List UInt8)} {bytes : List UInt8} {r : SocketResult}
    (hread : plcBufferRead alloc recvs buf nBytes = .ok (some bytes, r)) :
    (ByteStream.readBytes e nBytes).run (buf.content ++ r.moved) = .ok (bytes, r.buf.content) := by
  obtain ⟨res, r', hspec, _, hqueue, hlen⟩ := plcBufferRead_spec h hmax hfits alloc recvs
  rw [hread] at hspec
  cases hspec
  rw [Option.getD_some] at hqueue
  rw [← hqueue, ← hlen bytes rfl]
  exact ByteStream.reads_readBytes e bytes r.buf.content

/-! ## A request whose end offset leaves the range of `int` -/

/-- A chunk received into a fresh buffer that has to grow for it. -/
theorem receive_into_fresh {chunk : List UInt8} (hlen : chunk.length = 16500) :
    ∃ b, plcBufferReceive true [chunk] plcBufferInit 16500 = .ok ⟨true, b, chunk⟩ ∧ b.Valid ∧
      b.pStart = 0 ∧ b.pEnd = 16500 ∧ b.bufSize = 24576 := by
  have hreset : plcBufferMaybeReset plcBufferInit = .ok plcBufferInit := if_pos rfl
  obtain ⟨b, hb, hbvalid, _, hsize, hend, hstart⟩ :=
    reallocate_spec plcBufferInit_valid 24576 (by decide) (by decide) (by decide)
  have hresize : plcBufferMaybeResize true plcBufferInit 16500 = .ok (true, b) := by
    have hneed : neededSize plcBufferInit 16500 = 16700 := by decide
    have hround : roundedSize 16700 = 24576 := by decide
    have hgrow : plcBufferInit.bufSize - plcBufferMinFree < wrap32 (plcBufferInit.pEnd + 16500) := by
      decide
    unfold plcBufferMaybeResize
    rw [hneed, if_neg (by decide), if_pos hgrow, if_pos rfl, hround, hb]
    rfl
  have hzero : b.pEnd = 0 := hend
  have hne : chunk ≠ [] := List.length_pos_iff.1 (by omega)
  obtain ⟨data, hdvalid, hchunk⟩ := recvLoop_chunk hbvalid hne (by omega) 16500 (by decide) []
  refine ⟨_, ?_, hdvalid, hstart, ?_, hsize⟩
  · have hcast : wrap32 ((16500 : ℕ) : ℤ) = 16500 := by decide
    -- plain rewriting: unifying the calls would compute with the block
    rw [plcBufferReceive, hcast, if_pos (by decide), hreset, ok_bind, hresize, ok_bind]
    show recvLoop [chunk] b (16500 - (b.pEnd - b.pStart)) = _
    rw [show (16500 : ℤ) - (b.pEnd - b.pStart) = 16500 by omega, hchunk, recvLoop, if_neg (by omega)]
    show Except.ok (SocketResult.mk true _ (chunk ++ [])) = _
    rw [List.append_nil]
  · show b.pEnd + (chunk.length : ℤ) = 16500
    omega

/-- A read from a buffer that holds enough only moves the start of the window. -/
theorem read_buffered {b : PlcBuffer} (h : b.Valid) {nBytes : ℕ}
    (hn : (nBytes : ℤ) ≤ b.pEnd - b.pStart) :
    ∃ bytes b', plcBufferRead true [] b nBytes = .ok (some bytes, ⟨true, b', []⟩) ∧ b'.Valid ∧
      b'.pStart = b.pStart + nBytes ∧ b'.pEnd = b.pEnd ∧ b'.bufSize = b.bufSize := by
  have hcount := h.content_length
  obtain ⟨htake, htvalid, _⟩ := takeBytes_spec h (show nBytes ≤ b.content.length by omega)
  have hcast : wrap32 (nBytes : ℤ) = nBytes := by
    obtain ⟨h₁, h₂, h₃, h₄, h₅, h₆⟩ := h
    exact wrap32_of_lt (by omega) (by omega)
  have henough : plcBufferReceive true [] b nBytes = .ok ⟨true, b, []⟩ := if_neg (by omega)
  refine ⟨b.content.take nBytes, _, ?_, htvalid, rfl, rfl, rfl⟩
  rw [plcBufferRead, henough, ok_bind, if_pos rfl, htake]
  rfl

end PlContainer
