import PlContainer.Library.Block
import Mathlib.Algebra.Group.Nat.Defs
import Mathlib.Data.Int.Notation

set_option autoImplicit false

/-! # The connection buffers of `comm_connectivity.c`

A connection has an input and an output buffer, each a window `[pStart, pEnd)` into a block of
`bufSize` bytes. The block is modelled byte by byte, so that every `memcpy` and every `recv` states
the range it touches; a range outside the block, an overlapping `memcpy` or a `recv` of no bytes is a
`Fault`. The offsets are C `int`s: they are integers here, and `wrap32` stands where a sum or a
product of the source could leave the range of an `int`.

The socket and the allocator are given by what they answer during one call: how many bytes each
`send` takes, what each `recv` delivers, and whether `PLy_malloc` succeeds. -/

namespace PlContainer

open Block

/-- The value of an integer expression in a C `int`. -/
def wrap32 (x : ℤ) : ℤ := Int.bmod x (2 ^ 32)

def plcBufferSize : ℤ := 8192

def plcBufferMinFree : ℤ := 200

/-- What the buffer code must never do. -/
inductive Fault where
  | copyOutOfBounds
  | overlappingCopy
  | recvOutOfBounds
  | recvZeroBytes
deriving DecidableEq, Repr

/-! ## Copies -/

/-- The source of a `memcpy`: `len` bytes at offset `off`. -/
def loadBytes (data : List UInt8) (off len : ℤ) : Except Fault (List UInt8) :=
  if 0 ≤ off ∧ 0 ≤ len ∧ off + len ≤ data.length then .ok (slice data off.toNat len.toNat)
  else .error .copyOutOfBounds

/-- The destination of a `memcpy`: `bytes` go to offset `off`. -/
def storeBytes (data : List UInt8) (off : ℤ) (bytes : List UInt8) : Except Fault (List UInt8) :=
  if 0 ≤ off ∧ off + bytes.length ≤ data.length then .ok (overwrite data off.toNat bytes)
  else .error .copyOutOfBounds

/-! ## Buffers -/

structure PlcBuffer where
  data : List UInt8
  pStart : ℤ
  pEnd : ℤ
  bufSize : ℤ
deriving DecidableEq, Repr

/-- How a function that may use the socket ends: whether it returns 0, the buffer it leaves, and the
    bytes that crossed the socket. -/
structure SocketResult where
  ok : Bool
  buf : PlcBuffer
  moved : List UInt8
deriving DecidableEq, Repr

/-- `plcBufferMaybeReset`. -/
def plcBufferMaybeReset (buf : PlcBuffer) : Except Fault PlcBuffer :=
  if buf.pStart = buf.pEnd then .ok { buf with pStart := 0, pEnd := 0 }
  else if buf.bufSize / 2 < buf.pStart then
    -- the ranges of this memcpy are [pStart, pEnd) and [0, pEnd - pStart)
    if buf.pStart < buf.pEnd - buf.pStart then .error .overlappingCopy
    else do
      let bytes ← loadBytes buf.data buf.pStart (buf.pEnd - buf.pStart)
      let data ← storeBytes buf.data 0 bytes
      pure { buf with data := data, pStart := 0, pEnd := buf.pEnd - buf.pStart }
  else .ok buf

/-- The condition of `plcBufferMaybeFlush` that is not about force. -/
def shouldFlush (buf : PlcBuffer) : Bool :=
  decide (buf.bufSize - buf.pEnd < plcBufferMinFree)
    || decide (plcBufferSize < buf.pEnd - buf.pStart)

/-- The loop of `plcBufferMaybeFlush`. An entry `k` of the script is a `send` that takes `k + 1` of
    the bytes offered, or all of them if they are fewer; `send` fails at the end of the script. -/
def flushLoop : List ℕ → PlcBuffer → Except Fault SocketResult
  | [], buf => .ok ⟨decide (buf.pEnd ≤ buf.pStart), buf, []⟩
  | k :: script, buf =>
      if buf.pStart < buf.pEnd then do
        let offered ← loadBytes buf.data buf.pStart (buf.pEnd - buf.pStart)
        let taken := offered.take (k + 1)
        let r ← flushLoop script { buf with pStart := buf.pStart + taken.length }
        pure { r with moved := taken ++ r.moved }
      else .ok ⟨true, buf, []⟩

/-- The end of `plcBufferMaybeFlush`: the buffer is reset when all of it was sent. -/
def resetFlushed (r : SocketResult) : Except Fault SocketResult :=
  if r.ok then do
    let buf ← plcBufferMaybeReset r.buf
    pure { r with buf := buf }
  else .ok r

def plcBufferMaybeFlush (sends : List ℕ) (buf : PlcBuffer) (isForse : Bool) :
    Except Fault SocketResult :=
  if shouldFlush buf || isForse then flushLoop sends buf >>= resetFlushed
  else .ok ⟨true, buf, []⟩

/-- The end of `plcBufferMaybeResize`: the data moves to a new block. What `PLy_malloc` leaves in the
    block is never read before it is written; it is zero here. -/
def reallocate (buf : PlcBuffer) (newSize : ℤ) : Except Fault PlcBuffer := do
  let bytes ← loadBytes buf.data buf.pStart (buf.pEnd - buf.pStart)
  let data ← storeBytes (List.replicate newSize.toNat 0) 0 bytes
  pure ⟨data, 0, buf.pEnd - buf.pStart, newSize⟩

/-- The size needed to hold the data and `bufAppend` more bytes. -/
def neededSize (buf : PlcBuffer) (bufAppend : ℤ) : ℤ :=
  wrap32 (wrap32 (buf.pEnd - buf.pStart + bufAppend) + plcBufferMinFree)

/-- A size rounded up to whole units of `PLC_BUFFER_SIZE`, with at least one byte to spare. -/
def roundedSize (size : ℤ) : ℤ :=
  wrap32 (wrap32 (Int.tdiv size plcBufferSize + 1) * plcBufferSize)

/-- `plcBufferMaybeResize`; `alloc` says whether `PLy_malloc` succeeds. -/
def plcBufferMaybeResize (alloc : Bool) (buf : PlcBuffer) (bufAppend : ℤ) :
    Except Fault (Bool × PlcBuffer) :=
  let dataSize := neededSize buf bufAppend
  if dataSize < buf.bufSize / 5 ∧ plcBufferSize < buf.bufSize then
    -- a failed shrink is not an error
    if alloc then Prod.mk true <$> reallocate buf (roundedSize (wrap32 (dataSize * 2)))
    else .ok (true, buf)
  else if buf.bufSize - plcBufferMinFree < wrap32 (buf.pEnd + bufAppend) then
    if alloc then Prod.mk true <$> reallocate buf (roundedSize dataSize)
    else .ok (false, buf)
  else .ok (true, buf)

/-! ## The output side -/

/-- The copy at the end of `plcBufferAppend`. -/
def putBytes (src : List UInt8) (buf : PlcBuffer) : Except Fault PlcBuffer := do
  let data ← storeBytes buf.data buf.pEnd src
  pure { buf with data := data, pEnd := wrap32 (buf.pEnd + src.length) }

/-- `plcBufferAppend` once the buffer has been reset and perhaps flushed. -/
def appendFlushed (alloc : Bool) (src : List UInt8) (r : SocketResult) :
    Except Fault SocketResult :=
  if r.ok then do
    let resized ← plcBufferMaybeResize alloc r.buf (wrap32 src.length)
    if resized.1 then do
      let buf ← putBytes src resized.2
      pure ⟨true, buf, r.moved⟩
    else pure ⟨false, resized.2, r.moved⟩
  else .ok r

def plcBufferAppend (alloc : Bool) (sends : List ℕ) (buf : PlcBuffer) (src : List UInt8) :
    Except Fault SocketResult :=
  if buf.bufSize - buf.pEnd < wrap32 src.length then do
    let buf ← plcBufferMaybeReset buf
    let r ← plcBufferMaybeFlush sends buf false
    appendFlushed alloc src r
  else do
    let buf ← putBytes src buf
    pure ⟨true, buf, []⟩

def plcBufferFlush (sends : List ℕ) (buf : PlcBuffer) : Except Fault SocketResult :=
  plcBufferMaybeFlush sends buf true

/-! ## The input side -/

/-- The room offered to `recv`, which must be a non-empty range of the block. -/
def recvRoom (buf : PlcBuffer) : Except Fault ℤ :=
  let room := buf.bufSize - buf.pEnd
  if room = 0 then .error .recvZeroBytes
  else if 0 ≤ buf.pEnd ∧ 0 < room ∧ buf.pEnd + room ≤ buf.data.length then .ok room
  else .error .recvOutOfBounds

/-- The loop of `plcBufferReceive`. An entry of the script is what the peer has for one `recv`, cut
    to the room offered; an empty entry and the end of the script are an end of the stream. -/
def recvLoop : List (List UInt8) → PlcBuffer → ℤ → Except Fault SocketResult
  | [], buf, nBytesToReceive =>
      if 0 < nBytesToReceive then do
        let _ ← recvRoom buf
        pure ⟨false, buf, []⟩
      else .ok ⟨true, buf, []⟩
  | chunk :: script, buf, nBytesToReceive =>
      if 0 < nBytesToReceive then do
        let room ← recvRoom buf
        let got := chunk.take room.toNat
        if got = [] then pure ⟨false, buf, []⟩
        else do
          let data ← storeBytes buf.data buf.pEnd got
          let r ← recvLoop script { buf with data := data, pEnd := buf.pEnd + got.length }
            (nBytesToReceive - got.length)
          pure { r with moved := got ++ r.moved }
      else .ok ⟨true, buf, []⟩

/-- `plcBufferReceive` once the buffer has been reset and perhaps resized. -/
def receiveResized (recvs : List (List UInt8)) (nBytes : ℤ) (resized : Bool × PlcBuffer) :
    Except Fault SocketResult :=
  if resized.1 then
    recvLoop recvs resized.2 (nBytes - (resized.2.pEnd - resized.2.pStart))
  else .ok ⟨false, resized.2, []⟩

def plcBufferReceive (alloc : Bool) (recvs : List (List UInt8)) (buf : PlcBuffer) (nBytes : ℕ) :
    Except Fault SocketResult :=
  if buf.pEnd - buf.pStart < wrap32 nBytes then do
    let buf ← plcBufferMaybeReset buf
    let resized ← plcBufferMaybeResize alloc buf (wrap32 nBytes)
    receiveResized recvs (wrap32 nBytes) resized
  else .ok ⟨true, buf, []⟩

/-- The copy at the end of `plcBufferRead`. -/
def takeBytes (nBytes : ℕ) (buf : PlcBuffer) : Except Fault (List UInt8 × PlcBuffer) := do
  let bytes ← loadBytes buf.data buf.pStart nBytes
  pure (bytes, { buf with pStart := wrap32 (buf.pStart + nBytes) })

/-- The bytes read, if the read succeeds, with the state of the socket. -/
def plcBufferRead (alloc : Bool) (recvs : List (List UInt8)) (buf : PlcBuffer) (nBytes : ℕ) :
    Except Fault (Option (List UInt8) × SocketResult) := do
  let r ← plcBufferReceive alloc recvs buf nBytes
  if r.ok then do
    let taken ← takeBytes nBytes r.buf
    pure (some taken.1, { r with buf := taken.2 })
  else pure (none, r)

/-! ## Connections -/

structure PlcConn where
  input : PlcBuffer
  output : PlcBuffer
deriving DecidableEq, Repr

def plcBufferInit : PlcBuffer := ⟨List.replicate plcBufferSize.toNat 0, 0, 0, plcBufferSize⟩

def plcConnInit : PlcConn := ⟨plcBufferInit, plcBufferInit⟩

end PlContainer
