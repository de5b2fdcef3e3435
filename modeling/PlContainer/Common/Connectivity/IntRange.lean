import PlContainer.Common.Connectivity.Session
import PlContainer.Library.CInt

set_option autoImplicit false

/-! # The sizes computed for a receive

`plcBufferReceive` and `plcBufferMaybeResize` compute sizes and offsets as `int`s, from a number of
bytes that the peer sends. Where a value leaves the range of `int` the behaviour is undefined: the
functions are embedded here a second time, with every value checked, and they do what the wrapping
ones do as long as no check fails. For every state of a connection there is an exact condition on the
length. -/

namespace PlContainer

open CInt Checked Runs

/-! ## The functions with every value checked -/

def neededSizeChecked (buf : PlcBuffer) (bufAppend : ℤ) : Except (Stop Fault) ℤ := do
  let unread ← int (buf.pEnd - buf.pStart)
  let sum ← int (unread + bufAppend)
  int (sum + plcBufferMinFree)

def roundedSizeChecked (size : ℤ) : Except (Stop Fault) ℤ := do
  let units ← int (Int.tdiv size plcBufferSize + 1)
  int (units * plcBufferSize)

/-- `plcBufferMaybeResize` -/
def plcBufferMaybeResizeChecked (alloc : Bool) (buf : PlcBuffer) (bufAppend : ℤ) :
    Except (Stop Fault) (Bool × PlcBuffer) := do
  let dataSize ← neededSizeChecked buf bufAppend
  if dataSize < buf.bufSize / 5 ∧ plcBufferSize < buf.bufSize then do
    let twice ← int (dataSize * 2)
    let newSize ← roundedSizeChecked twice
    if alloc then Prod.mk true <$> lift (reallocate buf newSize) else pure (true, buf)
  else do
    let wanted ← int (buf.pEnd + bufAppend)
    let limit ← int (buf.bufSize - plcBufferMinFree)
    if limit < wanted then do
      let newSize ← roundedSizeChecked dataSize
      if alloc then Prod.mk true <$> lift (reallocate buf newSize) else pure (false, buf)
    else pure (true, buf)

/-- The loop of `plcBufferReceive`. -/
def recvLoopChecked : List (List UInt8) → PlcBuffer → ℤ → Except (Stop Fault) SocketResult
  | [], buf, nBytesToReceive =>
      if 0 < nBytesToReceive then do
        let _ ← int (buf.bufSize - buf.pEnd)
        let _ ← lift (recvRoom buf)
        pure ⟨false, buf, []⟩
      else pure ⟨true, buf, []⟩
  | chunk :: script, buf, nBytesToReceive =>
      if 0 < nBytesToReceive then do
        let _ ← int (buf.bufSize - buf.pEnd)
        let room ← lift (recvRoom buf)
        let got := chunk.take room.toNat
        if got = [] then pure ⟨false, buf, []⟩
        else do
          let data ← lift (storeBytes buf.data buf.pEnd got)
          let pEnd ← int (buf.pEnd + got.length)
          let missing ← int (nBytesToReceive - got.length)
          let r ← recvLoopChecked script { buf with data := data, pEnd := pEnd } missing
          pure { r with moved := got ++ r.moved }
      else pure ⟨true, buf, []⟩

def receiveResizedChecked (recvs : List (List UInt8)) (nBytes : ℤ) (resized : Bool × PlcBuffer) :
    Except (Stop Fault) SocketResult :=
  if resized.1 then do
    let unread ← int (resized.2.pEnd - resized.2.pStart)
    let nBytesToReceive ← int (nBytes - unread)
    recvLoopChecked recvs resized.2 nBytesToReceive
  else pure ⟨false, resized.2, []⟩

/-- `plcBufferReceive` -/
def plcBufferReceiveChecked (alloc : Bool) (recvs : List (List UInt8)) (buf : PlcBuffer)
    (nBytes : ℕ) : Except (Stop Fault) SocketResult := do
  let unread ← int (buf.pEnd - buf.pStart)
  if unread < wrap32 nBytes then do
    let buf ← lift (plcBufferMaybeReset buf)
    let resized ← plcBufferMaybeResizeChecked alloc buf (wrap32 nBytes)
    receiveResizedChecked recvs (wrap32 nBytes) resized
  else pure ⟨true, buf, []⟩

/-- The end of `plcBufferRead`. Its sum is one of `size_t`s. -/
def readReceived (nBytes : ℕ) (r : SocketResult) :
    Except Fault (Option (List UInt8) × SocketResult) :=
  if r.ok then do
    let taken ← takeBytes nBytes r.buf
    pure (some taken.1, { r with buf := taken.2 })
  else pure (none, r)

/-- `plcBufferRead` -/
def plcBufferReadChecked (alloc : Bool) (recvs : List (List UInt8)) (buf : PlcBuffer) (nBytes : ℕ) :
    Except (Stop Fault) (Option (List UInt8) × SocketResult) := do
  let r ← plcBufferReceiveChecked alloc recvs buf nBytes
  lift (readReceived nBytes r)

/-! ## They do what the wrapping functions do -/

theorem wrap32_of_inRange {x : ℤ} (h : InRange x) : wrap32 x = x := wrap32_of_lt h.1 h.2

theorem neededSizeChecked_agrees (buf : PlcBuffer) (n : ℤ) :
    Agrees (neededSizeChecked buf n) (.ok (neededSize buf n)) := by
  refine .int fun _ => .int fun hsum => agrees_int fun hsize => ?_
  rw [neededSize, wrap32_of_inRange hsum, wrap32_of_inRange hsize]

theorem roundedSizeChecked_agrees (size : ℤ) :
    Agrees (roundedSizeChecked size) (.ok (roundedSize size)) := by
  refine .int fun hunits => agrees_int fun hsize => ?_
  rw [roundedSize, wrap32_of_inRange hunits, wrap32_of_inRange hsize]

theorem plcBufferMaybeResizeChecked_agrees (alloc : Bool) (buf : PlcBuffer) (n : ℤ) :
    Agrees (plcBufferMaybeResizeChecked alloc buf n) (plcBufferMaybeResize alloc buf n) := by
  unfold plcBufferMaybeResize
  refine (neededSizeChecked_agrees buf n).value ?_
  dsimp only
  by_cases hshrink : neededSize buf n < buf.bufSize / 5 ∧ plcBufferSize < buf.bufSize
  · rw [if_pos hshrink, if_pos hshrink]
    refine .int fun htwice => (roundedSizeChecked_agrees _).value ?_
    rw [wrap32_of_inRange htwice]
    cases alloc with
    | false => exact agrees_lift (.ok (true, buf))
    | true => exact (agrees_lift _).map _
  · rw [if_neg hshrink, if_neg hshrink]
    refine .int fun hwanted => .int fun _ => ?_
    rw [wrap32_of_inRange hwanted]
    by_cases hgrow : buf.bufSize - plcBufferMinFree < buf.pEnd + n
    · rw [if_pos hgrow, if_pos hgrow]
      refine (roundedSizeChecked_agrees _).value ?_
      cases alloc with
      | false => exact agrees_lift (.ok (false, buf))
      | true => exact (agrees_lift _).map _
    · rw [if_neg hgrow, if_neg hgrow]
      exact agrees_lift (.ok (true, buf))

theorem recvLoopChecked_agrees (recvs : List (List UInt8)) (buf : PlcBuffer) (need : ℤ) :
    Agrees (recvLoopChecked recvs buf need) (recvLoop recvs buf need) := by
  induction recvs generalizing buf need with
  | nil =>
      rw [recvLoopChecked, recvLoop]
      by_cases hmore : 0 < need
      · rw [if_pos hmore, if_pos hmore]
        exact .int fun _ => (agrees_lift _).bind fun _ => agrees_lift (.ok _)
      · rw [if_neg hmore, if_neg hmore]
        exact agrees_lift (.ok _)
  | cons chunk recvs ih =>
      rw [recvLoopChecked, recvLoop]
      by_cases hmore : 0 < need
      · rw [if_pos hmore, if_pos hmore]
        refine .int fun _ => (agrees_lift _).bind fun room => ?_
        dsimp only
        by_cases hnone : chunk.take room.toNat = []
        · rw [if_pos hnone, if_pos hnone]
          exact agrees_lift (.ok _)
        · rw [if_neg hnone, if_neg hnone]
          refine (agrees_lift _).bind fun data => .int fun _ => .int fun _ => ?_
          exact (ih _ _).bind fun r => agrees_lift (.ok _)
      · rw [if_neg hmore, if_neg hmore]
        exact agrees_lift (.ok _)

theorem receiveResizedChecked_agrees (recvs : List (List UInt8)) (n : ℤ)
    (resized : Bool × PlcBuffer) :
    Agrees (receiveResizedChecked recvs n resized) (receiveResized recvs n resized) := by
  rw [receiveResizedChecked, receiveResized]
  split
  · exact .int fun _ => .int fun _ => recvLoopChecked_agrees _ _ _
  · exact agrees_lift (.ok _)

theorem plcBufferReceiveChecked_agrees (alloc : Bool) (recvs : List (List UInt8)) (buf : PlcBuffer)
    (nBytes : ℕ) :
    Agrees (plcBufferReceiveChecked alloc recvs buf nBytes)
      (plcBufferReceive alloc recvs buf nBytes) := by
  refine .int fun _ => ?_
  rw [plcBufferReceive]
  split
  · refine (agrees_lift _).bind fun b => ?_
    exact (plcBufferMaybeResizeChecked_agrees _ _ _).bind fun r => receiveResizedChecked_agrees _ _ r
  · exact agrees_lift (.ok _)

/-- **The two embeddings agree**: a read whose values are all `int`s is the read of the wrapping
    functions. -/
theorem plcBufferReadChecked_agrees (alloc : Bool) (recvs : List (List UInt8)) (buf : PlcBuffer)
    (nBytes : ℕ) :
    Agrees (plcBufferReadChecked alloc recvs buf nBytes) (plcBufferRead alloc recvs buf nBytes) :=
  (plcBufferReceiveChecked_agrees _ _ _ _).bind fun r => agrees_lift (readReceived nBytes r)

/-! ## When no value leaves the range -/

section Sizes

variable {buf : PlcBuffer} {n : ℤ}

theorem PlcBuffer.Valid.inRange_window (h : buf.Valid) : InRange (buf.pEnd - buf.pStart) := by
  obtain ⟨h₁, h₂, h₃, -, -, h₆⟩ := h
  exact ⟨by omega, by omega⟩

theorem neededSizeChecked_eq (h : buf.Valid) (hn : 0 ≤ n)
    (hmax : buf.pEnd - buf.pStart + n + 200 < 2 ^ 31) :
    neededSizeChecked buf n = .ok (buf.pEnd - buf.pStart + n + 200) := by
  have hle := h.start_le_end
  rw [neededSizeChecked, int_eq_ok h.inRange_window, ok_bind, int_eq_ok ⟨by omega, by omega⟩, ok_bind,
    plcBufferMinFree]
  exact int_eq_ok ⟨by omega, hmax⟩

theorem not_defined_neededSizeChecked (hmax : 2 ^ 31 ≤ buf.pEnd - buf.pStart + n + 200) :
    ¬ Defined (neededSizeChecked buf n) := by
  rw [neededSizeChecked, defined_int_bind, defined_int_bind, defined_int]
  rintro ⟨-, -, -, hlt⟩
  exact absurd hlt (not_lt.2 hmax)

theorem roundedSizeChecked_eq {size : ℤ} (hlo : 0 ≤ size) (hhi : size < 2 ^ 31 - 8192) :
    roundedSizeChecked size = .ok ((size / 8192 + 1) * 8192) := by
  have hdiv : Int.tdiv size plcBufferSize = size / 8192 := Int.tdiv_eq_ediv_of_nonneg hlo
  rw [roundedSizeChecked, hdiv, int_eq_ok ⟨by omega, by omega⟩, ok_bind, plcBufferSize]
  exact int_eq_ok ⟨by omega, by omega⟩

theorem not_defined_roundedSizeChecked {size : ℤ} (hlo : 0 ≤ size) (hhi : 2 ^ 31 - 8192 ≤ size) :
    ¬ Defined (roundedSizeChecked size) := by
  have hdiv : Int.tdiv size plcBufferSize = size / 8192 := Int.tdiv_eq_ediv_of_nonneg hlo
  rw [roundedSizeChecked, hdiv, plcBufferSize, defined_int_bind, defined_int]
  rintro ⟨-, -, hlt⟩
  omega

/-- The end of a resize: the block of a rounded size holds the data and has room for the request. If
    there is none, `kept` is returned. -/
theorem resizeTo_eq_ok (h : buf.Valid) (hn : 0 ≤ n) {size : ℤ}
    (hlo : buf.pEnd - buf.pStart + n ≤ size) (hhi : size < 2 ^ 31 - 8192) (alloc kept : Bool)
    (hkept : kept = true → buf.pEnd + n ≤ buf.bufSize) :
    ∃ ok b, (roundedSizeChecked size >>= fun newSize =>
        if alloc then Prod.mk true <$> lift (reallocate buf newSize) else pure (kept, buf))
          = .ok (ok, b) ∧
      b.Valid ∧ b.content = buf.content ∧ (ok = true → b.pEnd + n ≤ b.bufSize) := by
  have hle := h.start_le_end
  rw [roundedSizeChecked_eq (by omega) hhi, ok_bind]
  cases alloc with
  | false => exact ⟨kept, buf, rfl, h, rfl, hkept⟩
  | true =>
      obtain ⟨b, hb, hvalid, hcontent, hsize, hend, -⟩ :=
        reallocate_spec h ((size / 8192 + 1) * 8192) (by omega) (by omega) (by omega)
      rw [if_pos rfl, hb]
      exact ⟨true, b, rfl, hvalid, hcontent, fun _ => by omega⟩

/-- The request fits into the block as it is, or the sums and the size of a new block are `int`s. -/
def resizeFits (buf : PlcBuffer) (n : ℤ) : Prop :=
  buf.pEnd + n + plcBufferMinFree ≤ buf.bufSize ∨
    buf.pEnd + n < 2 ^ 31 ∧
      buf.pEnd - buf.pStart + n + plcBufferMinFree < 2 ^ 31 - plcBufferSize

/-- A resize whose values are all `int`s keeps the data, and has made room for the request behind the
    window if it returns 0. -/
theorem plcBufferMaybeResizeChecked_eq_ok (h : buf.Valid) (hhalf : buf.pStart ≤ buf.bufSize / 2)
    (hn : 0 ≤ n) (hfits : resizeFits buf n) (alloc : Bool) :
    ∃ ok b, plcBufferMaybeResizeChecked alloc buf n = .ok (ok, b) ∧
      b.Valid ∧ b.content = buf.content ∧ (ok = true → b.pEnd + n ≤ b.bufSize) := by
  obtain ⟨h₁, h₂, h₃, h₄, h₅, h₆⟩ := id h
  rw [resizeFits, plcBufferMinFree, plcBufferSize] at hfits
  rw [plcBufferMaybeResizeChecked, neededSizeChecked_eq h hn (by omega), ok_bind, plcBufferMinFree,
    plcBufferSize]
  by_cases hshrink : buf.pEnd - buf.pStart + n + 200 < buf.bufSize / 5 ∧ 8192 < buf.bufSize
  · -- a failed shrink leaves the block, which is more than large enough
    rw [if_pos hshrink, int_eq_ok ⟨by omega, by omega⟩, ok_bind]
    exact resizeTo_eq_ok h hn (by omega) (by omega) alloc true fun _ => by omega
  · rw [if_neg hshrink, int_eq_ok ⟨by omega, by omega⟩, ok_bind, int_eq_ok ⟨by omega, by omega⟩,
      ok_bind]
    by_cases hgrow : buf.bufSize - 200 < buf.pEnd + n
    · rw [if_pos hgrow]
      exact resizeTo_eq_ok h hn (by omega) (by omega) alloc false (by rintro ⟨⟩)
    · rw [if_neg hgrow]
      exact ⟨true, buf, rfl, h, rfl, fun _ => by omega⟩

theorem not_defined_plcBufferMaybeResizeChecked (h : buf.Valid)
    (hhalf : buf.pStart ≤ buf.bufSize / 2) (hn : 0 ≤ n) (hfits : ¬ resizeFits buf n) (alloc : Bool) :
    ¬ Defined (plcBufferMaybeResizeChecked alloc buf n) := by
  obtain ⟨h₁, h₂, h₃, h₄, h₅, h₆⟩ := id h
  rw [resizeFits, plcBufferMinFree, plcBufferSize] at hfits
  intro hdef
  by_cases hmax : buf.pEnd - buf.pStart + n + 200 < 2 ^ 31
  · rw [plcBufferMaybeResizeChecked, neededSizeChecked_eq h hn hmax, ok_bind, plcBufferMinFree,
      plcBufferSize, if_neg (by omega), defined_int_bind, defined_int_bind] at hdef
    obtain ⟨⟨-, hsum⟩, -, hdef⟩ := hdef
    rw [if_pos (by omega)] at hdef
    exact not_defined_roundedSizeChecked (by omega) (by omega) hdef.of_bind
  · exact not_defined_neededSizeChecked (not_lt.1 hmax) hdef.of_bind

theorem defined_plcBufferMaybeResizeChecked (h : buf.Valid) (hhalf : buf.pStart ≤ buf.bufSize / 2)
    (hn : 0 ≤ n) (alloc : Bool) :
    Defined (plcBufferMaybeResizeChecked alloc buf n) ↔ resizeFits buf n := by
  constructor
  · intro hdef
    by_contra hfits
    exact not_defined_plcBufferMaybeResizeChecked h hhalf hn hfits alloc hdef
  · intro hfits
    obtain ⟨ok, b, hres, -⟩ := plcBufferMaybeResizeChecked_eq_ok h hhalf hn hfits alloc
    rw [hres]
    exact defined_ok _

theorem plcBufferMaybeResizeChecked_spec (h : buf.Valid) (hhalf : buf.pStart ≤ buf.bufSize / 2)
    (hn : 0 ≤ n) {alloc ok : Bool} {b : PlcBuffer}
    (hres : plcBufferMaybeResizeChecked alloc buf n = .ok (ok, b)) :
    b.Valid ∧ b.content = buf.content ∧ (ok = true → b.pEnd + n ≤ b.bufSize) := by
  have hfits := (defined_plcBufferMaybeResizeChecked h hhalf hn alloc).1 (hres ▸ defined_ok _)
  obtain ⟨ok', b', hres', hspec⟩ := plcBufferMaybeResizeChecked_eq_ok h hhalf hn hfits alloc
  rw [hres] at hres'
  cases hres'
  exact hspec

end Sizes

/-! ## Receives and reads -/

theorem recvRoom_of_eq_ok {buf : PlcBuffer} {room : ℤ} (h : recvRoom buf = .ok room) :
    0 < room ∧ room = buf.bufSize - buf.pEnd := by
  rw [recvRoom] at h
  split at h
  · cases h
  · split at h
    next hroom =>
      cases h
      exact ⟨hroom.2.1, rfl⟩
    next => cases h

/-- The loop adds to the end of the window only what fits into the block. -/
theorem defined_recvLoopChecked (recvs : List (List UInt8)) {buf : PlcBuffer} (h : buf.Valid)
    {need : ℤ} (hneed : InRange need) : Defined (recvLoopChecked recvs buf need) := by
  induction recvs generalizing buf need with
  | nil =>
      rw [recvLoopChecked]
      obtain ⟨h₁, h₂, h₃, -, -, h₆⟩ := h
      split
      · refine defined_int_bind.2 ⟨⟨by omega, by omega⟩, ?_⟩
        exact (defined_lift _).bind fun _ _ => defined_ok _
      · exact defined_ok _
  | cons chunk recvs ih =>
      rw [recvLoopChecked]
      obtain ⟨h₁, h₂, h₃, -, -, h₆⟩ := id h
      split
      next hmore =>
        refine defined_int_bind.2 ⟨⟨by omega, by omega⟩, (defined_lift _).bind fun room hroom => ?_⟩
        obtain ⟨hpos, rfl⟩ := recvRoom_of_eq_ok (lift_eq_ok.1 hroom)
        dsimp only
        split
        · exact defined_ok _
        · have hgot : buf.pEnd + (chunk.take (buf.bufSize - buf.pEnd).toNat).length
              ≤ buf.bufSize := by
            rw [List.length_take]
            omega
          generalize chunk.take (buf.bufSize - buf.pEnd).toNat = got at hgot
          obtain ⟨data, hstore, hvalid, -⟩ := h.extend hgot
          rw [hstore]
          have hend : InRange (buf.pEnd + got.length) := ⟨by omega, by omega⟩
          have hless : InRange (need - got.length) := by
            obtain ⟨-, hlt⟩ := hneed
            exact ⟨by omega, by omega⟩
          refine defined_int_bind.2 ⟨hend, defined_int_bind.2 ⟨hless, ?_⟩⟩
          exact (ih hvalid hless).bind fun r _ => defined_ok _
      next => exact defined_ok _

/-- What a receive leaves behind when all its values are `int`s. -/
theorem plcBufferReceiveChecked_spec {buf : PlcBuffer} (h : buf.Valid) {alloc : Bool}
    {recvs : List (List UInt8)} {nBytes : ℕ} {r : SocketResult}
    (hr : plcBufferReceiveChecked alloc recvs buf nBytes = .ok r) :
    r.buf.Valid ∧ (r.ok = true → wrap32 nBytes ≤ r.buf.pEnd - r.buf.pStart) := by
  obtain ⟨hreset, hvalid, -, -, hhalf⟩ := plcBufferMaybeReset_afterReset h
  rw [plcBufferReceiveChecked, int_bind_eq_ok] at hr
  obtain ⟨-, hr⟩ := hr
  split at hr
  next hshort =>
    rw [hreset, lift_ok, ok_bind] at hr
    obtain ⟨⟨ok, b⟩, hres, hr⟩ := bind_eq_ok.1 hr
    have hle := h.start_le_end
    obtain ⟨hbvalid, -, hroom⟩ := plcBufferMaybeResizeChecked_spec hvalid hhalf (by omega) hres
    rw [receiveResizedChecked] at hr
    cases ok with
    | false =>
        cases hr
        exact ⟨hbvalid, by rintro ⟨⟩⟩
    | true =>
        rw [if_pos rfl, int_bind_eq_ok, int_bind_eq_ok] at hr
        obtain ⟨-, -, hr⟩ := hr
        have hstart := hbvalid.start_le_end
        obtain ⟨r', hloop, hrvalid, hcontent, hok⟩ := recvLoop_spec recvs hbvalid
          (show b.pEnd + (wrap32 nBytes - (b.pEnd - b.pStart)) ≤ b.bufSize by have := hroom rfl; omega)
        rw [(recvLoopChecked_agrees _ _ _).eq_ok hr] at hloop
        cases hloop
        refine ⟨hrvalid, fun hdone => ?_⟩
        have hlength := hrvalid.content_length
        have hbefore := hbvalid.content_length
        have hgot := hok hdone
        rw [hcontent, List.length_append] at hlength
        omega
  next hlong =>
    cases hr
    exact ⟨h, fun _ => not_lt.1 hlong⟩

theorem plcBufferReadChecked_valid {buf : PlcBuffer} (h : buf.Valid) {alloc : Bool}
    {recvs : List (List UInt8)} {nBytes : ℕ} {res : Option (List UInt8)} {r : SocketResult}
    (hr : plcBufferReadChecked alloc recvs buf nBytes = .ok (res, r)) : r.buf.Valid := by
  obtain ⟨r', hrecv, hr⟩ := bind_eq_ok.1 hr
  obtain ⟨hvalid, hok⟩ := plcBufferReceiveChecked_spec h hrecv
  have hread := lift_eq_ok.1 hr
  rw [readReceived] at hread
  split at hread
  next hdone =>
    obtain ⟨taken, htaken, hread⟩ := bind_eq_ok.1 hread
    cases hread
    rw [takeBytes] at htaken
    obtain ⟨bytes, hload, htaken⟩ := bind_eq_ok.1 htaken
    cases htaken
    -- a length that is no `int` is longer than the block, and the copy would go wrong
    have hinside : r'.buf.pStart + nBytes ≤ r'.buf.data.length := by
      rw [loadBytes] at hload
      split at hload
      next hin => exact hin.2.2
      next => cases hload
    obtain ⟨h₁, h₂, h₃, h₄, h₅, h₆⟩ := id hvalid
    have hcast : wrap32 (nBytes : ℤ) = nBytes := wrap32_of_lt (by omega) (by omega)
    have hwrap : wrap32 (r'.buf.pStart + nBytes) = r'.buf.pStart + nBytes :=
      wrap32_of_lt (by omega) (by omega)
    have hlen := hok hdone
    rw [hcast] at hlen
    rw [hwrap]
    exact (hvalid.advance hlen).1
  next =>
    cases hread
    exact hvalid

/-- **When a length is safe**: the bytes are there already, or the resize behind the reset computes
    with `int`s only. -/
def lengthFits (buf : PlcBuffer) (n : ℤ) : Prop :=
  n ≤ buf.pEnd - buf.pStart ∨ resizeFits buf.afterReset n

theorem defined_plcBufferReadChecked {buf : PlcBuffer} (h : buf.Valid) {nBytes : ℕ}
    (hn : nBytes < 2 ^ 31) (alloc : Bool) (recvs : List (List UInt8)) :
    Defined (plcBufferReadChecked alloc recvs buf nBytes) ↔ lengthFits buf nBytes := by
  have hcast : wrap32 (nBytes : ℤ) = nBytes := wrap32_of_lt (by omega) (by omega)
  obtain ⟨hreset, hvalid, -, -, hhalf⟩ := plcBufferMaybeReset_afterReset h
  have hdef := defined_plcBufferMaybeResizeChecked hvalid hhalf (n := nBytes) (by omega) alloc
  have hread : Defined (plcBufferReadChecked alloc recvs buf nBytes) ↔
      Defined (plcBufferReceiveChecked alloc recvs buf nBytes) :=
    ⟨Defined.of_bind, fun hrecv => hrecv.bind fun r _ => defined_lift _⟩
  rw [hread, plcBufferReceiveChecked, int_eq_ok h.inRange_window, ok_bind, hcast, lengthFits]
  by_cases hshort : buf.pEnd - buf.pStart < nBytes
  · rw [if_pos hshort, hreset, ← hdef]
    constructor
    · intro hrun
      exact .inr (Defined.of_bind (x := plcBufferMaybeResizeChecked alloc buf.afterReset nBytes) hrun)
    · rintro (hle | hresize)
      · omega
      refine hresize.bind fun resized hres => ?_
      obtain ⟨hbvalid, -, -⟩ := plcBufferMaybeResizeChecked_spec hvalid hhalf (by omega) hres
      rw [receiveResizedChecked]
      split
      · have hless : InRange (nBytes - (resized.2.pEnd - resized.2.pStart)) := by
          obtain ⟨h₁, h₂, h₃, -, -, h₆⟩ := hbvalid
          exact ⟨by omega, by omega⟩
        refine defined_int_bind.2 ⟨hbvalid.inRange_window, defined_int_bind.2 ⟨hless, ?_⟩⟩
        exact defined_recvLoopChecked recvs hbvalid hless
      · exact defined_ok _
  · rw [if_neg hshort]
    exact iff_of_true (defined_ok _) (.inl (not_lt.1 hshort))

/-! ## Every state of a connection -/

/-- One call of a connection whose values are all `int`s. Appends and flushes use the output buffer
    only. -/
def Session.execChecked (s : Session) (env : Environment) : BufferCall → Except (Stop Fault) Session
  | .append src => lift (s.exec env (.append src))
  | .flush => lift (s.exec env .flush)
  | .receive nBytes => do
      let r ← plcBufferReceiveChecked env.alloc env.recvs s.conn.input nBytes
      pure { s with conn := { s.conn with input := r.buf }, received := s.received ++ r.moved }
  | .read nBytes => do
      let r ← plcBufferReadChecked env.alloc env.recvs s.conn.input nBytes
      pure { s with
        conn := { s.conn with input := r.2.buf }
        received := s.received ++ r.2.moved
        returned := s.returned ++ r.1.getD [] }

/-- The sessions of all runs in which every value of a receive is an `int`. -/
def Session.DefinedRun (s : Session) : Prop :=
  ReachableUnder (· = Session.start)
    (fun s (i : BufferCall × Environment) s' => s.execChecked i.2 i.1 = .ok s')
    (fun _ _ => True) s

theorem Session.execChecked_agrees (s : Session) (env : Environment) (call : BufferCall) :
    Agrees (s.execChecked env call) (s.exec env call) := by
  cases call with
  | append src =>
      rw [Session.execChecked]
      exact agrees_lift _
  | flush =>
      rw [Session.execChecked]
      exact agrees_lift _
  | receive nBytes =>
      exact (plcBufferReceiveChecked_agrees _ _ _ _).bind fun r => agrees_lift (.ok _)
  | read nBytes => exact (plcBufferReadChecked_agrees _ _ _ _).bind fun r => agrees_lift (.ok _)

/-- These runs are among those of the wrapping functions. -/
theorem Session.DefinedRun.reachable {s : Session} (h : s.DefinedRun) :
    Session.Reachable (fun _ _ => True) s := by
  refine ReachableUnder.invariant ?_ ?_ h
  · intro s hs
    exact .init hs
  · intro s i s' hs _ hstep
    exact .step hs trivial ((s.execChecked_agrees i.2 i.1).eq_ok hstep)

theorem Session.execChecked_input {s s' : Session} (h : s.conn.input.Valid) {env : Environment}
    {call : BufferCall} (hexec : s.execChecked env call = .ok s') : s'.conn.input.Valid := by
  cases call with
  | append src =>
      rw [Session.execChecked, lift_eq_ok, Session.exec, bind_eq_ok] at hexec
      obtain ⟨r, -, hs'⟩ := hexec
      cases hs'
      exact h
  | flush =>
      rw [Session.execChecked, lift_eq_ok, Session.exec, bind_eq_ok] at hexec
      obtain ⟨r, -, hs'⟩ := hexec
      cases hs'
      exact h
  | receive nBytes =>
      obtain ⟨r, hr, hs'⟩ := bind_eq_ok.1 hexec
      cases hs'
      exact (plcBufferReceiveChecked_spec h hr).1
  | read nBytes =>
      obtain ⟨⟨res, r⟩, hr, hs'⟩ := bind_eq_ok.1 hexec
      cases hs'
      exact plcBufferReadChecked_valid h hr

theorem Session.DefinedRun.input {s : Session} (h : s.DefinedRun) : s.conn.input.Valid := by
  refine ReachableUnder.invariant (I := fun s => s.conn.input.Valid) ?_ ?_ h
  · rintro s rfl
    exact plcBufferInit_valid
  · intro s i s' hvalid _ hstep
    exact Session.execChecked_input hvalid hstep

theorem Session.definedRun_start : Session.start.DefinedRun := .init rfl

theorem afterReset_plcBufferInit : plcBufferInit.afterReset = plcBufferInit := by
  have hreset : plcBufferMaybeReset plcBufferInit = .ok plcBufferInit := if_pos rfl
  rw [PlcBuffer.afterReset, hreset]

/-- What a read of `n` bytes relies on, whatever the allocator and the socket do: all values are
    `int`s, and if the buffer is resized and 0 returned, the unread bytes are kept and there is room for
    `n` more. -/
def SizesSafe (buf : PlcBuffer) (n : ℕ) : Prop :=
  (∀ alloc recvs, Defined (plcBufferReadChecked alloc recvs buf n)) ∧
    (buf.pEnd - buf.pStart < n → ∀ alloc b,
      plcBufferMaybeResize alloc buf.afterReset n = .ok (true, b) →
        b.content = buf.content ∧ b.pEnd + n ≤ b.bufSize)

/-- **The lengths that are safe.** In every state that a connection reaches, a read of a length that
    the peer sends is safe exactly if the bytes are there already, or there is room for them, or the
    sum of the end offset and the length is an `int` and so is the size of the new block. -/
theorem receive_sizes_safe_iff (s : Session) (h : s.DefinedRun) (n : ℕ) (hn : n < 2 ^ 31) :
    SizesSafe s.conn.input n ↔
      (n : ℤ) ≤ s.conn.input.pEnd - s.conn.input.pStart ∨
      s.conn.input.afterReset.pEnd + n + 200 ≤ s.conn.input.bufSize ∨
      s.conn.input.afterReset.pEnd + n < 2 ^ 31 ∧
        s.conn.input.pEnd - s.conn.input.pStart + n + 200 < 2 ^ 31 - 8192 := by
  have hvalid := h.input
  generalize s.conn.input = buf at hvalid
  obtain ⟨-, hrvalid, hcontent, hsize, hhalf⟩ := plcBufferMaybeReset_afterReset hvalid
  have hwindow := hrvalid.window_eq hvalid hcontent
  have hfits : lengthFits buf n ↔ (n : ℤ) ≤ buf.pEnd - buf.pStart ∨
      buf.afterReset.pEnd + n + 200 ≤ buf.bufSize ∨
      buf.afterReset.pEnd + n < 2 ^ 31 ∧ buf.pEnd - buf.pStart + n + 200 < 2 ^ 31 - 8192 := by
    rw [lengthFits, resizeFits, hwindow, hsize, plcBufferMinFree, plcBufferSize]
  rw [← hfits]
  constructor
  · intro hsafe
    exact (defined_plcBufferReadChecked hvalid hn true []).1 (hsafe.1 true [])
  · intro hok
    refine ⟨fun alloc recvs => (defined_plcBufferReadChecked hvalid hn alloc recvs).2 hok,
      fun hshort alloc b hb => ?_⟩
    have hresize := hok.resolve_left (not_le.2 hshort)
    have hdef := (defined_plcBufferMaybeResizeChecked hrvalid hhalf (by omega) alloc).2 hresize
    -- the values are all `int`s, so that the wrapping resize is the checked one
    have hchecked := plcBufferMaybeResizeChecked_agrees alloc buf.afterReset n hdef
    rw [hb] at hchecked
    obtain ⟨-, hkept, hroom⟩ := plcBufferMaybeResizeChecked_spec hrvalid hhalf (by omega) hchecked
    exact ⟨hkept.trans hcontent, hroom rfl⟩

/-- A new connection and a length of a million. -/
theorem receive_sizes_safe_million :
    Session.start.DefinedRun ∧ SizesSafe Session.start.conn.input 1000000 := by
  refine ⟨Session.definedRun_start, (receive_sizes_safe_iff Session.start Session.definedRun_start
    1000000 (by decide)).2 (.inr (.inr ?_))⟩
  show plcBufferInit.afterReset.pEnd + _ < _ ∧ _
  rw [afterReset_plcBufferInit]
  decide

/-- A new connection and a length of `2^31 - 201`: the data and the reserve are `2^31 - 1` bytes, and
    the size of the new block is the negative `-2^31`. -/
theorem receive_sizes_overflow :
    Session.start.DefinedRun ∧ ¬ SizesSafe Session.start.conn.input 2147483447 ∧
      roundedSize (neededSize Session.start.conn.input 2147483447) = -2147483648 := by
  refine ⟨Session.definedRun_start, fun hsafe => ?_, by decide⟩
  have hdef := (defined_plcBufferReadChecked plcBufferInit_valid (by decide) true []).1 (hsafe.1 true [])
  rw [lengthFits, resizeFits, afterReset_plcBufferInit] at hdef
  revert hdef
  decide

end PlContainer
