import PlContainer.Common.Connectivity
import Mathlib.Tactic.Linarith

set_option autoImplicit false

/-! # The connection buffers are FIFO byte streams

A valid buffer is a queue: its content is the bytes of the window. Each function of
`comm_connectivity.c` has one lemma that says what it does to the queue.

The room check of `plcBufferMaybeResize` adds `pEnd` and the size of the request as `int`s. Its sum
can wrap while the data and the request still fit together, so the lemmas about appending and
receiving carry the condition `appendFits` or `receiveFits`; both are exact. -/

namespace PlContainer

open Block

/-! ## Arithmetic of `int` -/

theorem wrap32_of_lt {x : ℤ} (hlo : -2147483648 ≤ x) (hhi : x < 2147483648) : wrap32 x = x := by
  unfold wrap32
  rw [Int.bmod_def]
  split <;> omega

theorem wrap32_of_ge {x : ℤ} (hlo : 2147483648 ≤ x) (hhi : x < 4294967296) :
    wrap32 x = x - 4294967296 := by
  unfold wrap32
  rw [Int.bmod_def]
  split <;> omega

/-- The most bytes a call may ask for, together with those buffered already. -/
def maxRequest : ℤ := 2 ^ 31 - 8393

theorem roundedSize_eq {size : ℤ} (hlo : 0 ≤ size) (hhi : size < 2 ^ 31 - 8192) :
    roundedSize size = (size / 8192 + 1) * 8192 := by
  have hdiv : Int.tdiv size plcBufferSize = size / 8192 := Int.tdiv_eq_ediv_of_nonneg hlo
  have hunits : wrap32 (size / 8192 + 1) = size / 8192 + 1 := wrap32_of_lt (by omega) (by omega)
  rw [roundedSize, hdiv, hunits, plcBufferSize]
  exact wrap32_of_lt (by omega) (by omega)

/-! ## Valid buffers and their content -/

/-- The window lies inside the block, and the block has the size recorded for it. -/
structure PlcBuffer.Valid (buf : PlcBuffer) : Prop where
  start_nonneg : 0 ≤ buf.pStart
  start_le_end : buf.pStart ≤ buf.pEnd
  end_le_size : buf.pEnd ≤ buf.bufSize
  block : (buf.data.length : ℤ) = buf.bufSize
  size_min : 8192 ≤ buf.bufSize
  size_lt : buf.bufSize < 2 ^ 31

/-- The bytes buffered, oldest first. -/
def PlcBuffer.content (buf : PlcBuffer) : List UInt8 :=
  slice buf.data buf.pStart.toNat (buf.pEnd - buf.pStart).toNat

theorem PlcBuffer.Valid.content_length {buf : PlcBuffer} (h : buf.Valid) :
    (buf.content.length : ℤ) = buf.pEnd - buf.pStart := by
  obtain ⟨h₁, h₂, h₃, h₄, _, _⟩ := h
  rw [PlcBuffer.content, slice_length (by omega)]
  omega

theorem PlcBuffer.Valid.load_content {buf : PlcBuffer} (h : buf.Valid) :
    loadBytes buf.data buf.pStart (buf.pEnd - buf.pStart) = .ok buf.content := by
  obtain ⟨h₁, h₂, h₃, h₄, _, _⟩ := h
  rw [loadBytes, if_pos ⟨by omega, by omega, by omega⟩]
  rfl

theorem storeBytes_eq_ok {data bytes : List UInt8} {off : ℤ} (h₀ : 0 ≤ off)
    (h : off + bytes.length ≤ data.length) :
    storeBytes data off bytes = .ok (overwrite data off.toNat bytes) :=
  if_pos ⟨h₀, h⟩

/-- Data stored at the start of a block is the content of the window over it. -/
theorem stored_at_start {data bytes : List UInt8} {size : ℤ} (hblock : (data.length : ℤ) = size)
    (hlen : (bytes.length : ℤ) ≤ size) (hmin : 8192 ≤ size) (hlt : size < 2 ^ 31) :
    PlcBuffer.Valid ⟨overwrite data 0 bytes, 0, bytes.length, size⟩ ∧
      PlcBuffer.content ⟨overwrite data 0 bytes, 0, bytes.length, size⟩ = bytes := by
  have hroom : 0 + bytes.length ≤ data.length := by omega
  refine ⟨⟨le_refl 0, by simp, hlen, ?_, hmin, hlt⟩, ?_⟩
  · show ((overwrite data 0 bytes).length : ℤ) = size
    rw [overwrite_length hroom]
    exact hblock
  · show slice (overwrite data 0 bytes) 0 ((bytes.length : ℤ) - 0).toNat = bytes
    rw [sub_zero, Int.toNat_natCast]
    exact slice_overwrite_self (Nat.zero_le _)

/-! ## Reset and resize -/

/-- `plcBufferMaybeReset` keeps the content, and leaves the window in the lower half or empty. -/
theorem plcBufferMaybeReset_spec {buf : PlcBuffer} (h : buf.Valid) :
    ∃ b, plcBufferMaybeReset buf = .ok b ∧ b.Valid ∧ b.content = buf.content ∧
      b.bufSize = buf.bufSize ∧ b.pStart ≤ b.bufSize / 2 := by
  have hlen := h.content_length
  have hload := h.load_content
  obtain ⟨h₁, h₂, h₃, h₄, h₅, h₆⟩ := h
  unfold plcBufferMaybeReset
  by_cases hempty : buf.pStart = buf.pEnd
  · rw [if_pos hempty]
    have hsize : 0 ≤ buf.bufSize := by omega
    refine ⟨_, rfl, ⟨le_refl 0, le_refl 0, hsize, h₄, h₅, h₆⟩, ?_, rfl, ?_⟩
    · simp [PlcBuffer.content, hempty]
    · show (0 : ℤ) ≤ buf.bufSize / 2
      omega
  · rw [if_neg hempty]
    by_cases hhalf : buf.bufSize / 2 < buf.pStart
    · -- past the middle: what is left is shorter than what was consumed, so nothing overlaps
      have hsep : ¬ buf.pStart < buf.pEnd - buf.pStart := by omega
      have hfits : (buf.content.length : ℤ) ≤ buf.bufSize := by omega
      have hstore : storeBytes buf.data 0 buf.content = .ok (overwrite buf.data 0 buf.content) :=
        storeBytes_eq_ok (le_refl 0) (by omega)
      obtain ⟨hvalid, hcontent⟩ := stored_at_start h₄ hfits h₅ h₆
      rw [if_pos hhalf, if_neg hsep, hload]
      refine ⟨⟨overwrite buf.data 0 buf.content, 0, buf.content.length, buf.bufSize⟩, ?_, hvalid,
        hcontent, rfl, ?_⟩
      · show (storeBytes buf.data 0 buf.content >>= _) = _
        rw [hstore, hlen]
        rfl
      · show (0 : ℤ) ≤ buf.bufSize / 2
        omega
    · rw [if_neg hhalf]
      exact ⟨buf, rfl, ⟨h₁, h₂, h₃, h₄, h₅, h₆⟩, rfl, rfl, by omega⟩

theorem reallocate_spec {buf : PlcBuffer} (h : buf.Valid) (newSize : ℤ)
    (hfit : buf.pEnd - buf.pStart ≤ newSize) (hmin : 8192 ≤ newSize) (hlt : newSize < 2 ^ 31) :
    ∃ b, reallocate buf newSize = .ok b ∧ b.Valid ∧ b.content = buf.content ∧
      b.bufSize = newSize ∧ b.pEnd = buf.pEnd - buf.pStart ∧ b.pStart = 0 := by
  have hlen := h.content_length
  have hblock : ((List.replicate newSize.toNat (0 : UInt8)).length : ℤ) = newSize := by
    rw [List.length_replicate]
    omega
  have hfits : (buf.content.length : ℤ) ≤ newSize := by omega
  have hstore : storeBytes (List.replicate newSize.toNat 0) 0 buf.content
      = .ok (overwrite (List.replicate newSize.toNat 0) 0 buf.content) :=
    storeBytes_eq_ok (le_refl 0) (by omega)
  obtain ⟨hvalid, hcontent⟩ := stored_at_start hblock hfits hmin hlt
  refine ⟨_, ?_, hvalid, hcontent, rfl, hlen, rfl⟩
  rw [reallocate, h.load_content]
  show (storeBytes (List.replicate newSize.toNat 0) 0 buf.content >>= _) = _
  rw [hstore, hlen]
  rfl

theorem neededSize_eq {buf : PlcBuffer} (h : buf.Valid) {n : ℤ} (hn : 0 ≤ n)
    (hmax : buf.pEnd - buf.pStart + n ≤ maxRequest) :
    neededSize buf n = buf.pEnd - buf.pStart + n + 200 := by
  have hle := h.start_le_end
  unfold maxRequest at hmax
  have hinner : wrap32 (buf.pEnd - buf.pStart + n) = buf.pEnd - buf.pStart + n :=
    wrap32_of_lt (by omega) (by omega)
  rw [neededSize, hinner, plcBufferMinFree]
  exact wrap32_of_lt (by omega) (by omega)

/-- `plcBufferMaybeResize` keeps the content; when it succeeds there is room for the request. The
    window must be in the lower half, as a reset leaves it: a failed shrink relies on that. -/
theorem plcBufferMaybeResize_spec {buf : PlcBuffer} (h : buf.Valid)
    (hhalf : buf.pStart ≤ buf.bufSize / 2) {n : ℤ} (hn : 0 ≤ n)
    (hmax : buf.pEnd - buf.pStart + n ≤ maxRequest) (hsum : buf.pEnd + n < 2 ^ 31)
    (alloc : Bool) :
    ∃ ok b, plcBufferMaybeResize alloc buf n = .ok (ok, b) ∧ b.Valid ∧ b.content = buf.content ∧
      (ok = true → b.pEnd + n ≤ b.bufSize) := by
  have hneed := neededSize_eq h hn hmax
  obtain ⟨h₁, h₂, h₃, h₄, h₅, h₆⟩ := id h
  unfold maxRequest at hmax
  unfold plcBufferMaybeResize
  simp only [hneed, plcBufferSize, plcBufferMinFree]
  by_cases hshrink : buf.pEnd - buf.pStart + n + 200 < buf.bufSize / 5 ∧ 8192 < buf.bufSize
  · rw [if_pos hshrink]
    cases alloc with
    | false => exact ⟨true, buf, rfl, h, rfl, fun _ => by omega⟩
    | true =>
        have hdouble : wrap32 ((buf.pEnd - buf.pStart + n + 200) * 2)
            = (buf.pEnd - buf.pStart + n + 200) * 2 := wrap32_of_lt (by omega) (by omega)
        rw [hdouble, roundedSize_eq (by omega) (by omega)]
        obtain ⟨b, hb, hvalid, hcontent, hsize, hend, _⟩ :=
          reallocate_spec h (((buf.pEnd - buf.pStart + n + 200) * 2 / 8192 + 1) * 8192)
            (by omega) (by omega) (by omega)
        rw [hb]
        exact ⟨true, b, rfl, hvalid, hcontent, fun _ => by omega⟩
  · rw [if_neg hshrink, wrap32_of_lt (x := buf.pEnd + n) (by omega) (by omega)]
    by_cases hgrow : buf.bufSize - 200 < buf.pEnd + n
    · rw [if_pos hgrow]
      cases alloc with
      | false => exact ⟨false, buf, rfl, h, rfl, fun hfalse => by simp at hfalse⟩
      | true =>
          rw [roundedSize_eq (by omega) (by omega)]
          obtain ⟨b, hb, hvalid, hcontent, hsize, hend, _⟩ :=
            reallocate_spec h (((buf.pEnd - buf.pStart + n + 200) / 8192 + 1) * 8192)
              (by omega) (by omega) (by omega)
          rw [hb]
          exact ⟨true, b, rfl, hvalid, hcontent, fun _ => by omega⟩
    · rw [if_neg hgrow]
      exact ⟨true, buf, rfl, h, rfl, fun _ => by omega⟩

/-- Where the sum of the end offset and the request leaves the range of `int`, the room check passes
    and the buffer stays as small as it is. -/
theorem plcBufferMaybeResize_wrapped {buf : PlcBuffer} (h : buf.Valid)
    (hhalf : buf.pStart ≤ buf.bufSize / 2) {n : ℤ} (hn : 0 ≤ n)
    (hmax : buf.pEnd - buf.pStart + n ≤ maxRequest) (hsum : 2 ^ 31 ≤ buf.pEnd + n)
    (alloc : Bool) : plcBufferMaybeResize alloc buf n = .ok (true, buf) := by
  have hneed := neededSize_eq h hn hmax
  obtain ⟨h₁, h₂, h₃, h₄, h₅, h₆⟩ := h
  unfold maxRequest at hmax
  unfold plcBufferMaybeResize
  simp only [hneed, plcBufferSize, plcBufferMinFree]
  rw [if_neg (by omega), wrap32_of_ge (by omega) (by omega), if_neg (by omega)]

/-! ## The output side -/

/-- Moving the start of the window drops the oldest bytes. -/
theorem PlcBuffer.Valid.advance {buf : PlcBuffer} (h : buf.Valid) {k : ℕ}
    (hk : (k : ℤ) ≤ buf.pEnd - buf.pStart) :
    PlcBuffer.Valid { buf with pStart := buf.pStart + k } ∧
      PlcBuffer.content { buf with pStart := buf.pStart + k } = buf.content.drop k := by
  obtain ⟨h₁, h₂, h₃, h₄, h₅, h₆⟩ := h
  have hstart : 0 ≤ buf.pStart + k := by omega
  have hend : buf.pStart + k ≤ buf.pEnd := by omega
  refine ⟨⟨hstart, hend, h₃, h₄, h₅, h₆⟩, ?_⟩
  rw [PlcBuffer.content, PlcBuffer.content, drop_slice]
  congr 1
  · show (buf.pStart + k).toNat = buf.pStart.toNat + k
    omega
  · show (buf.pEnd - (buf.pStart + k)).toNat = (buf.pEnd - buf.pStart).toNat - k
    omega

/-- The flush loop sends the oldest bytes, in order; when it ends well the window is empty. -/
theorem flushLoop_spec (sends : List ℕ) : ∀ {buf : PlcBuffer}, buf.Valid →
    ∃ r, flushLoop sends buf = .ok r ∧ r.buf.Valid ∧ r.moved ++ r.buf.content = buf.content ∧
      (r.ok = true → r.buf.pStart = r.buf.pEnd) := by
  induction sends with
  | nil =>
      intro buf h
      refine ⟨⟨decide (buf.pEnd ≤ buf.pStart), buf, []⟩, rfl, h, rfl, fun hok => ?_⟩
      have hle : buf.pEnd ≤ buf.pStart := of_decide_eq_true hok
      exact le_antisymm h.start_le_end hle
  | cons k sends ih =>
      intro buf h
      rw [flushLoop]
      by_cases hmore : buf.pStart < buf.pEnd
      · have hlen := h.content_length
        have htaken : ((buf.content.take (k + 1)).length : ℤ) ≤ buf.pEnd - buf.pStart := by
          rw [List.length_take]
          omega
        obtain ⟨hvalid, hcontent⟩ := h.advance htaken
        obtain ⟨r, hr, hrvalid, hrcontent, hrok⟩ := ih hvalid
        rw [if_pos hmore, h.load_content]
        refine ⟨{ r with moved := buf.content.take (k + 1) ++ r.moved }, ?_, hrvalid, ?_, hrok⟩
        · show (flushLoop sends _ >>= _) = _
          rw [hr]
          rfl
        · show buf.content.take (k + 1) ++ r.moved ++ r.buf.content = buf.content
          rw [List.append_assoc, hrcontent, hcontent, List.length_take]
          conv_rhs => rw [← List.take_append_drop (k + 1) buf.content]
          by_cases hshort : k + 1 ≤ buf.content.length
          · rw [Nat.min_eq_left hshort]
          · rw [Nat.min_eq_right (by omega), List.drop_length, List.drop_of_length_le (by omega)]
      · rw [if_neg hmore]
        exact ⟨⟨true, buf, []⟩, rfl, h, rfl, fun _ => le_antisymm h.start_le_end (not_lt.1 hmore)⟩

/-- `plcBufferMaybeFlush` sends the oldest bytes. When it succeeds, the buffer is untouched if no
    flush was due, and empty and at the start of its block if one was. -/
theorem plcBufferMaybeFlush_spec {buf : PlcBuffer} (h : buf.Valid) (sends : List ℕ)
    (isForse : Bool) :
    ∃ r, plcBufferMaybeFlush sends buf isForse = .ok r ∧ r.buf.Valid ∧
      r.moved ++ r.buf.content = buf.content ∧
      (r.ok = true → (shouldFlush buf || isForse) = false ∧ r.buf = buf ∨
        (shouldFlush buf || isForse) = true ∧ r.buf.pStart = 0 ∧ r.buf.pEnd = 0) := by
  unfold plcBufferMaybeFlush
  by_cases hflush : (shouldFlush buf || isForse) = true
  · rw [if_pos hflush]
    obtain ⟨r, hr, hvalid, hcontent, hok⟩ := flushLoop_spec sends h
    rw [hr]
    show ∃ r', resetFlushed r = .ok r' ∧ _
    unfold resetFlushed
    by_cases hsent : r.ok = true
    · have hempty := hok hsent
      obtain ⟨b, hb, hbvalid, hbcontent, _, _⟩ := plcBufferMaybeReset_spec hvalid
      have hzero : b = { r.buf with pStart := 0, pEnd := 0 } := by
        rw [plcBufferMaybeReset, if_pos hempty] at hb
        cases hb
        rfl
      rw [if_pos hsent, hb]
      refine ⟨{ r with buf := b }, rfl, hbvalid, ?_, fun _ => .inr ⟨hflush, ?_, ?_⟩⟩
      · show r.moved ++ b.content = buf.content
        rw [hbcontent, hcontent]
      · rw [hzero]
      · rw [hzero]
    · rw [if_neg hsent]
      exact ⟨r, rfl, hvalid, hcontent, fun hok' => absurd hok' hsent⟩
  · rw [if_neg hflush]
    exact ⟨⟨true, buf, []⟩, rfl, h, rfl, fun _ => .inl ⟨by simpa using hflush, rfl⟩⟩

/-- The copy of `plcBufferAppend` puts the bytes at the end of the queue, if they fit. -/
theorem putBytes_spec {buf : PlcBuffer} (h : buf.Valid) {src : List UInt8}
    (hroom : buf.pEnd + src.length ≤ buf.bufSize) :
    ∃ b, putBytes src buf = .ok b ∧ b.Valid ∧ b.content = buf.content ++ src := by
  obtain ⟨h₁, h₂, h₃, h₄, h₅, h₆⟩ := h
  have hstore : storeBytes buf.data buf.pEnd src = .ok (overwrite buf.data buf.pEnd.toNat src) :=
    storeBytes_eq_ok (by omega) (by omega)
  have hwrap : wrap32 (buf.pEnd + src.length) = buf.pEnd + src.length :=
    wrap32_of_lt (by omega) (by omega)
  have hinside : buf.pEnd.toNat + src.length ≤ buf.data.length := by omega
  refine ⟨⟨overwrite buf.data buf.pEnd.toNat src, buf.pStart, buf.pEnd + src.length, buf.bufSize⟩,
    ?_, ⟨h₁, ?_, hroom, ?_, h₅, h₆⟩, ?_⟩
  · rw [putBytes, hstore, hwrap]
    rfl
  · show buf.pStart ≤ buf.pEnd + src.length
    omega
  · show ((overwrite buf.data buf.pEnd.toNat src).length : ℤ) = buf.bufSize
    rw [overwrite_length hinside]
    exact h₄
  · have hoff : buf.pEnd.toNat = buf.pStart.toNat + (buf.pEnd - buf.pStart).toNat := by omega
    have hlen : (buf.pEnd + src.length - buf.pStart).toNat
        = (buf.pEnd - buf.pStart).toNat + src.length := by omega
    show slice (overwrite buf.data buf.pEnd.toNat src) buf.pStart.toNat _ = _
    rw [hlen, hoff, slice_overwrite_append (by omega)]
    rfl

/-- The buffer as `plcBufferMaybeReset` leaves it. -/
def PlcBuffer.afterReset (buf : PlcBuffer) : PlcBuffer :=
  match plcBufferMaybeReset buf with
  | .ok b => b
  | .error _ => buf

/-- **When an append makes room**: there is room already, or a flush is due, or the end offset and
    the request add up to an `int`. -/
def appendFits (buf : PlcBuffer) (n : ℤ) : Prop :=
  n ≤ buf.bufSize - buf.pEnd ∨ shouldFlush buf.afterReset = true ∨
    buf.afterReset.pEnd + n < 2 ^ 31

theorem plcBufferMaybeReset_afterReset {buf : PlcBuffer} (h : buf.Valid) :
    plcBufferMaybeReset buf = .ok buf.afterReset ∧ buf.afterReset.Valid ∧
      buf.afterReset.content = buf.content ∧ buf.afterReset.bufSize = buf.bufSize ∧
      buf.afterReset.pStart ≤ buf.afterReset.bufSize / 2 := by
  obtain ⟨b, hb, hspec⟩ := plcBufferMaybeReset_spec h
  have hreset : buf.afterReset = b := by rw [PlcBuffer.afterReset, hb]
  rw [hreset]
  exact ⟨hb, hspec⟩

/-- The length of the window is the length of the content, so equal contents have equal windows. -/
theorem PlcBuffer.Valid.window_eq {a b : PlcBuffer} (ha : a.Valid) (hb : b.Valid)
    (h : a.content = b.content) : a.pEnd - a.pStart = b.pEnd - b.pStart := by
  rw [← ha.content_length, ← hb.content_length, h]

/-- The end of an append that has room to make, from a buffer that was reset or flushed. -/
theorem appendFlushed_spec {r : SocketResult} (h : r.buf.Valid)
    (hhalf : r.buf.pStart ≤ r.buf.bufSize / 2) {src : List UInt8}
    (hmax : r.buf.pEnd - r.buf.pStart + src.length ≤ maxRequest)
    (hsum : r.buf.pEnd + src.length < 2 ^ 31) (hok : r.ok = true) (alloc : Bool) :
    ∃ r', appendFlushed alloc src r = .ok r' ∧ r'.buf.Valid ∧ r'.moved = r.moved ∧
      r'.buf.content = r.buf.content ++ (if r'.ok then src else []) := by
  have hle := h.start_le_end
  have hcast : wrap32 (src.length : ℤ) = src.length := by
    unfold maxRequest at hmax
    exact wrap32_of_lt (by omega) (by omega)
  obtain ⟨ok, b, hb, hvalid, hcontent, hroom⟩ :=
    plcBufferMaybeResize_spec h hhalf (by omega) hmax hsum alloc
  rw [appendFlushed, if_pos hok, hcast, hb]
  show ∃ r', (if ok then _ else _) = Except.ok r' ∧ _
  cases ok with
  | false => exact ⟨⟨false, b, r.moved⟩, rfl, hvalid, rfl, by simp [hcontent]⟩
  | true =>
      obtain ⟨b', hb', hvalid', hcontent'⟩ := putBytes_spec hvalid (hroom rfl)
      refine ⟨⟨true, b', r.moved⟩, ?_, hvalid', rfl, ?_⟩
      · rw [if_pos rfl, hb']
        rfl
      · rw [if_pos rfl, hcontent', hcontent]

/-- **Append.** The bytes sent and the new content are the old content and, if the append succeeds,
    the bytes appended. -/
theorem plcBufferAppend_spec {buf : PlcBuffer} (h : buf.Valid) {src : List UInt8}
    (hmax : buf.pEnd - buf.pStart + src.length ≤ maxRequest)
    (hfits : appendFits buf src.length) (alloc : Bool) (sends : List ℕ) :
    ∃ r, plcBufferAppend alloc sends buf src = .ok r ∧ r.buf.Valid ∧
      r.moved ++ r.buf.content = buf.content ++ (if r.ok then src else []) := by
  have hle := h.start_le_end
  have hcast : wrap32 (src.length : ℤ) = src.length := by
    unfold maxRequest at hmax
    exact wrap32_of_lt (by omega) (by omega)
  unfold plcBufferAppend
  rw [hcast]
  by_cases hroom : buf.bufSize - buf.pEnd < src.length
  · rw [if_pos hroom]
    obtain ⟨hreset, hvalid, hcontent, hsize, hhalf⟩ := plcBufferMaybeReset_afterReset h
    have hwindow := hvalid.window_eq h hcontent
    obtain ⟨r, hr, hrvalid, hrcontent, hrok⟩ := plcBufferMaybeFlush_spec hvalid sends false
    rw [hreset]
    show ∃ r', (plcBufferMaybeFlush sends buf.afterReset false >>= _) = Except.ok r' ∧ _
    rw [hr]
    show ∃ r', appendFlushed alloc src r = .ok r' ∧ _
    by_cases hok : r.ok = true
    · -- after a successful flush the window is empty; without one the sum is known to fit
      have hready : r.buf.pStart ≤ r.buf.bufSize / 2 ∧
          r.buf.pEnd - r.buf.pStart + src.length ≤ maxRequest ∧
          r.buf.pEnd + src.length < 2 ^ 31 := by
        have hmin := hrvalid.size_min
        unfold maxRequest at hmax ⊢
        rcases hrok hok with ⟨hno, hsame⟩ | ⟨_, hstart, hend⟩
        · rw [Bool.or_false] at hno
          rw [hsame]
          rcases hfits with hfit | hflush | hsum
          · omega
          · rw [hno] at hflush
            exact absurd hflush (by simp)
          · omega
        · omega
      obtain ⟨r', hr', hvalid', hmoved, hcontent'⟩ :=
        appendFlushed_spec hrvalid hready.1 hready.2.1 hready.2.2 hok alloc
      refine ⟨r', hr', hvalid', ?_⟩
      rw [hmoved, hcontent', ← List.append_assoc, hrcontent, hcontent]
    · refine ⟨r, by rw [appendFlushed, if_neg hok], hrvalid, ?_⟩
      rw [if_neg hok, List.append_nil, hrcontent, hcontent]
  · rw [if_neg hroom]
    have hfit : buf.pEnd + src.length ≤ buf.bufSize := by omega
    obtain ⟨b, hb, hvalid, hcontent⟩ := putBytes_spec h hfit
    refine ⟨⟨true, b, []⟩, ?_, hvalid, ?_⟩
    · rw [hb]
      rfl
    · show [] ++ b.content = buf.content ++ src
      rw [List.nil_append, hcontent]

/-- An append that has no room and cannot make any copies past the end of the block. -/
theorem plcBufferAppend_faults {buf : PlcBuffer} (h : buf.Valid) {src : List UInt8}
    (hmax : buf.pEnd - buf.pStart + src.length ≤ maxRequest)
    (hfits : ¬ appendFits buf src.length) (alloc : Bool) (sends : List ℕ) :
    plcBufferAppend alloc sends buf src = .error .copyOutOfBounds := by
  simp only [appendFits, not_or, not_le, not_lt] at hfits
  obtain ⟨hroom, hflush, hsum⟩ := hfits
  have hle := h.start_le_end
  have hcast : wrap32 (src.length : ℤ) = src.length := by
    unfold maxRequest at hmax
    exact wrap32_of_lt (by omega) (by omega)
  obtain ⟨hreset, hvalid, hcontent, hsize, hhalf⟩ := plcBufferMaybeReset_afterReset h
  have hwindow := hvalid.window_eq h hcontent
  have hresize := plcBufferMaybeResize_wrapped hvalid hhalf (n := src.length) (by omega)
    (by rw [hwindow]; exact hmax) hsum alloc
  have hstore : storeBytes buf.afterReset.data buf.afterReset.pEnd src
      = .error .copyOutOfBounds := by
    have hblock := hvalid.block
    have hlt := hvalid.size_lt
    exact if_neg (by omega)
  rw [plcBufferAppend, hcast, if_pos hroom, hreset]
  show (plcBufferMaybeFlush sends buf.afterReset false >>= _) = _
  rw [plcBufferMaybeFlush, if_neg (by simpa using hflush)]
  show appendFlushed alloc src ⟨true, buf.afterReset, []⟩ = _
  rw [appendFlushed, if_pos rfl, hcast, hresize]
  show (putBytes src buf.afterReset >>= _) = _
  rw [putBytes, hstore]
  rfl

/-! ## The input side -/

/-- Bytes delivered by `recv` go to the end of the queue. -/
theorem PlcBuffer.Valid.extend {buf : PlcBuffer} (h : buf.Valid) {got : List UInt8}
    (hroom : buf.pEnd + got.length ≤ buf.bufSize) :
    ∃ data, storeBytes buf.data buf.pEnd got = .ok data ∧
      PlcBuffer.Valid { buf with data := data, pEnd := buf.pEnd + got.length } ∧
      PlcBuffer.content { buf with data := data, pEnd := buf.pEnd + got.length }
        = buf.content ++ got := by
  have hwrap : wrap32 (buf.pEnd + got.length) = buf.pEnd + got.length := by
    obtain ⟨h₁, h₂, h₃, h₄, h₅, h₆⟩ := h
    exact wrap32_of_lt (by omega) (by omega)
  obtain ⟨b, hb, hvalid, hcontent⟩ := putBytes_spec h hroom
  rw [putBytes] at hb
  cases hstore : storeBytes buf.data buf.pEnd got with
  | error e =>
      rw [hstore] at hb
      cases hb
  | ok data =>
      rw [hstore, hwrap] at hb
      cases hb
      exact ⟨data, rfl, hvalid, hcontent⟩

theorem recvRoom_eq_ok {buf : PlcBuffer} (h : buf.Valid) (hroom : buf.pEnd < buf.bufSize) :
    recvRoom buf = .ok (buf.bufSize - buf.pEnd) := by
  obtain ⟨h₁, h₂, h₃, h₄, _, _⟩ := h
  rw [recvRoom, if_neg (by omega), if_pos ⟨by omega, by omega, by omega⟩]

/-- The receive loop only adds what `recv` delivers, and ends well only with all it was asked for.
    While bytes are missing there is room for them, so no `recv` is asked for nothing. -/
theorem recvLoop_spec (recvs : List (List UInt8)) : ∀ {buf : PlcBuffer} {need : ℤ}, buf.Valid →
    buf.pEnd + need ≤ buf.bufSize →
    ∃ r, recvLoop recvs buf need = .ok r ∧ r.buf.Valid ∧ r.buf.content = buf.content ++ r.moved ∧
      (r.ok = true → need ≤ r.moved.length) := by
  induction recvs with
  | nil =>
      intro buf need h hneed
      rw [recvLoop]
      by_cases hmore : 0 < need
      · rw [if_pos hmore, recvRoom_eq_ok h (by omega)]
        exact ⟨⟨false, buf, []⟩, rfl, h, by simp, fun hok => absurd hok (by simp)⟩
      · rw [if_neg hmore]
        exact ⟨⟨true, buf, []⟩, rfl, h, by simp, fun _ => by simpa using hmore⟩
  | cons chunk recvs ih =>
      intro buf need h hneed
      rw [recvLoop]
      by_cases hmore : 0 < need
      · rw [if_pos hmore, recvRoom_eq_ok h (by omega)]
        show ∃ r, (if chunk.take (buf.bufSize - buf.pEnd).toNat = [] then _ else _)
          = Except.ok r ∧ _
        by_cases hnone : chunk.take (buf.bufSize - buf.pEnd).toNat = []
        · rw [if_pos hnone]
          exact ⟨⟨false, buf, []⟩, rfl, h, by simp, fun hok => absurd hok (by simp)⟩
        · rw [if_neg hnone]
          have hgot : buf.pEnd + (chunk.take (buf.bufSize - buf.pEnd).toNat).length
              ≤ buf.bufSize := by
            rw [List.length_take]
            omega
          generalize chunk.take (buf.bufSize - buf.pEnd).toNat = got at hgot
          obtain ⟨data, hstore, hvalid, hcontent⟩ := h.extend hgot
          have hneed' : buf.pEnd + got.length + (need - got.length) ≤ buf.bufSize := by omega
          obtain ⟨r, hr, hrvalid, hrcontent, hrok⟩ := ih hvalid hneed'
          rw [hstore]
          refine ⟨{ r with moved := got ++ r.moved }, ?_, hrvalid, ?_, fun hok => ?_⟩
          · show (recvLoop recvs _ _ >>= _) = _
            rw [hr]
            rfl
          · show r.buf.content = buf.content ++ (got ++ r.moved)
            rw [hrcontent, hcontent, List.append_assoc]
          · show need ≤ ((got ++ r.moved).length : ℤ)
            have := hrok hok
            rw [List.length_append]
            omega
      · rw [if_neg hmore]
        exact ⟨⟨true, buf, []⟩, rfl, h, by simp, fun _ => by simpa using hmore⟩

/-- **When a receive makes room**: the bytes are there already, or the end offset and the request
    add up to an `int`, or the request fits behind the start offset without a larger block. -/
def receiveFits (buf : PlcBuffer) (n : ℤ) : Prop :=
  n ≤ buf.pEnd - buf.pStart ∨ buf.afterReset.pEnd + n < 2 ^ 31 ∨
    buf.afterReset.pStart + n ≤ buf.bufSize

/-- **Receive.** What `recv` delivers is appended to the queue, and a receive that succeeds leaves
    at least the bytes asked for. -/
theorem plcBufferReceive_spec {buf : PlcBuffer} (h : buf.Valid) {nBytes : ℕ}
    (hmax : buf.pEnd - buf.pStart + nBytes ≤ maxRequest) (hfits : receiveFits buf nBytes)
    (alloc : Bool) (recvs : List (List UInt8)) :
    ∃ r, plcBufferReceive alloc recvs buf nBytes = .ok r ∧ r.buf.Valid ∧
      r.buf.content = buf.content ++ r.moved ∧ (r.ok = true → nBytes ≤ r.buf.content.length) := by
  have hle := h.start_le_end
  have hcast : wrap32 (nBytes : ℤ) = nBytes := by
    unfold maxRequest at hmax
    exact wrap32_of_lt (by omega) (by omega)
  unfold plcBufferReceive
  rw [hcast]
  by_cases hshort : buf.pEnd - buf.pStart < nBytes
  · rw [if_pos hshort]
    obtain ⟨hreset, hvalid, hcontent, hsize, hhalf⟩ := plcBufferMaybeReset_afterReset h
    have hwindow := hvalid.window_eq h hcontent
    -- whichever way room is made, the bytes still missing fit behind the window
    obtain ⟨ok, b, hb, hbvalid, hbcontent, hbroom⟩ : ∃ ok b,
        plcBufferMaybeResize alloc buf.afterReset nBytes = .ok (ok, b) ∧ b.Valid ∧
          b.content = buf.content ∧ (ok = true → b.pStart + nBytes ≤ b.bufSize) := by
      by_cases hsum : buf.afterReset.pEnd + nBytes < 2 ^ 31
      · obtain ⟨ok, b, hb, hbvalid, hbcontent, hbroom⟩ := plcBufferMaybeResize_spec hvalid hhalf
          (n := nBytes) (by omega) (by rw [hwindow]; exact hmax) hsum alloc
        refine ⟨ok, b, hb, hbvalid, hbcontent.trans hcontent, fun hok => ?_⟩
        have hstart := hbvalid.start_le_end
        have := hbroom hok
        omega
      · have hresize := plcBufferMaybeResize_wrapped hvalid hhalf (n := nBytes) (by omega)
          (by rw [hwindow]; exact hmax) (by omega) alloc
        refine ⟨true, buf.afterReset, hresize, hvalid, hcontent, fun _ => ?_⟩
        rcases hfits with hfit | hfit | hfit <;> omega
    rw [hreset]
    show ∃ r, (plcBufferMaybeResize alloc buf.afterReset nBytes >>= _) = Except.ok r ∧ _
    rw [hb]
    show ∃ r, receiveResized recvs nBytes (ok, b) = .ok r ∧ _
    unfold receiveResized
    cases ok with
    | false =>
        exact ⟨⟨false, b, []⟩, rfl, hbvalid, by simp [hbcontent], fun hok => absurd hok (by simp)⟩
    | true =>
        have hneed : b.pEnd + (nBytes - (b.pEnd - b.pStart)) ≤ b.bufSize := by
          have := hbroom rfl
          omega
        obtain ⟨r, hr, hrvalid, hrcontent, hrok⟩ := recvLoop_spec recvs hbvalid hneed
        refine ⟨r, hr, hrvalid, by rw [hrcontent, hbcontent], fun hok => ?_⟩
        have hlen := hbvalid.content_length
        have := hrok hok
        rw [hrcontent, List.length_append]
        omega
  · rw [if_neg hshort]
    have hlen := h.content_length
    exact ⟨⟨true, buf, []⟩, rfl, h, by simp, fun _ => by show nBytes ≤ buf.content.length; omega⟩

/-- With a full block and bytes still missing, `recv` is asked for nothing. -/
theorem recvLoop_full {buf : PlcBuffer} (hfull : buf.pEnd = buf.bufSize) {need : ℤ} (hneed : 0 < need)
    (recvs : List (List UInt8)) : recvLoop recvs buf need = .error .recvZeroBytes := by
  have hroom : recvRoom buf = .error .recvZeroBytes := if_pos (by omega)
  cases recvs <;> rw [recvLoop, if_pos hneed, hroom] <;> rfl

/-- One `recv` that delivers a whole chunk. -/
theorem recvLoop_chunk {buf : PlcBuffer} (h : buf.Valid) {chunk : List UInt8} (hne : chunk ≠ [])
    (hroom : buf.pEnd + chunk.length ≤ buf.bufSize) (need : ℤ) (hneed : 0 < need)
    (recvs : List (List UInt8)) :
    ∃ data, PlcBuffer.Valid { buf with data := data, pEnd := buf.pEnd + chunk.length } ∧
      recvLoop (chunk :: recvs) buf need
        = (recvLoop recvs { buf with data := data, pEnd := buf.pEnd + chunk.length }
            (need - chunk.length) >>= fun r => pure { r with moved := chunk ++ r.moved }) := by
  have hpos : 0 < chunk.length := List.length_pos_iff.2 hne
  have htake : chunk.take (buf.bufSize - buf.pEnd).toNat = chunk :=
    List.take_of_length_le (by omega)
  obtain ⟨data, hstore, hvalid, _⟩ := h.extend hroom
  refine ⟨data, hvalid, ?_⟩
  rw [recvLoop, if_pos hneed, recvRoom_eq_ok h (by omega)]
  show (if chunk.take (buf.bufSize - buf.pEnd).toNat = [] then _ else _) = _
  rw [htake, if_neg hne, hstore]
  rfl

/-- A receive that has no room and cannot make any: the peer fills the block, and the next `recv` is
    asked for nothing. -/
theorem plcBufferReceive_faults {buf : PlcBuffer} (h : buf.Valid) {nBytes : ℕ}
    (hmax : buf.pEnd - buf.pStart + nBytes ≤ maxRequest) (hfits : ¬ receiveFits buf nBytes)
    (alloc : Bool) :
    ∃ recvs, plcBufferReceive alloc recvs buf nBytes = .error .recvZeroBytes := by
  simp only [receiveFits, not_or, not_le, not_lt] at hfits
  obtain ⟨hshort, hsum, hbig⟩ := hfits
  have hle := h.start_le_end
  have hcast : wrap32 (nBytes : ℤ) = nBytes := by
    unfold maxRequest at hmax
    exact wrap32_of_lt (by omega) (by omega)
  obtain ⟨hreset, hvalid, hcontent, hsize, hhalf⟩ := plcBufferMaybeReset_afterReset h
  have hwindow := hvalid.window_eq h hcontent
  have hresize := plcBufferMaybeResize_wrapped hvalid hhalf (n := nBytes) (by omega)
    (by rw [hwindow]; exact hmax) hsum alloc
  have hrun : ∀ recvs, plcBufferReceive alloc recvs buf nBytes = recvLoop recvs buf.afterReset
      (nBytes - (buf.afterReset.pEnd - buf.afterReset.pStart)) := by
    intro recvs
    rw [plcBufferReceive, hcast, if_pos hshort, hreset]
    show (plcBufferMaybeResize alloc buf.afterReset nBytes >>= _) = _
    rw [hresize]
    rfl
  simp only [hrun]
  have hend := hvalid.end_le_size
  by_cases hfull : buf.afterReset.pEnd = buf.afterReset.bufSize
  · exact ⟨[], recvLoop_full hfull (by omega) []⟩
  · have hlen : ((List.replicate (buf.afterReset.bufSize - buf.afterReset.pEnd).toNat
        (0 : UInt8)).length : ℤ) = buf.afterReset.bufSize - buf.afterReset.pEnd := by
      rw [List.length_replicate]
      omega
    generalize List.replicate (buf.afterReset.bufSize - buf.afterReset.pEnd).toNat (0 : UInt8)
      = chunk at hlen
    have hne : chunk ≠ [] := List.length_pos_iff.1 (by omega)
    obtain ⟨data, _, hchunk⟩ := recvLoop_chunk hvalid hne (by omega)
      (nBytes - (buf.afterReset.pEnd - buf.afterReset.pStart)) (by omega) []
    refine ⟨[chunk], ?_⟩
    rw [hchunk, recvLoop_full (by show buf.afterReset.pEnd + _ = buf.afterReset.bufSize; omega)
      (by omega)]
    rfl

/-- The copy of `plcBufferRead` takes the oldest bytes. -/
theorem takeBytes_spec {buf : PlcBuffer} (h : buf.Valid) {nBytes : ℕ}
    (hlen : nBytes ≤ buf.content.length) :
    takeBytes nBytes buf = .ok (buf.content.take nBytes, { buf with pStart := buf.pStart + nBytes }) ∧
      PlcBuffer.Valid { buf with pStart := buf.pStart + nBytes } ∧
      PlcBuffer.content { buf with pStart := buf.pStart + nBytes } = buf.content.drop nBytes := by
  have hcount := h.content_length
  refine ⟨?_, h.advance (by omega)⟩
  obtain ⟨h₁, h₂, h₃, h₄, h₅, h₆⟩ := h
  have hwrap : wrap32 (buf.pStart + nBytes) = buf.pStart + nBytes :=
    wrap32_of_lt (by omega) (by omega)
  have hload : loadBytes buf.data buf.pStart nBytes = .ok (buf.content.take nBytes) := by
    rw [loadBytes, if_pos ⟨h₁, by omega, by omega⟩, PlcBuffer.content, take_slice _ _ (by omega),
      Int.toNat_natCast]
  rw [takeBytes, hload, hwrap]
  rfl

/-- **Read.** The bytes returned and the new content are the old content and what `recv` delivered;
    a read that succeeds returns as many bytes as it was asked for. -/
theorem plcBufferRead_spec {buf : PlcBuffer} (h : buf.Valid) {nBytes : ℕ}
    (hmax : buf.pEnd - buf.pStart + nBytes ≤ maxRequest) (hfits : receiveFits buf nBytes)
    (alloc : Bool) (recvs : List (List UInt8)) :
    ∃ res r, plcBufferRead alloc recvs buf nBytes = .ok (res, r) ∧ r.buf.Valid ∧
      res.getD [] ++ r.buf.content = buf.content ++ r.moved ∧
      (∀ bytes, res = some bytes → bytes.length = nBytes) := by
  obtain ⟨r, hr, hvalid, hcontent, hok⟩ := plcBufferReceive_spec h hmax hfits alloc recvs
  rw [plcBufferRead, hr]
  show ∃ res r', (if r.ok = true then _ else _) = Except.ok (res, r') ∧ _
  by_cases hdone : r.ok = true
  · obtain ⟨htake, htvalid, htcontent⟩ := takeBytes_spec hvalid (hok hdone)
    rw [if_pos hdone, htake]
    refine ⟨_, _, rfl, htvalid, ?_, fun bytes hbytes => ?_⟩
    · rw [Option.getD_some, htcontent, List.take_append_drop, hcontent]
    · cases hbytes
      rw [List.length_take, Nat.min_eq_left (hok hdone)]
  · rw [if_neg hdone]
    exact ⟨none, r, rfl, hvalid, hcontent, fun bytes hbytes => by cases hbytes⟩

/-- A read faults only where its receive does. -/
theorem plcBufferRead_faults {buf : PlcBuffer} {nBytes : ℕ} {alloc : Bool}
    {recvs : List (List UInt8)} {e : Fault}
    (h : plcBufferReceive alloc recvs buf nBytes = .error e) :
    plcBufferRead alloc recvs buf nBytes = .error e := by
  rw [plcBufferRead, h]
  rfl

end PlContainer
