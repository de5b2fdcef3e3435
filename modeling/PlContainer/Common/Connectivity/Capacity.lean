import PlContainer.Common.Connectivity.Session

set_option autoImplicit false

/-! # How large the blocks of a connection get

`Session.fits` looks at the offsets of a buffer, which no caller of the channel knows. Here the
callers only promise that no call asks for more than `m` bytes. A block grows for a receive only while
less than the bytes asked for are buffered, and for an append only while too little is buffered for a
flush, so no block gets larger than `capacity m`; and below that size every call makes room. -/

namespace PlContainer

open Checked Runs

/-- The most bytes that a block has when no call asks for more than `m`. -/
def capacity (m : ℤ) : ℤ := 2 * m + 16584

/-- Requests that leave all sums of offsets and requests in the range of `int`. -/
def Modest (m : ℤ) : Prop := 0 ≤ m ∧ capacity m + m ≤ maxRequest

theorem Modest.wrap32_eq {m : ℤ} (hm : Modest m) {n : ℕ} (hn : (n : ℤ) ≤ m) : wrap32 n = n := by
  have hmax := hm.2
  unfold capacity maxRequest at hmax
  exact wrap32_of_lt (by omega) (by omega)

/-! ## Sizes of the blocks -/

theorem bufSize_reallocate {buf b : PlcBuffer} {newSize : ℤ} (h : reallocate buf newSize = .ok b) :
    b.bufSize = newSize := by
  obtain ⟨_, _, h⟩ := bind_eq_ok.1 h
  obtain ⟨_, _, h⟩ := bind_eq_ok.1 h
  rw [← pure_eq_ok.1 h]

theorem bufSize_flushLoop {sends : List ℕ} {buf : PlcBuffer} {r : SocketResult}
    (h : flushLoop sends buf = .ok r) : r.buf.bufSize = buf.bufSize := by
  induction sends generalizing buf r with
  | nil =>
      cases h
      rfl
  | cons k sends ih =>
      rw [flushLoop] at h
      split at h
      · obtain ⟨_, _, h⟩ := bind_eq_ok.1 h
        obtain ⟨r', hr', h⟩ := bind_eq_ok.1 h
        rw [← pure_eq_ok.1 h]
        have hsize := ih hr'
        exact hsize
      · cases h
        rfl

theorem bufSize_plcBufferMaybeReset {buf b : PlcBuffer} (hvalid : buf.Valid)
    (h : plcBufferMaybeReset buf = .ok b) : b.bufSize = buf.bufSize := by
  obtain ⟨b', hb', _, _, hsize, _⟩ := plcBufferMaybeReset_spec hvalid
  rw [h] at hb'
  cases hb'
  exact hsize

theorem bufSize_plcBufferMaybeFlush {buf : PlcBuffer} (hvalid : buf.Valid) {sends : List ℕ}
    {isForse : Bool} {r : SocketResult} (h : plcBufferMaybeFlush sends buf isForse = .ok r) :
    r.buf.bufSize = buf.bufSize := by
  unfold plcBufferMaybeFlush at h
  by_cases hflush : (shouldFlush buf || isForse) = true
  · rw [if_pos hflush] at h
    obtain ⟨r', hr', h⟩ := bind_eq_ok.1 h
    obtain ⟨r'', hr'', hvalid', _, _⟩ := flushLoop_spec sends hvalid
    rw [hr'] at hr''
    cases hr''
    have hsize := bufSize_flushLoop hr'
    unfold resetFlushed at h
    split at h
    · obtain ⟨b, hb, h⟩ := bind_eq_ok.1 h
      rw [← pure_eq_ok.1 h]
      exact (bufSize_plcBufferMaybeReset hvalid' hb).trans hsize
    · cases h
      exact hsize
  · rw [if_neg hflush] at h
    cases h
    rfl

theorem bufSize_recvLoop {recvs : List (List UInt8)} {buf : PlcBuffer} {need : ℤ} {r : SocketResult}
    (h : recvLoop recvs buf need = .ok r) : r.buf.bufSize = buf.bufSize := by
  induction recvs generalizing buf need r with
  | nil =>
      rw [recvLoop] at h
      split at h
      · obtain ⟨_, _, h⟩ := bind_eq_ok.1 h
        rw [← pure_eq_ok.1 h]
      · cases h
        rfl
  | cons chunk recvs ih =>
      rw [recvLoop] at h
      split at h
      · obtain ⟨room, _, h⟩ := bind_eq_ok.1 h
        dsimp only at h
        split at h
        · rw [← pure_eq_ok.1 h]
        · obtain ⟨data, _, h⟩ := bind_eq_ok.1 h
          obtain ⟨r', hr', h⟩ := bind_eq_ok.1 h
          rw [← pure_eq_ok.1 h]
          have hsize := ih hr'
          exact hsize
      · cases h
        rfl

/-- A block that is reallocated holds the data and the request, rounded up; it only shrinks to less
    than it was. -/
theorem bufSize_plcBufferMaybeResize {buf b : PlcBuffer} (hvalid : buf.Valid) {n : ℤ} (hn : 0 ≤ n)
    (hmax : buf.pEnd - buf.pStart + n ≤ maxRequest) {alloc ok : Bool}
    (h : plcBufferMaybeResize alloc buf n = .ok (ok, b)) :
    b.bufSize ≤ max (max buf.bufSize 16384) (buf.pEnd - buf.pStart + n + 8392) := by
  have hneed := neededSize_eq hvalid hn hmax
  have hle := hvalid.start_le_end
  unfold maxRequest at hmax
  unfold plcBufferMaybeResize at h
  simp only [hneed, plcBufferSize, plcBufferMinFree] at h
  by_cases hshrink : buf.pEnd - buf.pStart + n + 200 < buf.bufSize / 5 ∧ 8192 < buf.bufSize
  · rw [if_pos hshrink] at h
    cases alloc with
    | false =>
        cases h
        omega
    | true =>
        obtain ⟨b', hb', h⟩ := map_eq_ok.1 h
        cases h
        have hlt := hvalid.size_lt
        have hdouble : wrap32 ((buf.pEnd - buf.pStart + n + 200) * 2)
            = (buf.pEnd - buf.pStart + n + 200) * 2 := wrap32_of_lt (by omega) (by omega)
        rw [bufSize_reallocate hb', hdouble, roundedSize_eq (by omega) (by omega)]
        omega
  · rw [if_neg hshrink] at h
    by_cases hgrow : buf.bufSize - 200 < wrap32 (buf.pEnd + n)
    · rw [if_pos hgrow] at h
      cases alloc with
      | false =>
          cases h
          omega
      | true =>
          obtain ⟨b', hb', h⟩ := map_eq_ok.1 h
          cases h
          rw [bufSize_reallocate hb', roundedSize_eq (by omega) (by omega)]
          omega
    · rw [if_neg hgrow] at h
      cases h
      omega

theorem bufSize_putBytes {src : List UInt8} {buf b : PlcBuffer} (h : putBytes src buf = .ok b) :
    b.bufSize = buf.bufSize := by
  obtain ⟨_, _, h⟩ := bind_eq_ok.1 h
  rw [← pure_eq_ok.1 h]

/-! ## Buffers below the capacity -/

/-- A valid buffer whose block is no larger than the capacity. -/
structure PlcBuffer.Below (m : ℤ) (buf : PlcBuffer) : Prop extends buf.Valid where
  le_capacity : buf.bufSize ≤ capacity m

section Below

variable {m : ℤ} {buf : PlcBuffer}

theorem PlcBuffer.Below.window_le (h : buf.Below m) : buf.pEnd - buf.pStart ≤ capacity m := by
  have h₁ := h.start_nonneg
  have h₂ := h.end_le_size
  have h₃ := h.le_capacity
  omega

theorem PlcBuffer.Below.withinLimit (h : buf.Below m) (hm : Modest m) {n : ℤ} (hn : n ≤ m) :
    buf.pEnd - buf.pStart + n ≤ maxRequest := by
  have := h.window_le
  have := hm.2
  omega

theorem PlcBuffer.Below.sum_lt (h : buf.Below m) (hm : Modest m) {n : ℤ} (hn : n ≤ m) :
    buf.afterReset.pEnd + n < 2 ^ 31 := by
  obtain ⟨_, hvalid, _, hsize, _⟩ := plcBufferMaybeReset_afterReset h.toValid
  have hend := hvalid.end_le_size
  have hcap := h.le_capacity
  have hmax := hm.2
  unfold maxRequest at hmax
  omega

/-- An append that finds the block full has flushed it, or found at most 8192 bytes there. -/
theorem PlcBuffer.Below.append (h : buf.Below m) (hm : Modest m) {src : List UInt8}
    (hn : (src.length : ℤ) ≤ m) (alloc : Bool) (sends : List ℕ) :
    ∃ r, plcBufferAppend alloc sends buf src = .ok r ∧ r.buf.Below m ∧
      r.moved ++ r.buf.content = buf.content ++ (if r.ok then src else []) := by
  have hmax := h.withinLimit hm hn
  obtain ⟨r, hr, hvalid, hqueue⟩ :=
    plcBufferAppend_spec h.toValid hmax (.inr (.inr (h.sum_lt hm hn))) alloc sends
  refine ⟨r, hr, ⟨hvalid, ?_⟩, hqueue⟩
  have hcast := hm.wrap32_eq hn
  rw [plcBufferAppend, hcast] at hr
  by_cases hroom : buf.bufSize - buf.pEnd < src.length
  · rw [if_pos hroom] at hr
    obtain ⟨hreset, hrvalid, hrcontent, hrsize, _⟩ := plcBufferMaybeReset_afterReset h.toValid
    rw [hreset, ok_bind] at hr
    obtain ⟨f, hf, hr⟩ := bind_eq_ok.1 hr
    have hfsize := bufSize_plcBufferMaybeFlush hrvalid hf
    obtain ⟨f', hf', hfvalid, _, hfok⟩ := plcBufferMaybeFlush_spec hrvalid sends false
    rw [hf] at hf'
    cases hf'
    have hcap := h.le_capacity
    unfold appendFlushed at hr
    by_cases hok : f.ok = true
    · rw [if_pos hok, hcast] at hr
      obtain ⟨resized, hresize, hr⟩ := bind_eq_ok.1 hr
      -- what is left in the buffer is small, so the block need not grow far beyond the request
      have hsmall : f.buf.pEnd - f.buf.pStart ≤ 8192 := by
        rcases hfok hok with ⟨hno, hsame⟩ | ⟨_, hstart, hend⟩
        · rw [Bool.or_false] at hno
          simp only [shouldFlush, Bool.or_eq_false_iff, decide_eq_false_iff_not] at hno
          have hle : ¬ plcBufferSize < buf.afterReset.pEnd - buf.afterReset.pStart := hno.2
          unfold plcBufferSize at hle
          rw [hsame]
          omega
        · omega
      have hfmax : f.buf.pEnd - f.buf.pStart + src.length ≤ maxRequest := by
        have := hm.2
        unfold capacity at this
        omega
      have hresized := bufSize_plcBufferMaybeResize hfvalid (Int.natCast_nonneg _) hfmax hresize
      have hnew : resized.2.bufSize ≤ capacity m := by
        have := hm.1
        unfold capacity at hcap ⊢
        omega
      split at hr
      · obtain ⟨b, hb, hr⟩ := bind_eq_ok.1 hr
        rw [← pure_eq_ok.1 hr]
        show b.bufSize ≤ capacity m
        rw [bufSize_putBytes hb]
        exact hnew
      · rw [← pure_eq_ok.1 hr]
        exact hnew
    · rw [if_neg hok] at hr
      cases hr
      omega
  · rw [if_neg hroom] at hr
    obtain ⟨b, hb, hr⟩ := bind_eq_ok.1 hr
    rw [← pure_eq_ok.1 hr]
    show b.bufSize ≤ capacity m
    rw [bufSize_putBytes hb]
    exact h.le_capacity

theorem PlcBuffer.Below.flush (h : buf.Below m) (sends : List ℕ) :
    ∃ r, plcBufferFlush sends buf = .ok r ∧ r.buf.Below m ∧
      r.moved ++ r.buf.content = buf.content := by
  obtain ⟨r, hr, hvalid, hqueue, _⟩ := plcBufferMaybeFlush_spec h.toValid sends true
  exact ⟨r, hr, ⟨hvalid, (bufSize_plcBufferMaybeFlush h.toValid hr).le.trans h.le_capacity⟩, hqueue⟩

/-- A receive reallocates only while less than the bytes asked for are buffered. -/
theorem PlcBuffer.Below.receive (h : buf.Below m) (hm : Modest m) {n : ℕ} (hn : (n : ℤ) ≤ m)
    (alloc : Bool) (recvs : List (List UInt8)) :
    ∃ r, plcBufferReceive alloc recvs buf n = .ok r ∧ r.buf.Below m := by
  have hmax := h.withinLimit hm hn
  obtain ⟨r, hr, hvalid, _⟩ :=
    plcBufferReceive_spec h.toValid hmax (.inr (.inl (h.sum_lt hm hn))) alloc recvs
  refine ⟨r, hr, hvalid, ?_⟩
  have hcast := hm.wrap32_eq hn
  rw [plcBufferReceive, hcast] at hr
  split at hr
  next hshort =>
    obtain ⟨hreset, hrvalid, hrcontent, hrsize, _⟩ := plcBufferMaybeReset_afterReset h.toValid
    have hwindow := hrvalid.window_eq h.toValid hrcontent
    rw [hreset, ok_bind] at hr
    obtain ⟨resized, hresize, hr⟩ := bind_eq_ok.1 hr
    have hresized := bufSize_plcBufferMaybeResize hrvalid (Int.natCast_nonneg n)
      (by rw [hwindow]; exact hmax) hresize
    have hnew : resized.2.bufSize ≤ capacity m := by
      have hcap := h.le_capacity
      have := hm.1
      unfold capacity at hcap ⊢
      omega
    unfold receiveResized at hr
    split at hr
    · exact (bufSize_recvLoop hr).le.trans hnew
    · cases hr
      exact hnew
  · cases hr
    exact h.le_capacity

theorem PlcBuffer.Below.read (h : buf.Below m) (hm : Modest m) {n : ℕ} (hn : (n : ℤ) ≤ m)
    (alloc : Bool) (recvs : List (List UInt8)) :
    ∃ res r, plcBufferRead alloc recvs buf n = .ok (res, r) ∧ r.buf.Below m ∧
      res.getD [] ++ r.buf.content = buf.content ++ r.moved ∧
      ∀ bytes, res = some bytes → bytes.length = n := by
  obtain ⟨res, r, hr, hvalid, hqueue⟩ := plcBufferRead_spec h.toValid (h.withinLimit hm hn)
    (.inr (.inl (h.sum_lt hm hn))) alloc recvs
  refine ⟨res, r, hr, ⟨hvalid, ?_⟩, hqueue⟩
  obtain ⟨r', hr', hbelow⟩ := h.receive hm hn alloc recvs
  rw [plcBufferRead, hr', ok_bind] at hr
  split at hr
  · obtain ⟨taken, htaken, hr⟩ := bind_eq_ok.1 hr
    obtain ⟨_, _, htaken⟩ := bind_eq_ok.1 htaken
    cases pure_eq_ok.1 hr
    rw [← pure_eq_ok.1 htaken]
    exact hbelow.le_capacity
  · cases pure_eq_ok.1 hr
    exact hbelow.le_capacity

end Below

/-! ## Runs -/

/-- The bytes that a call asks for. -/
def BufferCall.size : BufferCall → ℕ
  | .append src => src.length
  | .flush => 0
  | .receive nBytes => nBytes
  | .read nBytes => nBytes

/-- The invariant of a session, with both blocks below the capacity. -/
structure Session.Compact (m : ℤ) (s : Session) : Prop extends s.Inv where
  inputBelow : s.conn.input.Below m
  outputBelow : s.conn.output.Below m

theorem plcBufferInit_below {m : ℤ} (hm : 0 ≤ m) : plcBufferInit.Below m :=
  ⟨plcBufferInit_valid, by show plcBufferSize ≤ _; unfold plcBufferSize capacity; omega⟩

theorem Session.Compact.exec {m : ℤ} {s : Session} (h : s.Compact m) (hm : Modest m)
    {call : BufferCall} (hn : (call.size : ℤ) ≤ m) (env : Environment) :
    ∃ s', s.exec env call = .ok s' ∧ s'.Compact m := by
  have hin := h.inputBelow
  have hout := h.outputBelow
  have hroom : s.withinLimit call ∧ s.fits call := by
    cases call with
    | append src => exact ⟨hout.withinLimit hm hn, .inr (.inr (hout.sum_lt hm hn))⟩
    | flush => exact ⟨trivial, trivial⟩
    | receive nBytes | read nBytes =>
        exact ⟨hin.withinLimit hm hn, .inr (.inl (hin.sum_lt hm hn))⟩
  obtain ⟨s', hs', hinv⟩ := Session.exec_inv h.toInv hroom.1 hroom.2 env
  have hblocks : s'.conn.input.Below m ∧ s'.conn.output.Below m := by
    cases call with
    | append src =>
        obtain ⟨r, hr, hbelow, _⟩ := hout.append hm hn env.alloc env.sends
        rw [Session.exec, hr] at hs'
        cases hs'
        exact ⟨hin, hbelow⟩
    | flush =>
        obtain ⟨r, hr, hbelow, _⟩ := hout.flush env.sends
        rw [Session.exec, hr] at hs'
        cases hs'
        exact ⟨hin, hbelow⟩
    | receive nBytes =>
        obtain ⟨r, hr, hbelow⟩ := hin.receive (n := nBytes) hm hn env.alloc env.recvs
        rw [Session.exec, hr] at hs'
        cases hs'
        exact ⟨hbelow, hout⟩
    | read nBytes =>
        obtain ⟨res, r, hr, hbelow, _⟩ := hin.read (n := nBytes) hm hn env.alloc env.recvs
        rw [Session.exec, hr] at hs'
        cases hs'
        exact ⟨hbelow, hout⟩
  exact ⟨s', hs', hinv, hblocks.1, hblocks.2⟩

theorem Session.compact_of_reachable {m : ℤ} (hm : Modest m) {s : Session}
    (h : Session.Reachable (fun _ call => (call.size : ℤ) ≤ m) s) : s.Compact m := by
  refine ReachableUnder.invariant ?_ ?_ h
  · rintro s rfl
    exact ⟨Session.inv_start, plcBufferInit_below hm.1, plcBufferInit_below hm.1⟩
  · intro s i s' hinv hn hstep
    obtain ⟨t, ht, hcompact⟩ := hinv.exec hm hn i.2
    rw [Session.step, ht] at hstep
    cases hstep
    exact hcompact

end PlContainer
