import PlContainer.Common.Channel.Fetching
import PlContainer.Common.Connectivity.Capacity

set_option autoImplicit false

/-! # Messages over a connection

One direction of a connection: a sender whose send functions append the bytes of its messages to an
output buffer, in pieces of any size, with flushes in between; a socket that takes and delivers bytes
when and in portions as it likes; and a receiver that calls `plcontainer_channel_receive` again and
again, each call a program that reads from an input buffer. Whatever the order of the steps, the
receiver gets the messages in the order in which they were sent, none twice and none changed, and no
step commits a fault. The two directions of a connection share neither buffers nor bytes, so each is a
link of its own. -/

namespace PlContainer

open ByteStream Checked Runs

/-- The bytes that the send functions append for a message. -/
def wireBytes (m : PlcMessage) : List UInt8 := (plcontainerChannelSend m).getD []

/-- The message as the receiver has it. -/
def PlcMessage.delivered (m : PlcMessage) : PlcMessage := m.answer.mapData Value.deliveredRaw

/-- The calls of `plcontainer_channel_receive` that the receiver makes, one after the other: the mask
    of each, and the call as a program of reads. On messages of at most `bound` bytes the program does
    what the receive function does. -/
structure Receiver (bound : ℕ) where
  masks : ℕ → BitVec 64
  next : ℕ → List UInt8 → Fetch ChannelError PlcMessage
  agrees : ∀ i, AgreeBelow (bound + 1) ((Fetch.read 1 (next i)).onStream .failed)
    (plcontainerChannelReceive (masks i))

/-- The call at its beginning, when it asks for the letter of the message. -/
def Receiver.call {bound : ℕ} (rc : Receiver bound) (i : ℕ) : Fetch ChannelError PlcMessage :=
  .read 1 (rc.next i)

/-! ## Links -/

structure Link where
  output : PlcBuffer
  input : PlcBuffer
  /-- the bytes that `send` took and `recv` has not delivered yet -/
  wire : List UInt8
  /-- the bytes of the last message that the sender has still to append -/
  unsent : List UInt8
  /-- what is left of the receiver's call -/
  running : Fetch ChannelError PlcMessage
  sent : List PlcMessage
  received : List PlcMessage

def Link.start {bound : ℕ} (rc : Receiver bound) : Link :=
  ⟨plcBufferInit, plcBufferInit, [], [], rc.call 0, [], []⟩

/-- The steps of a link, each with what the socket and the allocator answer. -/
inductive LinkStep where
  /-- the sender begins a message -/
  | send (m : PlcMessage)
  /-- the sender appends the next piece of it, of `n` bytes if there are as many -/
  | append (n : ℕ) (alloc : Bool) (sends : List ℕ)
  | flush (sends : List ℕ)
  /-- the receiver makes the read that its call asks for -/
  | read (alloc : Bool) (recvs : List (List UInt8))
  /-- the call of the receiver returns -/
  | deliver

/-- The read that the receiver's call asks for; the socket delivers bytes that were sent, in order. -/
def Link.read (l : Link) (alloc : Bool) (recvs : List (List UInt8)) : Except Fault (Option Link) :=
  match l.running with
  | .read n next => do
      let r ← plcBufferRead alloc recvs l.input n
      pure (r.1.bind fun bytes =>
        if r.2.moved <+: l.wire then
          some { l with
            input := r.2.buf
            wire := l.wire.drop r.2.moved.length
            running := next bytes }
        else none)
  | _ => pure none

/-- One step. There is none where the step is not the next one, or where it fails: an append, a flush
    or a read that returns an error is the end of the link. -/
def Link.step {bound : ℕ} (rc : Receiver bound) (l : Link) : LinkStep → Except Fault (Option Link)
  | .send m =>
      pure (if l.unsent = [] then some { l with unsent := wireBytes m, sent := l.sent ++ [m] } else none)
  | .append n alloc sends => do
      let r ← plcBufferAppend alloc sends l.output (l.unsent.take n)
      pure (if r.ok then
        some { l with output := r.buf, wire := l.wire ++ r.moved, unsent := l.unsent.drop n } else none)
  | .flush sends => do
      let r ← plcBufferFlush sends l.output
      pure (if r.ok then some { l with output := r.buf, wire := l.wire ++ r.moved } else none)
  | .read alloc recvs => l.read alloc recvs
  | .deliver =>
      match l.running with
      | .done m =>
          pure (some { l with
            running := rc.call (l.received.length + 1)
            received := l.received ++ [m] })
      | _ => pure none

/-- The message may be the `i`-th one: it is well formed, the `i`-th call accepts its type, and it has
    at most `bound` bytes. -/
structure Receiver.Admits {bound : ℕ} (rc : Receiver bound) (i : ℕ) (m : PlcMessage) : Prop where
  wellFormed : m.wellFormed = true
  allowed : m.msgtype.allowedBy (rc.masks i) = true
  length_le : (wireBytes m).length ≤ bound

/-- The sender begins only messages that the receiver admits. -/
def Receiver.Proper {bound : ℕ} (rc : Receiver bound) (l : Link) : LinkStep → Prop
  | .send m => rc.Admits l.sent.length m
  | _ => True

def Link.Reachable {bound : ℕ} (rc : Receiver bound) : Link → Prop :=
  ReachableUnder (· = Link.start rc) (fun l i l' => l.step rc i = .ok (some l')) rc.Proper

/-! ## The call of the receiver on one message -/

section Call

variable {bound : ℕ} {rc : Receiver bound}

/-- The call reads exactly the bytes of the message and returns it. -/
theorem Receiver.Admits.call {i : ℕ} {m : PlcMessage} (h : rc.Admits i m) :
    (rc.call i).onStream .failed (wireBytes m) = .ok (m.delivered, []) := by
  obtain ⟨bs, hbs, hreads⟩ := transfers_plcontainerChannelSend m (rc.masks i) h.wellFormed h.allowed
  have hbytes : wireBytes m = bs := by rw [wireBytes, hbs]; rfl
  have hagrees := rc.agrees i (wireBytes m) (Nat.lt_succ_of_le h.length_le)
  have hrun := hreads []
  rw [List.append_nil, ← hbytes] at hrun
  exact hagrees.trans hrun

end Call

/-! ## The invariant -/

/-- The bytes between the receiver and the end of what the sender has begun to send. -/
def Link.underWay (l : Link) : List UInt8 :=
  l.input.content ++ (l.wire ++ (l.output.content ++ l.unsent))

/-- The messages that the receiver has not got yet. -/
def Link.pending (l : Link) : List PlcMessage := l.sent.drop l.received.length

structure Link.Inv {bound : ℕ} (rc : Receiver bound) (l : Link) : Prop where
  input : l.input.Below bound
  output : l.output.Below bound
  unsent_le : l.unsent.length ≤ bound
  admitted : ∀ i m, l.sent[i]? = some m → rc.Admits i m
  count : l.received.length ≤ l.sent.length
  received : l.received = (l.sent.map PlcMessage.delivered).take l.received.length
  /-- the receiver's call was given the beginning of the first message that is pending -/
  progress : ∃ given, Fed (rc.call l.received.length) given l.running ∧
    given <+: (l.pending.head?.map wireBytes).getD [] ∧
    given ++ l.underWay = l.pending.flatMap wireBytes

section Steps

variable {bound : ℕ} {rc : Receiver bound} {l : Link}

theorem Link.inv_start (rc : Receiver bound) : (Link.start rc).Inv rc where
  input := plcBufferInit_below (Int.natCast_nonneg _)
  output := plcBufferInit_below (Int.natCast_nonneg _)
  unsent_le := Nat.zero_le _
  admitted i m h := by simp [Link.start] at h
  count := le_refl _
  received := rfl
  progress := ⟨[], .nil _, List.nil_prefix, rfl⟩

/-- Nothing is pending and the receiver's call is at its beginning, or the call is within the first
    pending message, of which it has still to be given `q`. -/
theorem Link.Inv.state (h : l.Inv rc) :
    ∃ given, Fed (rc.call l.received.length) given l.running ∧
      given ++ l.underWay = l.pending.flatMap wireBytes ∧
      ((l.pending = [] ∧ given = [] ∧ l.underWay = [] ∧ l.running = rc.call l.received.length) ∨
        ∃ m q, l.pending = m :: l.sent.drop (l.received.length + 1) ∧
          l.sent[l.received.length]? = some m ∧ given ++ q = wireBytes m ∧
          l.underWay = q ++ (l.sent.drop (l.received.length + 1)).flatMap wireBytes ∧
          ((l.running = .done m.delivered ∧ q = []) ∨
            ∃ n next, l.running = .read n next ∧ n ≤ q.length)) := by
  obtain ⟨given, hfed, hfirst, hbytes⟩ := h.progress
  refine ⟨given, hfed, hbytes, ?_⟩
  cases hget : l.sent[l.received.length]? with
  | none =>
      have hp : l.pending = [] := List.drop_eq_nil_iff.2 (List.getElem?_eq_none_iff.1 hget)
      rw [hp] at hbytes
      obtain ⟨rfl, hnone⟩ := List.append_eq_nil_iff.1 hbytes
      exact .inl ⟨hp, rfl, hnone, hfed.eq_of_nil (n := 0) rfl⟩
  | some m =>
      have hp : l.pending = m :: l.sent.drop (l.received.length + 1) := by
        rw [Link.pending, List.drop_eq_getElem?_toList_append, hget]
        rfl
      rw [hp] at hfirst hbytes
      obtain ⟨q, hq⟩ := hfirst
      have hq' : given ++ q = wireBytes m := hq
      rw [List.flatMap_cons, ← hq', List.append_assoc] at hbytes
      refine .inr ⟨m, q, hp, rfl, hq', List.append_cancel_left hbytes, ?_⟩
      exact hfed.rest (hq' ▸ (h.admitted _ _ hget).call)

/-- The bytes that the receiver's call asks for are no more than a message has. -/
theorem Link.Inv.ask_le (h : l.Inv rc) (hpos : 0 < bound) {n : ℕ}
    {next : List UInt8 → Fetch ChannelError PlcMessage} (hrun : l.running = .read n next) :
    n ≤ bound := by
  obtain ⟨given, _, _, hstate⟩ := h.state
  rw [hrun] at hstate
  rcases hstate with ⟨_, _, _, hcall⟩ | ⟨m, q, _, hget, hq, _, hdone | ⟨_, _, hread, hle⟩⟩
  · cases hcall
    exact hpos
  · cases hdone.1
  · cases hread
    have hlen := (h.admitted _ _ hget).length_le
    rw [← hq, List.length_append] at hlen
    omega

/-- A step of the sender that moves bytes towards the receiver changes nothing else. -/
theorem Link.Inv.move (h : l.Inv rc) {output : PlcBuffer} {wire unsent : List UInt8}
    (hout : output.Below bound) (hunsent : unsent.length ≤ bound)
    (hbytes : wire ++ (output.content ++ unsent) = l.wire ++ (l.output.content ++ l.unsent)) :
    Link.Inv rc { l with output := output, wire := wire, unsent := unsent } where
  input := h.input
  output := hout
  unsent_le := hunsent
  admitted := h.admitted
  count := h.count
  received := h.received
  progress := by
    obtain ⟨given, hfed, hfirst, hrest⟩ := h.progress
    refine ⟨given, hfed, hfirst, ?_⟩
    show given ++ (l.input.content ++ (wire ++ (output.content ++ unsent))) = _
    rw [hbytes]
    exact hrest

theorem Link.Inv.send (h : l.Inv rc) {m : PlcMessage} (hm : rc.Admits l.sent.length m)
    (hdone : l.unsent = []) :
    Link.Inv rc { l with unsent := wireBytes m, sent := l.sent ++ [m] } where
  input := h.input
  output := h.output
  unsent_le := hm.length_le
  admitted i m' hi := by
    rw [List.getElem?_append] at hi
    split at hi
    · exact h.admitted i m' hi
    · rw [List.getElem?_singleton] at hi
      obtain ⟨hzero, ⟨⟩⟩ := Option.ite_none_right_eq_some.1 hi
      rwa [show i = l.sent.length by omega]
  count := by
    show l.received.length ≤ (l.sent ++ [m]).length
    have := h.count
    rw [List.length_append]
    omega
  received := by
    have hcount := h.count
    rw [List.map_append, List.take_append_of_le_length (by simpa using hcount)]
    exact h.received
  progress := by
    obtain ⟨given, hfed, hfirst, hrest⟩ := h.progress
    have hpending : (l.sent ++ [m]).drop l.received.length = l.pending ++ [m] :=
      List.drop_append_of_le_length h.count
    refine ⟨given, hfed, ?_, ?_⟩
    · show given <+: (((l.sent ++ [m]).drop l.received.length).head?.map wireBytes).getD []
      rw [hpending]
      cases hp : l.pending with
      | nil =>
          rw [hp] at hfirst
          rw [List.prefix_nil.1 hfirst]
          exact List.nil_prefix
      | cons m' ms =>
          rw [hp] at hfirst
          exact hfirst
    · show given ++ (l.input.content ++ (l.wire ++ (l.output.content ++ wireBytes m)))
        = ((l.sent ++ [m]).drop l.received.length).flatMap wireBytes
      rw [hpending, List.flatMap_append, ← hrest, Link.underWay, hdone]
      simp

/-- A read commits no fault, and the bytes that it returns are the next ones of the message that the
    call is for. -/
theorem Link.Inv.read (h : l.Inv rc) (hm : Modest bound) (hpos : 0 < bound) (alloc : Bool)
    (recvs : List (List UInt8)) :
    ∃ next, l.read alloc recvs = .ok next ∧ ∀ l' ∈ next, l'.Inv rc := by
  unfold Link.read
  cases hrun : l.running with
  | done m => exact ⟨none, rfl, nofun⟩
  | fail e => exact ⟨none, rfl, nofun⟩
  | read n next =>
      have hn : (n : ℤ) ≤ bound := Int.ofNat_le.2 (h.ask_le hpos hrun)
      obtain ⟨res, r, hread, hbelow, hqueue, hlen⟩ := h.input.read hm hn alloc recvs
      dsimp only
      rw [hread, ok_bind]
      refine ⟨_, rfl, fun l' hl' => ?_⟩
      obtain ⟨bytes, rfl, hl'⟩ := Option.bind_eq_some_iff.1 hl'
      obtain ⟨⟨behind, hbehind⟩, ⟨⟩⟩ := Option.ite_none_right_eq_some.1 hl'
      have hdrop : l.wire.drop r.moved.length = behind := by rw [← hbehind, List.drop_left]
      have hcount := hlen bytes rfl
      rw [Option.getD_some] at hqueue
      have hunder : l.underWay
          = bytes ++ (r.buf.content ++ (behind ++ (l.output.content ++ l.unsent))) := by
        rw [Link.underWay, ← hbehind, ← List.append_assoc bytes, hqueue]
        simp
      obtain ⟨given, hfed, hrest, hstate⟩ := h.state
      rw [hrun] at hfed hstate
      refine ⟨hbelow, h.output, h.unsent_le, h.admitted, h.count, h.received,
        given ++ bytes, hfed.read hcount rfl, ?_, ?_⟩
      · show given ++ bytes <+: (l.pending.head?.map wireBytes).getD []
        rcases hstate with ⟨_, rfl, hnone, _⟩ | ⟨m, q, hp, _, hq, hpart, hdone | ⟨_, _, hnext, hle⟩⟩
        · -- nothing is under way, so no byte can have been read
          rw [hunder] at hnone
          rw [(List.append_eq_nil_iff.1 hnone).1]
          exact List.nil_prefix
        · cases hdone.1
        · cases hnext
          have htake : bytes = q.take n := by
            have heq := congrArg (List.take n) (hunder.symm.trans hpart)
            rwa [List.take_left' hcount, List.take_append_of_le_length hle] at heq
          rw [hp]
          show given ++ bytes <+: wireBytes m
          rw [htake, ← hq]
          exact (List.prefix_append_right_inj _).2 (List.take_prefix _ _)
      · show given ++ bytes ++ (r.buf.content ++ (l.wire.drop r.moved.length ++ _)) = _
        rw [hdrop, List.append_assoc, ← hunder]
        exact hrest

/-- The call returns the first pending message, having read all of it. -/
theorem Link.Inv.deliver (h : l.Inv rc) {m : PlcMessage} (hrun : l.running = .done m) :
    Link.Inv rc { l with
      running := rc.call (l.received.length + 1)
      received := l.received ++ [m] } := by
  obtain ⟨given, _, _, hstate⟩ := h.state
  rw [hrun] at hstate
  rcases hstate with ⟨_, _, _, hcall⟩ | ⟨m', q, hp, hget, hq, hpart, ⟨hdone, rfl⟩ | ⟨_, _, hread, _⟩⟩
  · cases hcall
  · cases hdone
    have hlen : (l.received ++ [m'.delivered]).length = l.received.length + 1 := by simp
    refine ⟨h.input, h.output, h.unsent_le, h.admitted, ?_, ?_, [], ?_, List.nil_prefix, ?_⟩
    · obtain ⟨hlt, _⟩ := List.getElem?_eq_some_iff.1 hget
      exact hlen.le.trans hlt
    · rw [hlen, List.take_add_one, ← h.received, List.getElem?_map, hget]
      rfl
    · rw [hlen]
      exact .nil _
    · show [] ++ l.underWay = (l.sent.drop (l.received ++ [m'.delivered]).length).flatMap wireBytes
      rw [hlen, hpart]
      rfl
  · cases hread

/-- No step commits a fault, and every step keeps the invariant. -/
theorem Link.Inv.step (h : l.Inv rc) (hm : Modest bound) (hpos : 0 < bound) (i : LinkStep) :
    ∃ next, l.step rc i = .ok next ∧ ∀ l' ∈ next, rc.Proper l i → l'.Inv rc := by
  cases i with
  | send m =>
      refine ⟨_, rfl, fun l' hl' hproper => ?_⟩
      obtain ⟨hdone, ⟨⟩⟩ := Option.ite_none_right_eq_some.1 hl'
      exact h.send hproper hdone
  | append n alloc sends =>
      have hunsent := h.unsent_le
      have hlen : ((l.unsent.take n).length : ℤ) ≤ bound := by
        rw [List.length_take]
        omega
      obtain ⟨r, hr, hbelow, hqueue⟩ := h.output.append hm hlen alloc sends
      refine ⟨_, by rw [Link.step, hr]; rfl, fun l' hl' _ => ?_⟩
      obtain ⟨hok, ⟨⟩⟩ := Option.ite_none_right_eq_some.1 hl'
      rw [if_pos hok] at hqueue
      refine h.move hbelow ?_ ?_
      · rw [List.length_drop]
        omega
      · rw [List.append_assoc, ← List.append_assoc r.moved, hqueue, List.append_assoc,
          List.take_append_drop]
  | flush sends =>
      obtain ⟨r, hr, hbelow, hqueue⟩ := h.output.flush sends
      refine ⟨_, by rw [Link.step, hr]; rfl, fun l' hl' _ => ?_⟩
      obtain ⟨_, ⟨⟩⟩ := Option.ite_none_right_eq_some.1 hl'
      refine h.move hbelow h.unsent_le ?_
      rw [List.append_assoc, ← List.append_assoc r.moved, hqueue]
  | read alloc recvs =>
      obtain ⟨next, hnext, hinv⟩ := h.read hm hpos alloc recvs
      exact ⟨next, hnext, fun l' hl' _ => hinv l' hl'⟩
  | deliver =>
      rw [Link.step]
      cases hrun : l.running with
      | done m =>
          refine ⟨_, rfl, ?_⟩
          rintro _ ⟨⟩ _
          exact h.deliver hrun
      | fail e => exact ⟨none, rfl, nofun⟩
      | read n next => exact ⟨none, rfl, nofun⟩

theorem Link.inv_of_reachable (hm : Modest bound) (hpos : 0 < bound) (h : Link.Reachable rc l) :
    l.Inv rc := by
  refine ReachableUnder.invariant ?_ ?_ h
  · rintro l rfl
    exact Link.inv_start rc
  · intro l i l' hinv hproper hstep
    obtain ⟨next, hnext, hkeep⟩ := hinv.step hm hpos i
    cases hnext.symm.trans hstep
    exact hkeep l' rfl hproper

/-- A receiver that waits for a message while nothing is under way has got all of them. -/
theorem Link.Inv.all_received (h : l.Inv rc) (hwaits : l.running = rc.call l.received.length)
    (hnone : l.underWay = []) : l.received = l.sent.map PlcMessage.delivered := by
  obtain ⟨given, _, _, hstate⟩ := h.state
  rw [hwaits] at hstate
  rcases hstate with ⟨hp, _⟩ | ⟨m, q, _, _, _, hpart, hdone | ⟨n, next, hread, hle⟩⟩
  · have hlen : l.sent.length ≤ l.received.length := List.drop_eq_nil_iff.1 hp
    conv_lhs => rw [h.received]
    exact List.take_of_length_le (by simpa using hlen)
  · cases hdone.1
  · -- nothing is left of the message, but the call waits for its first byte
    rw [hnone] at hpart
    obtain ⟨rfl, _⟩ := List.append_eq_nil_iff.1 hpart.symm
    cases hread
    cases hle

end Steps

end PlContainer
