import PlContainer.Common.Channel.RoundTrip
import PlContainer.Library.Fetch

set_option autoImplicit false

/-! # The receive functions ask for their input piece by piece

`Receive.lean` gives each receive function the whole stream. In `comm_channel.c` they only have
`plcBufferRead`, which they ask for a number of bytes again and again. Here every receive function is
shown to be a program that reads in that way; on inputs of bounded length also `receive_type`, whose
recursion the input alone bounds. -/

namespace PlContainer

open ByteStream

/-- The reader is a program of reads, on inputs shorter than `n`. -/
abbrev Pieced {α : Type} (n : ℕ) (p : Receive α) : Prop := Fetched ChannelError.failed n p

namespace Pieced

variable {n : ℕ}

theorem bits (w k : ℕ) : Pieced n (receiveBits w k) :=
  (Fetched.readBytes k).bind fun _ => .pure _

theorem int32 : Pieced n receiveInt32 := bits 32 4

theorem char : Pieced n receiveChar :=
  (Fetched.readBytes 1).bind fun _ => .pure _

theorem malloc (size : ℤ) : Pieced n (pmalloc size) := by
  unfold pmalloc
  split
  · exact .pure ()
  · exact .throw _

theorem cstring : Pieced n receiveCstring := by
  refine int32.bind fun cnt => ?_
  split
  · exact .pure none
  · split
    · exact .throw _
    · exact (malloc _).bind fun _ => (Fetched.readBytes _).bind fun s => .pure (some s)

theorem bytea : Pieced n receiveBytea :=
  int32.bind fun _ => (malloc _).bind fun _ =>
    (Fetched.readBytes _).bind fun _ => .pure _

theorem flat (type : PlcDatatype) : Pieced n (receiveFlat type) := by
  cases type with
  | int1 => exact char.bind fun _ => .pure _
  | int2 | int4 | int8 | float4 | float8 => exact (bits _ _).bind fun _ => .pure _
  | text => exact cstring.bind fun _ => .pure _
  | bytea => exact bytea.bind fun _ => .pure _
  | _ => exact .throw _

theorem array (elemType : PlcDatatype) {receiveElem : Receive RawData}
    (h : Pieced n receiveElem) :
    Pieced n (receiveArray elemType receiveElem) := by
  refine int32.bind fun ndims =>
    (int32.readN _).bind fun dims => ?_
  dsimp only
  generalize (if 0 < ndims.toInt then dims.foldl (· * ·) 1 else 0) = size
  split
  · split
    · exact .throw _
    · exact (malloc _).bind fun _ => (malloc _).bind fun _ =>
        (h.readN _).bind fun _ => .pure _
  · exact .pure _

theorem udt {ts : List PlcType}
    (h : ∀ t ∈ ts, Pieced n (receiveRawObject t)) (k : ℕ) :
    Pieced n (receiveUdt k ts) := by
  induction ts generalizing k with
  | nil =>
      cases k with
      | zero => exact .pure []
      | succ k => exact .throw _
  | cons t ts ih =>
      rw [List.forall_mem_cons] at h
      cases k with
      | zero => exact .pure []
      | succ k =>
          rw [receiveUdt]
          exact h.1.bind fun _ => (ih h.2 k).bind fun _ => .pure _

theorem rawObject (t : PlcType) : Pieced n (receiveRawObject t) ∧
      Pieced n (receiveArrayElement t) := by
  -- both readers at once: an array reads elements of its element type, a row reads whole objects
  induction t using PlcType.induct with
  | mk type typeName k subTypes ih =>
      have hudt := udt (fun t ht => (ih t ht).1) k.toInt.toNat
      constructor
      · unfold receiveRawObject
        refine char.bind fun isn => ?_
        split
        · exact .pure _
        · cases type with
          | array =>
              cases subTypes with
              | nil => exact .throw _
              | cons elemType _ =>
                  exact (array _ (ih elemType (List.mem_cons_self ..)).2).bind
                    fun _ => .pure _
          | udt => exact (malloc _).bind fun _ => hudt.bind fun _ => .pure _
          | _ => exact (flat _).bind fun _ => .pure _
      · unfold receiveArrayElement
        refine char.bind fun isnull => ?_
        split
        · exact .pure _
        · cases type with
          | array => exact .throw _
          | udt => exact (malloc _).bind fun _ => hudt.bind fun _ => .pure _
          | _ => exact (flat _).bind fun _ => .pure _

/-! ## Types -/

theorem typeAux (fuel : ℕ) : Pieced n (receiveTypeAux fuel) := by
  induction fuel with
  | zero => exact .throw _
  | succ fuel ih =>
      rw [receiveTypeAux]
      refine char.bind fun typ => cstring.bind fun typeName => ?_
      dsimp only
      split
      · exact (bits 16 2).bind fun _ => (ih.readN _).bind fun _ => .pure _
      · exact .pure _

/-- With enough fuel for the input, more of it changes nothing. -/
theorem agreeBelow_receiveTypeAux {fuel fuel' : ℕ} (h : n ≤ fuel) (h' : n ≤ fuel') :
    AgreeBelow n (receiveTypeAux fuel) (receiveTypeAux fuel') := by
  induction n generalizing fuel fuel' with
  | zero => exact fun s hs => absurd hs (Nat.not_lt_zero _)
  | succ n ih =>
      obtain ⟨fuel, rfl⟩ : ∃ k, fuel = k + 1 := ⟨fuel - 1, by omega⟩
      obtain ⟨fuel', rfl⟩ : ∃ k, fuel' = k + 1 := ⟨fuel' - 1, by omega⟩
      rw [receiveTypeAux, receiveTypeAux, receiveChar, bind_assoc, bind_assoc]
      -- the type code is gone when the subtypes are read, so the induction reaches them
      refine AgreeBelow.step fun bs => ?_
      rw [pure_bind, pure_bind]
      refine AgreeBelow.bind (fun _ _ => rfl) (safeBelow_receiveCstring n) fun typeName => ?_
      dsimp only
      split
      · refine AgreeBelow.bind (fun _ _ => rfl) (safeBelow_receiveBits n 16 2) fun k => ?_
        have hsafe : SafeBelow ChannelError.outOfFuel n (receiveTypeAux fuel') :=
          fun s hs => safeBelow_receiveTypeAux fuel' s (by omega)
        exact ((ih (by omega) (by omega)).readN hsafe _).bind (hsafe.readN _) fun _ _ _ => rfl
      · exact fun _ _ => rfl

theorem plcType : Pieced n receiveType :=
  (typeAux n).congr fun s hs =>
    agreeBelow_receiveTypeAux (n := s.length + 1) (by omega) (le_refl _) s (Nat.lt_succ_self _)

/-! ## Messages -/

theorem arguments (nargs : BitVec 32) : Pieced n (receiveArguments nargs) := by
  have harg : Pieced n receiveArgument :=
    cstring.bind fun _ => plcType.bind fun type =>
      (rawObject type).1.bind fun _ => .pure _
  unfold receiveArguments
  split
  · exact .throw _
  · exact harg.readN _

theorem exception : Pieced n receiveException :=
  cstring.bind fun _ => cstring.bind fun _ => .pure _

theorem row (types : List PlcType) : Pieced n (receiveRow types) := by
  induction types with
  | nil => exact .pure []
  | cons t ts ih => exact (rawObject t).1.bind fun _ => ih.bind fun _ => .pure _

theorem result : Pieced n receiveResult := by
  have hcolumn : Pieced n receiveColumn :=
    plcType.bind fun _ => cstring.bind fun _ => .pure _
  refine int32.bind fun rows => int32.bind fun cols =>
    (hcolumn.readN _).bind fun columns => ?_
  have hrows : Pieced n
      (receiveRows rows.toNat cols.toNat (columns.map Prod.fst)) := by
    unfold receiveRows
    split
    · exact (row _).readN _
    · exact .pure []
  refine hrows.bind fun data => char.bind fun exc => ?_
  split
  · exact exception.bind fun _ => .pure _
  · exact .pure _

theorem sql : Pieced n receiveSql := by
  refine int32.bind fun sqlType => ?_
  split
  · exact (bits 64 8).bind fun _ => cstring.bind fun _ => .pure _
  split
  · exact int32.bind fun nargs => (arguments nargs).bind fun _ =>
      cstring.bind fun _ => .pure _
  split
  · exact (bits 64 8).bind fun _ => .pure _
  split
  · exact int32.bind fun nargs => (arguments nargs).bind fun _ =>
      (bits 64 8).bind fun _ => (bits 64 8).bind fun _ => .pure _
  · exact .throw _

theorem call : Pieced n receiveCall :=
  cstring.bind fun _ => cstring.bind fun _ =>
    cstring.bind fun _ => int32.bind fun _ =>
      int32.bind fun _ => int32.bind fun _ =>
        plcType.bind fun _ => int32.bind fun _ =>
          int32.bind fun nargs => (arguments nargs).bind fun _ =>
            .pure _

theorem ping : Pieced n receivePing := by
  refine cstring.bind fun version => ?_
  split
  · exact .pure ()
  · exact .throw _

theorem rawmsg : Pieced n receiveRawmsg := by
  refine int32.bind fun size => ?_
  split
  · exact .throw _
  · exact (Fetched.readBytes _).bind fun _ => .pure _

theorem body (t : MsgType) : Pieced n (receiveBody t) := by
  have htexts : ∀ {α : Type} (f : BitVec 32 → Option CString → α), Pieced n
      (do let i ← receiveInt32; let s ← receiveCstring; pure (f i s)) := fun f =>
    int32.bind fun _ => cstring.bind fun _ => .pure _
  cases t with
  | ping => exact ping.bind fun _ => .pure _
  | callreq => exact call.bind fun _ => .pure _
  | result => exact result
  | exception => exact exception.bind fun _ => .pure _
  | log => exact (htexts PlcMsgLog.mk).bind fun _ => .pure _
  | quote => exact (htexts PlcMsgQuote.mk).bind fun _ => .pure _
  | quoteResult => exact (htexts PlcMsgQuoteResult.mk).bind fun _ => .pure _
  | sql => exact sql.bind fun _ => .pure _
  | raw => exact rawmsg.bind fun _ => .pure _
  | subtransaction =>
      exact (char.bind fun _ => char.bind fun _ => .pure _).bind
        fun _ => .pure _
  | subtranResult => exact ((bits 16 2).bind fun _ => .pure _).bind fun _ => .pure _

end Pieced

/-- **`plcontainer_channel_receive` is a program of reads**: it asks for the letter of the message, and
    then for one piece after the other, and on every stream below the bound it does what the reader
    of `Receive.lean` does. -/
theorem exists_receiveProgram (mask : BitVec 64) (n : ℕ) :
    ∃ next, AgreeBelow n ((Fetch.read 1 next).onStream ChannelError.failed)
      (plcontainerChannelReceive mask) := by
  unfold plcontainerChannelReceive receiveChar
  simp only [bind_assoc, pure_bind]
  refine Fetched.begins fun bs => ?_
  split
  · exact .throw _
  · split
    · exact Pieced.body _
    · exact .throw _

end PlContainer
