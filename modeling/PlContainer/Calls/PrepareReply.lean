import PlContainer.Clients.Python
import PlContainer.Clients.R
import PlContainer.Common.Channel.RoundTrip
import PlContainer.Library.Block
import PlContainer.Library.Checked

set_option autoImplicit false

/-! # The answer to PREPARE

The backend answers a PREPARE with a RAW message whose payload it packs by hand: whether there is a
plan, its handle, the number of arguments and the type of each. Both clients take the payload apart by
hand again. The payload is a block of bytes here, and a read outside it is an error of its own. -/

namespace PlContainer

open Block ByteStream Checked

/-! ## The backend -/

/-- `MaxAllocSize`: `palloc` raises an error for more. -/
def maxAllocSize : ℕ := 2 ^ 30 - 1

inductive PackFailure where
  /-- the error of `palloc` -/
  | allocSize (size : ℤ)
  | writeOutside
deriving DecidableEq, Repr

/-- A `plcDatatype` in memory: an `int`. -/
def PlcDatatype.bytes (t : PlcDatatype) : List UInt8 := leBytes 4 t.code.toNat

/-- What `create_prepare_result` stores. -/
def preparePayload (planValid : Bool) (pplan : BitVec 64) (types : List PlcDatatype) : List UInt8 :=
  leBytes 4 planValid.toNat ++ (leBytes 8 pplan.toNat ++
    (leBytes 4 (BitVec.ofNat 32 types.length).toNat ++ types.flatMap PlcDatatype.bytes))

/-- `create_prepare_result`; the size of the payload is an `int`. -/
def createPrepareResult (planValid : Bool) (pplan : BitVec 64) (types : List PlcDatatype) :
    Except PackFailure PlcMsgRaw :=
  let size : BitVec 32 := BitVec.ofNat 32 (4 + 8 + 4 + types.length * 4)
  if size.toInt < 0 ∨ maxAllocSize < size.toInt then throw (.allocSize size.toInt)
  else if size.toInt < (preparePayload planValid pplan types).length then throw .writeOutside
  else pure ⟨size, preparePayload planValid pplan types⟩

/-- The end of `SQL_TYPE_PREPARE` in `handle_sql_message`: `argTypes` has been allocated before. -/
def prepareReply (planValid : Bool) (pplan : BitVec 64) (types : List PlcDatatype) :
    Except PackFailure PlcMsgRaw :=
  if maxAllocSize < types.length * 4 then throw (.allocSize (types.length * 4))
  else createPrepareResult planValid pplan types

/-! ## The clients -/

/-- The fields that both clients keep of a plan. -/
structure PreparedPlan where
  pplan : BitVec 64
  nargs : BitVec 32
  argtypes : List PlcDatatype
deriving DecidableEq, Repr

inductive UnpackFailure where
  /-- `raise_execution_error` with this text -/
  | raised (text : String)
  | readOutside
deriving DecidableEq, Repr

/-- The number of `n` bytes at an offset of the payload. -/
def loadNumber (data : List UInt8) (off n : ℕ) : Except UnpackFailure ℕ :=
  if off + n ≤ data.length then pure (ofLeBytes (slice data off n)) else throw .readOutside

/-- The types in a block. -/
def datatypesOf : ℕ → List UInt8 → List PlcDatatype
  | 0, _ => []
  | n + 1, bs => .ofCode (UInt8.ofNat (ofLeBytes (bs.take 4))) :: datatypesOf n (bs.drop 4)

/-- The `memcpy` of the types. -/
def loadDatatypes (data : List UInt8) (off n : ℕ) : Except UnpackFailure (List PlcDatatype) :=
  if off + 4 * n ≤ data.length then pure (datatypesOf n (slice data off (4 * n)))
  else throw .readOutside

/-- What both clients do with the payload, after they have asked for `nargs` arguments. They differ
    in one word of a text. -/
def unpackPrepareResult (calculated : String) (nargs : BitVec 32) (msg : PlcMsgRaw) :
    Except UnpackFailure PreparedPlan := do
  let isPlanValid ← loadNumber msg.data 0 4
  if isPlanValid = 0 then throw (.raised "plpy.prepare failed. See backend for details.")
  else
    let pplan ← loadNumber msg.data 4 8
    let returned ← loadNumber msg.data 12 4
    if BitVec.ofNat 32 returned ≠ nargs then
      throw (.raised ("plpy.prepare: bad argument number: "
        ++ toString (BitVec.ofNat 32 returned).toInt ++ " (returned) vs " ++ toString nargs.toInt
        ++ " (expected)."))
    else if 0 < nargs.toInt then
      -- `offset + (signed int) sizeof(plcDatatype) * nargs`
      let length : BitVec 32 := 16 + 4 * nargs
      if length ≠ msg.size then
        throw (.raised ("Client format error for spi prepare. " ++ calculated ++ " length ("
          ++ toString length.toInt ++ ") vs transferred length (" ++ toString msg.size.toInt ++ ")"))
      else
        let argtypes ← loadDatatypes msg.data 16 nargs.toInt.toNat
        pure ⟨BitVec.ofNat 64 pplan, BitVec.ofNat 32 returned, argtypes⟩
    else pure ⟨BitVec.ofNat 64 pplan, BitVec.ofNat 32 returned, []⟩

/-- The end of `PLy_spi_prepare`, from the answer on: the plan object or `NULL`, and the state. -/
def plySpiPrepare (s : PyState) (nargs : BitVec 32) (msg : PlcMsgRaw) :
    Except UnpackFailure (Option PreparedPlan × PyState) :=
  match unpackPrepareResult "Calculated" nargs msg with
  | .ok plan => pure (some plan, s)
  | .error (.raised _) => pure (none, s.raiseExecutionError)
  | .error .readOutside => throw .readOutside

/-- The end of `plr_SPI_prepare`. -/
def plrSpiPrepare (aborts : Bool) (s : RState) (nargs : BitVec 32) (msg : PlcMsgRaw) :
    Except UnpackFailure (Option PreparedPlan × RState) :=
  match unpackPrepareResult "calculated" nargs msg with
  | .ok plan => pure (some plan, s)
  | .error (.raised _) => pure (none, s.raiseExecutionError aborts)
  | .error .readOutside => throw .readOutside

/-! ## What is packed is unpacked -/

section Codec

variable {planValid : Bool} {pplan : BitVec 64} {types : List PlcDatatype} {msg : PlcMsgRaw}

theorem length_flatMap_bytes (types : List PlcDatatype) :
    (types.flatMap PlcDatatype.bytes).length = 4 * types.length := by
  induction types with
  | nil => rfl
  | cons t types ih =>
      rw [List.flatMap_cons, List.length_append, ih, PlcDatatype.bytes, leBytes_length,
        List.length_cons]
      omega

theorem datatypesOf_bytes (h : ∀ t ∈ types, t.canonical = true) :
    datatypesOf types.length (types.flatMap PlcDatatype.bytes) = types := by
  induction types with
  | nil => rfl
  | cons t types ih =>
      obtain ⟨ht, htypes⟩ := List.forall_mem_cons.1 h
      have hlen : t.bytes.length = 4 := leBytes_length 4 _
      rw [List.flatMap_cons, List.length_cons, datatypesOf, List.take_left' hlen,
        List.drop_left' hlen, ih htypes, PlcDatatype.bytes, ofLeBytes_leBytes]
      have hcode : t.code.toNat % 256 ^ 4 = t.code.toNat := by
        have := t.code.toNat_lt
        omega
      rw [hcode, UInt8.ofNat_toNat, PlcDatatype.ofCode_code t ht]

theorem length_preparePayload :
    (preparePayload planValid pplan types).length = 16 + 4 * types.length := by
  simp only [preparePayload, List.length_append, leBytes_length, length_flatMap_bytes]
  omega

/-- A reply is packed unless it is too long for `palloc`. -/
theorem prepareReply_of_le (planValid : Bool) (pplan : BitVec 64)
    (h : 16 + 4 * types.length ≤ maxAllocSize) :
    prepareReply planValid pplan types =
      .ok ⟨BitVec.ofNat 32 (16 + 4 * types.length), preparePayload planValid pplan types⟩ := by
  have hlt : 16 + 4 * types.length < 2 ^ 31 := by
    unfold maxAllocSize at h
    omega
  have hsum : 4 + 8 + 4 + types.length * 4 = 16 + 4 * types.length := by omega
  rw [prepareReply, if_neg (by omega), createPrepareResult, hsum, toInt_ofNat32 hlt,
    length_preparePayload, if_neg (by omega), if_neg (by omega)]
  rfl

theorem prepareReply_of_gt (h : maxAllocSize < 16 + 4 * types.length) :
    ∃ size, prepareReply planValid pplan types = .error (.allocSize size) := by
  unfold prepareReply
  split
  · exact ⟨_, rfl⟩
  next hargs =>
    have hlt : 16 + 4 * types.length < 2 ^ 31 := by
      unfold maxAllocSize at hargs
      omega
    have hsum : 4 + 8 + 4 + types.length * 4 = 16 + 4 * types.length := by omega
    rw [createPrepareResult, hsum, toInt_ofNat32 hlt, if_pos (by omega)]
    exact ⟨_, rfl⟩

/-- A reply that is packed has all its data, and room for it. -/
theorem prepareReply_eq_ok (h : prepareReply planValid pplan types = .ok msg) :
    16 + 4 * types.length ≤ maxAllocSize ∧
      msg = ⟨BitVec.ofNat 32 (16 + 4 * types.length), preparePayload planValid pplan types⟩ := by
  by_cases hsize : 16 + 4 * types.length ≤ maxAllocSize
  · rw [prepareReply_of_le planValid pplan hsize] at h
    exact ⟨hsize, (Except.ok.inj h).symm⟩
  · obtain ⟨size, herr⟩ := prepareReply_of_gt (Nat.not_le.1 hsize)
    rw [herr] at h
    cases h

/-- A number that stands in a payload is read back. -/
theorem loadNumber_append {k n off : ℕ} (before behind : List UInt8) (hoff : before.length = off)
    (hn : n < 256 ^ k) : loadNumber (before ++ (leBytes k n ++ behind)) off k = .ok n := by
  have hslice := slice_append_middle before (leBytes k n) behind
  rw [hoff, leBytes_length] at hslice
  rw [loadNumber, if_pos, hslice, ofLeBytes_leBytes, Nat.mod_eq_of_lt hn]
  · rfl
  · simp only [List.length_append, leBytes_length]
    omega

theorem loadNumber_planValid :
    loadNumber (preparePayload planValid pplan types) 0 4 = .ok planValid.toNat :=
  loadNumber_append [] _ rfl (lt_of_le_of_lt (Bool.toNat_le planValid) (by decide))

theorem loadNumber_pplan :
    loadNumber (preparePayload planValid pplan types) 4 8 = .ok pplan.toNat :=
  loadNumber_append _ _ (leBytes_length _ _) pplan.isLt

theorem loadNumber_nargs :
    loadNumber (preparePayload planValid pplan types) 12 4 =
      .ok (BitVec.ofNat 32 types.length).toNat := by
  have hlen : (leBytes 4 planValid.toNat ++ leBytes 8 pplan.toNat).length = 12 := by
    rw [List.length_append, leBytes_length, leBytes_length]
  have h := loadNumber_append (k := 4) _ (types.flatMap PlcDatatype.bytes) hlen
    (BitVec.ofNat 32 types.length).isLt
  rwa [List.append_assoc] at h

theorem loadDatatypes_preparePayload (h : ∀ t ∈ types, t.canonical = true) :
    loadDatatypes (preparePayload planValid pplan types) 16 types.length = .ok types := by
  have hslice := slice_append_middle (leBytes 4 planValid.toNat ++ (leBytes 8 pplan.toNat ++
    leBytes 4 (BitVec.ofNat 32 types.length).toNat)) (types.flatMap PlcDatatype.bytes) []
  rw [List.append_nil, length_flatMap_bytes] at hslice
  simp only [List.length_append, leBytes_length, List.append_assoc] at hslice
  rw [loadDatatypes, if_pos (by rw [length_preparePayload])]
  rw [preparePayload, hslice, datatypesOf_bytes h]
  rfl

/-- A valid plan with as many arguments as were asked for. -/
theorem unpackPrepareResult_plan (calculated : String) (hreply : prepareReply true pplan types = .ok msg)
    (htypes : ∀ t ∈ types, t.canonical = true) :
    unpackPrepareResult calculated (BitVec.ofNat 32 types.length) msg =
      .ok ⟨pplan, BitVec.ofNat 32 types.length, types⟩ := by
  obtain ⟨hsize, rfl⟩ := prepareReply_eq_ok hreply
  have hlt : types.length < 2 ^ 28 := by
    unfold maxAllocSize at hsize
    omega
  have hnargs : (BitVec.ofNat 32 types.length).toInt = types.length := toInt_ofNat32 (by omega)
  have hlength : (16 : BitVec 32) + 4 * BitVec.ofNat 32 types.length =
      BitVec.ofNat 32 (16 + 4 * types.length) := by
    rw [BitVec.ofNat_add, BitVec.ofNat_mul]
    rfl
  rw [unpackPrepareResult, loadNumber_planValid, ok_bind, if_neg (by simp), loadNumber_pplan, ok_bind,
    loadNumber_nargs, ok_bind, BitVec.ofNat_toNat, BitVec.setWidth_eq, BitVec.ofNat_toNat,
    BitVec.setWidth_eq, if_neg (not_not.2 rfl), hnargs]
  by_cases hzero : types.length = 0
  · rw [if_neg (by omega), List.length_eq_zero_iff.1 hzero]
    rfl
  · rw [if_pos (by omega)]
    dsimp only
    rw [if_neg (not_not.2 hlength), Int.toNat_natCast, loadDatatypes_preparePayload htypes]
    rfl

/-- Without a plan, or with another number of arguments, an error is raised. -/
theorem unpackPrepareResult_refused (calculated : String) {nargs : BitVec 32}
    (hreply : prepareReply planValid pplan types = .ok msg)
    (h : planValid = false ∨ nargs ≠ BitVec.ofNat 32 types.length) :
    ∃ text, unpackPrepareResult calculated nargs msg = .error (.raised text) := by
  obtain ⟨-, rfl⟩ := prepareReply_eq_ok hreply
  rw [unpackPrepareResult, loadNumber_planValid, ok_bind]
  rcases planValid with _ | _
  · exact ⟨_, rfl⟩
  · have hne : nargs ≠ BitVec.ofNat 32 types.length := by simpa using h
    rw [if_neg (by simp), loadNumber_pplan, ok_bind, loadNumber_nargs, ok_bind, BitVec.ofNat_toNat,
      BitVec.setWidth_eq, if_pos (Ne.symm hne)]
    exact ⟨_, rfl⟩

end Codec

/-! ## Both clients -/

/-- An error of the Python client has been sent, or waits to be sent with the result. -/
def PyState.hasReported (s : PyState) : Bool := s.terminated || s.delayed

theorem PyState.hasReported_raiseExecutionError (s : PyState) :
    s.raiseExecutionError.hasReported = true := by
  unfold raiseExecutionError
  generalize s.raiseDelayedError = s
  unfold reportError
  split
  next h =>
    unfold raiseDelayedError hasReported
    split
    · rfl
    · exact Bool.or_true _
  next h =>
    rw [Bool.and_eq_true, Bool.not_eq_true', Bool.not_eq_true', not_and, Bool.not_eq_false] at h
    unfold hasReported
    rw [Bool.or_eq_true]
    by_cases hdelayed : s.delayed = false
    · exact .inl (h hdelayed)
    · exact .inr (Bool.not_eq_false _ ▸ hdelayed)

theorem RState.terminated_raiseExecutionError (aborts : Bool) {s : RState} (h : s.alive = true) :
    (s.raiseExecutionError aborts).terminated = true := by
  unfold raiseExecutionError
  split
  · rfl
  next hnot => simpa [h] using hnot

/-- Either client makes the same of the reply. -/
structure PrepareUnderstood (planValid : Bool) (pplan : BitVec 64) (types : List PlcDatatype)
    (msg : PlcMsgRaw) : Prop where
  delivered : ∀ mask, MsgType.allowedBy .raw mask = true →
    Transfers (plcontainerChannelSend (.raw msg)) (plcontainerChannelReceive mask) (.raw msg)
  /-- a plan with the number of arguments that was asked for -/
  plan : planValid = true → ∀ aborts sp sr,
    plySpiPrepare sp (BitVec.ofNat 32 types.length) msg =
      .ok (some ⟨pplan, BitVec.ofNat 32 types.length, types⟩, sp) ∧
    plrSpiPrepare aborts sr (BitVec.ofNat 32 types.length) msg =
      .ok (some ⟨pplan, BitVec.ofNat 32 types.length, types⟩, sr)
  /-- anything else is reported, and there is no plan for the user -/
  refused : ∀ nargs, planValid = false ∨ nargs ≠ BitVec.ofNat 32 types.length → ∀ aborts sp sr,
    (∃ sp', plySpiPrepare sp nargs msg = .ok (none, sp') ∧ sp'.hasReported = true) ∧
    ∃ sr', plrSpiPrepare aborts sr nargs msg = .ok (none, sr') ∧
      (sr.alive = true → sr'.terminated = true)

theorem prepareUnderstood_of_reply {planValid : Bool} {pplan : BitVec 64} {types : List PlcDatatype}
    (htypes : ∀ t ∈ types, t.canonical = true) {msg : PlcMsgRaw}
    (hreply : prepareReply planValid pplan types = .ok msg) :
    PrepareUnderstood planValid pplan types msg := by
  refine ⟨fun mask hmask => ?_, fun hvalid aborts sp sr => ?_, fun nargs h aborts sp sr => ?_⟩
  · obtain ⟨hsize, rfl⟩ := prepareReply_eq_ok hreply
    refine transfers_rawmsg ?_ hmask
    dsimp only
    rw [length_preparePayload, toInt_ofNat32]
    unfold maxAllocSize at hsize
    omega
  · subst hvalid
    rw [plySpiPrepare, plrSpiPrepare, unpackPrepareResult_plan _ hreply htypes,
      unpackPrepareResult_plan _ hreply htypes]
    exact ⟨rfl, rfl⟩
  · obtain ⟨_, hpy⟩ := unpackPrepareResult_refused "Calculated" hreply h
    obtain ⟨_, hr⟩ := unpackPrepareResult_refused "calculated" hreply h
    rw [plySpiPrepare, plrSpiPrepare, hpy, hr]
    exact ⟨⟨_, rfl, sp.hasReported_raiseExecutionError⟩,
      _, rfl, fun halive => RState.terminated_raiseExecutionError aborts halive⟩

/-- **The answer to PREPARE is understood.** For every outcome, handle and list of argument types, the
    reply is too long for `palloc`, or it is packed and delivered, and both clients make the same of
    it without a read outside the payload. -/
theorem prepare_reply_understood (planValid : Bool) (pplan : BitVec 64) (types : List PlcDatatype)
    (htypes : ∀ t ∈ types, t.canonical = true) :
    (maxAllocSize < 16 + 4 * types.length ∧
      ∃ size, prepareReply planValid pplan types = .error (.allocSize size)) ∨
    ∃ msg, prepareReply planValid pplan types = .ok msg ∧
      PrepareUnderstood planValid pplan types msg := by
  by_cases hsize : 16 + 4 * types.length ≤ maxAllocSize
  · have hreply := prepareReply_of_le planValid pplan hsize
    exact .inr ⟨_, hreply, prepareUnderstood_of_reply htypes hreply⟩
  · exact .inl ⟨Nat.not_le.1 hsize, prepareReply_of_gt (Nat.not_le.1 hsize)⟩

/-- The reply for a plan with two arguments. -/
theorem prepare_reply_understood_two :
    ∃ msg, prepareReply true 7 [.int4, .text] = .ok msg ∧
      PrepareUnderstood true 7 [.int4, .text] msg :=
  (prepare_reply_understood true 7 [.int4, .text] (by decide)).resolve_left fun h =>
    absurd h.1 (by decide)

end PlContainer
