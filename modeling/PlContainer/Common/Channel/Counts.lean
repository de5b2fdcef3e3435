import PlContainer.Common.Channel.Decoded
import PlContainer.Library.Recorder

set_option autoImplicit false

/-! # The counts that the receiver takes from the wire

Lengths, counts and arities come from the peer. Here the receive functions of `comm_channel.c` are
written once more, as recorders that note each of these numbers when it is read, and the numbers that
get past the receiver are compared with those that make sense. `passes_receive` shows that the
recorders read exactly as the functions of `Receive.lean` do. -/

namespace PlContainer

open ByteStream

/-- A number that tells a receive function how much to read. -/
inductive WireCount where
  /-- the length of a C string, -1 for `NULL` -/
  | cstring (cnt : BitVec 32)
  | bytea (len : BitVec 32)
  | nSubTypes (n : BitVec 16)
  /-- `subTypes[0]` of an ARRAY type with `n` subtypes is used -/
  | elemType (n : BitVec 16)
  | ndims (n : BitVec 32)
  | dim (n : BitVec 32)
  | nargs (n : BitVec 32)
  | rawSize (n : BitVec 32)
deriving DecidableEq, Repr

/-- The numbers that make sense. -/
def WireCount.Sane : WireCount → Prop
  | .cstring n => n = -1 ∨ 0 ≤ n.toInt
  | .bytea n | .ndims n | .dim n | .nargs n | .rawSize n => 0 ≤ n.toInt
  | .nSubTypes n => 0 ≤ n.toInt
  | .elemType n => 1 ≤ n.toInt

instance : DecidablePred WireCount.Sane
  | .cstring _ => inferInstanceAs (Decidable (_ ∨ _))
  | .bytea _ | .ndims _ | .dim _ | .nargs _ | .rawSize _ => inferInstanceAs (Decidable (_ ≤ _))
  | .nSubTypes _ | .elemType _ => inferInstanceAs (Decidable (_ ≤ _))

/-- The numbers that make no sense and that no receive function refuses. A `bytea` of such a length
    gets a block of up to three bytes, into which its four-byte length is written. -/
def WireCount.unchecked : WireCount → Bool
  | .bytea n => decide (-4 ≤ n.toInt ∧ n.toInt < 0)
  | .nSubTypes n => decide (n.toInt < 0)
  | .elemType n => decide (n.toInt < 1)
  | .ndims n | .dim n => decide (n.toInt < 0)
  | .cstring _ | .nargs _ | .rawSize _ => false

/-- With no subtype at hand, `subTypes` is an uninitialised pointer: what the receive function does
    from there on is undefined, whatever the peer sends. -/
def WireCount.isElemType : WireCount → Bool
  | .elemType _ => true
  | _ => false

/-! ## The receive functions as recorders -/

/-- A `receive_*` function that notes its counts. -/
abbrev Recorded (α : Type) := Recorder WireCount ChannelError α

namespace Recorded

def receiveCstring : Recorded (Option CString) := do
  let cnt ← noting receiveInt32 .cstring
  if cnt = -1 then pure none
  else if cnt.toInt < 0 then throw .failed
  else do
    plain (pmalloc (cnt + 1).toInt)
    let s ← plain (readBytes .failed cnt.toNat)
    pure (some s)

def receiveBytea : Recorded Bytea := do
  let len ← noting receiveInt32 .bytea
  plain (pmalloc (len + 4).toInt)
  let data ← plain (readBytes .failed len.toInt.toNat)
  pure ⟨len, data⟩

def receiveFlat : PlcDatatype → Recorded Value
  | .text => do let s ← receiveCstring; pure (.text s)
  | .bytea => do let b ← receiveBytea; pure (.bytea b)
  | t => plain (PlContainer.receiveFlat t)

def receiveArray (elemType : PlcDatatype) (receiveElem : Recorded RawData) : Recorded Value := do
  let ndims ← noting receiveInt32 .ndims
  let dims ← recordN (noting receiveInt32 .dim) ndims.toInt.toNat
  let size : BitVec 32 := if 0 < ndims.toInt then dims.foldl (· * ·) 1 else 0
  let arrMeta : PlcArrayMeta := ⟨elemType, ndims, dims, size⟩
  if 0 < size.toInt then
    match plcGetTypeLength elemType with
    | none => throw (.shouldNotGetHere elemType)
    | some entrylen => do
        plain (pmalloc size.toInt)
        plain (pmalloc (size * BitVec.ofNat 32 entrylen).toInt)
        let elems ← recordN receiveElem size.toInt.toNat
        pure (.array arrMeta (elems.map Option.isNone) elems)
  else pure (.array arrMeta [] [])

mutual

def receiveRawObject : PlcType → Recorded RawData
  | .mk type _ nSubTypes subTypes => do
      let isn ← plain receiveChar
      if isn = 'N'.toUInt8 then pure none
      else
        match type with
        | .array => do
            note (.elemType nSubTypes)
            match subTypes with
            | [] => throw .noSubType
            | elemType :: _ => do
                let v ← receiveArray elemType.type (receiveArrayElement elemType)
                pure (some v)
        | .udt => do
            plain (pmalloc (nSubTypes.toInt * 16))
            let data ← receiveUdt nSubTypes.toInt.toNat subTypes
            pure (some (.udt data))
        | t => do
            let v ← receiveFlat t
            pure (some v)

def receiveArrayElement : PlcType → Recorded RawData
  | .mk type _ nSubTypes subTypes => do
      let isnull ← plain receiveChar
      if isnull = 'N'.toUInt8 then pure none
      else
        match type with
        | .array => throw (.shouldNotGetHere .array)
        | .udt => do
            plain (pmalloc (nSubTypes.toInt * 16))
            let data ← receiveUdt nSubTypes.toInt.toNat subTypes
            pure (some (.udt data))
        | t => do
            let v ← receiveFlat t
            pure (some v)

def receiveUdt : ℕ → List PlcType → Recorded (List RawData)
  | 0, _ => pure []
  | _ + 1, [] => throw .noSubType
  | n + 1, t :: ts => do
      let d ← receiveRawObject t
      let ds ← receiveUdt n ts
      pure (d :: ds)

end

def receiveTypeAux : ℕ → Recorded PlcType
  | 0 => throw .outOfFuel
  | fuel + 1 => do
      let typ ← plain receiveChar
      let typeName ← receiveCstring
      let type := PlcDatatype.ofCode typ
      if type.hasSubTypes then do
        let nSubTypes ← noting receiveInt16 .nSubTypes
        let subTypes ← recordN (receiveTypeAux fuel) nSubTypes.toInt.toNat
        pure (.mk type typeName nSubTypes subTypes)
      else pure (.mk type typeName 0 [])

def receiveType : Recorded PlcType := fun s => receiveTypeAux (s.length + 1) s

def receiveArgument : Recorded PlcArgument := do
  let name ← receiveCstring
  let type ← receiveType
  let data ← receiveRawObject type
  pure ⟨type, name, data⟩

def receiveException : Recorded PlcMsgError := do
  let message ← receiveCstring
  let stacktrace ← receiveCstring
  pure ⟨message, stacktrace⟩

def receiveColumn : Recorded (PlcType × Option CString) := do
  let type ← receiveType
  let name ← receiveCstring
  pure (type, name)

def receiveRow : List PlcType → Recorded (List RawData)
  | [] => pure []
  | t :: ts => do
      let d ← receiveRawObject t
      let ds ← receiveRow ts
      pure (d :: ds)

def receiveRows (rows cols : ℕ) (types : List PlcType) : Recorded (List (List RawData)) :=
  if 0 < cols then recordN (receiveRow types) rows else pure []

def receiveResult : Recorded PlcMessage := do
  let rows ← plain receiveUint32
  let cols ← plain receiveUint32
  let columns ← recordN receiveColumn cols.toNat
  let types := columns.map Prod.fst
  let data ← receiveRows rows.toNat cols.toNat types
  let exc ← plain receiveChar
  if exc = MsgType.letter .exception then do
    let err ← receiveException
    pure (.exception err)
  else pure (.result ⟨rows, cols, types, columns.map Prod.snd, data, none⟩)

def receiveLog : Recorded PlcMsgLog := do
  let level ← plain receiveInt32
  let message ← receiveCstring
  pure ⟨level, message⟩

def receiveQuote : Recorded PlcMsgQuote := do
  let quoteType ← plain receiveInt32
  let msg ← receiveCstring
  pure ⟨quoteType, msg⟩

def receiveQuoteResult : Recorded PlcMsgQuoteResult := do
  let quoteType ← plain receiveInt32
  let result ← receiveCstring
  pure ⟨quoteType, result⟩

def receivePing : Recorded Unit := do
  let version ← receiveCstring
  if version.any versionMatches then pure () else throw (.versionMismatch version)

def receiveArguments (nargs : BitVec 32) : Recorded (List PlcArgument) :=
  if nargs.toInt < 0 then throw .failed else recordN receiveArgument nargs.toInt.toNat

def receiveCall : Recorded PlcMsgCallreq := do
  let name ← receiveCstring
  let src ← receiveCstring
  let serverenc ← receiveCstring
  let logLevel ← plain receiveInt32
  let objectid ← plain receiveUint32
  let hasChanged ← plain receiveInt32
  let retType ← receiveType
  let retset ← plain receiveInt32
  let nargs ← noting receiveInt32 .nargs
  let args ← receiveArguments nargs
  pure ⟨objectid, hasChanged, ⟨src, name⟩, logLevel, retType, retset, nargs, serverenc, args⟩

def receiveSqlStatement : Recorded PlcMsgSQL := do
  let limit ← plain receiveInt64
  let statement ← receiveCstring
  pure (.statement limit statement)

def receiveSqlPrepare : Recorded PlcMsgSQL := do
  let nargs ← noting receiveInt32 .nargs
  let args ← receiveArguments nargs
  let statement ← receiveCstring
  pure (.prepare nargs args statement)

def receiveSqlPexecute : Recorded PlcMsgSQL := do
  let nargs ← noting receiveInt32 .nargs
  let args ← receiveArguments nargs
  let limit ← plain receiveInt64
  let pplan ← plain receiveInt64
  pure (.pexecute nargs args limit pplan)

def receiveSql : Recorded PlcMsgSQL := do
  let sqlType ← plain receiveInt32
  if sqlType = 1 then receiveSqlStatement
  else if sqlType = 5 then receiveSqlPrepare
  else if sqlType = 7 then plain receiveSqlUnprepare
  else if sqlType = 6 then receiveSqlPexecute
  else throw (.unhandledSqlType sqlType)

def receiveRawmsg : Recorded PlcMsgRaw := do
  let size ← noting receiveInt32 .rawSize
  if size.toInt < 0 then throw .failed
  else do
    let data ← plain (receiveRaw size.toInt.toNat)
    pure ⟨size, data⟩

def receiveBody : MsgType → Recorded PlcMessage
  | .ping => do let _ ← receivePing; pure .ping
  | .callreq => do let m ← receiveCall; pure (.callreq m)
  | .result => receiveResult
  | .exception => do let m ← receiveException; pure (.exception m)
  | .log => do let m ← receiveLog; pure (.log m)
  | .quote => do let m ← receiveQuote; pure (.quote m)
  | .quoteResult => do let m ← receiveQuoteResult; pure (.quoteResult m)
  | .sql => do let m ← receiveSql; pure (.sql m)
  | .raw => do let m ← receiveRawmsg; pure (.raw m)
  | .subtransaction => do let m ← plain receiveSubtransaction; pure (.subtransaction m)
  | .subtranResult => do let m ← plain receiveSubtransactionResult; pure (.subtranResult m)

def plcontainerChannelReceive (mask : BitVec 64) : Recorded PlcMessage := do
  let cType ← plain receiveChar
  match MsgType.ofLetter cType with
  | none => throw (.unknownMessageType cType)
  | some t => if t.allowedBy mask then receiveBody t else throw (.unexpectedMessageType cType mask)

end Recorded

/-! ## What gets through -/

/-- The numbers that a successful reading can have taken: sane ones, and those that nothing checks. -/
def WireCount.Possible (c : WireCount) : Prop := c.Sane ∨ c.unchecked = true

theorem toInt_add_four_nonneg {n : BitVec 32} (h : 0 ≤ (n + 4).toInt) : -4 ≤ n.toInt := by
  rw [BitVec.toInt_add] at h
  have hfour : (4 : BitVec 32).toInt = 4 := by decide
  have hlow := BitVec.le_toInt n
  have hhigh := BitVec.toInt_lt (x := n)
  rw [hfour, Int.bmod_def] at h
  omega

theorem nonneg_of_pmalloc {size : ℤ} {u : Unit} (h : Yields (pmalloc size) u) : 0 ≤ size := by
  rw [pmalloc] at h
  split at h
  · assumption
  · exact h.of_throw.elim

open WireCount (Possible)

theorem passes_receiveCstring : Passes Possible Recorded.receiveCstring receiveCstring := by
  refine Passes.noting_bind ?_ fun cnt => ?_
  · intro cnt s h
    refine .inl ?_
    split at h
    · exact .inl ‹_›
    · split at h
      · exact h.of_throw.elim
      · exact .inr (by omega)
  · split
    · exact .pure _
    · split
      · exact .throw _
      · exact (Passes.plain _).bind fun _ => (Passes.plain _).bind fun s => .pure _

theorem passes_receiveBytea : Passes Possible Recorded.receiveBytea receiveBytea := by
  refine Passes.noting_bind ?_ fun len => (Passes.plain _).bind fun _ => (Passes.plain _).bind fun _ =>
    .pure _
  intro len b h
  obtain ⟨_, hsize, -⟩ := h.of_bind
  have hlen := toInt_add_four_nonneg (nonneg_of_pmalloc hsize)
  by_cases hneg : len.toInt < 0
  · exact .inr (by simpa [WireCount.unchecked] using ⟨hlen, hneg⟩)
  · exact .inl (not_lt.1 hneg)

/-- A count that nothing checks is sane or not. -/
theorem nonneg_or_negative {w : ℕ} (n : BitVec w) : 0 ≤ n.toInt ∨ decide (n.toInt < 0) = true := by
  rw [decide_eq_true_iff]
  omega

theorem possible_elemType (n : BitVec 16) : Possible (.elemType n) := by
  by_cases hlt : n.toInt < 1
  · exact .inr (by simpa [WireCount.unchecked] using hlt)
  · exact .inl (not_lt.1 hlt)

theorem passes_receiveFlat (t : PlcDatatype) :
    Passes Possible (Recorded.receiveFlat t) (receiveFlat t) := by
  cases t with
  | text => exact passes_receiveCstring.bind fun _ => .pure _
  | bytea => exact passes_receiveBytea.bind fun _ => .pure _
  | _ => exact .plain _

theorem passes_receiveArray (elemType : PlcDatatype) {q : Recorded RawData} {p : Receive RawData}
    (hq : Passes Possible q p) :
    Passes Possible (Recorded.receiveArray elemType q) (receiveArray elemType p) := by
  refine (Passes.noting nonneg_or_negative).bind fun ndims => ?_
  refine ((Passes.noting nonneg_or_negative).readN _).bind fun dims => ?_
  dsimp only
  generalize (if 0 < ndims.toInt then dims.foldl (· * ·) 1 else 0) = size
  split
  · cases plcGetTypeLength elemType with
    | none => exact .throw _
    | some entrylen =>
        exact (Passes.plain _).bind fun _ => (Passes.plain _).bind fun _ =>
          (hq.readN _).bind fun _ => .pure _
  · exact .pure _

theorem passes_receiveUdt {subTypes : List PlcType}
    (hsub : ∀ t ∈ subTypes, Passes Possible (Recorded.receiveRawObject t) (receiveRawObject t))
    (n : ℕ) : Passes Possible (Recorded.receiveUdt n subTypes) (receiveUdt n subTypes) := by
  induction n generalizing subTypes with
  | zero =>
      rw [Recorded.receiveUdt, receiveUdt]
      exact .pure _
  | succ n ih =>
      cases subTypes with
      | nil =>
          rw [Recorded.receiveUdt, receiveUdt]
          exact .throw _
      | cons t ts =>
          rw [List.forall_mem_cons] at hsub
          rw [Recorded.receiveUdt, receiveUdt]
          exact hsub.1.bind fun _ => (ih hsub.2).bind fun _ => .pure _

theorem passes_receiveRawObject (t : PlcType) :
    Passes Possible (Recorded.receiveRawObject t) (receiveRawObject t) ∧
      Passes Possible (Recorded.receiveArrayElement t) (receiveArrayElement t) := by
  -- both readers at once: an array reads elements of its element type, a row reads whole objects
  induction t using PlcType.induct with
  | mk type typeName n subTypes ih =>
      have hudt := passes_receiveUdt (fun t ht => (ih t ht).1) n.toInt.toNat
      constructor
      · unfold Recorded.receiveRawObject receiveRawObject
        refine (Passes.plain _).bind fun isn => ?_
        split
        · exact .pure _
        · cases type with
          | array =>
              refine Passes.note (possible_elemType n) ?_
              cases subTypes with
              | nil => exact .throw _
              | cons elemType _ =>
                  exact (passes_receiveArray _ (ih elemType (List.mem_cons_self ..)).2).bind
                    fun _ => .pure _
          | udt => exact (Passes.plain _).bind fun _ => hudt.bind fun _ => .pure _
          | _ => exact (passes_receiveFlat _).bind fun _ => .pure _
      · unfold Recorded.receiveArrayElement receiveArrayElement
        refine (Passes.plain _).bind fun isnull => ?_
        split
        · exact .pure _
        · cases type with
          | array => exact .throw _
          | udt => exact (Passes.plain _).bind fun _ => hudt.bind fun _ => .pure _
          | _ => exact (passes_receiveFlat _).bind fun _ => .pure _

theorem passes_receiveTypeAux (fuel : ℕ) :
    Passes Possible (Recorded.receiveTypeAux fuel) (receiveTypeAux fuel) := by
  induction fuel with
  | zero => exact .throw _
  | succ fuel ih =>
      rw [Recorded.receiveTypeAux, receiveTypeAux]
      refine (Passes.plain _).bind fun typ => passes_receiveCstring.bind fun typeName => ?_
      dsimp only
      split
      · exact (Passes.noting nonneg_or_negative).bind fun n =>
          (ih.readN _).bind fun _ => .pure _
      · exact .pure _

theorem passes_receiveType : Passes Possible Recorded.receiveType receiveType := fun s =>
  passes_receiveTypeAux (s.length + 1) s

theorem passes_receiveArgument : Passes Possible Recorded.receiveArgument receiveArgument :=
  passes_receiveCstring.bind fun _ => passes_receiveType.bind fun type =>
    (passes_receiveRawObject type).1.bind fun _ => .pure _

theorem passes_receiveException : Passes Possible Recorded.receiveException receiveException :=
  passes_receiveCstring.bind fun _ => passes_receiveCstring.bind fun _ => .pure _

theorem passes_receiveColumn : Passes Possible Recorded.receiveColumn receiveColumn :=
  passes_receiveType.bind fun _ => passes_receiveCstring.bind fun _ => .pure _

theorem passes_receiveRow (types : List PlcType) :
    Passes Possible (Recorded.receiveRow types) (receiveRow types) := by
  induction types with
  | nil => exact .pure _
  | cons t ts ih => exact (passes_receiveRawObject t).1.bind fun _ => ih.bind fun _ => .pure _

theorem passes_receiveResult : Passes Possible Recorded.receiveResult receiveResult := by
  refine (Passes.plain _).bind fun rows => (Passes.plain _).bind fun cols =>
    (passes_receiveColumn.readN _).bind fun columns => ?_
  have hrows : Passes Possible
      (Recorded.receiveRows rows.toNat cols.toNat (columns.map Prod.fst))
      (receiveRows rows.toNat cols.toNat (columns.map Prod.fst)) := by
    unfold Recorded.receiveRows receiveRows
    split
    · exact (passes_receiveRow _).readN _
    · exact .pure _
  refine hrows.bind fun data => (Passes.plain _).bind fun exc => ?_
  split
  · exact passes_receiveException.bind fun _ => .pure _
  · exact .pure _

/-- The count of arguments is noted first; `receive_arguments` refuses a negative one. -/
theorem passes_receiveArguments {β : Type} {g : BitVec 32 → List PlcArgument → Recorded β}
    {f : BitVec 32 → List PlcArgument → Receive β}
    (hg : ∀ nargs args, Passes Possible (g nargs args) (f nargs args)) :
    Passes Possible
      (do let nargs ← noting receiveInt32 .nargs
          let args ← Recorded.receiveArguments nargs
          g nargs args)
      (do let nargs ← receiveInt32
          let args ← receiveArguments nargs
          f nargs args) := by
  refine Passes.noting_bind ?_ fun nargs => ?_
  · intro nargs b h
    obtain ⟨args, hargs, -⟩ := h.of_bind
    rw [receiveArguments] at hargs
    split at hargs
    · exact hargs.of_throw.elim
    next hneg => exact .inl (not_lt.1 hneg)
  · refine Passes.bind ?_ (hg nargs)
    unfold Recorded.receiveArguments receiveArguments
    split
    · exact .throw _
    · exact passes_receiveArgument.readN _

theorem passes_receiveCall : Passes Possible Recorded.receiveCall receiveCall :=
  passes_receiveCstring.bind fun _ => passes_receiveCstring.bind fun _ =>
    passes_receiveCstring.bind fun _ => (Passes.plain _).bind fun _ => (Passes.plain _).bind fun _ =>
      (Passes.plain _).bind fun _ => passes_receiveType.bind fun _ => (Passes.plain _).bind fun _ =>
        passes_receiveArguments fun _ _ => .pure _

theorem passes_receiveSql : Passes Possible Recorded.receiveSql receiveSql := by
  refine (Passes.plain _).bind fun sqlType => ?_
  split
  · exact (Passes.plain _).bind fun _ => passes_receiveCstring.bind fun _ => .pure _
  · split
    · exact passes_receiveArguments fun _ _ => passes_receiveCstring.bind fun _ => .pure _
    · split
      · exact .plain _
      · split
        · exact passes_receiveArguments fun _ _ => (Passes.plain _).bind fun _ =>
            (Passes.plain _).bind fun _ => .pure _
        · exact .throw _

theorem passes_receiveRawmsg : Passes Possible Recorded.receiveRawmsg receiveRawmsg := by
  refine Passes.noting_bind ?_ fun size => ?_
  · intro size m h
    split at h
    · exact h.of_throw.elim
    next hneg => exact .inl (not_lt.1 hneg)
  · split
    · exact .throw _
    · exact (Passes.plain _).bind fun _ => .pure _

theorem passes_receivePing : Passes Possible Recorded.receivePing receivePing := by
  refine passes_receiveCstring.bind fun version => ?_
  split
  · exact .pure _
  · exact .throw _

theorem passes_receiveBody (t : MsgType) :
    Passes Possible (Recorded.receiveBody t) (receiveBody t) := by
  cases t with
  | ping => exact passes_receivePing.bind fun _ => .pure _
  | callreq => exact passes_receiveCall.bind fun _ => .pure _
  | result => exact passes_receiveResult
  | exception => exact passes_receiveException.bind fun _ => .pure _
  | log =>
      exact ((Passes.plain _).bind fun _ => passes_receiveCstring.bind fun _ => .pure _).bind
        fun _ => .pure _
  | quote =>
      exact ((Passes.plain _).bind fun _ => passes_receiveCstring.bind fun _ => .pure _).bind
        fun _ => .pure _
  | quoteResult =>
      exact ((Passes.plain _).bind fun _ => passes_receiveCstring.bind fun _ => .pure _).bind
        fun _ => .pure _
  | sql => exact passes_receiveSql.bind fun _ => .pure _
  | raw => exact passes_receiveRawmsg.bind fun _ => .pure _
  | subtransaction | subtranResult => exact (Passes.plain _).bind fun _ => .pure _

/-- The recorder of a whole message reads as the receiver does, and a message that is received has
    taken possible counts only. -/
theorem passes_plcontainerChannelReceive (mask : BitVec 64) :
    Passes Possible (Recorded.plcontainerChannelReceive mask) (plcontainerChannelReceive mask) := by
  refine (Passes.plain _).bind fun cType => ?_
  cases MsgType.ofLetter cType with
  | none => exact .throw _
  | some t =>
      dsimp only
      split
      · exact passes_receiveBody t
      · exact .throw _

/-! ## Malformed counts -/

/-- The counts that `plcontainer_channel_receive` takes from a byte string. -/
def countsTaken (mask : BitVec 64) (bs : List UInt8) : List WireCount :=
  noted (Recorded.plcontainerChannelReceive mask) bs

/-- The outcome of a count that was taken matters: the message is received, or the code has gone on
    with an element type, where no outcome is defined if there is none. -/
def CountMatters (mask : BitVec 64) (bs : List UInt8) (c : WireCount) : Prop :=
  c ∈ countsTaken mask bs ∧
    (c.isElemType = true ∨ ∃ m rest, (plcontainerChannelReceive mask).run bs = .ok (m, rest))

/-- Every count that matters makes sense. -/
def TakesSaneCounts (mask : BitVec 64) (bs : List UInt8) : Prop :=
  ∀ c, CountMatters mask bs c → c.Sane

theorem WireCount.sane_iff_of_possible {c : WireCount} (h : c.Possible) :
    c.Sane ↔ c.unchecked = false := by
  cases c with
  | cstring n | nargs n | rawSize n =>
      have hsane := h.resolve_right Bool.false_ne_true
      exact iff_of_true hsane rfl
  | bytea n =>
      simp only [Possible, Sane, WireCount.unchecked, decide_eq_true_eq] at h
      simp only [Sane, WireCount.unchecked, decide_eq_false_iff_not]
      omega
  | ndims n | dim n | nSubTypes n | elemType n =>
      simp only [Sane, WireCount.unchecked, decide_eq_false_iff_not]
      omega

/-- A RESULT with one row and one column, its type given by `type` and its value by `value`. -/
def oneValueResult (type value : List UInt8) : List UInt8 :=
  [82, 1, 0, 0, 0, 1, 0, 0, 0] ++ type ++ [255, 255, 255, 255] ++ value ++ [78]

end PlContainer
