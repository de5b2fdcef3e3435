import PlContainer.Common.Channel.Send

set_option autoImplicit false

/-! # The receiving half of `comm_channel.c`

Each `receive_*` function is a reader of the byte stream. The C functions collect the return codes of
their parts with `res |= ...`, and some go on reading after a part has failed, but no later part can
turn a negative code back into success. So a reader stops at the first failure; what C code would
still read on a stream that has already failed is not modelled.

Allocation is taken to succeed for every size an `int` can hold; a negative `int` becomes a `size_t`
that no allocator serves. -/

namespace PlContainer

open ByteStream

/-- How a receive function ends when it does not succeed. -/
inductive ChannelError where
  /-- it returns -1: the stream is short, or a length is refused -/
  | failed
  /-- `pmalloc` raises an error -/
  | outOfMemory
  /-- `&type->subTypes[0]` of a type that has no subtype array -/
  | noSubType
  | unsupportedType (type : PlcDatatype)
  | shouldNotGetHere (type : PlcDatatype)
  | versionMismatch (version : Option CString)
  | unhandledSqlType (sqlType : BitVec 32)
  | unexpectedMessageType (cType : UInt8) (mask : BitVec 64)
  | unknownMessageType (cType : UInt8)
  /-- the bound on nested types was too small; `receiveType` never ends so -/
  | outOfFuel
deriving DecidableEq, Repr

/-- A `receive_*` function. -/
abbrev Receive (α : Type) := Reader ChannelError α

/-- `pmalloc` of a size computed as an `int`. -/
def pmalloc (size : ℤ) : Receive Unit :=
  if 0 ≤ size then pure () else throw .outOfMemory

/-! ## Primitive types -/

def receiveChar : Receive UInt8 := do
  let bs ← readBytes .failed 1
  pure (bs.headD 0)

/-- The common form of the fixed-width receivers: `k` bytes into a `w`-bit field. -/
def receiveBits (w k : ℕ) : Receive (BitVec w) := do
  let bs ← readBytes .failed k
  pure (BitVec.ofNat w (ofLeBytes bs))

def receiveInt16 : Receive (BitVec 16) := receiveBits 16 2

def receiveInt32 : Receive (BitVec 32) := receiveBits 32 4

def receiveUint32 : Receive (BitVec 32) := receiveBits 32 4

def receiveInt64 : Receive (BitVec 64) := receiveBits 64 8

def receiveFloat4 : Receive (BitVec 32) := receiveBits 32 4

def receiveFloat8 : Receive (BitVec 64) := receiveBits 64 8

def receiveRaw (len : ℕ) : Receive (List UInt8) := readBytes .failed len

def receiveCstring : Receive (Option CString) := do
  let cnt ← receiveInt32
  if cnt = -1 then pure none
  else if cnt.toInt < 0 then throw .failed
  else do
    pmalloc (cnt + 1).toInt
    let s ← readBytes .failed cnt.toNat
    pure (some s)

/-- `receive_bytea` checks no sign: with a negative length it reads nothing and keeps the length. -/
def receiveBytea : Receive Bytea := do
  let len ← receiveInt32
  pmalloc (len + 4).toInt
  let data ← readBytes .failed len.toInt.toNat
  pure ⟨len, data⟩

/-! ## Values and types -/

/-- The cases of `receive_raw_object`'s switch that do not recurse. -/
def receiveFlat : PlcDatatype → Receive Value
  | .int1 => do let v ← receiveChar; pure (.int1 v)
  | .int2 => do let v ← receiveInt16; pure (.int2 v)
  | .int4 => do let v ← receiveInt32; pure (.int4 v)
  | .int8 => do let v ← receiveInt64; pure (.int8 v)
  | .float4 => do let v ← receiveFloat4; pure (.float4 v)
  | .float8 => do let v ← receiveFloat8; pure (.float8 v)
  | .text => do let s ← receiveCstring; pure (.text s)
  | .bytea => do let b ← receiveBytea; pure (.bytea b)
  | t => throw (.unsupportedType t)

/-- `receive_array`, given how it receives one element. The size is computed in `int`. -/
def receiveArray (elemType : PlcDatatype) (receiveElem : Receive RawData) : Receive Value := do
  let ndims ← receiveInt32
  let dims ← readN receiveInt32 ndims.toInt.toNat
  let size : BitVec 32 := if 0 < ndims.toInt then dims.foldl (· * ·) 1 else 0
  let arrMeta : PlcArrayMeta := ⟨elemType, ndims, dims, size⟩
  if 0 < size.toInt then
    match plcGetTypeLength elemType with
    | none => throw (.shouldNotGetHere elemType)
    | some entrylen => do
        pmalloc size.toInt
        pmalloc (size * BitVec.ofNat 32 entrylen).toInt
        let elems ← readN receiveElem size.toInt.toNat
        pure (.array arrMeta (elems.map Option.isNone) elems)
  else pure (.array arrMeta [] [])

mutual

def receiveRawObject : PlcType → Receive RawData
  | .mk type _ nSubTypes subTypes => do
      let isn ← receiveChar
      if isn = 'N'.toUInt8 then pure none
      else
        match type with
        | .array =>
            match subTypes with
            | [] => throw .noSubType
            | elemType :: _ => do
                let v ← receiveArray elemType.type (receiveArrayElement elemType)
                pure (some v)
        | .udt => do
            pmalloc (nSubTypes.toInt * 16)
            let data ← receiveUdt nSubTypes.toInt.toNat subTypes
            pure (some (.udt data))
        | t => do
            let v ← receiveFlat t
            pure (some v)

/-- The body of the element loop of `receive_array`. -/
def receiveArrayElement : PlcType → Receive RawData
  | .mk type _ nSubTypes subTypes => do
      let isnull ← receiveChar
      if isnull = 'N'.toUInt8 then pure none
      else
        match type with
        | .array => throw (.shouldNotGetHere .array)
        | .udt => do
            pmalloc (nSubTypes.toInt * 16)
            let data ← receiveUdt nSubTypes.toInt.toNat subTypes
            pure (some (.udt data))
        | t => do
            let v ← receiveFlat t
            pure (some v)

/-- The loop of `receive_udt` over the fields: `n` of them are left. -/
def receiveUdt : ℕ → List PlcType → Receive (List RawData)
  | 0, _ => pure []
  | _ + 1, [] => throw .noSubType
  | n + 1, t :: ts => do
      let d ← receiveRawObject t
      let ds ← receiveUdt n ts
      pure (d :: ds)

end

/-- `receive_type`, with a bound on the depth of the recursion. -/
def receiveTypeAux : ℕ → Receive PlcType
  | 0 => throw .outOfFuel
  | fuel + 1 => do
      let typ ← receiveChar
      let typeName ← receiveCstring
      let type := PlcDatatype.ofCode typ
      if type.hasSubTypes then do
        let nSubTypes ← receiveInt16
        let subTypes ← readN (receiveTypeAux fuel) nSubTypes.toInt.toNat
        pure (.mk type typeName nSubTypes subTypes)
      else pure (.mk type typeName 0 [])

/-- Every nested type takes at least one byte, so the bytes at hand bound the recursion. -/
def receiveType : Receive PlcType := fun s => receiveTypeAux (s.length + 1) s

def receiveArgument : Receive PlcArgument := do
  let name ← receiveCstring
  let type ← receiveType
  let data ← receiveRawObject type
  pure ⟨type, name, data⟩

/-! ## Messages -/

def receiveException : Receive PlcMsgError := do
  let message ← receiveCstring
  let stacktrace ← receiveCstring
  pure ⟨message, stacktrace⟩

/-- The body of `receive_result`'s loop over the columns. -/
def receiveColumn : Receive (PlcType × Option CString) := do
  let type ← receiveType
  let name ← receiveCstring
  pure (type, name)

/-- One row of `receive_result`. -/
def receiveRow : List PlcType → Receive (List RawData)
  | [] => pure []
  | t :: ts => do
      let d ← receiveRawObject t
      let ds ← receiveRow ts
      pure (d :: ds)

/-- The rows of `receive_result`; without columns there is no data array. -/
def receiveRows (rows cols : ℕ) (types : List PlcType) : Receive (List (List RawData)) :=
  if 0 < cols then readN (receiveRow types) rows else pure []

/-- `receive_result`. The callback pointer of a received message is never set. -/
def receiveResult : Receive PlcMessage := do
  let rows ← receiveUint32
  let cols ← receiveUint32
  let columns ← readN receiveColumn cols.toNat
  let types := columns.map Prod.fst
  let data ← receiveRows rows.toNat cols.toNat types
  let exc ← receiveChar
  if exc = MsgType.letter .exception then do
    let err ← receiveException
    pure (.exception err)
  else pure (.result ⟨rows, cols, types, columns.map Prod.snd, data, none⟩)

def receiveLog : Receive PlcMsgLog := do
  let level ← receiveInt32
  let message ← receiveCstring
  pure ⟨level, message⟩

def receiveQuote : Receive PlcMsgQuote := do
  let quoteType ← receiveInt32
  let msg ← receiveCstring
  pure ⟨quoteType, msg⟩

def receiveQuoteResult : Receive PlcMsgQuoteResult := do
  let quoteType ← receiveInt32
  let result ← receiveCstring
  pure ⟨quoteType, result⟩

def receiveSubtransaction : Receive PlcMsgSubtransaction := do
  let action ← receiveChar
  let type ← receiveChar
  pure ⟨action, type⟩

def receiveSubtransactionResult : Receive PlcMsgSubtransactionResult := do
  let result ← receiveInt16
  pure ⟨result⟩

/-- `strncmp(version, PLCONTAINER_VERSION, strlen(PLCONTAINER_VERSION)) == 0`. -/
def versionMatches (version : CString) : Bool :=
  plcontainerVersion.isPrefixOf (version.takeWhile (· ≠ 0))

def receivePing : Receive Unit := do
  let version ← receiveCstring
  if version.any versionMatches then pure () else throw (.versionMismatch version)

/-- The arguments of a call, a prepare and a pexecute, after their count. -/
def receiveArguments (nargs : BitVec 32) : Receive (List PlcArgument) :=
  if nargs.toInt < 0 then throw .failed else readN receiveArgument nargs.toInt.toNat

def receiveCall : Receive PlcMsgCallreq := do
  let name ← receiveCstring
  let src ← receiveCstring
  let serverenc ← receiveCstring
  let logLevel ← receiveInt32
  let objectid ← receiveUint32
  let hasChanged ← receiveInt32
  let retType ← receiveType
  let retset ← receiveInt32
  let nargs ← receiveInt32
  let args ← receiveArguments nargs
  pure ⟨objectid, hasChanged, ⟨src, name⟩, logLevel, retType, retset, nargs, serverenc, args⟩

def receiveSqlStatement : Receive PlcMsgSQL := do
  let limit ← receiveInt64
  let statement ← receiveCstring
  pure (.statement limit statement)

def receiveSqlPrepare : Receive PlcMsgSQL := do
  let nargs ← receiveInt32
  let args ← receiveArguments nargs
  let statement ← receiveCstring
  pure (.prepare nargs args statement)

def receiveSqlUnprepare : Receive PlcMsgSQL := do
  let pplan ← receiveInt64
  pure (.unprepare pplan)

def receiveSqlPexecute : Receive PlcMsgSQL := do
  let nargs ← receiveInt32
  let args ← receiveArguments nargs
  let limit ← receiveInt64
  let pplan ← receiveInt64
  pure (.pexecute nargs args limit pplan)

def receiveSql : Receive PlcMsgSQL := do
  let sqlType ← receiveInt32
  if sqlType = 1 then receiveSqlStatement
  else if sqlType = 5 then receiveSqlPrepare
  else if sqlType = 7 then receiveSqlUnprepare
  else if sqlType = 6 then receiveSqlPexecute
  else throw (.unhandledSqlType sqlType)

def receiveRawmsg : Receive PlcMsgRaw := do
  let size ← receiveInt32
  if size.toInt < 0 then throw .failed
  else do
    let data ← receiveRaw size.toInt.toNat
    pure ⟨size, data⟩

/-- The receiver of each message type. -/
def receiveBody : MsgType → Receive PlcMessage
  | .ping => do let _ ← receivePing; pure .ping
  | .callreq => do let m ← receiveCall; pure (.callreq m)
  | .result => receiveResult
  | .exception => do let m ← receiveException; pure (.exception m)
  | .log => do let m ← receiveLog; pure (.log m)
  | .quote => do let m ← receiveQuote; pure (.quote m)
  | .quoteResult => do let m ← receiveQuoteResult; pure (.quoteResult m)
  | .sql => do let m ← receiveSql; pure (.sql m)
  | .raw => do let m ← receiveRawmsg; pure (.raw m)
  | .subtransaction => do let m ← receiveSubtransaction; pure (.subtransaction m)
  | .subtranResult => do let m ← receiveSubtransactionResult; pure (.subtranResult m)

def plcontainerChannelReceive (mask : BitVec 64) : Receive PlcMessage := do
  let cType ← receiveChar
  match MsgType.ofLetter cType with
  | none => throw (.unknownMessageType cType)
  | some t => if t.allowedBy mask then receiveBody t else throw (.unexpectedMessageType cType mask)

end PlContainer
