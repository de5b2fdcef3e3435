import PlContainer.Common.Messages

set_option autoImplicit false

/-! # The sending half of `comm_channel.c`

Each `send_*` function is the bytes it appends to the output buffer, in order. A function gives up
(`none`) where the C code raises an error with `plc_elog(ERROR, ...)` or reads past the end of what it
was given. The failures of `plcBufferAppend` itself belong to the buffer layer. -/

namespace PlContainer

open ByteStream

/-! ## Primitive types -/

def messageStart (msgType : MsgType) : Writer := some [msgType.letter]

/-- `message_end` flushes the buffer; the stream itself is unchanged. -/
def messageEnd : Writer := some []

def sendChar (c : UInt8) : Writer := some [c]

def sendInt16 (i : BitVec 16) : Writer := some (leBytes 2 i.toNat)

def sendInt32 (i : BitVec 32) : Writer := some (leBytes 4 i.toNat)

def sendUint32 (i : BitVec 32) : Writer := some (leBytes 4 i.toNat)

def sendInt64 (i : BitVec 64) : Writer := some (leBytes 8 i.toNat)

def sendFloat4 (f : BitVec 32) : Writer := some (leBytes 4 f.toNat)

def sendFloat8 (f : BitVec 64) : Writer := some (leBytes 8 f.toNat)

/-- `send_cstring`: the `size_t` of `strlen` is cut to an `int`. -/
def sendCstring : Option CString → Writer
  | none => sendInt32 (-1)
  | some s =>
      let cnt : BitVec 32 := BitVec.ofNat 32 (strlen s)
      emit [sendInt32 cnt, if 0 < cnt.toInt then some (s.take cnt.toNat) else some []]

def sendBytea (b : Bytea) : Writer :=
  emit [sendInt32 b.len,
    if 0 ≤ b.len.toInt ∧ b.len.toNat ≤ b.data.length then some (b.data.take b.len.toNat) else none]

/-! ## Values and types -/

/-- The cases of `send_raw_object`'s switch that do not recurse. -/
def sendFlat : PlcDatatype → Value → Writer
  | .int1, .int1 v => sendChar v
  | .int2, .int2 v => sendInt16 v
  | .int4, .int4 v => sendInt32 v
  | .int8, .int8 v => sendInt64 v
  | .float4, .float4 v => sendFloat4 v
  | .float8, .float8 v => sendFloat8 v
  | .text, .text s => sendCstring s
  | .bytea, .bytea b => sendBytea b
  | _, _ => none

/-- `send_raw_array_iter`, given how it sends one element. -/
def sendRawArrayIter (sendElem : RawData → Writer) (arrMeta : PlcArrayMeta)
    (elems : List RawData) : Writer :=
  emit [sendInt32 arrMeta.ndims,
    writeN sendInt32 arrMeta.ndims.toInt.toNat arrMeta.dims,
    writeN sendElem arrMeta.size.toInt.toNat elems]

mutual

def sendRawObject : PlcType → RawData → Writer
  | _, none => sendChar 'N'.toUInt8
  | .mk type _ nSubTypes subTypes, some v =>
      emit [sendChar 'D'.toUInt8,
        match type, v with
        | .array, .iterator arrMeta elems =>
            match subTypes with
            | [] => none
            | elemType :: _ => sendRawArrayIter (sendRawObject elemType) arrMeta elems
        | .udt, .udt data => sendUdt nSubTypes.toInt.toNat subTypes data
        | t, v => sendFlat t v]

/-- `send_udt`, from field `i` on: `n` fields are left. -/
def sendUdt : ℕ → List PlcType → List RawData → Writer
  | 0, _, _ => some []
  | n + 1, t :: ts, d :: ds => emit [sendRawObject t d, sendUdt n ts ds]
  | _ + 1, _, _ => none

end

mutual

def sendType : PlcType → Writer
  | .mk type typeName nSubTypes subTypes =>
      emit [sendChar type.code, sendCstring typeName,
        if type.hasSubTypes then
          emit [sendInt16 nSubTypes, sendSubTypes nSubTypes.toInt.toNat subTypes]
        else some []]

/-- The loop of `send_type` over the subtypes: `n` of them are left. -/
def sendSubTypes : ℕ → List PlcType → Writer
  | 0, _ => some []
  | _ + 1, [] => none
  | n + 1, t :: ts => emit [sendType t, sendSubTypes n ts]

end

def sendArgument (arg : PlcArgument) : Writer :=
  emit [sendCstring arg.name, sendType arg.type, sendRawObject arg.type arg.data]

/-! ## Messages -/

/-- `PLCONTAINER_VERSION`, as the build takes it from the file `VERSION`. -/
def plcontainerVersion : CString := ['2', '.', '4', '.', '0'].map Char.toUInt8

def sendPing : Writer :=
  emit [messageStart .ping, sendCstring (some plcontainerVersion), messageEnd]

def sendCall (call : PlcMsgCallreq) : Writer :=
  emit [messageStart .callreq,
    sendCstring call.proc.name,
    sendCstring call.proc.src,
    sendCstring call.serverenc,
    sendInt32 call.logLevel,
    sendUint32 call.objectid,
    sendInt32 call.hasChanged,
    sendType call.retType,
    sendInt32 call.retset,
    sendInt32 call.nargs,
    writeN sendArgument call.nargs.toInt.toNat call.args,
    messageEnd]

def sendException (err : PlcMsgError) : Writer :=
  emit [messageStart .exception, sendCstring err.message, sendCstring err.stacktrace, messageEnd]

/-- The body of `send_result`'s loop over the columns. -/
def sendColumn (col : PlcType × Option CString) : Writer :=
  emit [sendType col.1, sendCstring col.2]

/-- One row of `send_result`: each cell is sent with the type of its column. -/
def sendRow (cols : ℕ) (types : List PlcType) (row : List RawData) : Writer :=
  writeN (fun cell => sendRawObject cell.1 cell.2) cols (types.zip row)

def sendResult (ret : PlcMsgResult) : Writer :=
  emit [messageStart .result,
    sendInt32 ret.rows,
    sendInt32 ret.cols,
    writeN sendColumn ret.cols.toNat (ret.types.zip ret.names),
    -- without columns the inner loop never looks at `data`
    if ret.cols = 0 then some []
    else writeN (sendRow ret.cols.toNat ret.types) ret.rows.toNat ret.data,
    match ret.exceptionCallback with
    | some (some err) => sendException err
    | _ => sendChar 'N'.toUInt8,
    messageEnd]

def sendLog (mlog : PlcMsgLog) : Writer :=
  emit [messageStart .log, sendInt32 mlog.level, sendCstring mlog.message, messageEnd]

def sendQuote (mquote : PlcMsgQuote) : Writer :=
  emit [messageStart .quote, sendInt32 mquote.quoteType, sendCstring mquote.msg, messageEnd]

def sendQuoteResult (mQuoteResult : PlcMsgQuoteResult) : Writer :=
  emit [messageStart .quoteResult, sendInt32 mQuoteResult.quoteType,
    sendCstring mQuoteResult.result, messageEnd]

def sendSubtransactionResult (mSubr : PlcMsgSubtransactionResult) : Writer :=
  emit [messageStart .subtranResult, sendInt16 mSubr.result, messageEnd]

def sendSubtransaction (mSub : PlcMsgSubtransaction) : Writer :=
  emit [messageStart .subtransaction, sendChar mSub.action, sendChar mSub.type, messageEnd]

/-- `plcSqlType` of a message. -/
def PlcMsgSQL.sqltype : PlcMsgSQL → BitVec 32
  | .statement _ _ => 1
  | .prepare _ _ _ => 5
  | .pexecute _ _ _ _ => 6
  | .unprepare _ => 7
  | .unhandled t => t

/-- `send_sql` with its four `send_sql_*` functions. -/
def sendSql (msg : PlcMsgSQL) : Writer :=
  match msg with
  | .statement limit statement =>
      emit [messageStart .sql, sendInt32 msg.sqltype, sendInt64 limit, sendCstring statement,
        messageEnd]
  | .prepare nargs args statement =>
      emit [messageStart .sql, sendInt32 msg.sqltype, sendInt32 nargs,
        writeN sendArgument nargs.toInt.toNat args, sendCstring statement, messageEnd]
  | .unprepare pplan =>
      emit [messageStart .sql, sendInt32 msg.sqltype, sendInt64 pplan, messageEnd]
  | .pexecute nargs args limit pplan =>
      emit [messageStart .sql, sendInt32 msg.sqltype, sendInt32 nargs,
        writeN sendArgument nargs.toInt.toNat args, sendInt64 limit, sendInt64 pplan, messageEnd]
  | .unhandled _ => none

def sendRawmsg (msg : PlcMsgRaw) : Writer :=
  emit [messageStart .raw, sendInt32 msg.size, writeN sendChar msg.size.toInt.toNat msg.data,
    messageEnd]

def plcontainerChannelSend : PlcMessage → Writer
  | .ping => sendPing
  | .callreq m => sendCall m
  | .result m => sendResult m
  | .exception m => sendException m
  | .log m => sendLog m
  | .quote m => sendQuote m
  | .quoteResult m => sendQuoteResult m
  | .sql m => sendSql m
  | .raw m => sendRawmsg m
  | .subtranResult m => sendSubtransactionResult m
  | .subtransaction m => sendSubtransaction m

end PlContainer
