import PlContainer.Library.ByteStream
import Mathlib.Data.List.TakeWhile

set_option autoImplicit false

/-! # The data model of the channel

The message structures of `common/messages/*.h`, shared by the backend and the clients. Fixed-width
C integers are bit vectors (`BitVec.toInt` is their signed reading), a `char *` string is the list of
its bytes before the terminating NUL with `none` for `NULL`, and a C array stands next to the counter
field that says how many of its elements the code looks at, as in the structures themselves.

`rawdata.value` is an untyped `char *` in C: what it points to depends on the `plcType` next to it,
and for arrays also on the side that made it (an iterator when sending, a flat `plcArray` when
received). `Value` has one constructor for each of these things. -/

namespace PlContainer

/-! ## C strings and byte arrays -/

/-- The bytes of a `char` buffer up to its end; C reads it up to the first NUL. -/
abbrev CString := List UInt8

/-- `strlen`: the number of bytes before the first NUL. -/
def strlen (s : CString) : ℕ := (s.takeWhile (· ≠ 0)).length

theorem strlen_of_nul_free {s : CString} (h : (0 : UInt8) ∉ s) : strlen s = s.length := by
  have htake : s.takeWhile (· ≠ 0) = s := by
    rw [List.takeWhile_eq_self_iff]
    intro b hb
    have hne : b ≠ 0 := fun he => h (he ▸ hb)
    simpa using hne
  rw [strlen, htake]

/-- A `PLC_DATA_BYTEA` value: an `int` length followed by that many bytes. -/
structure Bytea where
  len : BitVec 32
  data : List UInt8
deriving DecidableEq, Repr

/-- An object id of the database. -/
abbrev Oid := BitVec 32

/-! ## Types -/

/-- `plcDatatype`. A type read from the wire is any byte, so codes past `PLC_DATA_INVALID` are kept
    as they are. -/
inductive PlcDatatype where
  | int1
  | int2
  | int4
  | int8
  | float4
  | float8
  | text
  | array
  | udt
  | bytea
  | invalid
  | unknown (code : UInt8)
deriving DecidableEq, Repr

/-- The enumeration's value, as the `char` put on the wire. -/
def PlcDatatype.code : PlcDatatype → UInt8
  | .int1 => 0
  | .int2 => 1
  | .int4 => 2
  | .int8 => 3
  | .float4 => 4
  | .float8 => 5
  | .text => 6
  | .array => 7
  | .udt => 8
  | .bytea => 9
  | .invalid => 10
  | .unknown c => c

/-- The cast `(int) typ` of a received `char` back to the enumeration. -/
def PlcDatatype.ofCode (c : UInt8) : PlcDatatype :=
  if c = 0 then .int1
  else if c = 1 then .int2
  else if c = 2 then .int4
  else if c = 3 then .int8
  else if c = 4 then .float4
  else if c = 5 then .float8
  else if c = 6 then .text
  else if c = 7 then .array
  else if c = 8 then .udt
  else if c = 9 then .bytea
  else if c = 10 then .invalid
  else .unknown c

/-- `unknown` stands for the codes that have no name. -/
def PlcDatatype.canonical : PlcDatatype → Bool
  | .unknown c => decide (10 < c)
  | _ => true

theorem PlcDatatype.ofCode_code (t : PlcDatatype) (h : t.canonical = true) :
    PlcDatatype.ofCode t.code = t := by
  cases t with
  | unknown c =>
      have hc : 10 < c := by simpa [canonical] using h
      have hne : ∀ k : UInt8, k ≤ 10 → c ≠ k := by
        intro k hk he
        exact absurd (he ▸ hc) (UInt8.not_lt.2 hk)
      show ofCode c = unknown c
      unfold ofCode
      rw [if_neg (hne 0 (by decide)), if_neg (hne 1 (by decide)), if_neg (hne 2 (by decide)),
        if_neg (hne 3 (by decide)), if_neg (hne 4 (by decide)), if_neg (hne 5 (by decide)),
        if_neg (hne 6 (by decide)), if_neg (hne 7 (by decide)), if_neg (hne 8 (by decide)),
        if_neg (hne 9 (by decide)), if_neg (hne 10 (by decide))]
  | _ => rfl

/-- The two kinds of type that have subtypes. -/
def PlcDatatype.hasSubTypes : PlcDatatype → Bool
  | .array => true
  | .udt => true
  | _ => false

/-- `plcType`. -/
inductive PlcType where
  | mk (type : PlcDatatype) (typeName : Option CString) (nSubTypes : BitVec 16)
      (subTypes : List PlcType)

def PlcType.type : PlcType → PlcDatatype
  | .mk t _ _ _ => t

def PlcType.typeName : PlcType → Option CString
  | .mk _ typeName _ _ => typeName

mutual

/-- Induction over type trees: a type may use the hypothesis for each of its subtypes. -/
@[elab_as_elim]
theorem PlcType.induct {P : PlcType → Prop}
    (mk : ∀ type typeName nSubTypes subTypes, (∀ s ∈ subTypes, P s) →
      P (.mk type typeName nSubTypes subTypes)) : ∀ t, P t
  | .mk type typeName nSubTypes subTypes =>
      mk type typeName nSubTypes subTypes (PlcType.inductAll mk subTypes)

theorem PlcType.inductAll {P : PlcType → Prop}
    (mk : ∀ type typeName nSubTypes subTypes, (∀ s ∈ subTypes, P s) →
      P (.mk type typeName nSubTypes subTypes)) : ∀ ts : List PlcType, ∀ s ∈ ts, P s
  | [] => by simp
  | t :: ts => List.forall_mem_cons.2 ⟨PlcType.induct mk t, PlcType.inductAll mk ts⟩

end

/-- `plc_get_type_length`: bytes one array entry takes; `none` where the code raises an error. -/
def plcGetTypeLength : PlcDatatype → Option ℕ
  | .int1 => some 1
  | .int2 => some 2
  | .int4 => some 4
  | .int8 => some 8
  | .float4 => some 4
  | .float8 => some 8
  | .text => some 8
  | .udt => some 8
  | .bytea => some 8
  | .array => none
  | .invalid => none
  | .unknown _ => none

/-! ## Values -/

/-- `plcArrayMeta`. -/
structure PlcArrayMeta where
  type : PlcDatatype
  ndims : BitVec 32
  dims : List (BitVec 32)
  size : BitVec 32
deriving DecidableEq, Repr

/-- What a non-null `rawdata.value` points to. The elements of an `iterator` are what successive
    calls of its `next` return. In an `array` the entry of a null element stays zeroed (`none`). -/
inductive Value where
  | int1 (v : UInt8)
  | int2 (v : BitVec 16)
  | int4 (v : BitVec 32)
  | int8 (v : BitVec 64)
  | float4 (bits : BitVec 32)
  | float8 (bits : BitVec 64)
  | text (s : Option CString)
  | bytea (b : Bytea)
  | iterator (arrMeta : PlcArrayMeta) (elems : List (Option Value))
  | array (arrMeta : PlcArrayMeta) (nulls : List Bool) (data : List (Option Value))
  | udt (data : List (Option Value))

/-- `rawdata`: `none` when `isnull` is set. -/
abbrev RawData := Option Value

/-- `plcArgument`. -/
structure PlcArgument where
  type : PlcType
  name : Option CString
  data : RawData

/-! ## Messages -/

/-- `plcProcSrc`. -/
structure PlcProcSrc where
  src : Option CString
  name : Option CString

/-- `plcMsgCallreq`. -/
structure PlcMsgCallreq where
  objectid : BitVec 32
  hasChanged : BitVec 32
  proc : PlcProcSrc
  logLevel : BitVec 32
  retType : PlcType
  retset : BitVec 32
  nargs : BitVec 32
  serverenc : Option CString
  args : List PlcArgument

/-- `plcMsgError`. -/
structure PlcMsgError where
  message : Option CString
  stacktrace : Option CString
deriving DecidableEq, Repr

/-- `plcMsgResult`. The callback is `none` when the pointer is `NULL`, else what calling it returns.
    `data` is empty when the pointer is `NULL`. -/
structure PlcMsgResult where
  rows : BitVec 32
  cols : BitVec 32
  types : List PlcType
  names : List (Option CString)
  data : List (List RawData)
  exceptionCallback : Option (Option PlcMsgError)

/-- `plcMsgLog`. -/
structure PlcMsgLog where
  level : BitVec 32
  message : Option CString

/-- `plcMsgQuote`. -/
structure PlcMsgQuote where
  quoteType : BitVec 32
  msg : Option CString

/-- `plcMsgQuoteResult`. -/
structure PlcMsgQuoteResult where
  quoteType : BitVec 32
  result : Option CString

/-- `plcMsgSQL`: for each `sqltype` the fields of the structure that the message uses. -/
inductive PlcMsgSQL where
  | statement (limit : BitVec 64) (statement : Option CString)
  | prepare (nargs : BitVec 32) (args : List PlcArgument) (statement : Option CString)
  | unprepare (pplan : BitVec 64)
  | pexecute (nargs : BitVec 32) (args : List PlcArgument) (limit pplan : BitVec 64)
  | unhandled (sqltype : BitVec 32)

/-- `plcMsgRaw`. -/
structure PlcMsgRaw where
  size : BitVec 32
  data : List UInt8

/-- `plcMsgSubtransaction`. -/
structure PlcMsgSubtransaction where
  action : UInt8
  type : UInt8

/-- `plcMsgSubtransactionResult`. -/
structure PlcMsgSubtransactionResult where
  result : BitVec 16

/-- `plcMessage`, with the structure behind each `msgtype`. -/
inductive PlcMessage where
  | ping
  | callreq (m : PlcMsgCallreq)
  | result (m : PlcMsgResult)
  | exception (m : PlcMsgError)
  | log (m : PlcMsgLog)
  | quote (m : PlcMsgQuote)
  | quoteResult (m : PlcMsgQuoteResult)
  | sql (m : PlcMsgSQL)
  | raw (m : PlcMsgRaw)
  | subtransaction (m : PlcMsgSubtransaction)
  | subtranResult (m : PlcMsgSubtransactionResult)

/-- The `MT_*` letters of `message_types.h`. -/
inductive MsgType where
  | ping
  | callreq
  | result
  | exception
  | log
  | quote
  | quoteResult
  | sql
  | raw
  | subtransaction
  | subtranResult
deriving DecidableEq, Repr

def MsgType.letter : MsgType → UInt8
  | .ping => 'P'.toUInt8
  | .callreq => 'C'.toUInt8
  | .result => 'R'.toUInt8
  | .exception => 'E'.toUInt8
  | .log => 'L'.toUInt8
  | .quote => 'Q'.toUInt8
  | .quoteResult => 'O'.toUInt8
  | .sql => 'S'.toUInt8
  | .raw => 'W'.toUInt8
  | .subtransaction => 'N'.toUInt8
  | .subtranResult => 'Z'.toUInt8

/-- The `MT_*_BIT` masks of `message_types.h`. -/
def MsgType.bit : MsgType → BitVec 64
  | .callreq => 0x1
  | .exception => 0x2
  | .log => 0x4
  | .ping => 0x8
  | .result => 0x10
  | .sql => 0x20
  | .raw => 0x200
  | .subtransaction => 0x400
  | .subtranResult => 0x800
  | .quote => 0x2000
  | .quoteResult => 0x4000

def mtAllBits : BitVec 64 := 0xFFFFffffFFFFffff

/-- `mask & MT_x_BIT`. -/
def MsgType.allowedBy (t : MsgType) (mask : BitVec 64) : Bool := mask &&& t.bit != 0

def PlcMessage.msgtype : PlcMessage → MsgType
  | .ping => .ping
  | .callreq _ => .callreq
  | .result _ => .result
  | .exception _ => .exception
  | .log _ => .log
  | .quote _ => .quote
  | .quoteResult _ => .quoteResult
  | .sql _ => .sql
  | .raw _ => .raw
  | .subtransaction _ => .subtransaction
  | .subtranResult _ => .subtranResult

/-- The `switch (cType)` of the receiver; `none` is its `default`. -/
def MsgType.ofLetter (c : UInt8) : Option MsgType :=
  if c = MsgType.letter .ping then some .ping
  else if c = MsgType.letter .callreq then some .callreq
  else if c = MsgType.letter .result then some .result
  else if c = MsgType.letter .exception then some .exception
  else if c = MsgType.letter .log then some .log
  else if c = MsgType.letter .quote then some .quote
  else if c = MsgType.letter .quoteResult then some .quoteResult
  else if c = MsgType.letter .sql then some .sql
  else if c = MsgType.letter .raw then some .raw
  else if c = MsgType.letter .subtransaction then some .subtransaction
  else if c = MsgType.letter .subtranResult then some .subtranResult
  else none

theorem MsgType.ofLetter_letter (t : MsgType) : MsgType.ofLetter t.letter = some t := by
  cases t <;> decide

end PlContainer
