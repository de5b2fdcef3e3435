import PlContainer.Common.Channel.Receive
import Mathlib.Algebra.BigOperators.Group.List.Basic

set_option autoImplicit false

/-! # Well-formed messages, and what the receiver makes of them

The conditions under which the channel promises to carry a message, as decidable checks, and the two
views of a value that crosses it: `delivered` is the value the receiver builds (each iterator becomes
a flat array), `readBack` reads such a flat array element by element. -/

namespace PlContainer

/-! ## Well-formedness -/

/-- Strings, byteas and raw payloads stay below this many bytes. -/
def maxPayload : ℕ := 2 ^ 29

def cstringOk : Option CString → Bool
  | none => true
  | some s => !s.contains 0 && decide (s.length < maxPayload)

def Bytea.wellFormed (b : Bytea) : Bool :=
  decide (b.len.toInt = b.data.length) && decide (b.data.length < maxPayload)

/-- The value is of the given type, for the types without subtypes. -/
def flatMatches : PlcDatatype → Value → Bool
  | .int1, .int1 _ => true
  | .int2, .int2 _ => true
  | .int4, .int4 _ => true
  | .int8, .int8 _ => true
  | .float4, .float4 _ => true
  | .float8, .float8 _ => true
  | .text, .text s => cstringOk s
  | .bytea, .bytea b => b.wellFormed
  | _, _ => false

/-- The shape of a type's list of subtypes: none for a scalar, one for an array (itself not an
    array), and any number for a composite type. -/
def subTypesOk : PlcDatatype → List PlcType → Bool
  | .array, [e] => decide (e.type ≠ .array)
  | .array, _ => false
  | .udt, _ => true
  | _, subTypes => subTypes.isEmpty

mutual

def PlcType.wellFormed : PlcType → Bool
  | .mk type typeName nSubTypes subTypes =>
      type.canonical && cstringOk typeName && decide (nSubTypes.toInt = subTypes.length)
        && subTypesOk type subTypes && PlcType.allWellFormed subTypes

def PlcType.allWellFormed : List PlcType → Bool
  | [] => true
  | t :: ts => t.wellFormed && PlcType.allWellFormed ts

end

/-- The number of elements an array header announces. -/
def PlcArrayMeta.elemCount (arrMeta : PlcArrayMeta) : ℤ :=
  if arrMeta.ndims = 0 then 0 else (arrMeta.dims.map BitVec.toInt).prod

/-- An array header for `n` elements of type `t`. -/
def PlcArrayMeta.wellFormed (arrMeta : PlcArrayMeta) (t : PlcDatatype) (n : ℕ) : Bool :=
  decide (arrMeta.type = t) && decide (arrMeta.ndims.toInt = arrMeta.dims.length)
    && decide (arrMeta.size.toInt = n) && decide ((n : ℤ) = arrMeta.elemCount)
    && decide (n < 2 ^ 28)

mutual

/-- The object is null, or its value matches the type tree. An array that has elements is of an
    element type that has values at all. -/
def rawMatches : PlcType → RawData → Bool
  | _, none => true
  | .mk type _ _ subTypes, some v =>
      match type, v with
      | .array, .iterator arrMeta elems =>
          match subTypes with
          | [] => false
          | elemType :: _ =>
              arrMeta.wellFormed elemType.type elems.length && elems.all (rawMatches elemType)
                && (elems.isEmpty || (plcGetTypeLength elemType.type).isSome)
      | .udt, .udt data => fieldsMatch subTypes data
      | t, v => flatMatches t v

def fieldsMatch : List PlcType → List RawData → Bool
  | [], [] => true
  | t :: ts, d :: ds => rawMatches t d && fieldsMatch ts ds
  | _, _ => false

end

def PlcArgument.wellFormed (arg : PlcArgument) : Bool :=
  cstringOk arg.name && arg.type.wellFormed && rawMatches arg.type arg.data

/-- A counted array of arguments. -/
def argumentsOk (nargs : BitVec 32) (args : List PlcArgument) : Bool :=
  decide (nargs.toInt = args.length) && args.all PlcArgument.wellFormed

def PlcMsgCallreq.wellFormed (m : PlcMsgCallreq) : Bool :=
  cstringOk m.proc.name && cstringOk m.proc.src && cstringOk m.serverenc && m.retType.wellFormed
    && argumentsOk m.nargs m.args

def PlcMsgError.wellFormed (m : PlcMsgError) : Bool :=
  cstringOk m.message && cstringOk m.stacktrace

/-- Rows and columns are as many as announced; a result without columns carries no data. -/
def PlcMsgResult.wellFormed (m : PlcMsgResult) : Bool :=
  decide (m.cols.toNat = m.types.length) && decide (m.names.length = m.types.length)
    && PlcType.allWellFormed m.types && m.names.all cstringOk
    && (if m.cols = 0 then m.data.isEmpty
        else decide (m.rows.toNat = m.data.length) && m.data.all (fieldsMatch m.types))
    && (m.exceptionCallback.bind id).all PlcMsgError.wellFormed

def PlcMsgSQL.wellFormed : PlcMsgSQL → Bool
  | .statement _ stmt => cstringOk stmt
  | .prepare nargs args stmt => argumentsOk nargs args && cstringOk stmt
  | .unprepare _ => true
  | .pexecute nargs args _ _ => argumentsOk nargs args
  | .unhandled _ => false

def PlcMsgRaw.wellFormed (m : PlcMsgRaw) : Bool :=
  decide (m.size.toInt = m.data.length) && decide (m.data.length < maxPayload)

def PlcMessage.wellFormed : PlcMessage → Bool
  | .ping => true
  | .callreq m => m.wellFormed
  | .result m => m.wellFormed
  | .exception m => m.wellFormed
  | .log m => cstringOk m.message
  | .quote m => cstringOk m.msg
  | .quoteResult m => cstringOk m.result
  | .sql m => m.wellFormed
  | .raw m => m.wellFormed
  | .subtransaction _ => true
  | .subtranResult _ => true

/-! ## The received form -/

mutual

/-- The value the receiver builds from a value sent. -/
def Value.delivered : Value → Value
  | .iterator arrMeta elems => .array arrMeta (elems.map Option.isNone) (Value.deliveredAll elems)
  | .udt data => .udt (Value.deliveredAll data)
  | v => v

def Value.deliveredRaw : RawData → RawData
  | none => none
  | some v => some v.delivered

def Value.deliveredAll : List RawData → List RawData
  | [] => []
  | d :: ds => Value.deliveredRaw d :: Value.deliveredAll ds

end

theorem Value.deliveredAll_eq_map (ds : List RawData) :
    Value.deliveredAll ds = ds.map Value.deliveredRaw := by
  induction ds with
  | nil => rfl
  | cons d ds ih => simp only [Value.deliveredAll, List.map_cons, ih]

theorem Value.deliveredRaw_isNone (d : RawData) :
    (Value.deliveredRaw d).isNone = d.isNone := by
  cases d <;> rfl

/-- A flat array's element: null when its flag says so, else the entry. -/
def arrayEntry (isnull : Bool) (entry : RawData) : RawData :=
  if isnull then none else entry

mutual

/-- A received value read element by element: a flat array becomes what an iterator over it
    returns. -/
def Value.readBack : Value → Value
  | .array arrMeta nulls data =>
      .iterator arrMeta (List.zipWith arrayEntry nulls (Value.readBackAll data))
  | .udt data => .udt (Value.readBackAll data)
  | v => v

def Value.readBackRaw : RawData → RawData
  | none => none
  | some v => some v.readBack

def Value.readBackAll : List RawData → List RawData
  | [] => []
  | d :: ds => Value.readBackRaw d :: Value.readBackAll ds

end

theorem Value.readBackAll_eq_map (ds : List RawData) :
    Value.readBackAll ds = ds.map Value.readBackRaw := by
  induction ds with
  | nil => rfl
  | cons d ds ih => simp only [Value.readBackAll, List.map_cons, ih]

/-! ## Messages as delivered and as read -/

/-- Apply a change of representation to every value of a message. -/
def PlcArgument.mapData (f : RawData → RawData) (arg : PlcArgument) : PlcArgument :=
  { arg with data := f arg.data }

def PlcMsgCallreq.mapData (f : RawData → RawData) (m : PlcMsgCallreq) : PlcMsgCallreq :=
  { m with args := m.args.map (PlcArgument.mapData f) }

def PlcMsgResult.mapData (f : RawData → RawData) (m : PlcMsgResult) : PlcMsgResult :=
  { m with data := m.data.map (List.map f) }

def PlcMsgSQL.mapData (f : RawData → RawData) : PlcMsgSQL → PlcMsgSQL
  | .prepare nargs args stmt => .prepare nargs (args.map (PlcArgument.mapData f)) stmt
  | .pexecute nargs args limit pplan =>
      .pexecute nargs (args.map (PlcArgument.mapData f)) limit pplan
  | m => m

def PlcMessage.mapData (f : RawData → RawData) : PlcMessage → PlcMessage
  | .callreq m => .callreq (m.mapData f)
  | .result m => .result (m.mapData f)
  | .sql m => .sql (m.mapData f)
  | m => m

/-- What the peer is to get: the error of a result that has one, else the message itself. The
    callback of a result is not part of it. -/
def PlcMessage.answer : PlcMessage → PlcMessage
  | .result m =>
      match m.exceptionCallback with
      | some (some err) => .exception err
      | _ => .result { m with exceptionCallback := none }
  | m => m

/-- A received message with every flat array read element by element. -/
def PlcMessage.readBack : PlcMessage → PlcMessage := PlcMessage.mapData Value.readBackRaw

end PlContainer
