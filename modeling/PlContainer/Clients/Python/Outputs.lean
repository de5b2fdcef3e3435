import PlContainer.Clients.Python.ListLeaves
import PlContainer.Common.Channel.RoundTrip
import PlContainer.Library.Checked
import PlContainer.Library.Format

set_option autoImplicit false

/-! # The output conversions of the Python client

`plc_pyobject_as_*` convert an object that a function returned to what is sent. A conversion returns 0
or -1, leaves something behind at `*output`, and reports an error if it fails. What it leaves behind
then differs from conversion to conversion, down to nothing at all; the sender looks at it all the
same. So memory that has not been assigned is part of the model, and reading it is an error. -/

namespace PlContainer

open Odometer Format

/-! ## What the conversions ask -/

/-- A `str`, given by its code points. -/
abbrev PyStr := List ℕ

/-- What the interpreter answers about objects, and how the compiler converts numbers. An `α` is an
    object that is neither `None` nor a sequence of the array conversions. -/
structure PyApi (α : Type) where
  /-- the client is built for Python 3 -/
  python3 : Bool
  /-- `PySequence_GetItem` of an object that is not a list -/
  item : α → ℕ → Option (PyObj α)
  /-- `PyLong_Check` or `PyInt_Check` -/
  int : α → Option ℤ
  /-- `PyFloat_Check`, and `PyFloat_AsDouble` -/
  float : α → Option (BitVec 64)
  /-- `PyUnicode_Check` -/
  unicode : α → Option PyStr
  /-- `PyObject_Repr` of a float, `PyObject_Str` of anything else; nothing if it raises -/
  str : PyObj α → Option PyStr
  /-- the same in Python 2, where it is a byte string -/
  byteStr : PyObj α → Option (List UInt8)
  /-- `PyUnicode_AsEncodedString` for the encoding of the server -/
  encode : PyStr → Option (List UInt8)
  /-- `PyUnicode_AsUTF8AndSize` -/
  utf8 : PyStr → Option (List UInt8)
  /-- `PyObject_Bytes` -/
  bytes : PyObj α → Option (List UInt8)
  /-- `PyDict_Check`, and `PyDict_GetItemString` -/
  dict : α → Option (CString → Option (PyObj α))
  /-- the object has code of its own that makes it a text or bytes and calls `plpy` functions, which
      send messages -/
  sends : PyObj α → Bool
  /-- `get_python_error` after the conversion of the object has failed -/
  trace : PyObj α → Option CString
  /-- casts from `double` to integers of some width -/
  doubleToInt : (w : ℕ) → BitVec 64 → BitVec w
  doubleToFloat : BitVec 64 → BitVec 32
  longToFloat : BitVec 64 → BitVec 32
  longToDouble : BitVec 64 → BitVec 64

/-! ## Errors -/

/-- The formats that the conversions give to `raise_execution_error`. -/
inductive ConvFormat where
  | transforming (type : PlcDatatype)
  | onlyDict
  | cannotFindKey
  | unicodeBytes
  | objectBytes
  | nonSequence

/-- The names of the types in the messages. -/
def PlcDatatype.transformedTo : PlcDatatype → String
  | .int1 => "int1"
  | .int2 => "int2"
  | .int4 => "int4"
  | .int8 => "int8"
  | .float4 => "float4"
  | .float8 => "float8"
  | _ => "text"

def ConvFormat.parts : ConvFormat → List Part
  | .transforming type =>
      [.lit "Exception occurred transforming result object to ", .lit type.transformedTo]
  | .onlyDict => [.lit "Only 'dict' object can be converted to UDT \"", .arg "%s", .lit "\""]
  | .cannotFindKey =>
      [.lit "Cannot find key '", .arg "%s",
        .lit "' in result dictionary for converting it into UDT"]
  | .unicodeBytes => [.lit "Failed to get byte representation of unicode string"]
  | .objectBytes => [.lit "Could not create bytes representation of Python object"]
  | .nonSequence => [.lit "Cannot convert non-sequence object to array"]

/-- The message of `raise_execution_error`: what `vsnprintf` prints, if there is room for it. As a C
    string it ends at the first NUL. -/
def errorMessage (format : List Part) (args : List CString) : CString :=
  let msg := (sprintf format args).takeWhile (· ≠ 0)
  if msg.length < 100 + 2 * formatLength format then msg
  else Json.utf8 "Error formatting error message string in raise_execution_error()".toList

/-- A string as `%s` prints it. -/
def printed : Option CString → CString
  | none => Json.utf8 "(null)".toList
  | some s => s

/-! ## What is left behind -/

/-- The client sends something else than one complete RESULT with values that were assigned. -/
inductive Broken where
  /-- it reads a value that was not assigned -/
  | unassigned
  | nullPointer
  /-- it writes behind an array -/
  | overflow
  /-- it exits -/
  | exits
  /-- it sends another message meanwhile -/
  | interleaved
deriving DecidableEq, Repr

/-- What a conversion leaves behind at `*output`. -/
inductive Out (α : Type) where
  /-- `*output` was not assigned, or what it points to was not -/
  | unassigned
  | null
  | flat (v : Value)
  | iterator (dims : List ℕ) (ptrs : List (Level (PyObj α)))
  /-- the `rawdata` of the fields: nothing if it was not assigned, then nothing for a null -/
  | udt (data : List (Option (Option (Out α))))

/-- An error that a conversion reports: the arguments of `raise_execution_error`, and the object that
    it converts. -/
structure ConvError (α : Type) where
  format : ConvFormat
  args : List CString
  input : PyObj α

/-- What a conversion does: whether it returns 0, what it leaves behind, and the errors that it
    reports. -/
structure Converted (α : Type) where
  ok : Bool
  output : Out α
  errors : List (ConvError α)

section

variable {α : Type} (api : PyApi α)

/-- The exception that `raise_execution_error` makes of an error. -/
def PyApi.exception (err : ConvError α) : PlcMsgError :=
  ⟨some (errorMessage err.format.parts err.args), api.trace err.input⟩

/-! ## Numbers -/

/-- `PyLong_AsLongLong`: -1 if the number does not fit. The exception that is raised then is not looked
    at by the conversions. -/
def pyLongAsLongLong (n : ℤ) : BitVec 64 :=
  if -2 ^ 63 ≤ n ∧ n < 2 ^ 63 then BitVec.ofInt 64 n else -1

/-- An integer of `w` bits from an `int` or a `float`. -/
def PyApi.integer (w : ℕ) : PyObj α → Option (BitVec w)
  | .leaf a =>
      match api.int a with
      | some n => some ((pyLongAsLongLong n).setWidth w)
      | none => (api.float a).map (api.doubleToInt w)
  | _ => none

/-- The common form of the conversions to numbers: they allocate the output first. -/
def asNumber (type : PlcDatatype) (value : Option Value) (input : PyObj α) : Converted α :=
  match value with
  | some v => ⟨true, .flat v, []⟩
  | none => ⟨false, .unassigned, [⟨.transforming type, [], input⟩]⟩

def PyApi.plcPyobjectAsInt1 (input : PyObj α) : Converted α :=
  asNumber .int1 ((api.integer 8 input).map fun v => .int1 (UInt8.ofBitVec v)) input

def PyApi.plcPyobjectAsInt2 (input : PyObj α) : Converted α :=
  asNumber .int2 ((api.integer 16 input).map .int2) input

def PyApi.plcPyobjectAsInt4 (input : PyObj α) : Converted α :=
  asNumber .int4 ((api.integer 32 input).map .int4) input

def PyApi.plcPyobjectAsInt8 (input : PyObj α) : Converted α :=
  asNumber .int8 ((api.integer 64 input).map .int8) input

/-- A floating-point number from a `float` or an `int`. -/
def PyApi.floating {w : ℕ} (ofDouble ofLong : BitVec 64 → BitVec w) : PyObj α → Option (BitVec w)
  | .leaf a =>
      match api.float a with
      | some d => some (ofDouble d)
      | none => (api.int a).map fun n => ofLong (pyLongAsLongLong n)
  | _ => none

def PyApi.plcPyobjectAsFloat4 (input : PyObj α) : Converted α :=
  asNumber .float4 ((api.floating api.doubleToFloat api.longToFloat input).map .float4) input

def PyApi.plcPyobjectAsFloat8 (input : PyObj α) : Converted α :=
  asNumber .float8 ((api.floating id api.longToDouble input).map .float8) input

/-! ## Texts and bytes -/

/-- `PyUnicode_Check` of any object. -/
def PyApi.unicode? : PyObj α → Option PyStr
  | .leaf a => api.unicode a
  | _ => none

/-- `PLyUnicode_Bytes`: the client exits if the server encoding does not have the text. -/
def PyApi.plyUnicodeBytes (unicode : PyStr) : Except Broken (List UInt8) :=
  match api.encode unicode with
  | some bytes => pure bytes
  | none => throw .exits

/-- `plrv_bo` of `plc_pyobject_as_text`; nothing for `NULL`. -/
def PyApi.plrvBo (input : PyObj α) : Except Broken (Option (List UInt8)) :=
  match api.unicode? input with
  | some s => some <$> api.plyUnicodeBytes s
  | none =>
      if api.sends input then throw .interleaved
      else if api.python3 then
        match api.str input with
        | some s => some <$> api.plyUnicodeBytes s
        -- `PyUnicode_AsEncodedString` looks at the type of its argument
        | none => throw .nullPointer
      else pure (api.byteStr input)

def PyApi.plcPyobjectAsText (input : PyObj α) : Except Broken (Converted α) := do
  match ← api.plrvBo input with
  | none => pure ⟨false, .null, [⟨.transforming .text, [], input⟩]⟩
  -- `pstrdup` stops at the first NUL
  | some bytes => pure ⟨true, .flat (.text (some (bytes.takeWhile (· ≠ 0)))), []⟩

/-- The end of `plc_pyobject_as_bytea`, when it has bytes or none. -/
def byteaOutput (format : ConvFormat) (input : PyObj α) : Option (List UInt8) → Converted α
  | some bytes => ⟨true, .flat (.bytea ⟨BitVec.ofNat 32 bytes.length, bytes⟩), []⟩
  | none => ⟨false, .unassigned, [⟨format, [], input⟩]⟩

def PyApi.plcPyobjectAsBytea (input : PyObj α) : Except Broken (Converted α) :=
  match if api.python3 then api.unicode? input else none with
  | some s => pure (byteaOutput .unicodeBytes input (api.utf8 s))
  | none =>
      if api.sends input then throw .interleaved
      else pure (byteaOutput .objectBytes input (api.bytes input))

/-! ## Arrays and composite types -/

/-- `plc_pyobject_as_array`, as an output function. A length that is negative as an `int` is refused
    without an error of its own. -/
def plcPyobjectAsArrayOutput (input : PyObj α) : Except Broken (Converted α) :=
  match plcPyobjectAsArray input with
  | .iterator dims ptrs => pure ⟨true, .iterator dims ptrs, []⟩
  | .overflow => throw .overflow
  | .refused =>
      match input with
      | .list _ => pure ⟨false, .null, []⟩
      | _ => pure ⟨false, .null, [⟨.nonSequence, [], input⟩]⟩

/-- `PyDict_Check` of any object. -/
def PyApi.dict? : PyObj α → Option (CString → Option (PyObj α))
  | .leaf a => api.dict a
  | _ => none

/-- The loop of `plc_pyobject_as_udt` over the fields. -/
structure ConvertedFields (α : Type) where
  ok : Bool
  data : List (Option (Option (Out α)))
  errors : List (ConvError α)

/-- The fields after one that fails are not assigned. -/
def ConvertedFields.failed (ts : List PlcType) (field : Option (Out α))
    (errors : List (ConvError α)) : ConvertedFields α :=
  ⟨false, some field :: ts.map fun _ => none, errors⟩

/-- A field that is converted, followed by the others. -/
def ConvertedFields.cons (field : Option (Out α)) (errors : List (ConvError α))
    (rest : ConvertedFields α) : ConvertedFields α :=
  ⟨rest.ok, some field :: rest.data, errors ++ rest.errors⟩

mutual

/-- The output function of a type (`Ply_get_output_function`). There is none for the types that have no
    values. -/
def PyApi.outputfunc : PlcType → PyObj α → Except Broken (Converted α)
  | .mk type typeName _ subTypes, input =>
      match type with
      | .int1 => pure (api.plcPyobjectAsInt1 input)
      | .int2 => pure (api.plcPyobjectAsInt2 input)
      | .int4 => pure (api.plcPyobjectAsInt4 input)
      | .int8 => pure (api.plcPyobjectAsInt8 input)
      | .float4 => pure (api.plcPyobjectAsFloat4 input)
      | .float8 => pure (api.plcPyobjectAsFloat8 input)
      | .text => api.plcPyobjectAsText input
      | .bytea => api.plcPyobjectAsBytea input
      | .array => plcPyobjectAsArrayOutput input
      -- `plc_pyobject_as_udt`
      | .udt =>
          match api.dict? input with
          | none => pure ⟨false, .null, [⟨.onlyDict, [printed typeName], input⟩]⟩
          | some get => do
              let r ← PyApi.udtFields subTypes input get
              pure ⟨r.ok, .udt r.data, r.errors⟩
      | .invalid => throw .nullPointer
      | .unknown _ => throw .nullPointer

def PyApi.udtFields : List PlcType → PyObj α → (CString → Option (PyObj α)) →
    Except Broken (ConvertedFields α)
  | [], _, _ => pure ⟨true, [], []⟩
  | t :: ts, input, get =>
      match t.typeName with
      | none => throw .nullPointer
      | some key =>
          match get key with
          | none => pure (.failed ts none [⟨.cannotFindKey, [key], input⟩])
          | some .none => .cons none [] <$> PyApi.udtFields ts input get
          | some value => do
              let c ← PyApi.outputfunc t value
              if c.ok then .cons (some c.output) c.errors <$> PyApi.udtFields ts input get
              else pure (.failed ts (some c.output) c.errors)

end

end

end PlContainer
