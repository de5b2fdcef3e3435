import PlContainer.Backend.Composite
import PlContainer.Common.Channel.ArrayBlocks
import PlContainer.Library.Cells

set_option autoImplicit false

/-! # Arrays of the database

`plc_datum_as_array` gives out the elements of an array one by one: a null takes a bit of the bitmap
and no place in the data, so the bitmap and the data are followed by pointers of their own.
`plc_datum_from_array` builds an array from the blocks of `receive_array`, in which a null has a place
like any other element and strings, byte arrays and composite values stand behind pointers. -/

namespace PlContainer

open Block ByteStream Cells

/-! ## Elements -/

/-- The `infunc`s that `fill_type_info` gives to elements of arrays. -/
inductive ElementInput where
  | int1
  | int2
  | int4
  | int8
  | float4
  | float8
  | float8Numeric
  | textPtr
  | byteaPtr
  | udtPtr
deriving DecidableEq, Repr

def ElementInput.type : ElementInput → PlcDatatype
  | .int1 => .int1
  | .int2 => .int2
  | .int4 => .int4
  | .int8 => .int8
  | .float4 => .float4
  | .float8 | .float8Numeric => .float8
  | .textPtr => .text
  | .byteaPtr => .bytea
  | .udtPtr => .udt

/-- The `infunc` of a type, if it is one of these. -/
def PlcTypeInfo.elementInput : PlcTypeInfo → Option ElementInput
  | .scalar .int1 _ => some .int1
  | .scalar .int2 _ => some .int2
  | .scalar .int4 _ => some .int4
  | .scalar .int8 _ => some .int8
  | .scalar .float4 _ => some .float4
  | .scalar .float8 _ => some .float8
  | .scalar .float8Numeric _ => some .float8Numeric
  | .scalar .textPtr _ => some .textPtr
  | .scalar .byteaPtr _ => some .byteaPtr
  | .udt true _ _ => some .udtPtr
  | _ => none

/-- What the conversions of one element type compute. -/
structure Conversions (D : Type) where
  datum0 : D
  datumGetBool : D → UInt8
  datumGetInt16 : D → BitVec 16
  datumGetInt32 : D → BitVec 32
  datumGetInt64 : D → BitVec 64
  datumGetFloat4 : D → BitVec 32
  datumGetFloat8 : D → BitVec 64
  numericFloat8 : D → BitVec 64
  output : D → CString
  datumGetBytea : D → Bytea
  attributes : D → List RawData
  boolGetDatum : UInt8 → D
  int16GetDatum : BitVec 16 → D
  int32GetDatum : BitVec 32 → D
  int64GetDatum : BitVec 64 → D
  float4GetDatum : BitVec 32 → D
  float8GetDatum : BitVec 64 → D
  float8Numeric : BitVec 64 → D
  input : Option CString → D
  byteaGetDatum : Bytea → D
  tuple : List RawData → D

section

variable {D : Type} (c : Conversions D)

/-- `plc_datum_as_*` -/
def ElementInput.outfunc : ElementInput → D → Value
  | .int1, d => .int1 (c.datumGetBool d)
  | .int2, d => .int2 (c.datumGetInt16 d)
  | .int4, d => .int4 (c.datumGetInt32 d)
  | .int8, d => .int8 (c.datumGetInt64 d)
  | .float4, d => .float4 (c.datumGetFloat4 d)
  | .float8, d => .float8 (c.datumGetFloat8 d)
  | .float8Numeric, d => .float8 (c.numericFloat8 d)
  | .textPtr, d => .text (some (c.output d))
  | .byteaPtr, d => .bytea (c.datumGetBytea d)
  | .udtPtr, d => .udt (c.attributes d)

/-- What `plc_datum_from_*` makes of a value of its type. -/
def ElementInput.datumOf : ElementInput → Value → Option D
  | .int1, .int1 v => some (c.boolGetDatum v)
  | .int2, .int2 v => some (c.int16GetDatum v)
  | .int4, .int4 v => some (c.int32GetDatum v)
  | .int8, .int8 v => some (c.int64GetDatum v)
  | .float4, .float4 v => some (c.float4GetDatum v)
  | .float8, .float8 v => some (c.float8GetDatum v)
  | .float8Numeric, .float8 v => some (c.float8Numeric v)
  | .textPtr, .text s => some (c.input s)
  | .byteaPtr, .bytea b => some (c.byteaGetDatum b)
  | .udtPtr, .udt data => some (c.tuple data)
  | _, _ => none

/-- `plc_datum_from_*` on the place `ptr` of a block: numbers are read there, everything else stands
    behind a pointer. -/
def ElementInput.infunc (input : ElementInput) (heap : List Value) (block : List Cell) (ptr : ℕ) :
    Option D :=
  match input with
  | .int1 => (word? block ptr 1).map fun n => c.boolGetDatum (UInt8.ofNat n)
  | .int2 => (word? block ptr 2).map fun n => c.int16GetDatum (BitVec.ofNat 16 n)
  | .int4 => (word? block ptr 4).map fun n => c.int32GetDatum (BitVec.ofNat 32 n)
  | .int8 => (word? block ptr 8).map fun n => c.int64GetDatum (BitVec.ofNat 64 n)
  | .float4 => (word? block ptr 4).map fun n => c.float4GetDatum (BitVec.ofNat 32 n)
  | .float8 => (word? block ptr 8).map fun n => c.float8GetDatum (BitVec.ofNat 64 n)
  | .float8Numeric => (word? block ptr 8).map fun n => c.float8Numeric (BitVec.ofNat 64 n)
  | .textPtr | .byteaPtr | .udtPtr => (deref? heap block ptr).bind (input.datumOf c)

end

/-! ## From the database -/

/-- Element `i` is null: there is a bitmap, and bit `i mod 8` of its byte `i div 8` is 0. -/
def isNullAt (bitmap : Option (List UInt8)) (i : ℕ) : Bool :=
  match bitmap with
  | none => false
  | some bytes => !(bytes.getD (i / 8) 0).toBitVec.getLsbD (i % 8)

/-- The number of elements before `i` that are not null. -/
def nonNullsBefore (bitmap : Option (List UInt8)) (i : ℕ) : ℕ :=
  (List.range i).countP fun j => !isNullAt bitmap j

/-- `MaxArraySize` -/
def maxArraySize : ℕ := 134217727

/-- `ArrayType`, as it is stored: its dimensions, its bitmap if any, and the datums of the elements that
    are not null. -/
structure ArrayType (D : Type) where
  dims : List (BitVec 32)
  bitmap : Option (List UInt8)
  stored : List D
  ndims_lt : dims.length < 2 ^ 31
  count_nonneg : 0 ≤ elementCount dims
  count_le : elementCount dims ≤ maxArraySize
  bitmap_length : ∀ bytes, bitmap = some bytes → elementCount dims ≤ 8 * bytes.length
  stored_length : stored.length = nonNullsBefore bitmap (elementCount dims).toNat

/-- `plcIterator` with its `plcArrayTypePosition`. A pointer is what there is from it on: `data` the
    datums that are left (`fetch_att` takes the first one, `att_addlength_pointer` and
    `att_align_nominal` step to the next), `bitmap` the bytes that are left. -/
structure PgArrayIterator (D : Type) where
  arrMeta : PlcArrayMeta
  data : List D
  bitmap : Option (List UInt8)
  bitmask : BitVec 32

section

variable {D : Type}

def ArrayType.plcDatumAsArray (input : ElementInput) (array : ArrayType D) : PgArrayIterator D where
  arrMeta :=
    let ndims := BitVec.ofNat 32 array.dims.length
    ⟨input.type, ndims, array.dims, if 0 < ndims.toInt then array.dims.foldl (· * ·) 1 else 0⟩
  data := array.stored
  bitmap := array.bitmap
  bitmask := 1

/-- `pos->bitmap && (*(pos->bitmap) & pos->bitmask) == 0`; nothing if that reads past the bitmap. -/
def PgArrayIterator.atNull (self : PgArrayIterator D) : Option Bool :=
  match self.bitmap with
  | none => some false
  | some [] => none
  | some (byte :: _) => some (byte.toBitVec.setWidth 32 &&& self.bitmask == 0)

def PgArrayIterator.advanceBitmap (self : PgArrayIterator D) : PgArrayIterator D :=
  match self.bitmap with
  | none => self
  | some bytes =>
      if self.bitmask <<< 1 = 0x100 then { self with bitmap := some bytes.tail, bitmask := 1 }
      else { self with bitmask := self.bitmask <<< 1 }

/-- `plc_backend_array_next`; nothing if it reads past the bitmap or the data. -/
def plcBackendArrayNext (outfunc : D → Value) (self : PgArrayIterator D) :
    Option (RawData × PgArrayIterator D) :=
  match self.atNull, self.data with
  | none, _ => none
  | some true, _ => some (none, self.advanceBitmap)
  | some false, [] => none
  | some false, d :: ds =>
      some (some (outfunc d), { self with data := ds }.advanceBitmap)

/-- `n` calls of `next`. -/
def PgArrayIterator.take (outfunc : D → Value) : ℕ → PgArrayIterator D →
    Option (List RawData × PgArrayIterator D)
  | 0, self => some ([], self)
  | n + 1, self =>
      (plcBackendArrayNext outfunc self).bind fun r =>
        (r.2.take outfunc n).map fun rs => (r.1 :: rs.1, rs.2)

end

/-! ## The blocks of an array that was received -/

/-- `plcArray` after `receive_array`. The flags are not set before an element is received. -/
structure PlcArrayBlocks where
  arrMeta : PlcArrayMeta
  nulls : List (Option Bool)
  data : List Cell
  heap : List Value

/-- The bytes of a value that stands in the block itself. -/
def Value.entryBytes : Value → Option (List UInt8)
  | .int1 v => some [v]
  | .int2 v => some (leBytes 2 v.toNat)
  | .int4 v => some (leBytes 4 v.toNat)
  | .int8 v => some (leBytes 8 v.toNat)
  | .float4 v => some (leBytes 4 v.toNat)
  | .float8 v => some (leBytes 8 v.toNat)
  | _ => none

/-- One round of the element loop of `receive_array`. -/
def PlcArrayBlocks.store (entrylen i : ℕ) (arr : PlcArrayBlocks) : RawData → PlcArrayBlocks
  | none => { arr with nulls := arr.nulls.set i (some true) }
  | some v =>
      let off := (entryOffset arr.arrMeta.type entrylen i).toNat
      let nulls := arr.nulls.set i (some false)
      match v.entryBytes with
      | some bs => { arr with nulls, data := overwrite arr.data off (ofBytes bs) }
      | none =>
          -- what `receive_cstring` and the others allocate
          { arr with
            nulls
            data := overwrite arr.data off (pointer arr.heap.length)
            heap := arr.heap ++ [v] }

def PlcArrayBlocks.storeAll (entrylen : ℕ) : ℕ → List RawData → PlcArrayBlocks → PlcArrayBlocks
  | _, [], arr => arr
  | i, d :: ds, arr => (arr.store entrylen i d).storeAll entrylen (i + 1) ds

/-- The blocks of `receive_array` when it gets the elements `elems`. -/
def receiveBlocks (type : PlcDatatype) (ndims : BitVec 32) (dims : List (BitVec 32))
    (elems : List RawData) : Option PlcArrayBlocks :=
  let size : BitVec 32 := if 0 < ndims.toInt then dims.foldl (· * ·) 1 else 0
  let arrMeta : PlcArrayMeta := ⟨type, ndims, dims, size⟩
  if 0 < size.toInt then
    (plcGetTypeLength type).map fun entrylen =>
      PlcArrayBlocks.storeAll entrylen 0 elems
        { arrMeta
          nulls := List.replicate size.toInt.toNat none
          data := List.replicate (size * BitVec.ofNat 32 entrylen).toInt.toNat (.byte 0)
          heap := [] }
  else some ⟨arrMeta, [], [], []⟩

/-! ## To the database -/

/-- The arguments of `construct_md_array` that depend on the array. -/
structure ConstructMdArray (D : Type) where
  elems : List D
  nulls : List (Option Bool)
  ndims : BitVec 32
  dims : List (BitVec 32)
  lbs : List (BitVec 32)

section

variable {D : Type} (c : Conversions D) (input : ElementInput)

/-- The loop of `plc_datum_from_array` with `n` rounds left. -/
def datumsFromBlocks (arr : PlcArrayBlocks) (len : ℕ) : ℕ → ℕ → ℕ → Option (List D)
  | 0, _, _ => some []
  | n + 1, i, ptr =>
      let elem :=
        match arr.nulls[i]? with
        | some (some false) => input.infunc c arr.heap arr.data ptr
        | some (some true) => some c.datum0
        | _ => none
      elem.bind fun d => (datumsFromBlocks arr len n (i + 1) (ptr + len)).map (d :: ·)

def PlcArrayBlocks.plcDatumFromArray (arr : PlcArrayBlocks) : Option (ConstructMdArray D) :=
  (plcGetTypeLength input.type).bind fun len =>
    (datumsFromBlocks c input arr len arr.arrMeta.size.toInt.toNat 0 0).map fun elems =>
      ⟨elems, arr.nulls, arr.arrMeta.ndims, arr.arrMeta.dims,
        List.replicate arr.arrMeta.ndims.toInt.toNat 1⟩

end

end PlContainer
