import PlContainer.Common.Channel.Values
import PlContainer.Library.Recorder

set_option autoImplicit false

/-! # The blocks of `receive_array`

`receive_array` computes the number of elements and the sizes of its two blocks, `nulls` and `data`,
in `int`, and then stores one element after the other. Here it is written once more as a recorder
that notes where each round of its element loop stores, together with the size of the block it was
given. `records_tracedArray` shows that it reads exactly as `receiveArray` does. -/

namespace PlContainer

open ByteStream

inductive ArrayBlock where
  | nulls
  | data
deriving DecidableEq, Repr

/-- A store of `len` bytes at `off` in a block that has `size` bytes. -/
structure ArrayStore where
  block : ArrayBlock
  size : ℤ
  off : ℤ
  len : ℤ
deriving DecidableEq, Repr

def ArrayStore.Inside (st : ArrayStore) : Prop := 0 ≤ st.off ∧ st.off + st.len ≤ st.size

/-! ## The loop with its stores -/

/-- The offset of entry `i`: `arr->data + i * entrylen` is computed in `int`, while
    `&((char **) arr->data)[i]` is pointer arithmetic. -/
def entryOffset (type : PlcDatatype) (entrylen i : ℕ) : ℤ :=
  match type with
  | .text | .bytea | .udt => i * 8
  | _ => (BitVec.ofNat 32 i * BitVec.ofNat 32 entrylen).toInt

/-- `nulls[i] = ...` -/
def nullStore (size : BitVec 32) (i : ℕ) : ArrayStore := ⟨.nulls, size.toInt, i, 1⟩

/-- The place that the receive function of element `i` is given. -/
def entryStore (type : PlcDatatype) (size : BitVec 32) (entrylen i : ℕ) : ArrayStore :=
  ⟨.data, (size * BitVec.ofNat 32 entrylen).toInt, entryOffset type entrylen i, entrylen⟩

/-- The switch in the element loop: what is received for an element that is not null. -/
def receiveEntry : PlcType → Receive RawData
  | .mk type _ nSubTypes subTypes =>
      match type with
      | .array => throw (.shouldNotGetHere .array)
      | .udt => do
          pmalloc (nSubTypes.toInt * 16)
          let data ← receiveUdt nSubTypes.toInt.toNat subTypes
          pure (some (.udt data))
      | t => do
          let v ← receiveFlat t
          pure (some v)

theorem receiveArrayElement_eq_entry (t : PlcType) :
    receiveArrayElement t =
      receiveChar >>= fun isnull =>
        if isnull = 'N'.toUInt8 then pure none else receiveEntry t := by
  obtain ⟨type, typeName, n, subTypes⟩ := t
  unfold receiveArrayElement receiveEntry
  rfl

/-- One round of the element loop. -/
def tracedElement (t : PlcType) (size : BitVec 32) (entrylen i : ℕ) :
    Recorder ArrayStore ChannelError RawData := do
  note (nullStore size i)
  let isnull ← plain receiveChar
  if isnull = 'N'.toUInt8 then pure none
  else do
    note (entryStore t.type size entrylen i)
    plain (receiveEntry t)

/-- The element loop with `n` rounds left, the next one of index `i`. -/
def tracedElements (t : PlcType) (size : BitVec 32) (entrylen : ℕ) :
    ℕ → ℕ → Recorder ArrayStore ChannelError (List RawData)
  | 0, _ => pure []
  | n + 1, i => do
      let d ← tracedElement t size entrylen i
      let ds ← tracedElements t size entrylen n (i + 1)
      pure (d :: ds)

/-- `receive_array` after it has received the dimensions. -/
def tracedBody (t : PlcType) (ndims : BitVec 32) (dims : List (BitVec 32)) :
    Recorder ArrayStore ChannelError Value := do
  let size : BitVec 32 := if 0 < ndims.toInt then dims.foldl (· * ·) 1 else 0
  let arrMeta : PlcArrayMeta := ⟨t.type, ndims, dims, size⟩
  if 0 < size.toInt then
    match plcGetTypeLength t.type with
    | none => throw (.shouldNotGetHere t.type)
    | some entrylen => do
        plain (pmalloc size.toInt)
        plain (pmalloc (size * BitVec.ofNat 32 entrylen).toInt)
        let elems ← tracedElements t size entrylen size.toInt.toNat 0
        pure (.array arrMeta (elems.map Option.isNone) elems)
  else pure (.array arrMeta [] [])

def tracedArray (t : PlcType) : Recorder ArrayStore ChannelError Value := do
  let ndims ← plain receiveInt32
  let dims ← plain (readN receiveInt32 ndims.toInt.toNat)
  tracedBody t ndims dims

/-- The number of rounds that have been made: each stores one null flag. -/
def roundsOf (stores : List ArrayStore) : ℕ := stores.countP fun st => st.block == .nulls

/-! ## What the loop stores -/

section Stores

variable {t : PlcType} {size : BitVec 32} {entrylen : ℕ}

/-- The stores of round `i`. -/
def StoreOf (t : PlcType) (size : BitVec 32) (entrylen i : ℕ) (st : ArrayStore) : Prop :=
  st = nullStore size i ∨ st = entryStore t.type size entrylen i

theorem records_tracedElement (i : ℕ) :
    Records (fun _ used => (∀ st ∈ used, StoreOf t size entrylen i st) ∧ roundsOf used = 1)
      (tracedElement t size entrylen i) (receiveArrayElement t) := by
  rw [receiveArrayElement_eq_entry, tracedElement]
  -- after the null flag at most the entry is stored
  have hrest : Records
      (fun _ used => (∀ st ∈ used, st = entryStore t.type size entrylen i) ∧ roundsOf used = 0)
      (do let isnull ← plain receiveChar
          if isnull = 'N'.toUInt8 then pure none
          else do
            note (entryStore t.type size entrylen i)
            plain (receiveEntry t))
      (receiveChar >>= fun isnull =>
        if isnull = 'N'.toUInt8 then pure none else receiveEntry t) := by
    refine Records.plain_bind (by simp [roundsOf]) fun isnull => ?_
    split
    · exact Records.pure (by simp [roundsOf])
    · have hplain : Records (fun _ used => used = [])
          (plain (receiveEntry t) : Recorder ArrayStore ChannelError RawData) (receiveEntry t) :=
        Records.plain _ fun _ => rfl
      refine Records.note_bind hplain ?_
      rintro r v rfl
      simp [roundsOf, entryStore]
  refine Records.note_bind hrest ?_
  rintro r v ⟨hall, hcount⟩
  refine ⟨List.forall_mem_cons.2 ⟨.inl rfl, fun st hst => .inr (hall st hst)⟩, ?_⟩
  rw [roundsOf] at hcount ⊢
  simp [hcount, nullStore]

/-- The stores of rounds `i` to `i + n`; a loop that ends has made all its rounds. -/
structure LoopStores (t : PlcType) (size : BitVec 32) (entrylen n i : ℕ)
    (done : Bool) (used : List ArrayStore) : Prop where
  stores : ∀ st ∈ used, ∃ j, i ≤ j ∧ j < i + n ∧ StoreOf t size entrylen j st
  rounds : done = true → roundsOf used = n

theorem records_tracedElements (n i : ℕ) :
    Records (fun r => LoopStores t size entrylen n i r.isSome) (tracedElements t size entrylen n i)
      (readN (receiveArrayElement t) n) := by
  induction n generalizing i with
  | zero => exact Records.pure ⟨by simp, by simp [roundsOf]⟩
  | succ n ih =>
      have hrest (d : RawData) : Records (fun r => LoopStores t size entrylen n (i + 1) r.isSome)
          (do let ds ← tracedElements t size entrylen n (i + 1); pure (d :: ds))
          (do let ds ← readN (receiveArrayElement t) n; pure (d :: ds)) := by
        refine Records.map (d :: ·) ?_
        simp only [Option.isSome_map]
        exact ih (i + 1)
      refine Records.bind (records_tracedElement i) hrest ?_ ?_
      -- the element fails, or it is read and the rest of the loop goes on from the next round
      · rintro u ⟨hu, -⟩
        exact ⟨fun st hst => ⟨i, le_refl i, by omega, hu st hst⟩, by simp⟩
      · rintro d r u v ⟨hu, hround⟩ ⟨hv, hrounds⟩
        refine ⟨fun st hst => ?_, fun hr => ?_⟩
        · rcases List.mem_append.1 hst with hst | hst
          · exact ⟨i, le_refl i, by omega, hu st hst⟩
          · obtain ⟨j, hle, hlt, hof⟩ := hv st hst
            exact ⟨j, by omega, by omega, hof⟩
        · have hcount := hrounds hr
          rw [roundsOf] at hround hcount ⊢
          rw [List.countP_append, hround, hcount]
          omega

theorem plain_receiveChar (c : UInt8) (s : List UInt8) (log : List ArrayStore) :
    plain receiveChar (c :: s) log = (.ok (c, s), log) := by
  obtain ⟨bs, hbs, hread⟩ := transfers_sendChar c
  cases hbs
  rw [plain]
  exact congrArg (·, log) (hread s)

theorem tracedElement_null (i : ℕ) (s : List UInt8) (log : List ArrayStore) :
    tracedElement t size entrylen i ('N'.toUInt8 :: s) log
      = (.ok (none, s), log ++ [nullStore size i]) := by
  rw [tracedElement, recorder_note_bind, recorder_bind_ok (plain_receiveChar _ _ _), if_pos rfl]
  rfl

theorem entryStore_mem_tracedElement (i : ℕ) (s : List UInt8) (log : List ArrayStore) :
    entryStore t.type size entrylen i ∈ (tracedElement t size entrylen i (0 :: s) log).2 := by
  rw [tracedElement, recorder_note_bind, recorder_bind_ok (plain_receiveChar _ _ _),
    if_neg (by decide), recorder_note_bind]
  exact List.mem_append_right _ (List.mem_singleton_self _)

theorem subset_tracedElements (n i : ℕ) (d : RawData) (s : List UInt8) (log : List ArrayStore) :
    (tracedElements t size entrylen n i s log).2 ⊆
      ((tracedElements t size entrylen n i >>= fun ds => pure (d :: ds)) s log).2 :=
  recorder_subset_bind (fun _ _ _ => List.Subset.refl _) s log

/-- After `k` null elements, an element that is not null is stored in entry `i + k`. -/
theorem entryStore_mem_tracedElements (k n i : ℕ) (log : List ArrayStore) :
    entryStore t.type size entrylen (i + k) ∈
      (tracedElements t size entrylen (k + n + 1) i
        (List.replicate k 'N'.toUInt8 ++ [0]) log).2 := by
  induction k generalizing i log with
  | zero =>
      refine recorder_subset_bind (fun d s log => ?_) _ _ (entryStore_mem_tracedElement i [] log)
      exact List.Subset.trans ((records_tracedElements (0 + n) (i + 1)).subset s log)
        (subset_tracedElements (0 + n) (i + 1) d s log)
  | succ k ih =>
      have hlen : k + 1 + n + 1 = (k + n + 1) + 1 := by omega
      have hidx : i + (k + 1) = i + 1 + k := by omega
      rw [hlen, hidx, List.replicate_succ, List.cons_append, tracedElements,
        recorder_bind_ok (tracedElement_null _ _ _)]
      exact subset_tracedElements _ _ _ _ _ (ih (i + 1) _)

/-- A stream of null elements makes the loop run to its end. -/
theorem reads_nulls (t : PlcType) (n : ℕ) :
    Reads (readN (receiveArrayElement t) n) (List.replicate n 'N'.toUInt8)
      (List.replicate n none) := by
  have helem : Reads (receiveArrayElement t) ['N'.toUInt8] none := by
    intro s
    obtain ⟨bs, hbs, hread⟩ := transfers_sendChar 'N'.toUInt8
    cases hbs
    rw [receiveArrayElement_eq_entry, run_bind_ok (hread s), if_pos rfl]
    rfl
  induction n with
  | zero => exact Reads.pure []
  | succ n ih =>
      have hrest := Reads.bind (f := fun ds => pure (none :: ds)) ih
        (Reads.pure (none :: List.replicate n none))
      rw [List.append_nil] at hrest
      exact helem.bind hrest

end Stores

/-! ## The whole function -/

/-- The number of elements as the code computes it, in `int`. -/
def arraySize (dims : List (BitVec 32)) : BitVec 32 := if dims = [] then 0 else dims.foldl (· * ·) 1

/-- The number of elements: the product of the dimensions; an array without dimensions is empty. -/
def elementCount (dims : List (BitVec 32)) : ℤ :=
  if dims = [] then 0 else (dims.map BitVec.toInt).prod

/-- `ndims` and the dimensions on the wire. -/
def arrayHeader (ndims : BitVec 32) (dims : List (BitVec 32)) : List UInt8 :=
  leBytes 4 ndims.toNat ++ (dims.map fun d => leBytes 4 d.toNat).flatten

/-- `receiveArray` after the dimensions. -/
def arrayBody (t : PlcType) (ndims : BitVec 32) (dims : List (BitVec 32)) : Receive Value := do
  let size : BitVec 32 := if 0 < ndims.toInt then dims.foldl (· * ·) 1 else 0
  let arrMeta : PlcArrayMeta := ⟨t.type, ndims, dims, size⟩
  if 0 < size.toInt then
    match plcGetTypeLength t.type with
    | none => throw (.shouldNotGetHere t.type)
    | some entrylen => do
        pmalloc size.toInt
        pmalloc (size * BitVec.ofNat 32 entrylen).toInt
        let elems ← readN (receiveArrayElement t) size.toInt.toNat
        pure (.array arrMeta (elems.map Option.isNone) elems)
  else pure (.array arrMeta [] [])

theorem receiveArray_eq_body (t : PlcType) :
    receiveArray t.type (receiveArrayElement t) =
      receiveInt32 >>= fun ndims =>
        readN receiveInt32 ndims.toInt.toNat >>= fun dims => arrayBody t ndims dims := rfl

theorem reads_receiveInt32 (n : BitVec 32) : Reads receiveInt32 (leBytes 4 n.toNat) n := by
  obtain ⟨bs, hbs, hread⟩ := transfers_sendInt32 n
  cases hbs
  exact hread

theorem reads_dims (dims : List (BitVec 32)) :
    Reads (readN receiveInt32 dims.length) ((dims.map fun d => leBytes 4 d.toNat).flatten) dims := by
  induction dims with
  | nil => exact Reads.pure []
  | cons d ds ih =>
      have hrest := Reads.bind (f := fun xs => pure (d :: xs)) ih (Reads.pure (d :: ds))
      rw [List.append_nil] at hrest
      exact (reads_receiveInt32 d).bind hrest

section Header

variable {t : PlcType} {ndims : BitVec 32} {dims : List (BitVec 32)}

/-- After the header, `receive_array` goes on with the dimensions it announces. -/
theorem receiveArray_header (hdims : dims.length = ndims.toInt.toNat) (rest : List UInt8) :
    (receiveArray t.type (receiveArrayElement t)).run (arrayHeader ndims dims ++ rest)
      = (arrayBody t ndims dims).run rest := by
  have hread := reads_dims dims rest
  rw [hdims] at hread
  rw [receiveArray_eq_body, arrayHeader, List.append_assoc,
    run_bind_ok (reads_receiveInt32 ndims _), run_bind_ok hread]

theorem tracedArray_header (hdims : dims.length = ndims.toInt.toNat) (rest : List UInt8)
    (log : List ArrayStore) :
    tracedArray t (arrayHeader ndims dims ++ rest) log = tracedBody t ndims dims rest log := by
  have hndims : plain receiveInt32
      (leBytes 4 ndims.toNat ++ ((dims.map fun d => leBytes 4 d.toNat).flatten ++ rest)) log
        = (.ok (ndims, (dims.map fun d => leBytes 4 d.toNat).flatten ++ rest), log) := by
    rw [plain, reads_receiveInt32 ndims]
  have hread : plain (readN receiveInt32 ndims.toInt.toNat)
      ((dims.map fun d => leBytes 4 d.toNat).flatten ++ rest) log = (.ok (dims, rest), log) := by
    rw [plain, ← hdims, reads_dims dims]
  rw [tracedArray, arrayHeader, List.append_assoc, recorder_bind_ok hndims, recorder_bind_ok hread]

theorem size_eq_arraySize (hdims : dims.length = ndims.toInt.toNat) :
    (if 0 < ndims.toInt then dims.foldl (· * ·) 1 else 0) = arraySize dims := by
  rw [arraySize]
  by_cases hpos : 0 < ndims.toInt
  · have hne : dims ≠ [] := by
      rintro rfl
      simp only [List.length_nil] at hdims
      omega
    rw [if_pos hpos, if_neg hne]
  · have hnil : dims = [] := List.length_eq_zero_iff.1 (by omega)
    rw [if_neg hpos, if_pos hnil]

/-- The `int` size is the number of elements, reduced to 32 bits. -/
theorem arraySize_eq_ofInt : arraySize dims = BitVec.ofInt 32 (elementCount dims) := by
  rw [arraySize, elementCount]
  split
  · rfl
  · rw [foldl_mul_eq_ofInt]
    show 1#32 * _ = _
    rw [BitVec.one_mul]

end Header

/-! ## Sizes that fit -/

section Sizes

variable {type : PlcDatatype} {entrylen : ℕ}

theorem plcGetTypeLength_pos (h : plcGetTypeLength type = some entrylen) : 0 < entrylen := by
  cases type <;> simp only [plcGetTypeLength, Option.some.injEq, reduceCtorEq] at h <;> omega

theorem toInt_ofNat_mul {i l : ℕ} (h : i * l < 2 ^ 31) :
    (BitVec.ofNat 32 i * BitVec.ofNat 32 l).toInt = (i * l : ℕ) := by
  rw [← BitVec.ofNat_mul]
  exact toInt_ofNat32 h

theorem entryOffset_eq (hlen : plcGetTypeLength type = some entrylen) {i : ℕ}
    (h : i * entrylen < 2 ^ 31) : entryOffset type entrylen i = (i * entrylen : ℕ) := by
  cases type
  case text | bytea | udt =>
    cases hlen
    simp [entryOffset]
  all_goals exact toInt_ofNat_mul h

/-- A positive `int` as the natural number it is. -/
theorem eq_ofNat_of_toInt_pos {size : BitVec 32} (h : 0 < size.toInt) :
    size = BitVec.ofNat 32 size.toInt.toNat ∧ size.toInt.toNat < 2 ^ 31 := by
  have hlt := BitVec.toInt_lt (x := size)
  have hcond := BitVec.toInt_eq_toNat_cond size
  split at hcond
  · have hnat : size.toInt.toNat = size.toNat := by omega
    rw [hnat]
    exact ⟨by simp, by omega⟩
  · have := size.isLt
    omega

/-- The size of the `data` block, when it does not wrap and when it does. -/
theorem dataSize_cases {n l : ℕ} (hblock : 0 ≤ (BitVec.ofNat 32 n * BitVec.ofNat 32 l).toInt) :
    n * l < 2 ^ 31 ∨ (BitVec.ofNat 32 n * BitVec.ofNat 32 l).toInt < (n * l : ℕ) := by
  rw [← BitVec.ofNat_mul, BitVec.toInt_eq_toNat_cond, BitVec.toNat_ofNat] at hblock ⊢
  split at hblock <;> omega

end Sizes

/-- The number of elements and the size of their block are numbers that an `int` holds. -/
def SizesFit (type : PlcDatatype) (dims : List (BitVec 32)) : Prop :=
  elementCount dims = 0 ∨
    ∃ entrylen, plcGetTypeLength type = some entrylen ∧ 0 < elementCount dims ∧
      elementCount dims * entrylen < 2 ^ 31

/-- The array is not decoded at all: its element type has no length, or the `int` size of its block
    is negative. -/
def ArrayRefused (type : PlcDatatype) (dims : List (BitVec 32)) : Prop :=
  0 < (arraySize dims).toInt ∧
    ∀ entrylen, plcGetTypeLength type = some entrylen →
      (arraySize dims * BitVec.ofNat 32 entrylen).toInt < 0

/-- What holds of the stores of `receive_array`, once it has read its dimensions. -/
def BodyStores (t : PlcType) (dims : List (BitVec 32)) (done : Bool) (used : List ArrayStore) : Prop :=
  (used = [] ∧ (done = true → (arraySize dims).toInt ≤ 0)) ∨
    ∃ entrylen, 0 < (arraySize dims).toInt ∧ plcGetTypeLength t.type = some entrylen ∧
      0 ≤ (arraySize dims * BitVec.ofNat 32 entrylen).toInt ∧
      LoopStores t (arraySize dims) entrylen (arraySize dims).toInt.toNat 0 done used

theorem records_pmalloc_bind {α : Type} {Θ : Option α → List ArrayStore → Prop} {size : ℤ}
    {q : Recorder ArrayStore ChannelError α} {p : Receive α} (hrefused : Θ none [])
    (h : 0 ≤ size → Records Θ q p) :
    Records Θ (plain (pmalloc size) >>= fun _ => q) (pmalloc size >>= fun _ => p) := by
  by_cases hsize : 0 ≤ size
  · exact Records.plain_bind hrefused fun _ => h hsize
  · intro s log
    have hfail : (pmalloc size).run s = .error .outOfMemory := by rw [pmalloc, if_neg hsize]; rfl
    have hplain : plain (pmalloc size) s log = (.error .outOfMemory, log) := by rw [plain, hfail]
    rw [run_bind_error hfail, recorder_bind_error hplain]
    exact ⟨[], by simp, hrefused⟩

theorem records_tracedBody {t : PlcType} {ndims : BitVec 32} {dims : List (BitVec 32)}
    (hdims : dims.length = ndims.toInt.toNat) :
    Records (fun r => BodyStores t dims r.isSome) (tracedBody t ndims dims)
      (arrayBody t ndims dims) := by
  unfold tracedBody arrayBody
  rw [size_eq_arraySize hdims]
  dsimp only
  split
  next hpos =>
    cases hlen : plcGetTypeLength t.type with
    | none => exact Records.throw _ (.inl ⟨rfl, by simp⟩)
    | some entrylen =>
        refine records_pmalloc_bind (.inl ⟨rfl, by simp⟩) fun _ =>
          records_pmalloc_bind (.inl ⟨rfl, by simp⟩) fun hblock => ?_
        refine Records.map _ fun s log => ?_
        obtain ⟨used, hrun, hloop⟩ : ∃ used,
            tracedElements t (arraySize dims) entrylen (arraySize dims).toInt.toNat 0 s log
              = ((readN (receiveArrayElement t) (arraySize dims).toInt.toNat).run s, log ++ used) ∧
            LoopStores t (arraySize dims) entrylen (arraySize dims).toInt.toNat 0 _ used :=
          records_tracedElements (arraySize dims).toInt.toNat 0 s log
        exact ⟨used, hrun, .inr ⟨entrylen, hpos, hlen, hblock, by rwa [Option.isSome_map]⟩⟩
  next hpos => exact Records.pure (.inl ⟨rfl, fun _ => by omega⟩)

/-! ## Decoding stays inside the blocks -/

/-- The array on the wire is decoded as it should be: every store of the element loop is inside its
    block, and an array that is received has as many elements as its dimensions say. -/
structure ArrayDecoded (t : PlcType) (dims : List (BitVec 32)) (s : List UInt8) : Prop where
  inside : ∀ st ∈ noted (tracedArray t) s, st.Inside
  count : ∀ v rest, (receiveArray t.type (receiveArrayElement t)).run s = .ok (v, rest) →
    (roundsOf (noted (tracedArray t) s) : ℤ) = elementCount dims

section Decoded

variable {t : PlcType} {ndims : BitVec 32} {dims : List (BitVec 32)}

theorem bodyStores_of_header (hdims : dims.length = ndims.toInt.toNat) (rest : List UInt8) :
    BodyStores t dims
      (got ((receiveArray t.type (receiveArrayElement t)).run (arrayHeader ndims dims ++ rest))).isSome
      (noted (tracedArray t) (arrayHeader ndims dims ++ rest)) := by
  have hbody := (records_tracedBody (t := t) hdims).noted rest
  rw [receiveArray_header hdims, noted, tracedArray_header hdims]
  exact hbody

/-- The `int` size of an array that fits is its number of elements. -/
theorem toInt_arraySize (hlow : 0 ≤ elementCount dims) (hhigh : elementCount dims < 2 ^ 31) :
    (arraySize dims).toInt = elementCount dims := by
  rw [arraySize_eq_ofInt, BitVec.toInt_ofInt, Int.bmod_def]
  omega

/-- All rounds of an array that fits store inside the blocks. -/
theorem LoopStores.inside {size : BitVec 32} {entrylen : ℕ} {done : Bool} {used : List ArrayStore}
    (hlen : plcGetTypeLength t.type = some entrylen) (hpos : 0 < size.toInt)
    (hfit : size.toInt.toNat * entrylen < 2 ^ 31)
    (h : LoopStores t size entrylen size.toInt.toNat 0 done used) : ∀ st ∈ used, st.Inside := by
  obtain ⟨hsize, -⟩ := eq_ofNat_of_toInt_pos hpos
  have hdata : (size * BitVec.ofNat 32 entrylen).toInt = (size.toInt.toNat * entrylen : ℕ) := by
    conv_lhs => rw [hsize]
    exact toInt_ofNat_mul hfit
  intro st hst
  obtain ⟨j, -, hj, rfl | rfl⟩ := h.stores st hst
  · refine ⟨?_, ?_⟩ <;> simp only [nullStore] <;> omega
  · have hround : (j + 1) * entrylen ≤ size.toInt.toNat * entrylen :=
      Nat.mul_le_mul_right entrylen (by omega)
    rw [Nat.add_mul, Nat.one_mul] at hround
    rw [ArrayStore.Inside, entryStore, entryOffset_eq hlen (by omega), hdata]
    dsimp only
    omega

theorem run_pmalloc {size : ℤ} (h : 0 ≤ size) (s : List UInt8) :
    (pmalloc size).run s = .ok ((), s) := by
  rw [pmalloc, if_pos h]
  rfl

section Allocated

variable {entrylen : ℕ} (hdims : dims.length = ndims.toInt.toNat)
  (hlen : plcGetTypeLength t.type = some entrylen) (hpos : 0 < (arraySize dims).toInt)
  (hblock : 0 ≤ (arraySize dims * BitVec.ofNat 32 entrylen).toInt)

include hdims hlen hpos hblock

theorem arrayBody_allocated (s : List UInt8) :
    (arrayBody t ndims dims).run s
      = (readN (receiveArrayElement t) (arraySize dims).toInt.toNat >>= fun elems =>
          pure (.array ⟨t.type, ndims, dims, arraySize dims⟩ (elems.map Option.isNone) elems)).run s := by
  rw [arrayBody, size_eq_arraySize hdims, if_pos hpos, hlen]
  dsimp only
  rw [run_bind_ok (run_pmalloc hpos.le s), run_bind_ok (run_pmalloc hblock s)]

theorem tracedBody_allocated (s : List UInt8) (log : List ArrayStore) :
    tracedBody t ndims dims s log
      = (tracedElements t (arraySize dims) entrylen (arraySize dims).toInt.toNat 0 >>= fun elems =>
          pure (.array ⟨t.type, ndims, dims, arraySize dims⟩ (elems.map Option.isNone) elems))
        s log := by
  have hnulls : plain (pmalloc (arraySize dims).toInt) s log = (.ok ((), s), log) := by
    rw [plain, run_pmalloc hpos.le]
  have hdata : plain (pmalloc (arraySize dims * BitVec.ofNat 32 entrylen).toInt) s log
      = (.ok ((), s), log) := by
    rw [plain, run_pmalloc hblock]
  rw [tracedBody, size_eq_arraySize hdims, if_pos hpos, hlen]
  dsimp only
  rw [recorder_bind_ok hnulls, recorder_bind_ok hdata]

/-- A stream of nulls shows how many elements the code takes. -/
theorem elementCount_eq_of_decoded
    (h : ∀ rest, ArrayDecoded t dims (arrayHeader ndims dims ++ rest)) :
    elementCount dims = (arraySize dims).toInt := by
  have hread := reads_nulls t (arraySize dims).toInt.toNat []
  rw [List.append_nil] at hread
  set nulls := List.replicate (arraySize dims).toInt.toNat 'N'.toUInt8
  obtain ⟨v, rest, hrun⟩ : ∃ v rest, (receiveArray t.type (receiveArrayElement t)).run
      (arrayHeader ndims dims ++ nulls) = .ok (v, rest) := by
    rw [receiveArray_header hdims, arrayBody_allocated hdims hlen hpos hblock, run_bind_ok hread]
    exact ⟨_, _, rfl⟩
  have hstores := bodyStores_of_header (t := t) hdims nulls
  rw [hrun] at hstores
  rcases hstores with ⟨-, hdone⟩ | ⟨l, -, -, -, hloop⟩
  · have := hdone rfl
    omega
  · have hcount := (h nulls).count _ _ hrun
    rw [hloop.rounds rfl] at hcount
    omega

/-- After enough nulls, the first entry past a wrapped block size is stored outside. -/
theorem fits_of_decoded (h : ∀ rest, ArrayDecoded t dims (arrayHeader ndims dims ++ rest)) :
    (arraySize dims).toInt.toNat * entrylen < 2 ^ 31 := by
  obtain ⟨hsize, -⟩ := eq_ofNat_of_toInt_pos hpos
  have hblock' := hblock
  rw [hsize] at hblock'
  rcases dataSize_cases hblock' with hfit | hwrap
  · exact hfit
  rw [← hsize] at hwrap
  -- entry `k` is the first that does not end inside the block
  set block := (arraySize dims * BitVec.ofNat 32 entrylen).toInt
  have hentry := plcGetTypeLength_pos hlen
  have hblockLt : block < 2 ^ 31 := BitVec.toInt_lt
  obtain ⟨k, hk⟩ : ∃ k, k = block.toNat / entrylen := ⟨_, rfl⟩
  have hkmul : k * entrylen ≤ block.toNat := hk ▸ Nat.div_mul_le_self _ _
  have hknext : block.toNat < (k + 1) * entrylen := by
    rw [hk, Nat.mul_comm]
    exact Nat.lt_mul_div_succ _ hentry
  have hklt : k < (arraySize dims).toInt.toNat := by
    rw [hk]
    exact Nat.div_lt_of_lt_mul (by rw [Nat.mul_comm]; omega)
  obtain ⟨n, hn⟩ : ∃ n, (arraySize dims).toInt.toNat = k + n + 1 :=
    ⟨(arraySize dims).toInt.toNat - k - 1, by omega⟩
  have hmem : entryStore t.type (arraySize dims) entrylen (0 + k) ∈
      noted (tracedArray t) (arrayHeader ndims dims ++ (List.replicate k 'N'.toUInt8 ++ [0])) := by
    rw [noted, tracedArray_header hdims, tracedBody_allocated hdims hlen hpos hblock, hn]
    exact recorder_subset_bind (fun _ _ _ => List.Subset.refl _) _ _
      (entryStore_mem_tracedElements k n 0 [])
  have hinside := (h _).inside _ hmem
  rw [ArrayStore.Inside, Nat.zero_add, entryStore, entryOffset_eq hlen (by omega)] at hinside
  dsimp only at hinside
  rw [Nat.add_mul, Nat.one_mul] at hknext
  omega

end Allocated

/-- The code takes no element if its size is not positive. -/
theorem elementCount_eq_zero_of_decoded (hdims : dims.length = ndims.toInt.toNat)
    (hpos : ¬ 0 < (arraySize dims).toInt)
    (h : ArrayDecoded t dims (arrayHeader ndims dims ++ [])) : elementCount dims = 0 := by
  obtain ⟨v, rest, hrun⟩ : ∃ v rest, (receiveArray t.type (receiveArrayElement t)).run
      (arrayHeader ndims dims ++ []) = .ok (v, rest) := by
    rw [receiveArray_header hdims, arrayBody, size_eq_arraySize hdims, if_neg hpos]
    exact ⟨_, _, rfl⟩
  rw [← h.count v rest hrun]
  rcases bodyStores_of_header (t := t) hdims [] with ⟨hnil, -⟩ | ⟨_, hpos', _⟩
  · rw [hnil]
    rfl
  · exact absurd hpos' hpos

theorem arraySize_of_fits {entrylen : ℕ} (hentry : 0 < entrylen) (hpos : 0 < elementCount dims)
    (hfit : elementCount dims * entrylen < 2 ^ 31) :
    (arraySize dims).toInt = elementCount dims := by
  refine toInt_arraySize hpos.le ?_
  calc elementCount dims = elementCount dims * 1 := (mul_one _).symm
    _ ≤ elementCount dims * entrylen := by
        refine mul_le_mul_of_nonneg_left ?_ hpos.le
        exact_mod_cast hentry
    _ < 2 ^ 31 := hfit

theorem decoded_of_fits {s : List UInt8} (hfit : SizesFit t.type dims)
    (hbody : BodyStores t dims
      (got ((receiveArray t.type (receiveArrayElement t)).run s)).isSome
      (noted (tracedArray t) s)) : ArrayDecoded t dims s := by
  rcases hfit with hzero | ⟨entrylen, hlen, hpos, hfit⟩
  · have hsize : (arraySize dims).toInt = 0 := by rw [arraySize_eq_ofInt, hzero]; rfl
    rcases hbody with ⟨hnil, -⟩ | ⟨_, hsize', _⟩
    · exact ⟨by simp [hnil], fun _ _ _ => by rw [hnil, hzero]; rfl⟩
    · omega
  · have hsize := arraySize_of_fits (plcGetTypeLength_pos hlen) hpos hfit
    rcases hbody with ⟨hnil, hdone⟩ | ⟨l, hsizepos, hl, -, hloop⟩
    · refine ⟨by simp [hnil], fun v rest hrun => ?_⟩
      rw [hrun] at hdone
      have := hdone rfl
      omega
    · rw [hlen] at hl
      cases hl
      have hnat : (arraySize dims).toInt.toNat * entrylen < 2 ^ 31 := by
        rw [← hsize, ← Int.toNat_of_nonneg hsizepos.le] at hfit
        exact_mod_cast hfit
      refine ⟨hloop.inside hlen hsizepos hnat, fun v rest hrun => ?_⟩
      rw [hloop.rounds (by rw [hrun]; rfl)]
      omega

theorem decoded_of_refused {s : List UInt8} (hrefused : ArrayRefused t.type dims)
    (hbody : BodyStores t dims
      (got ((receiveArray t.type (receiveArrayElement t)).run s)).isSome
      (noted (tracedArray t) s)) : ArrayDecoded t dims s := by
  obtain ⟨hpos, hblock⟩ := hrefused
  rcases hbody with ⟨hnil, hdone⟩ | ⟨l, -, hl, hblock', -⟩
  · refine ⟨by simp [hnil], fun v rest hrun => ?_⟩
    rw [hrun] at hdone
    have := hdone rfl
    omega
  · have := hblock l hl
    omega

end Decoded

/-- **Array decoding stays inside its blocks** and takes as many elements as the dimensions say,
    whatever follows the header, exactly if the sizes fit an `int` or the array is refused. -/
theorem array_decoded_inside (t : PlcType) (ndims : BitVec 32) (dims : List (BitVec 32))
    (hdims : dims.length = ndims.toInt.toNat) :
    (∀ rest, ArrayDecoded t dims (arrayHeader ndims dims ++ rest)) ↔
      SizesFit t.type dims ∨ ArrayRefused t.type dims := by
  constructor
  · intro h
    -- without rounds nothing is stored; with rounds, bytes can be found that reach the last of them
    by_cases hpos : 0 < (arraySize dims).toInt
    · cases hlen : plcGetTypeLength t.type with
      | none => exact .inr ⟨hpos, by simp [hlen]⟩
      | some entrylen =>
          by_cases hblock : 0 ≤ (arraySize dims * BitVec.ofNat 32 entrylen).toInt
          · have hcount := elementCount_eq_of_decoded hdims hlen hpos hblock h
            have hfits := fits_of_decoded hdims hlen hpos hblock h
            refine .inl (.inr ⟨entrylen, hlen, by omega, ?_⟩)
            have hcast : elementCount dims * entrylen
                = ((arraySize dims).toInt.toNat * entrylen : ℕ) := by
              rw [hcount, Nat.cast_mul, Int.toNat_of_nonneg hpos.le]
            rw [hcast]
            exact_mod_cast hfits
          · refine .inr ⟨hpos, fun l hl => ?_⟩
            rw [hlen] at hl
            cases hl
            omega
    · exact .inl (.inl (elementCount_eq_zero_of_decoded hdims hpos (h [])))
  · intro h rest
    have hbody := bodyStores_of_header (t := t) hdims rest
    rcases h with hfit | hrefused
    · exact decoded_of_fits hfit hbody
    · exact decoded_of_refused hrefused hbody

/-- A matrix of `int4` of two rows and three columns, all null. -/
theorem array_decoded_inside_matrix :
    ArrayDecoded (.mk .int4 none 0 []) [2, 3] (arrayHeader 2 [2, 3] ++ List.replicate 6 78) :=
  (array_decoded_inside (.mk .int4 none 0 []) 2 [2, 3] (by decide)).2
    (.inl (.inr ⟨4, rfl, by decide, by decide⟩)) (List.replicate 6 78)

/-- A dimension of 2^29 + 1 for `int8` elements: the block has 8 bytes, and the second element is
    stored behind it. Dimensions 2^16 and 2^16: no element is taken of 2^32. -/
theorem array_decoded_outside :
    ¬ ArrayDecoded (.mk .int8 none 0 []) [0x20000001]
      (arrayHeader 1 [0x20000001] ++ [78, 68, 1, 0, 0, 0, 0, 0, 0, 0]) ∧
    ¬ ArrayDecoded (.mk .int4 none 0 []) [0x10000, 0x10000]
      (arrayHeader 2 [0x10000, 0x10000]) := by
  refine ⟨fun h => ?_, fun h => ?_⟩
  · have hstore : ⟨.data, 8, 8, 8⟩ ∈ noted (tracedArray (.mk .int8 none 0 []))
        (arrayHeader 1 [0x20000001] ++ [78, 68, 1, 0, 0, 0, 0, 0, 0, 0]) := by decide +kernel
    have hinside := h.inside _ hstore
    simp [ArrayStore.Inside] at hinside
  · have hcount := h.count _ _ rfl
    exact absurd hcount (by decide +kernel)

end PlContainer
