import PlContainer.Clients.R.Conversions
import PlContainer.Clients.R.Numbers
import PlContainer.Common.Channel.Decoded
import PlContainer.Library.Utf8

set_option autoImplicit false

/-! # The data frame of a query

`pg.spi.exec` returns the rows of a query as a data frame. `process_SPI_results` makes a vector of each
column, and `pg_get_one_r` stores one cell in it. It is given the value of the cell and not its null
flag, and reads the value as the type of the column has it, with exceptions: the bits of an INT8 are read
as those of a `double`, and the length of a BYTEA is looked at as a string. -/

namespace PlContainer

open Checked

/-! ## Vectors in memory -/

/-- What is stored in a vector. -/
inductive RSlot where
  | logical (b : BitVec 32)
  | integer (n : BitVec 32)
  | real (d : BitVec 64)
  | string (s : Option CString)

/-- The value that the interpreter sees. -/
def RSlot.atom : RSlot → RAtom
  | .logical b => if b = naInteger then .na else .logical b
  | .integer n => if n = naInteger then .na else .integer n
  | .real d => if rIsNA d then .na else .real d
  | .string s => s.elim .na .text

/-- The type of a vector. -/
inductive RKind where
  | logical
  | integer
  | real
  | string
deriving DecidableEq

def RSlot.kind : RSlot → RKind
  | .logical _ => .logical
  | .integer _ => .integer
  | .real _ => .real
  | .string _ => .string

def RAtoms.kind : RAtoms → RKind
  | .logical _ => .logical
  | .integer _ => .integer
  | .real _ => .real
  | .character _ => .string

def RAtoms.slot? : RAtoms → ℕ → Option RSlot
  | .logical v, i => v[i]?.map .logical
  | .integer v, i => v[i]?.map .integer
  | .real v, i => v[i]?.map .real
  | .character v, i => v[i]?.map .string

theorem RAtoms.get?_eq_slot? (a : RAtoms) (i : ℕ) : a.get? i = (a.slot? i).map RSlot.atom := by
  cases a <;> rw [get?, slot?, Option.map_map] <;> rfl

/-- An assignment to `LOGICAL_DATA`, `INTEGER_DATA` or `NUMERIC_DATA` at an index, or `SET_STRING_ELT`. -/
def RAtoms.store (a : RAtoms) (i : ℕ) (s : RSlot) : Except RStop RAtoms :=
  if i < a.length then
    match a, s with
    | .logical v, .logical b => .ok (.logical (v.set i b))
    | .integer v, .integer n => .ok (.integer (v.set i n))
    | .real v, .real d => .ok (.real (v.set i d))
    | .character v, .string s => .ok (.character (v.set i s))
    | _, _ => .error .raised
  else .error .outside

theorem RAtoms.store_succeeds {a : RAtoms} {i : ℕ} {s : RSlot} (hi : i < a.length)
    (hkind : s.kind = a.kind) : Succeeds (a.store i s) := by
  unfold store
  rw [if_pos hi]
  cases a <;> cases s <;> first | exact ⟨_, rfl⟩ | cases hkind

theorem RAtoms.store_eq_ok {a a' : RAtoms} {i : ℕ} {s : RSlot} (h : a.store i s = .ok a') :
    a'.length = a.length ∧ a'.kind = a.kind ∧ a'.slot? i = some s ∧
      ∀ j, j ≠ i → a'.slot? j = a.slot? j := by
  unfold store at h
  split at h
  · next hi =>
    cases a <;> cases s <;> cases h <;> simp_all [length, kind, slot?, List.getElem?_set]
    all_goals
      intro j hj
      simp [Ne.symm hj]
  · cases h

/-! ## The conversion -/

/-- `get_r_vector`. For composite types it is a list, in which nothing is stored. -/
def getRVector (type : PlcDatatype) (numels : ℕ) : RAtoms :=
  match type with
  | .int1 => .logical (List.replicate numels 0)
  | .int2 | .int4 => .integer (List.replicate numels 0)
  | .int8 | .float4 | .float8 => .real (List.replicate numels 0)
  | _ => .character (List.replicate numels (some []))

/-- `mkCharLen`: a string with a NUL is an error. -/
def mkCharLen (bytes : List UInt8) : Except RStop RSlot :=
  if 0 ∈ bytes then .error .raised else .ok (.string (some bytes))

/-- `mkChar` -/
def mkChar (s : CString) : CString := s.takeWhile (· ≠ 0)

theorem mkChar_eq_self {s : CString} (h : 0 ∉ s) : mkChar s = s := by
  refine List.takeWhile_eq_self_iff.2 fun b hb => decide_eq_true ?_
  rintro rfl
  exact h hb

/-- A `printf` of an `int`. -/
def printInt (n : BitVec 32) : CString := Utf8.encode (toString n.toInt).toList

section

variable (c : CNumbers)

/-- `pg_get_one_r`: what is stored for a value. The channel has received a value of the type of the
    column, so that nothing else is read. -/
def pgGetOneR (value : RawData) (columnType : PlcDatatype) : Except RStop RSlot :=
  match columnType, value with
  | .int2, some (.int2 n) => .ok (.integer (n.signExtend 32))
  | .int4, some (.int4 n) => .ok (.integer n)
  -- `(int64) (*((float8 *) value))`, which becomes a `double` again
  | .int8, some (.int8 n) => .ok (.real (c.longToDouble (c.doubleToLong n)))
  | .float4, some (.float4 f) => .ok (.real (c.floatToDouble f))
  | .float8, some (.float8 d) => .ok (.real d)
  | .int1, some (.int1 b) => .ok (.logical (b.toBitVec.signExtend 32))
  | .bytea, some (.bytea b) =>
      -- the first byte of the length
      if b.len.setWidth 8 ≠ 0#8 then mkCharLen (b.data.take b.len.toInt.toNat)
      -- as a text, the value ends at this byte
      else .ok (.string (some []))
  | .text, some (.text s) => .ok (.string (s.map mkChar))
  | .text, none => .ok (.string none)
  | .unknown _, some (.text s) => .ok (.string (s.map mkChar))
  | .unknown _, none => .ok (.string none)
  -- "unhandled type"
  | .udt, _ | .invalid, _ | .array, _ => .error .reported
  | _, none => .error .nullPointer
  | _, _ => .error .outside

/-- The value of a cell. -/
def PlcMsgResult.cell (result : PlcMsgResult) (i j : ℕ) : Except RStop RawData :=
  match (result.data[i]?).bind (·[j]?) with
  | some value => .ok value
  | none => .error .outside

/-- The loop over the first `rows` rows, given what is stored for each. -/
def fillVector (slot : ℕ → Except RStop RSlot) (fldvec : RAtoms) (rows : ℕ) : Except RStop RAtoms :=
  (List.range rows).foldlM (fun fldvec i => do fldvec.store i (← slot i)) fldvec

/-- The vector of column `j`. -/
def spiColumn (result : PlcMsgResult) (type : PlcDatatype) (j : ℕ) : Except RStop RAtoms :=
  fillVector (fun i => do pgGetOneR c (← result.cell i j) type)
    (getRVector (if type = .bytea then .text else type) result.rows.toNat) result.rows.toNat

/-- A data frame. -/
structure RFrame where
  names : List CString
  columns : List RAtoms
  rowNames : List CString

/-- What `process_SPI_results` returns. -/
inductive SpiAnswer where
  | count (s : CString)
  | nil
  | frame (f : RFrame)

/-- The loop over the columns, from column `j` on. -/
def spiColumns (result : PlcMsgResult) (j : ℕ) :
    List (Option CString × PlcType) → Except RStop (List (CString × RAtoms))
  | [] => .ok []
  | (none, _) :: _ => .error .nullPointer
  | (some name, t) :: columns => do
      let fldvec ← spiColumn c result t.type j
      let rest ← spiColumns result (j + 1) columns
      .ok ((mkChar name, fldvec) :: rest)

/-- `process_SPI_results`, for a RESULT. -/
def processSpiResults (result : PlcMsgResult) : Except RStop SpiAnswer :=
  if result.cols = 0 then .ok (.count (printInt result.rows))
  else if result.rows = 0 then .ok .nil
  else do
    let columns ← spiColumns c result 0 ((result.names.zip result.types).take result.cols.toNat)
    .ok (.frame ⟨columns.map Prod.fst, columns.map Prod.snd,
      (List.range result.rows.toNat).map fun i => printInt (BitVec.ofNat 32 (i + 1))⟩)

/-! ## What a query returns -/

/-- The types of the columns. -/
def spiTypes : List PlcDatatype := [.int1, .int2, .int4, .int8, .float4, .float8, .text, .bytea]

/-- A cell of a column: a null, or a value of its type. Texts have no NUL, and the length of a BYTEA is
    the number of its bytes. -/
def CellOf (type : PlcDatatype) : RawData → Prop
  | none => True
  | some (.text s) => type = .text ∧ ∃ chars, s = some chars ∧ 0 ∉ chars
  | some (.bytea b) => type = .bytea ∧ b.len.toInt = b.data.length
  | some v => v.flatType = some type

/-- What `create_sql_result` makes of the rows of a query, if there are any. -/
structure SqlResult where
  names : List CString
  types : List PlcType
  data : List (List RawData)
  rows_pos : 0 < data.length
  rows_lt : data.length < 2 ^ 32
  cols_pos : 0 < types.length
  cols_lt : types.length < 2 ^ 32
  names_length : names.length = types.length
  names_nulFree : ∀ name ∈ names, 0 ∉ name
  row_length : ∀ row ∈ data, row.length = types.length
  types_mem : ∀ t ∈ types, t.type ∈ spiTypes
  cells : ∀ row ∈ data, ∀ (j : ℕ) cell t, row[j]? = some cell → types[j]? = some t → CellOf t.type cell

def SqlResult.message (r : SqlResult) : PlcMsgResult :=
  ⟨BitVec.ofNat 32 r.data.length, BitVec.ofNat 32 r.types.length, r.types, r.names.map some, r.data, none⟩

/-- The cell of a row and a column. -/
def SqlResult.cell? (r : SqlResult) (i j : ℕ) : Option RawData := (r.data[i]?).bind (·[j]?)

/-- An entry of the data frame denotes a cell. -/
def Denotes (atom : RAtom) : RawData → Prop
  | none => atom = .na
  | some (.int1 b) => ∃ k, atom = .logical k ∧ k.toInt = b.toBitVec.toInt
  | some (.int2 n) => ∃ k, atom = .integer k ∧ k.toInt = n.toInt
  | some (.int4 n) => ∃ k, atom = .integer k ∧ k.toInt = n.toInt
  | some (.int8 n) => |n.toInt| ≤ 2 ^ 53 → ∃ d, atom = .real d ∧ doubleMeaning d = .number n.toInt
  | some (.float4 f) => ∃ d, atom = .real d ∧ doubleMeaning d = floatMeaning f
  | some (.float8 d) => ∃ d', atom = .real d' ∧ doubleMeaning d' = doubleMeaning d
  | some (.text s) => ∃ chars, s = some chars ∧ atom = .text chars
  | some (.bytea b) => 0 ∉ b.data → atom = .text b.data
  | some _ => False

/-- The data frame shows the rows: its columns have the names of the result and one entry for each row,
    and each entry denotes its cell. -/
structure SqlResult.Shows (r : SqlResult) (f : RFrame) : Prop where
  names : f.names = r.names
  columns : f.columns.length = r.types.length
  rows : ∀ column ∈ f.columns, column.length = r.data.length
  entries : ∀ i j cell, r.cell? i j = some cell →
    ∃ atom, (f.columns[j]?).bind (·.get? i) = some atom ∧ Denotes atom cell

/-- No BYTEA has a NUL byte. -/
def SqlResult.NulFree (r : SqlResult) : Prop :=
  ∀ i j b, r.cell? i j = some (some (.bytea b)) → 0 ∉ b.data

/-- The data frame, if it is built, shows the rows, and only a NUL byte in a BYTEA keeps it from being
    built. -/
def SqlResult.Returned (r : SqlResult) : Prop :=
  (∀ f, processSpiResults c r.message = .ok (.frame f) → r.Shows f) ∧
    (r.NulFree → ∃ f, processSpiResults c r.message = .ok (.frame f))

/-! ## Cells -/

/-- The cell can be stored at all. -/
def Storable (type : PlcDatatype) : RawData → Prop
  | none => type = .text
  | some (.bytea b) => b.len.setWidth 8 ≠ 0#8 → 0 ∉ b.data
  | some _ => True

/-- What is stored for the cell denotes it. For a negative INT8 the conversion is not defined. -/
def Kept : RawData → Prop
  | some (.int4 n) => n ≠ naInteger
  | some (.int8 n) => |n.toInt| ≤ 2 ^ 53 →
      n.toInt = 0 ∨
        n.toInt < 0 ∧ doubleMeaning (c.longToDouble (c.doubleToLong n)) = .number n.toInt
  | some (.float8 d) => rIsNA d = false
  | some (.bytea b) => 0 ∉ b.data → b.data = [] ∨ b.len.setWidth 8 ≠ 0#8
  | _ => True

theorem atom_real_of_meaning {d : BitVec 64} {q : ℚ} (h : doubleMeaning d = .number q) :
    (RSlot.real d).atom = .real d := by
  rw [RSlot.atom, if_neg]
  intro hna
  rw [doubleMeaning_of_rIsNA hna] at h
  cases h

/-- A small positive integer has the bits of a number below 1. -/
theorem CNumbers.meaning_int8 {n : BitVec 64} (hnonneg : 0 ≤ n.toInt) (hle : n.toInt ≤ 2 ^ 53) :
    doubleMeaning (c.longToDouble (c.doubleToLong n)) = .number 0 := by
  have hbits : n.toNat < Float.Model.Format.exponentBias .binary64 * 2 ^ 52 := by
    rw [BitVec.toInt_eq_toNat_cond] at hnonneg hle
    norm_num [Float.Model.Format.exponentBias]
    split at hle <;> omega
  obtain ⟨q, hq, hq0, hq1⟩ := @Ieee.ofBits_of_lt .binary64 n hbits
  have hzero : (c.doubleToLong n).toInt = 0 := by
    rw [c.doubleToLong_trunc n q hq (by rw [abs_of_nonneg hq0]; exact hq1.trans (by norm_num)),
      if_pos hq0, Int.floor_eq_zero_iff]
    exact ⟨hq0, hq1⟩
  rw [c.longToDouble_exact _ (by rw [hzero]; norm_num), hzero, Int.cast_zero]

/-- A narrower integer is not `NA`. -/
theorem signExtend_ne_naInteger {w : ℕ} (hw : w < 32) (b : BitVec w) :
    b.signExtend 32 ≠ naInteger := by
  intro h
  have hb : b.toInt = -2 ^ 31 := by
    rw [← BitVec.toInt_signExtend_of_le hw.le, h]
    rfl
  have hle := BitVec.le_two_mul_toInt (x := b)
  have hpow : (2 : ℤ) ^ w ≤ 2 ^ 31 := pow_le_pow_right₀ (by norm_num) (by omega)
  omega

/-- The type of the vector of a column. -/
def columnKind (type : PlcDatatype) : RKind :=
  (getRVector (if type = .bytea then .text else type) 0).kind

theorem getRVector_spec (type : PlcDatatype) (n : ℕ) :
    (getRVector (if type = .bytea then .text else type) n).kind = columnKind type ∧
      (getRVector (if type = .bytea then .text else type) n).length = n := by
  cases type <;> simp [columnKind, getRVector, RAtoms.kind, RAtoms.length]

/-- What is stored for a cell. -/
structure Stores (type : PlcDatatype) (cell : RawData) (slot : RSlot) : Prop where
  stored : pgGetOneR c cell type = .ok slot
  kind : slot.kind = columnKind type
  denotes : Denotes slot.atom cell ↔ Kept c cell

theorem stores_int8 (n : BitVec 64) :
    Stores c .int8 (some (.int8 n)) (.real (c.longToDouble (c.doubleToLong n))) := by
  refine ⟨rfl, rfl, forall_congr' fun hle => ?_⟩
  constructor
  · rintro ⟨d, hatom, hmeaning⟩
    have hd : c.longToDouble (c.doubleToLong n) = d := by
      rw [RSlot.atom] at hatom
      split at hatom
      · cases hatom
      · exact RAtom.real.inj hatom
    rw [← hd] at hmeaning
    rcases lt_or_ge n.toInt 0 with hneg | hnonneg
    · exact .inr ⟨hneg, hmeaning⟩
    · rw [c.meaning_int8 hnonneg ((le_abs_self _).trans hle)] at hmeaning
      left
      exact_mod_cast (Ieee.Meaning.number.inj hmeaning).symm
  · rintro (hzero | ⟨-, hmeaning⟩)
    · have hmeaning := c.meaning_int8 hzero.ge (hzero.trans_le (by norm_num))
      exact ⟨_, atom_real_of_meaning hmeaning, by rw [hmeaning, hzero, Int.cast_zero]⟩
    · exact ⟨_, atom_real_of_meaning hmeaning, hmeaning⟩

theorem pgGetOneR_bytea (b : Bytea) :
    pgGetOneR c (some (.bytea b)) .bytea = if b.len.setWidth 8 ≠ 0#8 then
      mkCharLen (b.data.take b.len.toInt.toNat) else .ok (.string (some [])) := rfl

theorem exists_stores_bytea {b : Bytea} (hlen : b.len.toInt = b.data.length)
    (hstorable : Storable .bytea (some (.bytea b))) :
    ∃ slot, Stores c .bytea (some (.bytea b)) slot := by
  by_cases hbyte : b.len.setWidth 8 = 0#8
  · refine ⟨.string (some []), ?_, rfl, forall_congr' fun _ => ?_⟩
    · rw [pgGetOneR_bytea, if_neg (not_not.2 hbyte)]
    · simp [RSlot.atom, hbyte, eq_comm]
  · have hnul : 0 ∉ b.data := hstorable hbyte
    refine ⟨.string (some b.data), ?_, rfl, forall_congr' fun _ => ?_⟩
    · rw [pgGetOneR_bytea, if_pos hbyte, hlen, Int.toNat_natCast, List.take_length, mkCharLen,
        if_neg hnul]
    · simp [RSlot.atom, hbyte]

/-- An integer of a narrower type is stored as it is. -/
theorem atom_signExtend {w : ℕ} (hw : w < 32) (b : BitVec w) :
    (RSlot.logical (b.signExtend 32)).atom = .logical (b.signExtend 32) ∧
      (RSlot.integer (b.signExtend 32)).atom = .integer (b.signExtend 32) ∧
      (b.signExtend 32).toInt = b.toInt :=
  ⟨if_neg (signExtend_ne_naInteger hw b), if_neg (signExtend_ne_naInteger hw b),
    BitVec.toInt_signExtend_of_le hw.le⟩

/-- A cell that can be stored. -/
theorem exists_stores {type : PlcDatatype} {cell : RawData} (hcell : CellOf type cell)
    (hstorable : Storable type cell) : ∃ slot, Stores c type cell slot := by
  cases cell with
  | none =>
    obtain rfl : type = .text := hstorable
    exact ⟨.string none, rfl, rfl, iff_of_true rfl trivial⟩
  | some v =>
    cases v with
    | int1 b =>
      obtain rfl : PlcDatatype.int1 = type := Option.some.inj hcell
      obtain ⟨hatom, -, hint⟩ := atom_signExtend (by norm_num) b.toBitVec
      exact ⟨_, rfl, rfl, iff_of_true ⟨_, hatom, hint⟩ trivial⟩
    | int2 n =>
      obtain rfl : PlcDatatype.int2 = type := Option.some.inj hcell
      obtain ⟨-, hatom, hint⟩ := atom_signExtend (by norm_num) n
      exact ⟨_, rfl, rfl, iff_of_true ⟨_, hatom, hint⟩ trivial⟩
    | int4 n =>
      obtain rfl : PlcDatatype.int4 = type := Option.some.inj hcell
      refine ⟨.integer n, rfl, rfl, ?_, fun hne => ⟨n, if_neg hne, rfl⟩⟩
      rintro ⟨k, hatom, -⟩ rfl
      cases hatom
    | int8 n =>
      obtain rfl : PlcDatatype.int8 = type := Option.some.inj hcell
      exact ⟨_, stores_int8 c n⟩
    | float4 f =>
      obtain rfl : PlcDatatype.float4 = type := Option.some.inj hcell
      have hatom : (RSlot.real (c.floatToDouble f)).atom = .real (c.floatToDouble f) :=
        if_neg (by rw [c.rIsNA_floatToDouble]; decide)
      exact ⟨_, rfl, rfl, iff_of_true ⟨_, hatom, c.floatToDouble_exact f⟩ trivial⟩
    | float8 d =>
      obtain rfl : PlcDatatype.float8 = type := Option.some.inj hcell
      refine ⟨.real d, rfl, rfl, ?_, fun hna => ⟨d, if_neg (by rw [hna]; decide), rfl⟩⟩
      rintro ⟨d', hatom, -⟩
      rw [RSlot.atom] at hatom
      split at hatom
      · cases hatom
      · next hna => exact Bool.eq_false_iff.2 hna
    | text s =>
      obtain ⟨rfl, chars, rfl, hnul⟩ := hcell
      have hchars : mkChar chars = chars := mkChar_eq_self hnul
      refine ⟨.string (some chars), ?_, rfl, iff_of_true ⟨chars, rfl, rfl⟩ trivial⟩
      exact congrArg (fun s => Except.ok (RSlot.string (some s))) hchars
    | bytea b =>
      obtain ⟨rfl, hlen⟩ := hcell
      exact exists_stores_bytea c hlen hstorable
    | iterator arrMeta elems => cases hcell
    | array arrMeta nulls data => cases hcell
    | udt data => cases hcell

/-- A cell that cannot be stored. -/
theorem not_succeeds_of_not_storable {type : PlcDatatype} (htype : type ∈ spiTypes) {cell : RawData}
    (hcell : CellOf type cell) (hstorable : ¬ Storable type cell) :
    ¬ Succeeds (pgGetOneR c cell type) := by
  cases cell with
  | none =>
    simp only [spiTypes, List.mem_cons, List.not_mem_nil, or_false] at htype
    rintro ⟨slot, hslot⟩
    rcases htype with rfl | rfl | rfl | rfl | rfl | rfl | rfl | rfl <;>
      first | exact hstorable rfl | cases hslot
  | some v =>
    cases v with
    | bytea b =>
      obtain ⟨rfl, hlen⟩ := hcell
      obtain ⟨hbyte, hnul⟩ : b.len.setWidth 8 ≠ 0#8 ∧ 0 ∈ b.data := by
        simpa only [Storable, Classical.not_imp, not_not] using hstorable
      rw [pgGetOneR_bytea, if_pos hbyte, hlen, Int.toNat_natCast, List.take_length, mkCharLen, if_pos hnul]
      exact not_succeeds_throw _
    | _ => exact absurd trivial hstorable

/-! ## Columns -/

theorem fillVector_succ (slot : ℕ → Except RStop RSlot) (fldvec : RAtoms) (rows : ℕ) :
    fillVector slot fldvec (rows + 1) =
      fillVector slot fldvec rows >>= fun filled => slot rows >>= filled.store rows := by
  rw [fillVector, List.range_succ, List.foldlM_append]
  simp [fillVector]

/-- Each entry of the vector is what was stored for its row. -/
theorem fillVector_eq_ok {slot : ℕ → Except RStop RSlot} {fldvec filled : RAtoms} {rows : ℕ}
    (h : fillVector slot fldvec rows = .ok filled) :
    filled.length = fldvec.length ∧ filled.kind = fldvec.kind ∧
      ∀ i < rows, ∃ s, slot i = .ok s ∧ filled.slot? i = some s := by
  induction rows generalizing filled with
  | zero =>
    obtain rfl : fldvec = filled := Except.ok.inj h
    exact ⟨rfl, rfl, fun i hi => absurd hi (Nat.not_lt_zero i)⟩
  | succ rows ih =>
    rw [fillVector_succ] at h
    obtain ⟨before, hbefore, h⟩ := bind_eq_ok.1 h
    obtain ⟨s, hs, hstore⟩ := bind_eq_ok.1 h
    obtain ⟨hlength, hkind, hslots⟩ := ih hbefore
    obtain ⟨hlength', hkind', hat, hother⟩ := RAtoms.store_eq_ok hstore
    refine ⟨hlength'.trans hlength, hkind'.trans hkind, fun i hi => ?_⟩
    rcases Nat.lt_succ_iff_lt_or_eq.1 hi with hlt | rfl
    · obtain ⟨s', hs', hslot⟩ := hslots i hlt
      exact ⟨s', hs', by rw [hother i hlt.ne, hslot]⟩
    · exact ⟨s, hs, hat⟩

/-- A vector of the right type is filled. -/
theorem fillVector_succeeds {slot : ℕ → Except RStop RSlot} {fldvec : RAtoms} {rows : ℕ}
    (hrows : rows ≤ fldvec.length) (h : ∀ i < rows, ∃ s, slot i = .ok s ∧ s.kind = fldvec.kind) :
    Succeeds (fillVector slot fldvec rows) := by
  induction rows with
  | zero => exact succeeds_pure fldvec
  | succ rows ih =>
    obtain ⟨filled, hfilled⟩ := ih (by omega) fun i hi => h i (by omega)
    obtain ⟨s, hs, hkind⟩ := h rows (Nat.lt_succ_self rows)
    obtain ⟨hlength, hkind', -⟩ := fillVector_eq_ok hfilled
    rw [fillVector_succ, hfilled, ok_bind, hs, ok_bind]
    exact RAtoms.store_succeeds (by omega) (hkind.trans hkind'.symm)

/-- The cell of a row and a column that exist. -/
theorem SqlResult.exists_cell (r : SqlResult) {i j : ℕ} (hi : i < r.data.length)
    {t : PlcType} (ht : r.types[j]? = some t) :
    ∃ cell, r.cell? i j = some cell ∧ r.message.cell i j = .ok cell ∧ CellOf t.type cell := by
  have hrow : r.data[i]? = some r.data[i] := List.getElem?_eq_getElem hi
  have hmem : r.data[i] ∈ r.data := List.getElem_mem hi
  have hj : j < r.data[i].length := by
    rw [r.row_length _ hmem]
    exact (List.getElem?_eq_some_iff.1 ht).1
  have hcell : r.data[i][j]? = some r.data[i][j] := List.getElem?_eq_getElem hj
  refine ⟨r.data[i][j], ?_, ?_, r.cells _ hmem j _ t hcell ht⟩
  · rw [cell?, hrow, Option.bind_some, hcell]
  · simp only [PlcMsgResult.cell, message, hrow, Option.bind_some, hcell]

theorem SqlResult.rows_message (r : SqlResult) : r.message.rows.toNat = r.data.length :=
  BitVec.toNat_ofNat .. |>.trans (Nat.mod_eq_of_lt r.rows_lt)

theorem SqlResult.lt_of_cell? {r : SqlResult} {i j : ℕ} {cell : RawData} (h : r.cell? i j = some cell) :
    i < r.data.length ∧ j < r.types.length := by
  obtain ⟨row, hrow, hcell⟩ := Option.bind_eq_some_iff.1 h
  obtain ⟨hi, rfl⟩ := List.getElem?_eq_some_iff.1 hrow
  rw [← r.row_length _ (List.getElem_mem hi)]
  exact ⟨hi, (List.getElem?_eq_some_iff.1 hcell).1⟩

/-- What is stored for a row of a column. -/
theorem SqlResult.slot_eq (r : SqlResult) {i j : ℕ} {cell : RawData} {t : PlcType}
    (hcell : r.cell? i j = some cell) (ht : r.types[j]? = some t) :
    CellOf t.type cell ∧
      (r.message.cell i j >>= fun value => pgGetOneR c value t.type) = pgGetOneR c cell t.type := by
  obtain ⟨cell', hcell', hmessage, hof⟩ := r.exists_cell (lt_of_cell? hcell).1 ht
  obtain rfl : cell = cell' := Option.some.inj (hcell.symm.trans hcell')
  exact ⟨hof, by rw [hmessage, ok_bind]⟩

/-- All cells of a column can be stored. -/
def SqlResult.StorableColumn (r : SqlResult) (type : PlcDatatype) (j : ℕ) : Prop :=
  ∀ i cell, r.cell? i j = some cell → Storable type cell

/-- The entries of a column that is built. -/
theorem SqlResult.spiColumn_eq_ok (r : SqlResult) {j : ℕ} {t : PlcType}
    (ht : r.types[j]? = some t) {column : RAtoms}
    (h : spiColumn c r.message t.type j = .ok column) :
    r.StorableColumn t.type j ∧ column.length = r.data.length ∧
      ∀ i cell, r.cell? i j = some cell →
        ∃ atom, column.get? i = some atom ∧ (Denotes atom cell ↔ Kept c cell) := by
  rw [spiColumn, r.rows_message] at h
  obtain ⟨hlength, -, hslots⟩ := fillVector_eq_ok h
  have hstorable : r.StorableColumn t.type j := by
    intro i cell hcell
    obtain ⟨s, hs, -⟩ := hslots i (lt_of_cell? hcell).1
    obtain ⟨hof, hslot⟩ := r.slot_eq c hcell ht
    by_contra hnot
    refine not_succeeds_of_not_storable c ?_ hof hnot ⟨s, hslot.symm.trans hs⟩
    exact r.types_mem t (List.mem_of_getElem? ht)
  refine ⟨hstorable, hlength.trans (getRVector_spec _ _).2, fun i cell hcell => ?_⟩
  obtain ⟨s, hs, hat⟩ := hslots i (lt_of_cell? hcell).1
  obtain ⟨hof, hslot⟩ := r.slot_eq c hcell ht
  obtain ⟨s', hstores⟩ := exists_stores c hof (hstorable i cell hcell)
  obtain rfl : s' = s := Except.ok.inj (hstores.stored.symm.trans (hslot.symm.trans hs))
  exact ⟨s'.atom, by rw [RAtoms.get?_eq_slot?, hat, Option.map_some], hstores.denotes⟩

/-- A column is built if its cells can be stored. -/
theorem SqlResult.succeeds_spiColumn (r : SqlResult) {j : ℕ} {t : PlcType}
    (ht : r.types[j]? = some t) (hstorable : r.StorableColumn t.type j) :
    Succeeds (spiColumn c r.message t.type j) := by
  obtain ⟨hkind, hlength⟩ := getRVector_spec t.type r.data.length
  rw [spiColumn, r.rows_message]
  refine fillVector_succeeds hlength.ge fun i hi => ?_
  obtain ⟨cell, hcell, -⟩ := r.exists_cell hi ht
  obtain ⟨hof, hslot⟩ := r.slot_eq c hcell ht
  obtain ⟨s, hstores⟩ := exists_stores c hof (hstorable i cell hcell)
  exact ⟨s, hslot.trans hstores.stored, hstores.kind.trans hkind.symm⟩

/-! ## The data frame -/

theorem spiColumns_eq_ok {result : PlcMsgResult} {j : ℕ} {l : List (Option CString × PlcType)}
    {columns : List (CString × RAtoms)} (h : spiColumns c result j l = .ok columns) :
    columns.length = l.length ∧ ∀ (k : ℕ) name t, l[k]? = some (some name, t) →
      ∃ column, columns[k]? = some (mkChar name, column) ∧
        spiColumn c result t.type (j + k) = .ok column := by
  induction l generalizing j columns with
  | nil =>
    obtain rfl : [] = columns := Except.ok.inj h
    exact ⟨rfl, fun k name t hk => by simp at hk⟩
  | cons head l ih =>
    obtain ⟨_ | name, t⟩ := head
    · cases h
    rw [spiColumns] at h
    obtain ⟨column, hcolumn, h⟩ := bind_eq_ok.1 h
    obtain ⟨rest, hrest, h⟩ := bind_eq_ok.1 h
    obtain rfl := Except.ok.inj h
    obtain ⟨hlength, hcolumns⟩ := ih hrest
    refine ⟨by rw [List.length_cons, List.length_cons, hlength], fun k name' t' hk => ?_⟩
    cases k with
    | zero =>
      obtain ⟨rfl, rfl⟩ : name = name' ∧ t = t' := by simpa using hk
      exact ⟨column, rfl, hcolumn⟩
    | succ k =>
      obtain ⟨column', hat, hcolumn'⟩ := hcolumns k name' t' hk
      exact ⟨column', hat, by rwa [Nat.add_right_comm] at hcolumn'⟩

theorem spiColumns_succeeds {result : PlcMsgResult} {j : ℕ} {l : List (Option CString × PlcType)}
    (h : ∀ (k : ℕ) name t, l[k]? = some (name, t) →
      name.isSome = true ∧ Succeeds (spiColumn c result t.type (j + k))) :
    Succeeds (spiColumns c result j l) := by
  induction l generalizing j with
  | nil => exact succeeds_pure []
  | cons head l ih =>
    obtain ⟨name, t⟩ := head
    obtain ⟨hname, column, hcolumn⟩ := h 0 name t rfl
    obtain ⟨chars, rfl⟩ := Option.isSome_iff_exists.1 hname
    rw [Nat.add_zero] at hcolumn
    obtain ⟨rest, hrest⟩ := ih fun k name' t' hk => by
      have := h (k + 1) name' t' hk
      rwa [← Nat.add_assoc, Nat.add_right_comm] at this
    exact ⟨_, by rw [spiColumns, hcolumn, ok_bind, hrest, ok_bind]⟩

/-- The columns of the result, with their names. -/
theorem SqlResult.processSpiResults_message (r : SqlResult) :
    processSpiResults c r.message =
      spiColumns c r.message 0 ((r.names.map some).zip r.types) >>= fun columns =>
        .ok (.frame ⟨columns.map Prod.fst, columns.map Prod.snd,
          (List.range r.data.length).map fun i => printInt (BitVec.ofNat 32 (i + 1))⟩) := by
  have hcols : r.message.cols.toNat = r.types.length :=
    BitVec.toNat_ofNat .. |>.trans (Nat.mod_eq_of_lt r.cols_lt)
  have hcols0 : r.message.cols ≠ 0 := by
    intro h
    rw [h] at hcols
    exact r.cols_pos.ne hcols
  have hrows0 : r.message.rows ≠ 0 := by
    intro h
    have hrows := r.rows_message
    rw [h] at hrows
    exact r.rows_pos.ne hrows
  have htake : (r.message.names.zip r.message.types).take r.message.cols.toNat
      = (r.names.map some).zip r.types := by
    refine List.take_of_length_le ?_
    rw [hcols, List.length_zip]
    exact min_le_right _ _
  rw [processSpiResults, if_neg hcols0, if_neg hrows0, htake, r.rows_message]

/-- All cells can be stored. -/
def SqlResult.AllStorable (r : SqlResult) : Prop :=
  ∀ i j cell t, r.cell? i j = some cell → r.types[j]? = some t → Storable t.type cell

/-- What is stored for each cell denotes it. -/
def SqlResult.AllKept (r : SqlResult) : Prop := ∀ i j cell, r.cell? i j = some cell → Kept c cell

theorem SqlResult.getElem?_zip (r : SqlResult) {j : ℕ} {t : PlcType} (ht : r.types[j]? = some t) :
    ∃ name, r.names[j]? = some name ∧ ((r.names.map some).zip r.types)[j]? = some (some name, t) := by
  have hj : j < r.names.length := by
    rw [r.names_length]
    exact (List.getElem?_eq_some_iff.1 ht).1
  refine ⟨r.names[j], List.getElem?_eq_getElem hj, ?_⟩
  rw [List.getElem?_zip_eq_some]
  exact ⟨by rw [List.getElem?_map, List.getElem?_eq_getElem hj, Option.map_some], ht⟩

theorem SqlResult.frame_built (r : SqlResult) (h : r.AllStorable) :
    ∃ f, processSpiResults c r.message = .ok (.frame f) := by
  have hcolumns : Succeeds (spiColumns c r.message 0 ((r.names.map some).zip r.types)) := by
    refine spiColumns_succeeds c fun k name t hk => ?_
    rw [List.getElem?_zip_eq_some, List.getElem?_map] at hk
    obtain ⟨hname, ht⟩ := hk
    obtain ⟨chars, -, rfl⟩ := Option.map_eq_some_iff.1 hname
    rw [Nat.zero_add]
    exact ⟨rfl, r.succeeds_spiColumn c ht fun i cell hcell => h i k cell t hcell ht⟩
  obtain ⟨columns, hcolumns⟩ := hcolumns
  exact ⟨_, by rw [r.processSpiResults_message, hcolumns, ok_bind]⟩

section Built

variable {r : SqlResult} {f : RFrame} (h : processSpiResults c r.message = .ok (.frame f))

include h

/-- The frame that is built has a column for each type, with its name. -/
theorem SqlResult.columns_of_built :
    f.names.length = r.types.length ∧ f.columns.length = r.types.length ∧
      ∀ j t, r.types[j]? = some t →
        ∃ name column, r.names[j]? = some name ∧ f.names[j]? = some (mkChar name) ∧
          f.columns[j]? = some column ∧ spiColumn c r.message t.type j = .ok column := by
  rw [r.processSpiResults_message] at h
  obtain ⟨columns, hcolumns, hf⟩ := bind_eq_ok.1 h
  obtain rfl := SpiAnswer.frame.inj (Except.ok.inj hf)
  obtain ⟨hlength, hat⟩ := spiColumns_eq_ok c hcolumns
  have hcount : columns.length = r.types.length := by
    rw [hlength, List.length_zip, List.length_map, r.names_length, min_self]
  refine ⟨by rw [List.length_map, hcount], by rw [List.length_map, hcount], fun j t ht => ?_⟩
  obtain ⟨name, hname, hzip⟩ := r.getElem?_zip ht
  obtain ⟨column, hj, hok⟩ := hat j name t hzip
  refine ⟨name, column, hname, ?_, ?_, by rwa [Nat.zero_add] at hok⟩
  · rw [List.getElem?_map, hj, Option.map_some]
  · rw [List.getElem?_map, hj, Option.map_some]

theorem SqlResult.names_of_built : f.names = r.names := by
  obtain ⟨hnames, -, hcolumn⟩ := SqlResult.columns_of_built c h
  refine List.ext_getElem? fun j => ?_
  by_cases hj : j < r.types.length
  · obtain ⟨name, _, hname, hcol, -⟩ := hcolumn j _ (List.getElem?_eq_getElem hj)
    rw [hcol, hname, mkChar_eq_self (r.names_nulFree name (List.mem_of_getElem? hname))]
  · rw [List.getElem?_eq_none (by omega), List.getElem?_eq_none (by rw [r.names_length]; omega)]

theorem SqlResult.rows_of_built (column : RAtoms) (hmem : column ∈ f.columns) :
    column.length = r.data.length := by
  obtain ⟨-, hcount, hcolumn⟩ := SqlResult.columns_of_built c h
  obtain ⟨j, hj⟩ := List.mem_iff_getElem?.1 hmem
  have hlt : j < r.types.length := hcount ▸ (List.getElem?_eq_some_iff.1 hj).1
  have ht := List.getElem?_eq_getElem hlt
  obtain ⟨_, column', -, -, hcol, hok⟩ := hcolumn j _ ht
  obtain rfl : column' = column := Option.some.inj (hcol.symm.trans hj)
  exact (r.spiColumn_eq_ok c ht hok).2.1

/-- The entry of each cell. -/
theorem SqlResult.entry_of_built {i j : ℕ} {cell : RawData} (hcell : r.cell? i j = some cell) :
    ∃ atom, (f.columns[j]?).bind (·.get? i) = some atom ∧ (Denotes atom cell ↔ Kept c cell) := by
  have ht := List.getElem?_eq_getElem (lt_of_cell? hcell).2
  obtain ⟨-, -, hcolumn⟩ := SqlResult.columns_of_built c h
  obtain ⟨_, column, -, -, hj, hok⟩ := hcolumn j _ ht
  obtain ⟨atom, hatom, hdenotes⟩ := (r.spiColumn_eq_ok c ht hok).2.2 i cell hcell
  exact ⟨atom, by rw [hj, Option.bind_some, hatom], hdenotes⟩

theorem SqlResult.allStorable_of_built : r.AllStorable := by
  intro i j cell t hcell ht
  obtain ⟨-, -, hcolumn⟩ := SqlResult.columns_of_built c h
  obtain ⟨_, column, -, -, -, hok⟩ := hcolumn j t ht
  exact (r.spiColumn_eq_ok c ht hok).1 i cell hcell

/-- A data frame that is built shows the rows if what is stored denotes the cells. -/
theorem SqlResult.shows_iff : r.Shows f ↔ r.AllKept c := by
  constructor
  · intro hshows i j cell hcell
    obtain ⟨atom, hatom, hdenotes⟩ := SqlResult.entry_of_built c h hcell
    obtain ⟨atom', hatom', hcellDenoted⟩ := hshows.entries i j cell hcell
    obtain rfl : atom = atom' := Option.some.inj (hatom.symm.trans hatom')
    exact hdenotes.1 hcellDenoted
  · intro hkept
    refine ⟨SqlResult.names_of_built c h, (SqlResult.columns_of_built c h).2.1,
      SqlResult.rows_of_built c h, fun i j cell hcell => ?_⟩
    obtain ⟨atom, hatom, hdenotes⟩ := SqlResult.entry_of_built c h hcell
    exact ⟨atom, hatom, hdenotes.2 (hkept i j cell hcell)⟩

end Built

/-- The data frame is the result of the query if and only if nulls stand in columns of texts only, no
    INT4 is the least one, INT8 is zero, no FLOAT8 is the `NA` of R, and no BYTEA has a length that is a
    multiple of 256. -/
theorem spi_result_returned_iff (r : SqlResult) :
    r.Returned c ↔ (r.AllStorable → r.AllKept c) ∧ (r.NulFree → r.AllStorable) := by
  constructor
  · rintro ⟨hshows, hbuilt⟩
    refine ⟨fun hstorable => ?_, fun hnul => ?_⟩
    · obtain ⟨f, hf⟩ := r.frame_built c hstorable
      exact (SqlResult.shows_iff c hf).1 (hshows f hf)
    · obtain ⟨f, hf⟩ := hbuilt hnul
      exact SqlResult.allStorable_of_built c hf
  · rintro ⟨hkept, hstorable⟩
    refine ⟨fun f hf => ?_, fun hnul => r.frame_built c (hstorable hnul)⟩
    exact (SqlResult.shows_iff c hf).2 (hkept (SqlResult.allStorable_of_built c hf))

end

/-! ## Queries whose results are lost -/

/-- A result of one row and one column. -/
def oneCell (type : PlcDatatype) (cell : RawData) (htype : type ∈ spiTypes) (hcell : CellOf type cell) :
    SqlResult where
  names := [[97]]
  types := [.mk type none 0 []]
  data := [[cell]]
  rows_pos := Nat.one_pos
  rows_lt := by norm_num
  cols_pos := Nat.one_pos
  cols_lt := by norm_num
  names_length := rfl
  names_nulFree := by simp
  row_length := by simp
  types_mem t ht := by
    rw [List.mem_singleton.1 ht]
    exact htype
  cells := by
    intro row hrow j cell' t hcell' ht
    obtain rfl : row = [cell] := List.mem_singleton.1 hrow
    cases j with
    | zero =>
      obtain rfl : cell = cell' := Option.some.inj hcell'
      obtain rfl : .mk type none 0 [] = t := Option.some.inj ht
      exact hcell
    | succ j => cases ht

/-- A cell must be stored, and what is stored must denote it. -/
theorem SqlResult.Returned.of_oneCell {c : CNumbers} {type : PlcDatatype} {cell : RawData}
    {htype : type ∈ spiTypes} {hcell : CellOf type cell}
    (h : (oneCell type cell htype hcell).Returned c) (hnul : (oneCell type cell htype hcell).NulFree) :
    Storable type cell ∧ Kept c cell := by
  obtain ⟨f, hf⟩ := h.2 hnul
  exact ⟨SqlResult.allStorable_of_built c hf 0 0 cell _ rfl rfl,
    (SqlResult.shows_iff c hf).1 (h.1 f hf) 0 0 cell rfl⟩

theorem nulFree_oneCell {type : PlcDatatype} {cell : RawData} (htype : type ∈ spiTypes)
    (hcell : CellOf type cell) (h : ∀ b, cell = some (.bytea b) → 0 ∉ b.data) :
    (oneCell type cell htype hcell).NulFree := by
  intro i j b hb
  cases i with
  | zero =>
    cases j with
    | zero => exact h b (Option.some.inj hb)
    | succ j => cases hb
  | succ i => cases hb

/-- A BYTEA of 256 bytes. -/
def longBytea : Bytea := ⟨256, List.replicate 256 65⟩

theorem toInt_len_longBytea : longBytea.len.toInt = longBytea.data.length := by
  rw [longBytea, List.length_replicate]
  rfl

/-- A null in a column of INT4, an INT8 that is not zero, and a BYTEA of 256 bytes are lost. -/
theorem spi_results_lost :
    ¬ (oneCell .int4 none (by decide) trivial).Returned ieeeNumbers ∧
    ¬ (oneCell .int8 (some (.int8 5)) (by decide) rfl).Returned ieeeNumbers ∧
    ¬ (oneCell .bytea (some (.bytea longBytea)) (by decide)
      ⟨rfl, toInt_len_longBytea⟩).Returned ieeeNumbers := by
  refine ⟨fun h => ?_, fun h => ?_, fun h => ?_⟩
  · have hstorable : PlcDatatype.int4 = .text := (h.of_oneCell (nulFree_oneCell _ _ (by simp))).1
    cases hstorable
  · rcases (h.of_oneCell (nulFree_oneCell _ _ (by simp))).2 (by decide) with h | ⟨h, -⟩ <;>
      exact absurd h (by decide)
  · have hnul : 0 ∉ longBytea.data := fun hmem => absurd (List.eq_of_mem_replicate hmem) (by decide)
    have hkept := (h.of_oneCell (nulFree_oneCell _ _ fun b hb => by
      obtain rfl : longBytea = b := Value.bytea.inj (Option.some.inj hb)
      exact hnul)).2
    rcases hkept hnul with hempty | hbyte
    · exact absurd (congrArg List.length hempty) (by rw [longBytea, List.length_replicate]; decide)
    · exact hbyte rfl

end PlContainer
