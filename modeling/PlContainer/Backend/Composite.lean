import PlContainer.Backend.TypeInfo
import PlContainer.Common.Channel.Decoded
import PlContainer.Common.Channel.Values
import PlContainer.Library.Checked

set_option autoImplicit false

/-! # Rows on their way to the client and back

`plc_datum_as_udt` takes the attributes of a row apart, and `plc_datum_from_udt` puts them together
again. Both skip the attributes that have been dropped, so the position of an attribute and that of its
field differ behind the first of these. The first loop keeps them apart. The second one takes the type
of an attribute at the position of its field, and leaves what it hands to `heap_form_tuple` for a
dropped attribute as it was allocated. -/

namespace PlContainer

open Checked

/-! ## Attributes -/

/-- What `fill_type_info_inner` makes of an attribute: composite types inside a row count as scalars,
    which are passed as texts. -/
inductive AttrType where
  | scalar (typeOid : Oid)
  | array (elemOid : Oid)
deriving DecidableEq, Repr

structure UdtAttr where
  attname : CString
  type : AttrType
deriving DecidableEq, Repr

def UdtAttr.info (attr : UdtAttr) : PlcTypeInfo :=
  match attr.type with
  | .scalar typeOid => .scalar (scalarInput typeOid false) (some attr.attname)
  | .array elemOid => .array (some attr.attname) (.scalar (scalarInput elemOid true) none)

/-- The field `subTypes` of a composite type; a dropped attribute is `none`. -/
def subTypesOf (attrs : List (Option UdtAttr)) : List (Option PlcTypeInfo) :=
  attrs.map (Option.map UdtAttr.info)

theorem fillAttributeElement_eq_ok {cat : Catalog} {record : Option (List PgAttribute)} {typeOid : Oid}
    {info : PlcTypeInfo} (h : fillAttributeElement cat record typeOid = .ok info) :
    info = .scalar (scalarInput typeOid true) none := by
  rcases fillTypeInfoBody_cases h with ⟨hnot, -⟩ | hscalar | ⟨hnot, -⟩
  · cases hnot
  · exact hscalar
  · cases hnot

theorem fillAttribute_eq_ok {cat : Catalog} {record : Option (List PgAttribute)} {typeOid : Oid}
    {info : PlcTypeInfo} (h : fillAttribute cat record typeOid = .ok info) (attname : CString) :
    ∃ type, info.withName attname = UdtAttr.info ⟨attname, type⟩ := by
  rcases fillTypeInfoBody_cases h with ⟨-, elemOid, elem, helem, rfl⟩ | rfl | ⟨hnot, -⟩
  · exact ⟨.array elemOid, by rw [fillAttributeElement_eq_ok helem]; rfl⟩
  · exact ⟨.scalar typeOid, rfl⟩
  · cases hnot

/-- The loop over the attributes in `fill_type_info_inner`. -/
def fillSubTypes (cat : Catalog) (record : Option (List PgAttribute)) (attrs : List PgAttribute) :
    Except TypeInfoError (List (Option PlcTypeInfo)) :=
  attrs.mapM fun attr =>
    if attr.attisdropped then pure none
    else do
      let sub ← fillAttribute cat record attr.atttypid
      pure (some (sub.withName attr.attname))

theorem fillSubTypes_eq_ok {cat : Catalog} {record : Option (List PgAttribute)}
    {attrs : List PgAttribute} {subTypes : List (Option PlcTypeInfo)}
    (h : fillSubTypes cat record attrs = .ok subTypes) :
    ∃ udtAttrs, subTypes = subTypesOf udtAttrs := by
  induction attrs generalizing subTypes with
  | nil =>
      obtain rfl := pure_eq_ok.1 h
      exact ⟨[], rfl⟩
  | cons attr attrs ih =>
      rw [fillSubTypes, List.mapM_cons] at h
      obtain ⟨first, hfirst, h⟩ := bind_eq_ok.1 h
      obtain ⟨others, hothers, h⟩ := bind_eq_ok.1 h
      obtain rfl := pure_eq_ok.1 h
      obtain ⟨udtAttrs, rfl⟩ := ih hothers
      split at hfirst
      · obtain rfl := pure_eq_ok.1 hfirst
        exact ⟨none :: udtAttrs, rfl⟩
      · obtain ⟨sub, hsub, hfirst⟩ := bind_eq_ok.1 hfirst
        obtain rfl := pure_eq_ok.1 hfirst
        obtain ⟨type, htype⟩ := fillAttribute_eq_ok hsub attr.attname
        exact ⟨some ⟨attr.attname, type⟩ :: udtAttrs, by rw [htype]; rfl⟩

/-- Every composite type that `fill_type_info` makes has such attributes. -/
theorem fillTypeInfo_udt {cat : Catalog} {record : Option (List PgAttribute)} {typeOid : Oid}
    {ptr : Bool} {typeName : Option CString} {subTypes : List (Option PlcTypeInfo)}
    (h : fillTypeInfo cat record typeOid = .ok (.udt ptr typeName subTypes)) :
    ∃ attrs, subTypes = subTypesOf attrs := by
  rcases fillTypeInfoBody_cases h with ⟨-, _, _, -, hinfo⟩ | hinfo | ⟨-, _, attrs, filled, hfilled, hinfo⟩
  · cases hinfo
  · cases hinfo
  · cases hinfo
    exact fillSubTypes_eq_ok hfilled

/-! ## Datums -/

/-- An array: dimensions, lower bounds and elements, `none` for a null. -/
structure PgArray (D : Type) where
  dims : List (BitVec 32)
  lbounds : List (BitVec 32)
  elems : List (Option D)

/-- What PostgreSQL guarantees of an array. -/
structure PgArray.Valid {D : Type} (a : PgArray D) : Prop where
  ndims_le : a.dims.length ≤ 6
  length_lbounds : a.lbounds.length = a.dims.length
  length_elems : (a.elems.length : ℤ) = if a.dims = [] then 0 else (a.dims.map BitVec.toInt).prod
  length_elems_le : a.elems.length < 2 ^ 27

/-- A datum, with `D` for those of scalar types. -/
inductive Datum (D : Type) where
  | scalar (d : D)
  | array (a : PgArray D)

/-- The functions for scalar types: `outfunc` makes a value of the layout of the type, and `infunc`,
    which is not defined on every value, undoes it. The variants for elements of arrays follow a pointer
    first, which makes no difference here. -/
structure ScalarIO (D : Type) where
  ofType : Oid → D → Prop
  outfunc : Oid → D → Value
  infunc : Oid → Value → Option D
  flatType_outfunc : ∀ typeOid d, ofType typeOid d →
    (outfunc typeOid d).flatType = some (scalarInput typeOid false).type
  infunc_outfunc : ∀ typeOid d, ofType typeOid d → infunc typeOid (outfunc typeOid d) = some d

section

variable {D : Type} (io : ScalarIO D)

/-- The datum is one of the type. -/
def AttrType.Holds : AttrType → Datum D → Prop
  | .scalar typeOid, .scalar d => io.ofType typeOid d
  | .array elemOid, .array a => a.Valid ∧ ∀ d, some d ∈ a.elems → io.ofType elemOid d
  | _, _ => False

/-- `plc_datum_as_array` with the elements that its iterator yields. -/
def plcDatumAsArray (elemOid : Oid) (a : PgArray D) : Value :=
  .iterator
    { type := (scalarInput elemOid true).type
      ndims := BitVec.ofNat 32 a.dims.length
      dims := a.dims
      size := if 0 < a.dims.length then a.dims.foldl (· * ·) 1 else 0 }
    (a.elems.map (Option.map (io.outfunc elemOid)))

/-- The loop of `plc_datum_from_array`, with `n` elements to go. -/
def plcDatumsFromArray (elemOid : Oid) : ℕ → List Bool → List RawData → Option (List (Option D))
  | 0, _, _ => some []
  | n + 1, isnull :: nulls, v :: vs => do
      let d ← if isnull then some none else (v.bind (io.infunc elemOid)).map some
      let ds ← plcDatumsFromArray elemOid n nulls vs
      some (d :: ds)
  | _ + 1, _, _ => none

/-- `plc_datum_from_array`; every lower bound is 1. -/
def plcDatumFromArray (elemOid : Oid) : Value → Option (PgArray D)
  | .array arrMeta nulls data => do
      let elems ← plcDatumsFromArray io elemOid arrMeta.size.toInt.toNat nulls data
      some ⟨arrMeta.dims, List.replicate arrMeta.ndims.toInt.toNat 1, elems⟩
  | _ => none

/-- The field `outfunc` of an attribute's type. -/
def AttrType.outfunc : AttrType → Datum D → Value
  | .scalar typeOid, .scalar d => io.outfunc typeOid d
  | .array elemOid, .array a => plcDatumAsArray io elemOid a
  -- not a datum of the type
  | _, _ => .text none

/-- The field `infunc` of an attribute's type. -/
def AttrType.infunc : AttrType → Value → Option (Datum D)
  | .scalar typeOid, v => (io.infunc typeOid v).map .scalar
  | .array elemOid, v => (plcDatumFromArray io elemOid v).map .array

/-! ## Rows -/

/-- The loop of `plc_datum_as_udt`. -/
def plcDatumAsUdt : List (Option UdtAttr) → List (Option (Datum D)) → List RawData
  | none :: attrs, _ :: row => plcDatumAsUdt attrs row
  | some attr :: attrs, d :: row => d.map (attr.type.outfunc io) :: plcDatumAsUdt attrs row
  | _, _ => []

/-- The loop of `plc_datum_from_udt` at the attribute `i`; `subTypes` and `data` are those from the
    index `j` on. `mem` is what the two allocated arrays say about an attribute that is not assigned.
    `none` is a call of the `infunc` of a dropped attribute, which is `NULL`, or a read behind the
    fields. -/
def plcDatumsFromUdt (mem : ℕ → Option (Datum D)) (i : ℕ) :
    List (Option UdtAttr) → List (Option UdtAttr) → List RawData → Option (List (Option (Datum D)))
  | [], _, _ => some []
  | none :: attrs, subTypes, data => do
      let ds ← plcDatumsFromUdt mem (i + 1) attrs subTypes data
      some (mem i :: ds)
  | some _ :: attrs, _ :: subTypes, none :: data => do
      let ds ← plcDatumsFromUdt mem (i + 1) attrs subTypes data
      some (none :: ds)
  | some _ :: attrs, some attr :: subTypes, some v :: data => do
      let d ← attr.type.infunc io v
      let ds ← plcDatumsFromUdt mem (i + 1) attrs subTypes data
      some (some d :: ds)
  | _, _, _ => none

/-- `plc_datum_from_udt`: the attributes of the row that it forms. -/
def plcDatumFromUdt (mem : ℕ → Option (Datum D)) (attrs : List (Option UdtAttr)) (data : List RawData) :
    Option (List (Option (Datum D))) :=
  plcDatumsFromUdt io mem 0 attrs attrs data

/-! ## One attribute -/

theorem delivered_of_flatType {v : Value} {t : PlcDatatype} (h : v.flatType = some t) :
    v.delivered = v := by
  cases v <;> first | rfl | cases h

variable {io}

theorem delivered_outfunc {typeOid : Oid} {d : D} (h : io.ofType typeOid d) :
    (io.outfunc typeOid d).delivered = io.outfunc typeOid d :=
  delivered_of_flatType (io.flatType_outfunc typeOid d h)

theorem plcDatumsFromArray_delivered {elemOid : Oid} {elems : List (Option D)}
    (h : ∀ d, some d ∈ elems → io.ofType elemOid d) :
    plcDatumsFromArray io elemOid elems.length
        ((elems.map (Option.map (io.outfunc elemOid))).map Option.isNone)
        (Value.deliveredAll (elems.map (Option.map (io.outfunc elemOid)))) = some elems := by
  induction elems with
  | nil => rfl
  | cons d ds ih =>
      have hds := ih fun d' hd' => h d' (List.mem_cons_of_mem _ hd')
      cases d with
      | none =>
          simp [Value.deliveredAll, Value.deliveredRaw, plcDatumsFromArray, hds, -List.map_map]
      | some d =>
          have hd : io.ofType elemOid d := h d (List.mem_cons_self ..)
          simp [Value.deliveredAll, Value.deliveredRaw, plcDatumsFromArray, hds, delivered_outfunc hd,
            io.infunc_outfunc elemOid d hd, -List.map_map]

/-- The size that `plc_datum_as_array` computes is the number of elements. -/
theorem PgArray.Valid.size_eq {a : PgArray D} (h : a.Valid) :
    (if 0 < a.dims.length then a.dims.foldl (· * ·) 1 else (0 : BitVec 32)).toInt.toNat
      = a.elems.length := by
  have hlength := h.length_elems
  have hle := h.length_elems_le
  by_cases hdims : a.dims = []
  · rw [if_pos hdims] at hlength
    have hzero : (0 : BitVec 32).toInt = 0 := rfl
    rw [hdims, if_neg (by simp), hzero]
    omega
  · rw [if_neg hdims] at hlength
    rw [if_pos (List.length_pos_iff.2 hdims), foldl_mul_eq_ofInt, ← hlength, BitVec.ofInt_natCast]
    change (1#32 * BitVec.ofNat 32 a.elems.length).toInt.toNat = _
    rw [BitVec.one_mul, (toInt_ofNat_of_lt (hle.trans (by decide))).1, Int.toNat_natCast]

/-- The array with all lower bounds 1. -/
def PgArray.rebased (a : PgArray D) : PgArray D :=
  { a with lbounds := List.replicate a.dims.length 1 }

def Datum.rebased : Datum D → Datum D
  | .scalar d => .scalar d
  | .array a => .array a.rebased

/-- What becomes of the value of an attribute that is read with its own `infunc`. -/
theorem infunc_delivered_outfunc {type : AttrType} {d : Datum D} (h : type.Holds io d) :
    type.infunc io (type.outfunc io d).delivered = some d.rebased := by
  rcases type with typeOid | elemOid <;> rcases d with d | a
  · rw [AttrType.outfunc, delivered_outfunc h, AttrType.infunc, io.infunc_outfunc _ _ h]
    rfl
  · exact h.elim
  · exact h.elim
  · have hndims : (BitVec.ofNat 32 a.dims.length).toInt.toNat = a.dims.length := by
      rw [(toInt_ofNat_of_lt (h.1.ndims_le.trans_lt (by decide))).1, Int.toNat_natCast]
    rw [AttrType.outfunc, plcDatumAsArray, Value.delivered, AttrType.infunc, plcDatumFromArray]
    dsimp only
    rw [h.1.size_eq, plcDatumsFromArray_delivered h.2, hndims]
    rfl

end

/-! ## The trip of a row -/

/-- A composite type and a row of it. The attribute limit is `MaxTupleAttributeNumber`; nothing is known
    of what is stored for dropped attributes. -/
structure CompositeValue {D : Type} (io : ScalarIO D) where
  attrs : List (Option UdtAttr)
  row : List (Option (Datum D))
  natts_le : attrs.length ≤ 1664
  typed : List.Forall₂ (fun attr d => ∀ a ∈ attr, ∀ v ∈ d, a.type.Holds io v) attrs row

namespace CompositeValue

variable {D : Type} {io : ScalarIO D} (c : CompositeValue io)

/-- The attributes that have not been dropped. -/
def live : List UdtAttr := c.attrs.filterMap id

/-- The live attributes' values, each as its own `outfunc` gives it. -/
def ownFields : List RawData :=
  (c.attrs.zip c.row).filterMap fun p => p.1.map fun attr => p.2.map (attr.type.outfunc io)

/-- The row, with nulls for the dropped attributes. -/
def liveRow : List (Option (Datum D)) := List.zipWith (fun attr d => attr.bind fun _ => d) c.attrs c.row

/-- The value survives the trip, if the arrays that `plc_datum_from_udt` allocates hold `mem`. -/
structure Survives (mem : ℕ → Option (Datum D)) : Prop where
  /-- one subtype for each live attribute, in order -/
  subTypes : ∀ ptr typeName, ∃ n : BitVec 16, n.toInt = c.live.length ∧
    copyTypeInfo (.udt ptr typeName (subTypesOf c.attrs))
      = .mk .udt typeName n (c.live.map fun attr => copyTypeInfo attr.info)
  /-- as many fields, in the same order -/
  fields : plcDatumAsUdt io c.attrs c.row = c.ownFields ∧ c.ownFields.length = c.live.length
  /-- the row comes back -/
  back : plcDatumFromUdt io mem c.attrs (Value.deliveredAll (plcDatumAsUdt io c.attrs c.row))
    = some c.liveRow

theorem length_live_le : c.live.length ≤ 1664 :=
  (List.length_filterMap_le ..).trans c.natts_le

theorem survives_subTypes (ptr : Bool) (typeName : Option CString) :
    ∃ n : BitVec 16, n.toInt = c.live.length ∧
      copyTypeInfo (.udt ptr typeName (subTypesOf c.attrs))
        = .mk .udt typeName n (c.live.map fun attr => copyTypeInfo attr.info) := by
  have hlive : (subTypesOf c.attrs).filterMap id = c.live.map UdtAttr.info := by
    rw [subTypesOf, live, List.filterMap_map, List.map_filterMap]
    rfl
  have hcopies : copySubTypes (subTypesOf c.attrs) = c.live.map fun attr => copyTypeInfo attr.info := by
    rw [copySubTypes_eq_map, hlive, List.map_map]
    rfl
  refine ⟨BitVec.ofNat 16 c.live.length, ?_, ?_⟩
  · have := c.length_live_le
    rw [BitVec.toInt_eq_toNat_cond, BitVec.toNat_ofNat]
    omega
  · rw [copyTypeInfo, hcopies, List.length_map]

theorem survives_fields :
    plcDatumAsUdt io c.attrs c.row = c.ownFields ∧ c.ownFields.length = c.live.length := by
  obtain ⟨attrs, row, natts_le, typed⟩ := c
  dsimp only [ownFields, live]
  clear natts_le
  induction typed with
  | nil => exact ⟨rfl, rfl⟩
  | @cons attr d attrs row _ _ ih =>
      cases attr with
      | none => simpa [plcDatumAsUdt] using ih
      | some attr => simpa [plcDatumAsUdt] using ih

/-- A dropped attribute comes back as what happened to be in memory. -/
theorem dropped_of_plcDatumsFromUdt {mem : ℕ → Option (Datum D)} {i : ℕ}
    {attrs subTypes : List (Option UdtAttr)} {data : List RawData} {out : List (Option (Datum D))}
    (h : plcDatumsFromUdt io mem i attrs subTypes data = some out) {k : ℕ}
    (hk : attrs[k]? = some none) : out[k]? = some (mem (i + k)) := by
  fun_induction plcDatumsFromUdt io mem i attrs subTypes data generalizing out k with
  | case1 i subTypes data => simp at hk
  | case2 i attrs subTypes data ih =>
      obtain ⟨ds, hds, h⟩ := Option.bind_eq_some_iff.1 h
      cases h
      cases k with
      | zero => rfl
      | succ k => simpa [Nat.add_right_comm, Nat.add_assoc] using ih hds hk
  | case3 i attr attrs sub subTypes data ih =>
      obtain ⟨ds, hds, h⟩ := Option.bind_eq_some_iff.1 h
      cases h
      cases k with
      | zero => cases hk
      | succ k => simpa [Nat.add_right_comm, Nat.add_assoc] using ih hds hk
  | case4 i attr attrs sub subTypes v data ih =>
      obtain ⟨d, -, h⟩ := Option.bind_eq_some_iff.1 h
      obtain ⟨ds, hds, h⟩ := Option.bind_eq_some_iff.1 h
      cases h
      cases k with
      | zero => cases hk
      | succ k => simpa [Nat.add_right_comm, Nat.add_assoc] using ih hds hk
  | case5 => cases h

/-- Without dropped attributes the row comes back with all arrays rebased. -/
theorem plcDatumsFromUdt_of_live {mem : ℕ → Option (Datum D)} (i : ℕ) {attrs : List (Option UdtAttr)}
    {row : List (Option (Datum D))}
    (htyped : List.Forall₂ (fun attr d => ∀ a ∈ attr, ∀ v ∈ d, a.type.Holds io v) attrs row)
    (hlive : ∀ attr ∈ attrs, attr.isSome) :
    plcDatumsFromUdt io mem i attrs attrs (Value.deliveredAll (plcDatumAsUdt io attrs row))
      = some (row.map (Option.map Datum.rebased)) := by
  induction htyped generalizing i with
  | nil => rfl
  | @cons attr d attrs row hd _ ih =>
      rw [List.forall_mem_cons] at hlive
      have hrest := ih (i + 1) hlive.2
      obtain ⟨attr, rfl⟩ := Option.isSome_iff_exists.1 hlive.1
      cases d with
      | none =>
          rw [plcDatumAsUdt, Option.map_none, Value.deliveredAll, Value.deliveredRaw, plcDatumsFromUdt,
            hrest]
          rfl
      | some v =>
          rw [plcDatumAsUdt, Option.map_some, Value.deliveredAll, Value.deliveredRaw, plcDatumsFromUdt,
            infunc_delivered_outfunc (hd attr rfl v rfl), hrest]
          rfl

theorem liveRow_of_live (hlive : ∀ attr ∈ c.attrs, attr.isSome) : c.liveRow = c.row := by
  obtain ⟨attrs, row, natts_le, typed⟩ := c
  dsimp only [liveRow] at hlive ⊢
  clear natts_le
  induction typed with
  | nil => rfl
  | @cons attr d attrs row _ _ ih =>
      rw [List.forall_mem_cons] at hlive
      obtain ⟨attr, rfl⟩ := Option.isSome_iff_exists.1 hlive.1
      rw [List.zipWith_cons_cons, ih hlive.2, Option.bind_some]

theorem valid_of_mem (hlive : ∀ attr ∈ c.attrs, attr.isSome) {a : PgArray D}
    (ha : some (.array a) ∈ c.row) : a.Valid := by
  obtain ⟨attrs, row, natts_le, typed⟩ := c
  dsimp only at hlive ha
  clear natts_le
  induction typed with
  | nil => cases ha
  | @cons attr d attrs row hd _ ih =>
      rw [List.forall_mem_cons] at hlive
      obtain ⟨attr, rfl⟩ := Option.isSome_iff_exists.1 hlive.1
      rcases List.mem_cons.1 ha with rfl | ha
      · have hholds := hd attr rfl (.array a) rfl
        cases htype : attr.type with
        | scalar typeOid =>
            rw [htype] at hholds
            exact hholds.elim
        | array elemOid =>
            rw [htype] at hholds
            exact hholds.1
      · exact ih hlive.2 ha

/-- The lower bounds are all that rebasing changes. -/
theorem rebased_eq_self {a : PgArray D} (h : a.Valid) :
    Datum.rebased (.array a) = .array a ↔ ∀ b ∈ a.lbounds, b = 1 := by
  obtain ⟨dims, lbounds, elems⟩ := a
  rw [Datum.rebased, PgArray.rebased, Datum.array.injEq, PgArray.mk.injEq, ← h.length_lbounds]
  dsimp only
  rw [eq_comm (b := lbounds), List.eq_replicate_iff]
  simp

/-- **A row survives the trip, whatever the memory holds, exactly if no attribute of its type has been
dropped and every array in it starts at 1.** -/
theorem survives_iff :
    (∀ mem, c.Survives mem) ↔
      (∀ attr ∈ c.attrs, attr.isSome) ∧
        ∀ a, some (.array a) ∈ c.row → ∀ b ∈ a.lbounds, b = 1 := by
  constructor
  · intro h
    have hlive : ∀ attr ∈ c.attrs, attr.isSome := by
      -- memory in which the dropped attribute is not null
      have hback := (h fun _ => some (.array ⟨[], [], []⟩)).back
      intro attr hattr
      by_contra hnone
      rw [Option.not_isSome_iff_eq_none] at hnone
      obtain ⟨k, hk⟩ := List.mem_iff_getElem?.1 (hnone ▸ hattr)
      have hget := dropped_of_plcDatumsFromUdt hback hk
      rw [liveRow, List.getElem?_zipWith, hk] at hget
      cases hrow : c.row[k]? with
      | none =>
          rw [hrow] at hget
          cases hget
      | some d =>
          rw [hrow] at hget
          cases hget
    refine ⟨hlive, fun a ha => (rebased_eq_self (c.valid_of_mem hlive ha)).1 ?_⟩
    have hback := (h fun _ => none).back
    rw [plcDatumFromUdt, plcDatumsFromUdt_of_live 0 c.typed hlive, c.liveRow_of_live hlive] at hback
    have hrow := (Option.some.inj hback).trans (List.map_id c.row).symm
    exact Option.some.inj (List.map_inj_left.1 hrow _ ha)
  · rintro ⟨hlive, hbounds⟩ mem
    refine ⟨c.survives_subTypes, c.survives_fields, ?_⟩
    rw [plcDatumFromUdt, plcDatumsFromUdt_of_live 0 c.typed hlive, c.liveRow_of_live hlive]
    have hrow : c.row.map (Option.map Datum.rebased) = c.row.map id := by
      refine List.map_inj_left.2 fun d hd => ?_
      rcases d with _ | d | a
      · rfl
      · rfl
      · rw [Option.map_some, (rebased_eq_self (c.valid_of_mem hlive hd)).2 (hbounds a hd), id]
    rw [hrow, List.map_id]

/-- Scalar functions that pass every value of the type's layout as it is. -/
def layoutIO : ScalarIO Value where
  ofType typeOid v := v.flatType = some (scalarInput typeOid false).type
  outfunc _ v := v
  infunc _ v := some v
  flatType_outfunc _ _ h := h
  infunc_outfunc _ _ _ := rfl

/-- The row `(7)` of a type whose first attribute has been dropped. -/
def droppedFirst : CompositeValue layoutIO where
  attrs := [none, some ⟨[98], .scalar int4Oid⟩]
  row := [none, some (.scalar (.int4 7))]
  natts_le := by decide
  typed := .cons (by simp) (.cons (by rintro _ ⟨⟩ _ ⟨⟩; rfl) .nil)

/-- The row `(7)` of a type whose last attribute has been dropped. -/
def droppedLast : CompositeValue layoutIO where
  attrs := [some ⟨[98], .scalar int4Oid⟩, none]
  row := [some (.scalar (.int4 7)), none]
  natts_le := by decide
  typed := .cons (by rintro _ ⟨⟩ _ ⟨⟩; rfl) (.cons (by simp) .nil)

/-- The row `([0:0]={7})`, an array that starts at 0. -/
def zeroBased : CompositeValue layoutIO where
  attrs := [some ⟨[98], .array int4Oid⟩]
  row := [some (.array ⟨[1], [0], [some (.int4 7)]⟩)]
  natts_le := by decide
  typed := by
    refine .cons ?_ .nil
    rintro _ ⟨⟩ _ ⟨⟩
    refine ⟨⟨by decide, by decide, by decide, by decide⟩, fun d hd => ?_⟩
    obtain rfl : d = .int4 7 := by simpa using hd
    rfl

/-- Behind a dropped attribute the `infunc` of the dropped one is called, which is `NULL`; a dropped
attribute is not null if the memory does not say so; and an array that starts at 0 comes back starting
at 1. -/
theorem not_survives_dropped :
    plcDatumFromUdt layoutIO (fun _ => none) droppedFirst.attrs
        (Value.deliveredAll (plcDatumAsUdt layoutIO droppedFirst.attrs droppedFirst.row)) = none ∧
      ¬ droppedFirst.Survives (fun _ => none) ∧
      ¬ droppedLast.Survives (fun _ => some (.scalar (.int4 0))) ∧
      ¬ zeroBased.Survives fun _ => none := by
  refine ⟨rfl, fun h => ?_, fun h => ?_, fun h => ?_⟩
  · cases h.back
  · cases h.back
  · cases h.back

end CompositeValue

end PlContainer
