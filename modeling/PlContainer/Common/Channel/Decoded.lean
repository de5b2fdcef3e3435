import PlContainer.Common.Channel.Receive

set_option autoImplicit false

/-! # What the receiver builds

Whatever bytes the peer sends, a value that is received under a declared type has the shape of that
type: `receive_raw_object` follows the type tree that came with the message. This says nothing about
the type that the receiver expects. -/

namespace PlContainer

open ByteStream

/-- The type of a value without parts. -/
def Value.flatType : Value → Option PlcDatatype
  | .int1 _ => some .int1
  | .int2 _ => some .int2
  | .int4 _ => some .int4
  | .int8 _ => some .int8
  | .float4 _ => some .float4
  | .float8 _ => some .float8
  | .text _ => some .text
  | .bytea _ => some .bytea
  | .iterator _ _ | .array _ _ _ | .udt _ => none

/-- The value has the shape of the type it was decoded under. -/
inductive Value.OfType : PlcType → Value → Prop where
  | flat {type : PlcDatatype} {typeName : Option CString} {n : BitVec 16} {subTypes : List PlcType}
      {v : Value} (htype : v.flatType = some type) : OfType (.mk type typeName n subTypes) v
  | array {typeName : Option CString} {n : BitVec 16} {elemType : PlcType} {subTypes : List PlcType}
      {arrMeta : PlcArrayMeta} {data : List RawData}
      (hdata : ∀ v, some v ∈ data → OfType elemType v) :
      OfType (.mk .array typeName n (elemType :: subTypes))
        (.array arrMeta (data.map Option.isNone) data)
  | udt {typeName : Option CString} {n : BitVec 16} {subTypes : List PlcType} {data : List RawData}
      (hlen : data.length = subTypes.length)
      (hdata : ∀ t v, (t, some v) ∈ subTypes.zip data → OfType t v) :
      OfType (.mk .udt typeName n subTypes) (.udt data)

/-- The counter of each type in the tree is the number of its subtypes. -/
inductive PlcType.Counted : PlcType → Prop where
  | mk {type : PlcDatatype} {typeName : Option CString} {n : BitVec 16} {subTypes : List PlcType}
      (hlen : n.toInt.toNat = subTypes.length) (hsub : ∀ t ∈ subTypes, Counted t) :
      Counted (.mk type typeName n subTypes)

/-! ## Types -/

theorem counted_of_receiveTypeAux {fuel : ℕ} {t : PlcType} (h : Yields (receiveTypeAux fuel) t) :
    t.Counted := by
  induction fuel generalizing t with
  | zero => exact h.of_throw.elim
  | succ fuel ih =>
      rw [receiveTypeAux] at h
      obtain ⟨typ, -, h⟩ := h.of_bind
      obtain ⟨typeName, -, h⟩ := h.of_bind
      dsimp only at h
      split at h
      · obtain ⟨n, -, h⟩ := h.of_bind
        obtain ⟨subTypes, hsub, h⟩ := h.of_bind
        obtain ⟨hlen, hall⟩ := hsub.of_readN
        rw [h.of_pure]
        exact .mk hlen.symm fun t ht => ih (hall t ht)
      · rw [h.of_pure]
        exact .mk rfl (by simp)

theorem counted_of_receiveType {t : PlcType} (h : Yields receiveType t) : t.Counted := by
  obtain ⟨s, s', hrun⟩ := h
  exact counted_of_receiveTypeAux ⟨s, s', hrun⟩

/-! ## Values -/

theorem flatType_of_receiveFlat {t : PlcDatatype} {v : Value} (h : Yields (receiveFlat t) v) :
    v.flatType = some t := by
  cases t
  case int1 | int2 | int4 | int8 | float4 | float8 | text | bytea =>
    obtain ⟨x, -, h⟩ := h.of_bind
    rw [h.of_pure]
    rfl
  all_goals exact h.of_throw.elim

/-- The fields of a composite value, given what is known of each of its types. -/
theorem fields_of_receiveUdt {subTypes : List PlcType}
    (hsub : ∀ t ∈ subTypes, ∀ v, Yields (receiveRawObject t) (some v) → v.OfType t) {n : ℕ}
    {data : List RawData} (h : Yields (receiveUdt n subTypes) data) :
    data.length = n ∧ ∀ t v, (t, some v) ∈ subTypes.zip data → v.OfType t := by
  induction n generalizing subTypes data with
  | zero =>
      cases subTypes <;> rw [receiveUdt] at h <;> rw [h.of_pure] <;> simp
  | succ n ih =>
      cases subTypes with
      | nil => exact h.of_throw.elim
      | cons t ts =>
          rw [List.forall_mem_cons] at hsub
          rw [receiveUdt] at h
          obtain ⟨d, hd, h⟩ := h.of_bind
          obtain ⟨ds, hds, h⟩ := h.of_bind
          obtain ⟨hlen, hall⟩ := ih hsub.2 hds
          rw [h.of_pure]
          refine ⟨by simp [hlen], fun t' v hmem => ?_⟩
          rcases List.mem_cons.1 hmem with heq | hmem
          · cases heq
            exact hsub.1 v hd
          · exact hall t' v hmem

theorem elements_of_receiveArray {elemType : PlcType} {receiveElem : Receive RawData}
    (helem : ∀ v, Yields receiveElem (some v) → v.OfType elemType) {v : Value}
    (h : Yields (receiveArray elemType.type receiveElem) v) (typeName : Option CString)
    (n : BitVec 16) (subTypes : List PlcType) :
    v.OfType (.mk .array typeName n (elemType :: subTypes)) := by
  obtain ⟨ndims, -, h⟩ := h.of_bind
  obtain ⟨dims, -, h⟩ := h.of_bind
  dsimp only at h
  generalize (if 0 < ndims.toInt then dims.foldl (· * ·) 1 else 0) = size at h
  split at h
  · split at h
    · exact h.of_throw.elim
    · obtain ⟨-, -, h⟩ := h.of_bind
      obtain ⟨-, -, h⟩ := h.of_bind
      obtain ⟨elems, helems, h⟩ := h.of_bind
      rw [h.of_pure]
      exact .array fun v hv => helem v (helems.of_readN.2 _ hv)
  · have hnil : ∀ v, some v ∈ ([] : List RawData) → v.OfType elemType := by simp
    rw [h.of_pure]
    exact .array hnil

theorem ofType_udt {typeName : Option CString} {n : BitVec 16} {subTypes : List PlcType}
    (hlen : n.toInt.toNat = subTypes.length)
    (hsub : ∀ t ∈ subTypes, ∀ v, Yields (receiveRawObject t) (some v) → v.OfType t) {v : Value}
    (h : Yields (do pmalloc (n.toInt * 16)
                    let data ← receiveUdt n.toInt.toNat subTypes
                    pure (some (Value.udt data))) (some v)) :
    v.OfType (.mk .udt typeName n subTypes) := by
  obtain ⟨-, -, h⟩ := h.of_bind
  obtain ⟨data, hdata, h⟩ := h.of_bind
  obtain ⟨hcount, hall⟩ := fields_of_receiveUdt hsub hdata
  cases h.of_pure
  exact .udt (hcount.trans hlen) hall

theorem ofType_flat {type : PlcDatatype} {typeName : Option CString} {n : BitVec 16}
    {subTypes : List PlcType} {v : Value}
    (h : Yields (do let w ← receiveFlat type; pure (some w)) (some v)) :
    v.OfType (.mk type typeName n subTypes) := by
  obtain ⟨w, hw, h⟩ := h.of_bind
  cases h.of_pure
  exact .flat (flatType_of_receiveFlat hw)

/-- **A value has the shape of the type it was received under.** -/
theorem ofType_of_receiveRawObject {t : PlcType} (ht : t.Counted) :
    (∀ v, Yields (receiveRawObject t) (some v) → v.OfType t) ∧
      ∀ v, Yields (receiveArrayElement t) (some v) → v.OfType t := by
  induction ht with
  | @mk type typeName n subTypes hlen hsub ih =>
      have hfields := fun t ht => (ih t ht).1
      constructor
      · intro v h
        unfold receiveRawObject at h
        obtain ⟨isn, -, h⟩ := h.of_bind
        split at h
        · cases h.of_pure
        · split at h
          · split at h
            · exact h.of_throw.elim
            · next elemType es _ =>
                obtain ⟨w, hw, h⟩ := h.of_bind
                cases h.of_pure
                exact elements_of_receiveArray (ih elemType (List.mem_cons_self ..)).2 hw _ _ _
          · exact ofType_udt hlen hfields h
          · exact ofType_flat h
      · intro v h
        unfold receiveArrayElement at h
        obtain ⟨isnull, -, h⟩ := h.of_bind
        split at h
        · cases h.of_pure
        · split at h
          · exact h.of_throw.elim
          · exact ofType_udt hlen hfields h
          · exact ofType_flat h

/-! ## Messages -/

/-- The rows of a result, each value of the shape of its column's type. -/
theorem ofType_of_receiveRow {types : List PlcType} (htypes : ∀ t ∈ types, t.Counted)
    {row : List RawData} (h : Yields (receiveRow types) row) :
    row.length = types.length ∧ ∀ t v, (t, some v) ∈ types.zip row → v.OfType t := by
  induction types generalizing row with
  | nil =>
      rw [receiveRow] at h
      rw [h.of_pure]
      simp
  | cons t ts ih =>
      rw [List.forall_mem_cons] at htypes
      rw [receiveRow] at h
      obtain ⟨d, hd, h⟩ := h.of_bind
      obtain ⟨ds, hds, h⟩ := h.of_bind
      obtain ⟨hlen, hall⟩ := ih htypes.2 hds
      rw [h.of_pure]
      refine ⟨by simp [hlen], fun t' v hmem => ?_⟩
      rcases List.mem_cons.1 hmem with heq | hmem
      · cases heq
        exact (ofType_of_receiveRawObject htypes.1).1 v hd
      · exact hall t' v hmem

/-- A message that was received is one that the receiver of its type gives. -/
theorem yields_body {mask : BitVec 64} {m : PlcMessage}
    (h : Yields (plcontainerChannelReceive mask) m) : ∃ t, Yields (receiveBody t) m := by
  rw [plcontainerChannelReceive] at h
  obtain ⟨cType, -, h⟩ := h.of_bind
  split at h
  · exact h.of_throw.elim
  · split at h
    · exact ⟨_, h⟩
    · exact h.of_throw.elim

/-- What a received RESULT is made of. -/
structure PlcMsgResult.Received (m : PlcMsgResult) : Prop where
  types : m.types.length = m.cols.toNat
  rows : 0 < m.cols.toNat → m.data.length = m.rows.toNat
  row : ∀ row ∈ m.data, row.length = m.types.length ∧
    ∀ t v, (t, some v) ∈ m.types.zip row → v.OfType t

theorem received_of_receiveResult {m : PlcMsgResult} (h : Yields receiveResult (.result m)) :
    m.Received := by
  obtain ⟨rows, -, h⟩ := h.of_bind
  obtain ⟨cols, -, h⟩ := h.of_bind
  obtain ⟨columns, hcolumns, h⟩ := h.of_bind
  dsimp only at h
  obtain ⟨data, hdata, h⟩ := h.of_bind
  obtain ⟨exc, -, h⟩ := h.of_bind
  split at h
  · obtain ⟨err, -, h⟩ := h.of_bind
    cases h.of_pure
  · cases h.of_pure
    obtain ⟨hlen, hall⟩ := hcolumns.of_readN
    have htypes : ∀ t ∈ columns.map Prod.fst, t.Counted := by
      intro t ht
      obtain ⟨col, hcol, rfl⟩ := List.mem_map.1 ht
      have hread := hall col hcol
      rw [receiveColumn] at hread
      obtain ⟨type, htype, hread⟩ := hread.of_bind
      obtain ⟨name, -, hread⟩ := hread.of_bind
      rw [hread.of_pure]
      exact counted_of_receiveType htype
    rw [receiveRows] at hdata
    split at hdata
    · next hpos =>
        obtain ⟨hrows, hrow⟩ := hdata.of_readN
        exact ⟨by simp [hlen], fun _ => hrows,
          fun row hmem => ofType_of_receiveRow htypes (hrow row hmem)⟩
    · next hpos =>
        have hnil := hdata.of_pure
        exact ⟨by simp [hlen], fun h => absurd h hpos, by simp [hnil]⟩

/-- A row of a result with one column. -/
theorem PlcMsgResult.Received.column {m : PlcMsgResult} (hm : m.Received) (hcols : m.cols.toNat = 1)
    {row : ℕ} (hrow : row < m.rows.toNat) :
    ∃ t d, m.types = [t] ∧ m.data[row]? = some [d] ∧ ∀ v, d = some v → v.OfType t := by
  obtain ⟨t, htypes⟩ := List.length_eq_one_iff.1 (hm.types.trans hcols)
  have hlt : row < m.data.length := by
    rw [hm.rows (by omega)]
    exact hrow
  obtain ⟨hlen, hvalues⟩ := hm.row _ (List.getElem_mem hlt)
  rw [htypes] at hlen hvalues
  obtain ⟨d, hd⟩ := List.length_eq_one_iff.1 hlen
  refine ⟨t, d, htypes, by rw [List.getElem?_eq_getElem hlt, hd], ?_⟩
  rintro v rfl
  exact hvalues t v (by simp [hd])

/-- A received RESULT. -/
theorem received_of_receive {mask : BitVec 64} {m : PlcMsgResult}
    (h : Yields (plcontainerChannelReceive mask) (.result m)) : m.Received := by
  obtain ⟨t, h⟩ := yields_body h
  cases t
  case result => exact received_of_receiveResult h
  all_goals
    obtain ⟨m', -, h⟩ := h.of_bind
    cases h.of_pure

theorem ofType_of_receiveArguments {nargs : BitVec 32} {args : List PlcArgument}
    (h : Yields (receiveArguments nargs) args) :
    ∀ arg ∈ args, ∀ v, arg.data = some v → v.OfType arg.type := by
  rw [receiveArguments] at h
  split at h
  · exact h.of_throw.elim
  · intro arg harg v hv
    have hread := h.of_readN.2 arg harg
    rw [receiveArgument] at hread
    obtain ⟨name, -, hread⟩ := hread.of_bind
    obtain ⟨type, htype, hread⟩ := hread.of_bind
    obtain ⟨data, hdata, hread⟩ := hread.of_bind
    cases hread.of_pure
    cases (hv : data = some v)
    exact (ofType_of_receiveRawObject (counted_of_receiveType htype)).1 v hdata

/-- The arguments of a received PEXECUTE. -/
theorem arguments_of_receive {mask : BitVec 64} {nargs : BitVec 32} {args : List PlcArgument}
    {limit pplan : BitVec 64}
    (h : Yields (plcontainerChannelReceive mask) (.sql (.pexecute nargs args limit pplan))) :
    ∀ arg ∈ args, ∀ v, arg.data = some v → v.OfType arg.type := by
  obtain ⟨t, h⟩ := yields_body h
  cases t
  case sql =>
    obtain ⟨m, hm, h⟩ := h.of_bind
    cases h.of_pure
    obtain ⟨sqlType, -, hm⟩ := hm.of_bind
    split at hm
    · obtain ⟨_, -, hm⟩ := hm.of_bind
      obtain ⟨_, -, hm⟩ := hm.of_bind
      cases hm.of_pure
    · split at hm
      · obtain ⟨_, -, hm⟩ := hm.of_bind
        obtain ⟨_, -, hm⟩ := hm.of_bind
        obtain ⟨_, -, hm⟩ := hm.of_bind
        cases hm.of_pure
      · split at hm
        · obtain ⟨_, -, hm⟩ := hm.of_bind
          cases hm.of_pure
        · split at hm
          · obtain ⟨nargs', -, hm⟩ := hm.of_bind
            obtain ⟨args', hargs, hm⟩ := hm.of_bind
            obtain ⟨_, -, hm⟩ := hm.of_bind
            obtain ⟨_, -, hm⟩ := hm.of_bind
            cases hm.of_pure
            exact ofType_of_receiveArguments hargs
          · exact hm.of_throw.elim
  case result =>
    obtain ⟨_, -, h⟩ := h.of_bind
    obtain ⟨_, -, h⟩ := h.of_bind
    obtain ⟨_, -, h⟩ := h.of_bind
    dsimp only at h
    obtain ⟨_, -, h⟩ := h.of_bind
    obtain ⟨_, -, h⟩ := h.of_bind
    split at h
    · obtain ⟨_, -, h⟩ := h.of_bind
      cases h.of_pure
    · cases h.of_pure
  all_goals
    obtain ⟨m', -, h⟩ := h.of_bind
    cases h.of_pure

end PlContainer
