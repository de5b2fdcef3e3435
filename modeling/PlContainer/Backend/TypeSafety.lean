import PlContainer.Backend.Datums
import PlContainer.Common.Channel.Decoded

set_option autoImplicit false

/-! # At which types the backend reads the client's values

A message of the client comes with types of its own, and the backend does not compare them with the
types it has. So a value is read at the type it was decoded under exactly if the client has declared
that type, and for composite types also if no dropped attribute comes before the value's fields. -/

namespace PlContainer

open ByteStream

/-! ## Dropped attributes -/

mutual

/-- Each field that is not null is read with a type like that of its own attribute. -/
def PlcTypeInfo.aligned (info : PlcTypeInfo) : Value → Prop
  | .array _ _ data =>
      match info with
      | .array _ elem => elem.alignedElements data
      | _ => True
  | .udt data =>
      match info with
      | .udt _ _ subTypes => PlcTypeInfo.alignedFields (subTypes.filterMap id) subTypes data
      | _ => True
  | _ => True

def PlcTypeInfo.alignedElements (elem : PlcTypeInfo) : List RawData → Prop
  | [] => True
  | d :: ds => PlcTypeInfo.alignedField elem (some elem) d ∧ elem.alignedElements ds

/-- `live` are the attributes that have not been dropped. -/
def PlcTypeInfo.alignedFields (live : List PlcTypeInfo) (subTypes : List (Option PlcTypeInfo)) :
    List RawData → Prop
  | [] => True
  | d :: ds =>
      match live, subTypes with
      | attr :: live, sub :: subTypes =>
          PlcTypeInfo.alignedField attr sub d ∧ PlcTypeInfo.alignedFields live subTypes ds
      | _, _ => True

def PlcTypeInfo.alignedField (attr : PlcTypeInfo) (sub : Option PlcTypeInfo) : RawData → Prop
  | none => True
  | some v =>
      match sub with
      | none => False
      | some info => attr.tree = info.tree ∧ info.aligned v

end

/-- No attribute of the type has been dropped. -/
inductive PlcTypeInfo.Undropped : PlcTypeInfo → Prop where
  | scalar (infunc : ScalarInput) (typeName : Option CString) : Undropped (.scalar infunc typeName)
  | array {typeName : Option CString} {elem : PlcTypeInfo} (helem : Undropped elem) :
      Undropped (.array typeName elem)
  | udt {ptr : Bool} {typeName : Option CString} {subTypes : List PlcTypeInfo}
      (hsub : ∀ sub ∈ subTypes, Undropped sub) : Undropped (.udt ptr typeName (subTypes.map some))

theorem PlcTypeInfo.alignedFields_undropped {subTypes : List PlcTypeInfo}
    (h : ∀ sub ∈ subTypes, ∀ v, sub.aligned v) (data : List RawData) :
    PlcTypeInfo.alignedFields subTypes (subTypes.map some) data := by
  induction data generalizing subTypes with
  | nil => simp [PlcTypeInfo.alignedFields]
  | cons d ds ih =>
      cases subTypes with
      | nil => simp [PlcTypeInfo.alignedFields]
      | cons sub subTypes =>
          rw [List.forall_mem_cons] at h
          rw [List.map_cons, PlcTypeInfo.alignedFields]
          refine ⟨?_, ih h.2⟩
          cases d with
          | none => simp [PlcTypeInfo.alignedField]
          | some v => exact ⟨rfl, h.1 v⟩

/-- **Without dropped attributes nothing is misaligned.** -/
theorem PlcTypeInfo.Undropped.aligned {info : PlcTypeInfo} (h : info.Undropped) (v : Value) :
    info.aligned v := by
  induction h generalizing v with
  | scalar infunc typeName => cases v <;> simp [PlcTypeInfo.aligned]
  | @array typeName elem helem ih =>
      cases v with
      | array arrMeta nulls data =>
          show elem.alignedElements data
          induction data with
          | nil => simp [PlcTypeInfo.alignedElements]
          | cons d ds ihds =>
              refine ⟨?_, ihds⟩
              cases d with
              | none => simp [PlcTypeInfo.alignedField]
              | some v => exact ⟨rfl, ih v⟩
      | _ => simp [PlcTypeInfo.aligned]
  | @udt ptr typeName subTypes hsub ih =>
      cases v with
      | udt data =>
          have hlive : (subTypes.map some).filterMap id = subTypes := by simp
          show PlcTypeInfo.alignedFields ((subTypes.map some).filterMap id) _ data
          rw [hlive]
          exact PlcTypeInfo.alignedFields_undropped ih data
      | _ => simp [PlcTypeInfo.aligned]

/-! ## One value -/

/-- The elements of an array, given what is known of each. -/
theorem sound_datumsFromArray {elem : PlcTypeInfo} {elemType : PlcType} {data : List RawData}
    (helem : ∀ v, some v ∈ data →
      ((∀ a ∈ elem.datumFrom elemType v, a.Sound) ↔ elemType.tree = elem.tree ∧ elem.aligned v))
    (htree : elemType.tree = elem.tree) :
    (∀ a ∈ elem.datumsFromArray elemType (data.map Option.isNone) data, a.Sound)
      ↔ elem.alignedElements data := by
  induction data with
  | nil => simp [PlcTypeInfo.datumsFromArray, PlcTypeInfo.alignedElements]
  | cons d ds ih =>
      have hds := ih fun v hv => helem v (List.mem_cons_of_mem _ hv)
      rw [PlcTypeInfo.datumsFromArray, PlcTypeInfo.alignedElements, List.map_cons,
        List.headD_cons, List.tail_cons, List.forall_mem_append, hds]
      cases d with
      | none => simp [PlcTypeInfo.alignedField]
      | some v =>
          have hv := helem v (List.mem_cons_self ..)
          simp [PlcTypeInfo.datumFromRaw, PlcTypeInfo.alignedField, hv, htree]

/-- The fields of a composite value, given what is known of each. -/
theorem sound_datumsFromUdt {types : List PlcType} {data : List RawData}
    (hlen : data.length = types.length)
    (hfield : ∀ t v, (t, some v) ∈ types.zip data → ∀ info : PlcTypeInfo,
      ((∀ a ∈ info.datumFrom t v, a.Sound) ↔ t.tree = info.tree ∧ info.aligned v))
    {live : List PlcTypeInfo} {subTypes : List (Option PlcTypeInfo)}
    (htrees : types.map PlcType.tree = live.map PlcTypeInfo.tree)
    (hsub : live.length ≤ subTypes.length) :
    (∀ a ∈ PlcTypeInfo.datumsFromUdt live.length subTypes types data, a.Sound)
      ↔ PlcTypeInfo.alignedFields live subTypes data := by
  induction data generalizing types live subTypes with
  | nil =>
      have htypes : types = [] := List.length_eq_zero_iff.1 hlen.symm
      subst htypes
      have hlive : live = [] := List.map_eq_nil_iff.1 htrees.symm
      simp [hlive, PlcTypeInfo.datumsFromUdt, PlcTypeInfo.alignedFields]
  | cons d ds ih =>
      cases types with
      | nil => cases hlen
      | cons t types =>
          cases live with
          | nil => cases htrees
          | cons attr live =>
              cases subTypes with
              | nil => simp at hsub
              | cons sub subTypes =>
                  simp only [List.map_cons, List.cons.injEq] at htrees
                  simp only [List.length_cons, Nat.add_right_cancel_iff] at hlen
                  simp only [List.length_cons, Nat.add_le_add_iff_right] at hsub
                  have hds := ih hlen (fun t v hv => hfield t v (List.mem_cons_of_mem _ hv))
                    htrees.2 hsub
                  rw [List.length_cons, PlcTypeInfo.datumsFromUdt, PlcTypeInfo.alignedFields,
                    List.forall_mem_append, hds]
                  refine and_congr_left fun _ => ?_
                  cases d with
                  | none => simp [PlcTypeInfo.datumFromRaw, PlcTypeInfo.alignedField]
                  | some v =>
                      cases sub with
                      | none =>
                          simp [PlcTypeInfo.datumFromRaw, PlcTypeInfo.alignedField, Access.Sound]
                      | some info =>
                          have hv := hfield t v (List.mem_cons_self ..) info
                          simp only [PlcTypeInfo.datumFromRaw, PlcTypeInfo.alignedField, hv,
                            htrees.1]

/-- **A value is read at the type it was decoded under** if that type is the backend's own and the
    value's fields are aligned with the attributes, and otherwise it is not. -/
theorem sound_datumFrom_iff {wire : PlcType} {v : Value} (h : v.OfType wire) (info : PlcTypeInfo) :
    (∀ a ∈ info.datumFrom wire v, a.Sound) ↔ wire.tree = info.tree ∧ info.aligned v := by
  induction h generalizing info with
  | @flat type typeName n subTypes v htype =>
      cases v <;> cases htype <;>
        simp [PlcTypeInfo.datumFrom, PlcTypeInfo.aligned, Access.Sound]
  | @array typeName n elemType subTypes arrMeta data _ ih =>
      cases info with
      | scalar => simp [PlcTypeInfo.datumFrom, PlcTypeInfo.aligned, Access.Sound]
      | udt => simp [PlcTypeInfo.datumFrom, PlcTypeInfo.aligned, Access.Sound]
      | array name elem =>
          rw [PlcTypeInfo.datumFrom, List.forall_mem_cons]
          refine and_congr_right fun htree => ?_
          rw [Access.Sound, PlcTypeInfo.tree_array, PlcType.tree, PlcType.trees,
            TypeTree.mk.injEq, List.cons.injEq] at htree
          exact sound_datumsFromArray (fun v hv => ih v hv elem) htree.2.1
  | @udt typeName n subTypes data hlen _ ih =>
      cases info with
      | scalar => simp [PlcTypeInfo.datumFrom, PlcTypeInfo.aligned, Access.Sound]
      | array => simp [PlcTypeInfo.datumFrom, PlcTypeInfo.aligned, Access.Sound]
      | udt ptr name attrs =>
          rw [PlcTypeInfo.datumFrom, List.forall_mem_cons]
          refine and_congr_right fun htree => ?_
          rw [Access.Sound, PlcTypeInfo.tree_udt, PlcType.tree, PlcType.trees_eq_map,
            TypeTree.mk.injEq] at htree
          exact sound_datumsFromUdt hlen (fun t v hv info => ih t v hv info) htree.2
            (List.length_filterMap_le ..)

/-! ## Results -/

/-- The value that `plcontainer_process_result` looks at. -/
def PlcMsgResult.value (m : PlcMsgResult) (resrow : ℕ) : RawData :=
  ((m.data[resrow]?).bind List.head?).join

/-- The result has no rows, or its one column is of the type that the function returns. -/
def PlcMsgResult.Fits (m : PlcMsgResult) (result : PlcTypeInfo) (resrow : ℕ) : Prop :=
  m.rows.toNat = 0 ∨ ∃ t, m.types = [t] ∧
    ∀ v, m.value resrow = some v → t.tree = result.tree ∧ result.aligned v

theorem sound_plcontainerProcessResult {m : PlcMsgResult} (hm : m.Received) {result : PlcTypeInfo}
    {resrow : ℕ} {accesses : List Access}
    (h : plcontainerProcessResult result m resrow = .ok accesses) :
    (∀ a ∈ accesses, a.Sound) ↔ m.Fits result resrow := by
  rw [plcontainerProcessResult] at h
  split at h
  · cases h
  next hcols =>
    split at h
    next hrows =>
      cases h
      simp [PlcMsgResult.Fits, hrows]
    next hrows =>
      split at h
      · cases h
      next hrow =>
        rcases Nat.eq_zero_or_pos m.cols.toNat with hzero | hpos
        · -- no columns: there is no data to look at
          have htypes : m.types = [] := List.length_eq_zero_iff.1 (hm.types.trans hzero)
          rw [htypes] at h
          cases h
          simp [PlcMsgResult.Fits, Access.Sound, htypes, hrows]
        · have hlt : resrow < m.rows.toNat := by omega
          obtain ⟨t, d, htypes, hdata, htype⟩ := hm.column (by omega) hlt
          rw [htypes, hdata] at h
          cases h
          rw [PlcMsgResult.Fits, PlcMsgResult.value, hdata, htypes]
          cases d with
          | none => simp [PlcTypeInfo.datumFromRaw]
          | some v => simp [PlcTypeInfo.datumFromRaw, sound_datumFrom_iff (htype v rfl), hrows]

/-! ## Prepared plans -/

/-- Each argument that is not null has been declared to be of the type that the plan takes. -/
def argumentsFit (cat : Catalog) (oids : List Oid) (args : List PlcArgument) : Prop :=
  ∀ oid arg, (oid, arg) ∈ oids.zip args → ∀ v, arg.data = some v →
    ∀ info, fillTypeInfo cat none oid = .ok info → arg.type.tree = info.tree

theorem argumentsFit_cons {cat : Catalog} {oid : Oid} {oids : List Oid} {arg : PlcArgument}
    {args : List PlcArgument} :
    argumentsFit cat (oid :: oids) (arg :: args)
      ↔ (∀ v, arg.data = some v → ∀ info, fillTypeInfo cat none oid = .ok info →
          arg.type.tree = info.tree) ∧ argumentsFit cat oids args := by
  constructor
  · intro h
    exact ⟨h oid arg (List.mem_cons_self ..),
      fun oid' arg' hmem => h oid' arg' (List.mem_cons_of_mem _ hmem)⟩
  · rintro ⟨hfirst, hrest⟩ oid' arg' hmem
    rcases List.mem_cons.1 hmem with heq | hmem
    · cases heq
      exact hfirst
    · exact hrest oid' arg' hmem

/-- A type that is neither an array nor composite has no attributes to misalign. -/
theorem PlcTypeInfo.aligned_of_scalar {info : PlcTypeInfo}
    (h : ¬ (info.type = .array ∨ info.type = .udt)) (v : Value) : info.aligned v := by
  cases info with
  | scalar infunc typeName => exact (PlcTypeInfo.Undropped.scalar infunc typeName).aligned v
  | array => exact absurd (.inl rfl) h
  | udt => exact absurd (.inr rfl) h

theorem sound_pexecuteArguments {cat : Catalog} {oids : List Oid} {args : List PlcArgument}
    (hargs : ∀ arg ∈ args, ∀ v, arg.data = some v → v.OfType arg.type) {accesses : List Access}
    (h : pexecuteArguments cat oids args = .ok accesses) :
    (∀ a ∈ accesses, a.Sound) ↔ argumentsFit cat oids args := by
  induction oids generalizing args accesses with
  | nil =>
      cases h
      simp [argumentsFit]
  | cons oid oids ih =>
      cases args with
      | nil =>
          cases h
          simp [argumentsFit]
      | cons arg args =>
          rw [List.forall_mem_cons] at hargs
          rw [pexecuteArguments] at h
          rw [argumentsFit_cons]
          split at h
          next hnull => simp [ih hargs.2 h, hnull]
          next v hv =>
            split at h
            · cases h
            next info hinfo =>
              split at h
              · cases h
              next hscalar =>
                cases hrest : pexecuteArguments cat oids args with
                | error e =>
                    rw [hrest] at h
                    cases h
                | ok rest =>
                    rw [hrest] at h
                    cases h
                    rw [List.forall_mem_append, ih hargs.2 hrest,
                      sound_datumFrom_iff (hargs.1 v hv)]
                    simp [hv, hinfo, PlcTypeInfo.aligned_of_scalar hscalar]

theorem sound_handlePexecute {cat : Catalog} {pplans : List (BitVec 64 × PlcPlan)}
    {nargs : BitVec 32} {args : List PlcArgument} {pplan : BitVec 64}
    (hargs : ∀ arg ∈ args, ∀ v, arg.data = some v → v.OfType arg.type) {accesses : List Access}
    (h : handlePexecute cat pplans nargs args pplan = .ok accesses) :
    (∀ a ∈ accesses, a.Sound)
      ↔ ∀ plan, searchPplan pplans pplan = some plan → argumentsFit cat plan.argOids args := by
  rw [handlePexecute] at h
  split at h
  · cases h
  next plan hplan =>
    split at h
    · cases h
    · rw [sound_pexecuteArguments hargs h]
      simp [hplan]

/-! ## Whatever the client sends -/

/-- **Of every RESULT and every PEXECUTE that the backend accepts, the values are read at the types
they were decoded under exactly if the client has declared the types that the backend has**, a result
with rows has a column, and dropped attributes do not misalign the fields of a composite value. -/
theorem client_values_read_at_own_type (bs rest : List UInt8) :
    (∀ (m : PlcMsgResult) (result : PlcTypeInfo) (resrow : ℕ) (accesses : List Access),
      (plcontainerChannelReceive mtAllBits).run bs = .ok (.result m, rest) →
      plcontainerProcessResult result m resrow = .ok accesses →
      ((∀ a ∈ accesses, a.Sound) ↔ m.Fits result resrow)) ∧
    (∀ (nargs : BitVec 32) (args : List PlcArgument) (limit pplan : BitVec 64) (cat : Catalog)
        (pplans : List (BitVec 64 × PlcPlan)) (accesses : List Access),
      (plcontainerChannelReceive mtAllBits).run bs
        = .ok (.sql (.pexecute nargs args limit pplan), rest) →
      handlePexecute cat pplans nargs args pplan = .ok accesses →
      ((∀ a ∈ accesses, a.Sound)
        ↔ ∀ plan, searchPplan pplans pplan = some plan → argumentsFit cat plan.argOids args)) := by
  constructor
  · intro m result resrow accesses hrun h
    exact sound_plcontainerProcessResult (received_of_receive ⟨bs, rest, hrun⟩) h
  · intro nargs args limit pplan cat pplans accesses hrun h
    exact sound_handlePexecute (arguments_of_receive ⟨bs, rest, hrun⟩) h

/-- A catalog with the types `int4` and `text`, and a row type whose first attribute was dropped. -/
def droppedCatalog : Catalog := fun typeOid =>
  if typeOid = int4Oid then some ⟨[105], .other, 0, false, []⟩
  else if typeOid = 25 then some ⟨[116], .other, 0, false, []⟩
  else if typeOid = 16384 then
    some ⟨[114], .composite, 0, false, [⟨[97], int4Oid, true⟩, ⟨[98], 25, false⟩]⟩
  else none

/-- A RESULT of one row with the `int4` value 7. -/
def int4Result : List UInt8 :=
  [82, 1, 0, 0, 0, 1, 0, 0, 0, 2, 255, 255, 255, 255, 255, 255, 255, 255, 68, 7, 0, 0, 0, 78]

/-- A RESULT of one row with a composite value that has one field, the `text` value "x". -/
def textFieldResult : List UInt8 :=
  [82, 1, 0, 0, 0, 1, 0, 0, 0, 8, 255, 255, 255, 255, 1, 0, 6, 255, 255, 255, 255,
    255, 255, 255, 255, 68, 68, 1, 0, 0, 0, 120, 78]

/-- A PEXECUTE of the plan at address 8 with the `int4` value 7. -/
def int4Pexecute : List UInt8 :=
  [83, 6, 0, 0, 0, 1, 0, 0, 0, 255, 255, 255, 255, 2, 255, 255, 255, 255, 68, 7, 0, 0, 0,
    0, 0, 0, 0, 0, 0, 0, 0, 8, 0, 0, 0, 0, 0, 0, 0]

theorem nargs_one (argOid : Oid) : (1 : BitVec 32).toInt = [argOid].length := rfl

/-- The connection's plans: one that takes an argument of the given type. -/
def onePlan (argOid : Oid) : List (BitVec 64 × PlcPlan) := [(8, ⟨1, [argOid], nargs_one argOid⟩)]

/-- A function that returns `int4`, and a plan that takes one. -/
theorem client_values_read_at_own_type_int4 :
    (∃ m result accesses,
      (plcontainerChannelReceive mtAllBits).run int4Result = .ok (.result m, []) ∧
      fillTypeInfo droppedCatalog none int4Oid = .ok result ∧
      plcontainerProcessResult result m 0 = .ok accesses ∧ ∀ a ∈ accesses, a.Sound) ∧
    (∃ nargs args limit pplan accesses,
      (plcontainerChannelReceive mtAllBits).run int4Pexecute
        = .ok (.sql (.pexecute nargs args limit pplan), []) ∧
      handlePexecute droppedCatalog (onePlan int4Oid) nargs args pplan = .ok accesses ∧
      ∀ a ∈ accesses, a.Sound) := by
  constructor
  · refine ⟨_, _, _, rfl, rfl, rfl, ?_⟩
    refine ((client_values_read_at_own_type int4Result []).1 _ _ 0 _ rfl rfl).2 ?_
    exact .inr ⟨_, rfl, fun v _ => ⟨rfl, (PlcTypeInfo.Undropped.scalar _ _).aligned v⟩⟩
  · refine ⟨_, _, _, _, _, rfl, rfl, ?_⟩
    refine ((client_values_read_at_own_type int4Pexecute []).2 _ _ _ _ droppedCatalog
      (onePlan int4Oid) _ rfl rfl).2 ?_
    rintro plan hplan
    cases hplan
    refine argumentsFit_cons.2 ⟨?_, by simp [argumentsFit]⟩
    intro v _ info hinfo
    cases hinfo
    rfl

/-- Messages that are accepted although a value is read at another type, or is not there: an `int4` for
a function that returns `text`; a result with a row and no column; a value of the function's own row
type, after its first attribute was dropped; an `int4` for a plan that takes `text`. -/
theorem client_values_misread :
    (∃ m result accesses,
      (plcontainerChannelReceive mtAllBits).run int4Result = .ok (.result m, []) ∧
      fillTypeInfo droppedCatalog none 25 = .ok result ∧
      plcontainerProcessResult result m 0 = .ok accesses ∧ ¬ ∀ a ∈ accesses, a.Sound) ∧
    (∃ m result,
      (plcontainerChannelReceive mtAllBits).run [82, 1, 0, 0, 0, 0, 0, 0, 0, 78]
        = .ok (.result m, []) ∧
      fillTypeInfo droppedCatalog none int4Oid = .ok result ∧
      plcontainerProcessResult result m 0 = .ok [.noColumn]) ∧
    (∃ m t result,
      (plcontainerChannelReceive mtAllBits).run textFieldResult = .ok (.result m, []) ∧
      fillTypeInfo droppedCatalog none 16384 = .ok result ∧
      m.types = [t] ∧ t.tree = result.tree ∧
      plcontainerProcessResult result m 0 = .ok [.infunc t result, .nullInfunc]) ∧
    (∃ nargs args limit pplan accesses,
      (plcontainerChannelReceive mtAllBits).run int4Pexecute
        = .ok (.sql (.pexecute nargs args limit pplan), []) ∧
      handlePexecute droppedCatalog (onePlan 25) nargs args pplan = .ok accesses ∧
      ¬ ∀ a ∈ accesses, a.Sound) := by
  have hmisread : ¬ Access.Sound (.infunc (.mk .int4 none 0 []) (.scalar .text none)) := by
    simp [Access.Sound, PlcTypeInfo.tree, copyTypeInfo, PlcType.tree, ScalarInput.type]
  refine ⟨⟨_, _, _, rfl, rfl, rfl, fun h => hmisread (h _ (List.mem_cons_self ..))⟩,
    ⟨_, _, rfl, rfl, rfl⟩, ⟨_, _, _, rfl, rfl, rfl, rfl, rfl⟩,
    ⟨_, _, _, _, _, rfl, rfl, fun h => hmisread (h _ (List.mem_cons_self ..))⟩⟩

end PlContainer
