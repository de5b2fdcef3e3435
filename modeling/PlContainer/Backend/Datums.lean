import PlContainer.Backend.TypeInfo

set_option autoImplicit false

/-! # Values of the client in the backend

How the backend turns the values of a RESULT and of a PEXECUTE into datums: which `infunc` it calls on
which value. A value is a `char *` whose layout is that of the type it was received under; the
`infunc` reads it at the layout of its own type. So of each call only these two types are recorded,
and where the C code follows a pointer that is not there, that. -/

namespace PlContainer

inductive Access where
  /-- an `infunc` is called on a value that was received under `wire` -/
  | infunc (wire : PlcType) (info : PlcTypeInfo)
  /-- the `infunc` of a dropped attribute is called: it is `NULL` -/
  | nullInfunc
  /-- a composite value is read past its fields -/
  | noField
  /-- `data[row][0]` of a result without columns: `data` is `NULL` -/
  | noColumn

/-- The value is read at the type it was decoded under. -/
def Access.Sound : Access → Prop
  | .infunc wire info => wire.tree = info.tree
  | .nullInfunc | .noField | .noColumn => False

/-! ## `plc_datum_from_*` -/

mutual

/-- `info->infunc(value, info)` and the calls that it makes itself. What an `infunc` does with a value
    of another layout is undefined; nothing is recorded after the call then. -/
def PlcTypeInfo.datumFrom (info : PlcTypeInfo) (wire : PlcType) : Value → List Access
  | .array _ nulls data =>
      .infunc wire info ::
        match info, wire with
        | .array _ elem, .mk _ _ _ (elemType :: _) => elem.datumsFromArray elemType nulls data
        | _, _ => []
  | .udt data =>
      .infunc wire info ::
        match info, wire with
        | .udt _ _ subTypes, .mk _ _ _ types =>
            PlcTypeInfo.datumsFromUdt (subTypes.filterMap id).length subTypes types data
        | _, _ => []
  | _ => [.infunc wire info]

/-- The loop of `plc_datum_from_array`. -/
def PlcTypeInfo.datumsFromArray (subType : PlcTypeInfo) (elemType : PlcType) (nulls : List Bool) :
    List RawData → List Access
  | [] => []
  | d :: ds =>
      (if nulls.headD false then [] else PlcTypeInfo.datumFromRaw (some subType) elemType d)
        ++ subType.datumsFromArray elemType nulls.tail ds

/-- The loop of `plc_datum_from_udt`: there are `n` attributes left that have not been dropped. The
    `j`-th of them is read with `subTypes[j]`, which is not the attribute itself once an attribute
    before it has been dropped. -/
def PlcTypeInfo.datumsFromUdt (n : ℕ) (subTypes : List (Option PlcTypeInfo)) (types : List PlcType) :
    List RawData → List Access
  | [] => if n = 0 then [] else [.noField]
  | d :: ds =>
      match n, subTypes, types with
      | n + 1, sub :: subTypes, t :: types =>
          PlcTypeInfo.datumFromRaw sub t d ++ PlcTypeInfo.datumsFromUdt n subTypes types ds
      | _, _, _ => []

/-- One element or field; null ones are not read. -/
def PlcTypeInfo.datumFromRaw (subType : Option PlcTypeInfo) (wire : PlcType) :
    RawData → List Access
  | none => []
  | some v =>
      match subType with
      | none => [.nullInfunc]
      | some info => info.datumFrom wire v

end

/-! ## `plcontainer_process_result` -/

inductive ResultError where
  | multipleColumns
  | noSuchRow
deriving DecidableEq, Repr

/-- `plcontainer_process_result` for the row `resrow` of a function that returns `result`. -/
def plcontainerProcessResult (result : PlcTypeInfo) (resmsg : PlcMsgResult) (resrow : ℕ) :
    Except ResultError (List Access) :=
  if 1 < resmsg.cols.toNat then throw .multipleColumns
  else if resmsg.rows.toNat = 0 then pure []
  else if resmsg.rows.toNat ≤ resrow then throw .noSuchRow
  else
    match resmsg.types, resmsg.data[resrow]? with
    | t :: _, some (d :: _) => pure (PlcTypeInfo.datumFromRaw (some result) t d)
    | _, _ => pure [.noColumn]

/-! ## PEXECUTE in `handle_sql_message` -/

inductive SqlError where
  | noSuchPlan
  | argumentNumber
  | arrayOrUdt
  | type (e : TypeInfoError)
deriving DecidableEq, Repr

/-- `plcPlan`, with as many argument types as it says. -/
structure PlcPlan where
  nargs : BitVec 32
  argOids : List Oid
  nargs_eq : nargs.toInt = argOids.length

/-- `search_pplan`; the plans of the connection under their addresses. -/
def searchPplan (pplans : List (BitVec 64 × PlcPlan)) (pplan : BitVec 64) : Option PlcPlan :=
  if pplan = 0 then none else pplans.lookup pplan

/-- The loop over the arguments. -/
def pexecuteArguments (cat : Catalog) : List Oid → List PlcArgument → Except SqlError (List Access)
  | oid :: oids, arg :: args =>
      match arg.data with
      | none => pexecuteArguments cat oids args
      | some v =>
          match fillTypeInfo cat none oid with
          | .error e => throw (.type e)
          | .ok info =>
              if info.type = .array ∨ info.type = .udt then throw .arrayOrUdt
              else do
                let rest ← pexecuteArguments cat oids args
                pure (info.datumFrom arg.type v ++ rest)
  | _, _ => pure []

/-- `handle_sql_message` for a PEXECUTE, up to `SPI_execute_plan`. -/
def handlePexecute (cat : Catalog) (pplans : List (BitVec 64 × PlcPlan)) (nargs : BitVec 32)
    (args : List PlcArgument) (pplan : BitVec 64) : Except SqlError (List Access) :=
  match searchPplan pplans pplan with
  | none => throw .noSuchPlan
  | some plan =>
      if plan.nargs ≠ nargs then throw .argumentNumber
      else pexecuteArguments cat plan.argOids args

end PlContainer
