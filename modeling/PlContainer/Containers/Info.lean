import PlContainer.Common.Messages
import PlContainer.Library.Checked
import PlContainer.Library.Format
import Mathlib.Algebra.Order.Ring.Int

set_option autoImplicit false

/-! # Information on the running containers

`list_running_containers` returns one row in each call and keeps its position between the calls;
`collect_running_containers` runs it on all segments and puts the rows together. The function that runs
in a container is looked up in a map in shared memory, under the first characters of the container's id.
The string values of a JSON text are here the C strings that json-c hands out for them. -/

namespace PlContainer

open Format

/-! ## The shared map -/

/-- `PREFIX_CONTAINER_ID_LENGTH` -/
def containerIdLength : ℕ := 32

/-- `cid`: the part of an id that is the key. -/
def udfKey (dockerid : CString) : CString := dockerid.take (containerIdLength - 1)

/-- What is kept of the name of a function. -/
def udfName (udf : CString) : CString := udf.take (224 - 1)

/-- `udf_container_id_map`: the key and the name of each entry. -/
abbrev UdfMap := List (CString × CString)

/-- `HASH_FIND` -/
def UdfMap.find (map : UdfMap) (key : CString) : Option CString :=
  (List.find? (·.1 = key) map).map Prod.snd

/-- `find_containerid_entry`; without shared memory there is no map. -/
def findContaineridEntry (map : Option UdfMap) (dockerid : CString) : Option CString :=
  map.bind fun map => map.find (udfKey dockerid)

/-! ## One segment -/

/-- The labels of a container, of those that the function looks for. -/
structure ContainerLabels where
  owner : Option CString
  dbid : Option CString

/-- `cpu_stats` and `precpu_stats`. -/
structure CpuStats where
  /-- `cpu_usage`, with its `total_usage` -/
  cpuUsage : Option (Option ℤ)
  systemCpuUsage : Option ℤ
  onlineCpus : Option ℤ

/-- The answer to a state request with status 200. -/
structure ContainerStats where
  /-- `memory_stats`, with its `usage` -/
  memoryStats : Option (Option ℤ)
  cpuStats : Option CpuStats
  precpuStats : Option CpuStats

/-- What `plc_docker_get_container_state` returns: the state, or `res` if it is negative. -/
inductive StateAnswer where
  | state (stats : ContainerStats)
  | failed (res : ℤ)

/-- `PLC_DOCKER_API_RES_NOT_FOUND` -/
def plcDockerApiResNotFound : ℤ := -404

/-- An element of the list that Docker returns, and the answer to a request for its state. -/
structure ListedContainer where
  status : Option CString
  labels : Option ContainerLabels
  id : Option CString
  answer : StateAnswer

inductive ListingError where
  /-- `Not a valid container.` -/
  | notAContainer
  /-- `failed to get json "%s" field.` -/
  | missingField (name : String)
  /-- `Fail to get docker container state: %s` -/
  | state (res : ℤ)
deriving DecidableEq

/-- What the function takes from the session. -/
structure ListingEnv where
  /-- `GetUserNameFromId(GetUserId())` -/
  username : CString
  superuser : Bool
  map : Option UdfMap
  /-- the text of the cpu usage, which is computed with floating point numbers from the total and system
      usage, the previous total and system usage, and the number of cpus -/
  cpuText : ℤ → ℤ → ℤ → ℤ → ℤ → CString
  /-- the number of attributes of the expected rows, at most seven -/
  natts : ℕ

/-- The values of a row; `none` is NULL. -/
abbrev InfoRow := List (Option CString)

def getField {α : Type} (name : String) (field : Option α) : Except ListingError α :=
  match field with
  | none => throw (.missingField name)
  | some value => pure value

theorem getField_some {α : Type} (name : String) (value : α) :
    getField name (some value) = .ok value := rfl

def noInfomation : CString := Json.utf8 "No Infomation".toList

def removedText : CString := Json.utf8 "Removed".toList

/-- `snprintf` with `"%s"` -/
def printText (size : ℕ) (s : CString) : Option CString := some (snprintf size [.arg "%s"] [s])

/-- The values for the memory, the cpu and the function, from the state of the container. The cache is
    looked for in an object that is never set, so it is 0. -/
def stateValues (env : ListingEnv) (id : CString) (stats : ContainerStats) :
    Except ListingError InfoRow := do
  let memory ← getField "memory_stats" stats.memoryStats
  let containerMemoryTotal := ((memory.getD 0).tdiv 1024 : ℤ)
  let containerMemoryCache := 0
  let containerMemoryUsage := containerMemoryTotal - containerMemoryCache
  let cpu ← getField "cpu_stats" stats.cpuStats
  let precpu ← getField "precpu_stats" stats.precpuStats
  let usage ← getField "cpu_usage" cpu.cpuUsage
  let preUsage ← getField "cpu_usage" precpu.cpuUsage
  let cpuUsage := env.cpuText (usage.getD 0) (cpu.systemCpuUsage.getD 0) (preUsage.getD 0)
    (precpu.systemCpuUsage.getD 0) (cpu.onlineCpus.getD 0)
  pure [some (snprintf 64 [.arg "%lld"] [Json.utf8 (decimal containerMemoryUsage)]),
    printText 32 cpuUsage,
    printText 224 ((findContaineridEntry env.map id).getD noInfomation)]

/-- The status that is shown, and the last three values: a container that is not found has been removed. -/
def shownState (env : ListingEnv) (status id : CString) (answer : StateAnswer) :
    Except ListingError (CString × InfoRow) :=
  match answer with
  | .failed res =>
      if res ≠ plcDockerApiResNotFound then throw (.state res)
      else pure (removedText, [none, none, none])
  | .state stats => do
      let values ← stateValues env id stats
      pure (status, values)

/-- The row for a container that is not skipped. -/
def containerRow (env : ListingEnv) (status owner dbid id : CString) (answer : StateAnswer) :
    Except ListingError InfoRow := do
  let shown ← shownState env status id answer
  pure (([printText 8 dbid, printText 80 id, printText 64 shown.1, printText 64 owner]
    ++ shown.2).take env.natts)

/-- `FuncCallContext`: what is kept between the calls. -/
structure FuncCallContext where
  callCntr : ℕ
  maxCalls : ℕ

/-- `funcctx->call_cntr++` -/
def FuncCallContext.advance (ctx : FuncCallContext) : FuncCallContext :=
  { ctx with callCntr := ctx.callCntr + 1 }

/-- The loop of one call, with the local counter: a row, or none at the end of the list. -/
def scanContainers (env : ListingEnv) (list : List ListedContainer) (callCntr : ℕ)
    (ctx : FuncCallContext) : Except ListingError (Option InfoRow × FuncCallContext) :=
  if callCntr < ctx.maxCalls then
    match list[callCntr]? with
    | none => throw .notAContainer
    | some container => do
        let status ← getField "Status" container.status
        let labels ← getField "Labels" container.labels
        match labels.owner with
        | none => scanContainers env list (callCntr + 1) ctx.advance
        | some owner =>
            if owner ≠ env.username ∧ env.superuser = false then
              scanContainers env list (callCntr + 1) ctx.advance
            else
              match labels.dbid with
              | none => scanContainers env list (callCntr + 1) ctx.advance
              | some dbid => do
                  let id ← getField "Id" container.id
                  let row ← containerRow env status owner dbid id container.answer
                  -- `SRF_RETURN_NEXT`
                  pure (some row, ctx.advance)
  else pure (none, ctx)
termination_by ctx.maxCalls - callCntr
decreasing_by all_goals (simp only [FuncCallContext.advance]; omega)

/-- One call of `list_running_containers` after the first has set up the context. -/
def listRunningContainers (env : ListingEnv) (list : List ListedContainer) (ctx : FuncCallContext) :
    Except ListingError (Option InfoRow × FuncCallContext) :=
  scanContainers env list ctx.callCntr ctx

/-- `SRF_FIRSTCALL_INIT` and the length of the list. -/
def firstContext (list : List ListedContainer) : FuncCallContext := ⟨0, list.length⟩

/-- The calls from a context on to the one that returns no row. -/
inductive CompleteRun (env : ListingEnv) (list : List ListedContainer) :
    FuncCallContext → List InfoRow → Prop where
  | done {ctx ctx' : FuncCallContext} (h : listRunningContainers env list ctx = .ok (none, ctx')) :
      CompleteRun env list ctx []
  | next {ctx ctx' : FuncCallContext} {row : InfoRow} {rows : List InfoRow}
      (h : listRunningContainers env list ctx = .ok (some row, ctx'))
      (hrest : CompleteRun env list ctx' rows) : CompleteRun env list ctx (row :: rows)

/-! ### What a run returns -/

/-- The cpu statistics of a running container. -/
structure RunningCpu where
  totalUsage : Option ℤ
  systemCpuUsage : Option ℤ
  onlineCpus : Option ℤ

/-- The state of a running container, with all the objects that the function asks for. -/
structure RunningState where
  memoryUsage : Option ℤ
  cpu : RunningCpu
  precpu : RunningCpu

def RunningCpu.stats (cpu : RunningCpu) : CpuStats :=
  ⟨some cpu.totalUsage, cpu.systemCpuUsage, cpu.onlineCpus⟩

def RunningState.stats (state : RunningState) : ContainerStats :=
  ⟨some state.memoryUsage, some state.cpu.stats, some state.precpu.stats⟩

/-- A container with a status, labels and an id; without a state it is not found any more. -/
structure Container where
  status : CString
  owner : Option CString
  dbid : Option CString
  id : CString
  state : Option RunningState

namespace Container

/-- The container in the list. -/
def listed (container : Container) : ListedContainer where
  status := some container.status
  labels := some ⟨container.owner, container.dbid⟩
  id := some container.id
  answer := container.state.elim (.failed plcDockerApiResNotFound) fun state => .state state.stats

/-- The containers that the user may see: those with both labels that belong to the user, or to
    anyone for a superuser. -/
def visible (env : ListingEnv) (container : Container) : Bool :=
  container.owner.any (fun owner => owner = env.username || env.superuser) && container.dbid.isSome

/-- The values for the memory, the cpu and the function of a running container. -/
def runningValues (env : ListingEnv) (container : Container) (state : RunningState) : InfoRow :=
  [some (snprintf 64 [.arg "%lld"] [Json.utf8 (decimal ((state.memoryUsage.getD 0).tdiv 1024))]),
    printText 32 (env.cpuText (state.cpu.totalUsage.getD 0) (state.cpu.systemCpuUsage.getD 0)
      (state.precpu.totalUsage.getD 0) (state.precpu.systemCpuUsage.getD 0)
      (state.cpu.onlineCpus.getD 0)),
    printText 224 ((findContaineridEntry env.map container.id).getD noInfomation)]

/-- The row of a container, from its own fields. -/
def row (env : ListingEnv) (container : Container) : InfoRow :=
  ([printText 8 (container.dbid.getD []), printText 80 container.id,
      printText 64 (if container.state.isSome then container.status else removedText),
      printText 64 (container.owner.getD [])]
    ++ container.state.elim [none, none, none] (container.runningValues env)).take env.natts

variable {env : ListingEnv} {container : Container}

@[simp] theorem listed_status : container.listed.status = some container.status := rfl

@[simp] theorem listed_labels :
    container.listed.labels = some ⟨container.owner, container.dbid⟩ := rfl

@[simp] theorem listed_id : container.listed.id = some container.id := rfl

theorem stateValues_stats (state : RunningState) :
    stateValues env container.id state.stats = .ok (container.runningValues env state) := by
  rw [runningValues, ← sub_zero (Int.tdiv _ _)]
  rfl

theorem containerRow_listed (env : ListingEnv) {owner dbid : CString} (howner : container.owner = some owner)
    (hdbid : container.dbid = some dbid) :
    containerRow env container.status owner dbid container.id container.listed.answer =
      .ok (container.row env) := by
  rw [row, howner, hdbid, listed, containerRow]
  cases container.state with
  | none => rfl
  | some state =>
      rw [Option.elim_some, shownState, stateValues_stats]
      rfl

end Container

section Run

variable (env : ListingEnv)

theorem scanContainers_end (list : List ListedContainer) {k : ℕ} {ctx : FuncCallContext}
    (h : ctx.maxCalls ≤ k) : scanContainers env list k ctx = .ok (none, ctx) := by
  rw [scanContainers, if_neg (Nat.not_lt.2 h)]
  rfl

/-- The loop at an entry of the list: the row, or the next entry with both counters advanced. -/
theorem scanContainers_at {containers : List Container} {container : Container} (k : ℕ)
    (ctx : FuncCallContext) (hk : k < ctx.maxCalls) (hget : containers[k]? = some container) :
    scanContainers env (containers.map Container.listed) k ctx =
      if container.visible env then .ok (some (container.row env), ctx.advance)
      else scanContainers env (containers.map Container.listed) (k + 1) ctx.advance := by
  rw [scanContainers, if_pos hk, List.getElem?_map, hget, Container.visible]
  cases howner : container.owner with
  | none => simp [getField_some, Checked.ok_bind, howner]
  | some owner =>
      by_cases hskip : owner ≠ env.username ∧ env.superuser = false
      · simp [getField_some, Checked.ok_bind, howner, hskip]
      · have hshown : (decide (owner = env.username) || env.superuser) = true := by
          rwa [← Bool.not_eq_false, Bool.or_eq_false_iff, decide_eq_false_iff_not]
        cases hdbid : container.dbid with
        | none => simp [getField_some, Checked.ok_bind, howner, hskip, hdbid]
        | some dbid =>
            have hrow := container.containerRow_listed env howner hdbid
            simp only [Option.map_some, Container.listed_status, Container.listed_labels,
              Container.listed_id, getField_some, Checked.ok_bind, howner, hdbid, if_neg hskip, hrow,
              Option.any_some, hshown, Option.isSome_some, Bool.and_self, if_true]
            rfl

variable {env}

/-- The calls from a context on depend on the first of them alone. -/
theorem completeRun_iff {list : List ListedContainer} {ctx : FuncCallContext} {rows : List InfoRow} :
    CompleteRun env list ctx rows ↔
      (∃ ctx', listRunningContainers env list ctx = .ok (none, ctx') ∧ rows = []) ∨
        ∃ row ctx' rows', listRunningContainers env list ctx = .ok (some row, ctx') ∧
          CompleteRun env list ctx' rows' ∧ rows = row :: rows' := by
  constructor
  · intro h
    cases h with
    | done h => exact .inl ⟨_, h, rfl⟩
    | next h hrest => exact .inr ⟨_, _, _, h, hrest, rfl⟩
  · rintro (⟨ctx', h, rfl⟩ | ⟨row, ctx', rows', h, hrest, rfl⟩)
    · exact .done h
    · exact .next h hrest

/-- The counters agree before each call. From there on the calls return the rows of the entries to
    come that the user may see. -/
theorem completeRun_from (before rest : List Container) (rows : List InfoRow) :
    CompleteRun env ((before ++ rest).map Container.listed)
        ⟨before.length, (before ++ rest).length⟩ rows ↔
      rows = (rest.filter (Container.visible env)).map (Container.row env) := by
  induction rest generalizing before rows with
  | nil =>
      rw [completeRun_iff, listRunningContainers, scanContainers_end env _ (by simp)]
      simp
  | cons container rest ih =>
      have hnext := ih (before ++ [container])
      rw [List.append_assoc, List.singleton_append, List.length_append, List.length_singleton] at hnext
      have hget : (before ++ container :: rest)[before.length]? = some container := by
        rw [List.getElem?_append_right (Nat.le_refl _), Nat.sub_self]
        rfl
      have hcall := scanContainers_at env before.length
        ⟨before.length, (before ++ container :: rest).length⟩ (by simp) hget
      rw [completeRun_iff, listRunningContainers, hcall, List.filter_cons]
      split
      next hvisible =>
        rw [List.map_cons]
        constructor
        · rintro (⟨_, hrow, -⟩ | ⟨row, ctx', rows', hrow, hrest, rfl⟩)
          · cases hrow
          · cases hrow
            rw [(hnext rows').1 hrest]
        · rintro rfl
          exact .inr ⟨_, _, _, rfl, (hnext _).2 rfl, rfl⟩
      next hskip => exact completeRun_iff.symm.trans (hnext rows)

/-- **The rows of a complete run are those of the containers that the user may see**, each once and in
    the order of the list; what the other entries of the list say makes no difference. -/
theorem listing_rows (env : ListingEnv) (containers : List Container) :
    (∀ rows, CompleteRun env (containers.map Container.listed)
        (firstContext (containers.map Container.listed)) rows ↔
      rows = (containers.filter (Container.visible env)).map (Container.row env)) ∧
    ∀ others : List Container,
      others.filter (Container.visible env) = containers.filter (Container.visible env) →
      ∀ rows, CompleteRun env (others.map Container.listed)
          (firstContext (others.map Container.listed)) rows ↔
        CompleteRun env (containers.map Container.listed)
          (firstContext (containers.map Container.listed)) rows := by
  have hrun (list : List Container) (rows : List InfoRow) :
      CompleteRun env (list.map Container.listed) (firstContext (list.map Container.listed)) rows ↔
        rows = (list.filter (Container.visible env)).map (Container.row env) := by
    rw [firstContext, List.length_map]
    exact completeRun_from [] list rows
  refine ⟨hrun containers, fun others hsame rows => ?_⟩
  rw [hrun, hrun, hsame]

end Run

/-! ## The whole cluster -/

/-- `PGRES_TUPLES_OK` -/
def pgresTuplesOk : ℕ := 2

/-- A row of the result: seven columns, `none` for NULL. -/
abbrev ResultRow := Fin 7 → Option CString

/-- The result of a segment. -/
structure PgResult where
  status : ℕ
  tuples : List ResultRow

/-- `PQgetvalue`: for a NULL the empty string. -/
def pqGetvalue (row : ResultRow) (column : Fin 7) : CString := (row column).getD []

/-- `BuildTupleFromCStrings` with the values that were read; none of the pointers is NULL. -/
def collectedTuple (row : ResultRow) : ResultRow := fun column => some (pqGetvalue row column)

/-- The loop of `collect_running_containers` over the results of the segments, with the tuples stored so
    far. The error is `Unable to get container information from segment: %d`. -/
def collectRunningContainers : List PgResult → List ResultRow → Except ℕ (List ResultRow)
  | [], tupstore => pure tupstore
  | result :: results, tupstore =>
      if result.status ≠ pgresTuplesOk then throw result.status
      else if result.tuples.length = 0 then pure tupstore
      else collectRunningContainers results (tupstore ++ result.tuples.map collectedTuple)

/-- All segments that are empty come last. -/
def EmptyLast (results : List PgResult) : Prop :=
  results.Pairwise fun earlier later => earlier.tuples = [] → later.tuples = []

/-- No cell of a row is NULL. -/
def NoNulls (row : ResultRow) : Prop := ∀ column, row column ≠ none

theorem collectedTuple_eq_iff {row : ResultRow} : collectedTuple row = row ↔ NoNulls row := by
  rw [funext_iff]
  refine forall_congr' fun column => ?_
  rw [collectedTuple, pqGetvalue]
  cases row column with
  | none => simp
  | some value => simp

theorem map_collectedTuple_eq_iff {tuples : List ResultRow} :
    tuples.map collectedTuple = tuples ↔ ∀ row ∈ tuples, NoNulls row := by
  conv_lhs => rhs; rw [← List.map_id tuples]
  rw [List.map_inj_left]
  exact forall₂_congr fun row _ => collectedTuple_eq_iff

theorem emptyLast_cons {result : PgResult} {results : List PgResult} :
    EmptyLast (result :: results) ↔
      (result.tuples = [] → ∀ r ∈ results, r.tuples = []) ∧ EmptyLast results := by
  rw [EmptyLast, List.pairwise_cons]
  exact and_congr_left fun _ => ⟨fun h hempty r hr => h r hr hempty, fun h r hr hempty => h hempty r hr⟩

/-- The loop stores all tuples behind those stored before it, if the empty segments come last and nothing
    is NULL. To compare with all tuples, the ones stored so far are compared too. -/
theorem collectRunningContainers_iff {results : List PgResult}
    (hok : ∀ r ∈ results, r.status = pgresTuplesOk) {stored stored' : List ResultRow}
    (hlength : stored.length = stored'.length) :
    collectRunningContainers results stored = .ok (stored' ++ results.flatMap PgResult.tuples) ↔
      stored = stored' ∧ EmptyLast results ∧
        ∀ r ∈ results, ∀ row ∈ r.tuples, NoNulls row := by
  induction results generalizing stored stored' with
  | nil =>
      rw [List.flatMap_nil, List.append_nil]
      simp [collectRunningContainers, Checked.pure_eq_ok, EmptyLast]
  | cons result results ih =>
      rw [List.forall_mem_cons] at hok
      rw [collectRunningContainers, if_neg (not_not.2 hok.1), List.flatMap_cons, emptyLast_cons,
        List.forall_mem_cons]
      split
      next hempty =>
        -- the loop ends here, so nothing may follow
        rw [List.length_eq_zero_iff] at hempty
        rw [hempty, List.nil_append, Checked.pure_eq_ok]
        constructor
        · intro hstored
          have hnone : ∀ r ∈ results, r.tuples = [] := by
            have hrest := congrArg List.length hstored
            rw [List.length_append] at hrest
            exact List.flatMap_eq_nil_iff.1 (List.length_eq_zero_iff.1 (by omega))
          rw [List.flatMap_eq_nil_iff.2 hnone, List.append_nil] at hstored
          exact ⟨hstored, ⟨fun _ => hnone, List.pairwise_of_forall_mem_list fun _ _ r hr _ => hnone r hr⟩,
            nofun, fun r hr row hrow => by rw [hnone r hr] at hrow; cases hrow⟩
        · rintro ⟨rfl, ⟨hnone, -⟩, -⟩
          rw [List.flatMap_eq_nil_iff.2 (hnone rfl), List.append_nil]
      next hsome =>
        rw [List.length_eq_zero_iff] at hsome
        have hlengths : (stored ++ result.tuples.map collectedTuple).length =
            (stored' ++ result.tuples).length := by simp [hlength]
        rw [← List.append_assoc, ih hok.2 hlengths, ← map_collectedTuple_eq_iff]
        constructor
        · rintro ⟨hstored, hlast, hrest⟩
          obtain ⟨rfl, htuples⟩ := List.append_inj hstored hlength
          exact ⟨rfl, ⟨fun hempty => absurd hempty hsome, hlast⟩, htuples, hrest⟩
        · rintro ⟨rfl, ⟨-, hlast⟩, htuples, hrest⟩
          exact ⟨by rw [htuples], hlast, hrest⟩

/-- **The rows of all segments are collected as they are** if no segment without rows comes before one
    with rows, at which the loop would end, and no cell is NULL, for it would become an empty string. -/
theorem collected_rows_iff (results : List PgResult)
    (hok : ∀ r ∈ results, r.status = pgresTuplesOk) :
    collectRunningContainers results [] = .ok (results.flatMap PgResult.tuples) ↔
      EmptyLast results ∧ ∀ r ∈ results, ∀ row ∈ r.tuples, NoNulls row := by
  rw [← List.nil_append (results.flatMap PgResult.tuples), collectRunningContainers_iff hok rfl]
  exact and_iff_right rfl

/-- One segment with a row and one without. -/
theorem collected_rows_one_segment :
    collectRunningContainers [⟨pgresTuplesOk, [fun _ => some []]⟩, ⟨pgresTuplesOk, []⟩] [] =
      .ok [fun _ => some []] :=
  (collected_rows_iff [⟨pgresTuplesOk, [fun _ => some []]⟩, ⟨pgresTuplesOk, []⟩]
    (by simp)).2 ⟨by simp [EmptyLast], by simp [NoNulls]⟩

/-- A segment without rows hides the rows of the segments behind it, and a NULL becomes an empty
    string. -/
theorem collected_rows_lost :
    collectRunningContainers [⟨pgresTuplesOk, []⟩, ⟨pgresTuplesOk, [fun _ => some []]⟩] [] = .ok [] ∧
      collectRunningContainers [⟨pgresTuplesOk, [fun _ => none]⟩] [] = .ok [fun _ => some []] :=
  ⟨rfl, rfl⟩

end PlContainer
