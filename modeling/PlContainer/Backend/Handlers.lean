import PlContainer.Backend.Datums
import PlContainer.Common.Channel.Receive

set_option autoImplicit false

/-! # How the backend handles the messages of a client

The handlers of `plcontainer_get_result` for LOG, QUOTE, EXCEPTION and SQL messages, as the list of
what they do that can hurt: reports at some level, strings handed to routines of the server that
follow the pointer, and replies. The decoder lets every string be `NULL` and every number pass, so it
is up to the handlers. What the server's own routines answer is a parameter. -/

namespace PlContainer

/-! ## Effects -/

/-- `ERROR` -/
def errorLevel : ℤ := 20

/-- `FATAL`; `PANIC` is the next level. -/
def fatalLevel : ℤ := 21

/-- The routines that are given strings of the client. -/
inductive CStringRoutine where
  | quoteLiteralCstr
  | quoteIdentifier
  | parseTypeString
  | strtol
  /-- the `infunc` of an argument of a plan; that of a text calls the type's input function -/
  | infunc
deriving DecidableEq, Repr

/-- What is sent back. The result of a quotation is `none` when the field has not been assigned. -/
inductive Reply where
  | quoteResult (quoteType : BitVec 32) (result : Option CString)
  | result (m : PlcMsgResult)
  | raw (m : PlcMsgRaw)

inductive Effect where
  /-- `ereport` or `plc_elog`; from `ERROR` on the handler ends there -/
  | report (level : ℤ)
  /-- a string is handed over; with `NULL` the process ends there -/
  | cstring (routine : CStringRoutine) (s : Option CString)
  | reply (r : Reply)

def Reply.Assigned : Reply → Prop
  | .quoteResult _ assigned => assigned.isSome
  | .result _ => True
  | .raw _ => True

/-- The effect stays within the session: no level above `FATAL`, no `NULL` where a string is needed,
    and no reply with a field that has not been assigned. -/
def Effect.Harmless : Effect → Prop
  | .report level => level ≤ fatalLevel
  | .cstring _ s => s.isSome
  | .reply r => r.Assigned

/-- Everything that a handler does is harmless. -/
def AllHarmless (effects : List Effect) : Prop := ∀ e ∈ effects, e.Harmless

/-- What the server's routines answer; `none` where they raise an error themselves. -/
structure ServerEnv where
  quoteLiteralCstr : CString → CString
  quoteIdentifier : CString → CString
  parseTypeString : CString → Option Oid
  /-- the number, unless `errno` is `ERANGE` afterwards -/
  strtol : CString → Option Oid
  /-- the channel takes the reply -/
  sends : Bool
  types : Catalog
  pplans : List (BitVec 64 × PlcPlan)
  /-- the `infunc` converts the value -/
  converts : PlcTypeInfo → Value → Bool
  /-- `SPI_execute` and `create_sql_result`; `SPI_execute` itself refuses a `NULL` statement -/
  execute : Option CString → BitVec 64 → Option PlcMsgResult
  /-- `SPI_execute_plan` and `create_sql_result` -/
  executePlan : BitVec 64 → BitVec 64 → Option PlcMsgResult
  /-- `SPI_prepare`, which refuses a `NULL` statement, `insert_pplan` and `create_prepare_result` -/
  prepare : Option CString → List Oid → Option PlcMsgRaw
  /-- `free_plc_plan` and `create_unprepare_result` -/
  unprepare : BitVec 64 → PlcMsgRaw

/-! ## The handlers -/

section

variable (env : ServerEnv)

/-- `plcontainer_channel_send` of a reply, and the error if that fails. -/
def sendReply (r : Reply) : List Effect :=
  .reply r :: if env.sends then [] else [.report errorLevel]

def plcontainerProcessLog (log : PlcMsgLog) : List Effect :=
  -- the message goes through `%s`, which prints `NULL` as `(null)`
  [.report log.level.toInt]

def plcontainerProcessException (_msg : PlcMsgError) : List Effect := [.report errorLevel]

/-- One of the two quotations: the routine gets the string, and its result is sent. -/
def quoteWith (routine : CStringRoutine) (quote : CString → CString) (msg : PlcMsgQuote) :
    List Effect :=
  .cstring routine msg.msg ::
    match msg.msg with
    | none => []
    | some s => sendReply env (.quoteResult msg.quoteType (some (quote s)))

def plcontainerProcessQuote (msg : PlcMsgQuote) : List Effect :=
  if msg.quoteType = 0 ∨ msg.quoteType = 1 then
    quoteWith env .quoteLiteralCstr env.quoteLiteralCstr msg
  else if msg.quoteType = 2 then quoteWith env .quoteIdentifier env.quoteIdentifier msg
  else sendReply env (.quoteResult msg.quoteType none)

/-- What is done with the type name of a prepare argument: parsed as a name, or (for the R client) as
    an oid. -/
def argumentRoutine (type : PlcDatatype) : Option (CStringRoutine × (CString → Option Oid)) :=
  if type = .text then some (.parseTypeString, env.parseTypeString)
  else if type = .int4 then some (.strtol, env.strtol)
  else none

/-- The loop over the arguments of a PREPARE: what it does, and the oids unless it ends before. -/
def prepareArguments : List PlcArgument → List Effect × Option (List Oid)
  | [] => ([], some [])
  | arg :: args =>
      match argumentRoutine env arg.type.type with
      -- "prepare type is bad, unexpected prepare sql type %d"
      | none => ([.report errorLevel], none)
      | some (routine, parse) =>
          let effect := Effect.cstring routine arg.type.typeName
          match arg.type.typeName with
          | none => ([effect], none)
          | some name =>
              match parse name with
              | none => ([effect, .report errorLevel], none)
              | some oid =>
                  (effect :: (prepareArguments args).1, (prepareArguments args).2.map (oid :: ·))

/-- A value of a PEXECUTE that is a string: its pointer is handed to the `infunc`, which follows it
    whatever type it is for. -/
def valueEffects : Value → List Effect
  | .text s => [.cstring .infunc s]
  | _ => []

/-- The value is a string that is `NULL` although it is not marked as null. -/
def Value.isNullString : Value → Bool
  | .text none => true
  | _ => false

/-- The loop over the arguments of a PEXECUTE: what it does, and whether it gets to its end. -/
def pexecuteValues : List Oid → List PlcArgument → List Effect × Bool
  | oid :: oids, arg :: args =>
      match arg.data with
      | none => pexecuteValues oids args
      | some v =>
          match fillTypeInfo env.types none oid with
          | .error _ => ([.report errorLevel], false)
          | .ok info =>
              if info.type = .array ∨ info.type = .udt then ([.report errorLevel], false)
              else if v.isNullString then (valueEffects v, false)
              else if !env.converts info v then (valueEffects v ++ [.report errorLevel], false)
              else (valueEffects v ++ (pexecuteValues oids args).1, (pexecuteValues oids args).2)
  | _, _ => ([], true)

/-- The answer to an SQL message, or the error that is raised instead. -/
def answer : Option Reply → List Effect
  | none => [.report errorLevel]
  | some r => sendReply env r

/-- `plcontainer_process_sql` with `handle_sql_message`. -/
def plcontainerProcessSql : PlcMsgSQL → List Effect
  | .statement limit statement => answer env ((env.execute statement limit).map .result)
  | .prepare _ args statement =>
      (prepareArguments env args).1 ++
        match (prepareArguments env args).2 with
        | none => []
        | some oids => answer env ((env.prepare statement oids).map .raw)
  | .unprepare pplan => sendReply env (.raw (env.unprepare pplan))
  | .pexecute nargs args limit pplan =>
      match searchPplan env.pplans pplan with
      | none => [.report errorLevel]
      | some plan =>
          if plan.nargs ≠ nargs then [.report errorLevel]
          else
            (pexecuteValues env plan.argOids args).1 ++
              if (pexecuteValues env plan.argOids args).2 then
                answer env ((env.executePlan pplan limit).map .result)
              else []
  -- "Cannot handle sql type %d"
  | .unhandled _ => [.report errorLevel]

/-- The handler for each of the four kinds of message. -/
def plcontainerProcess : PlcMessage → List Effect
  | .log m => plcontainerProcessLog m
  | .exception m => plcontainerProcessException m
  | .quote m => plcontainerProcessQuote env m
  | .sql m => plcontainerProcessSql env m
  | _ => []

/-! ## Messages that stay within the session -/

/-- Every type name of a PREPARE that is reached is given. -/
def namesGiven : List PlcArgument → Prop
  | [] => True
  | arg :: args =>
      match argumentRoutine env arg.type.type with
      | none => True
      | some (_, parse) =>
          ∃ name, arg.type.typeName = some name ∧ ((parse name).isSome → namesGiven args)

/-- No value of a PEXECUTE that is reached is a `NULL` string. -/
def stringsGiven : List Oid → List PlcArgument → Prop
  | oid :: oids, arg :: args =>
      match arg.data with
      | none => stringsGiven oids args
      | some v =>
          match fillTypeInfo env.types none oid with
          | .error _ => True
          | .ok info =>
              info.type = .array ∨ info.type = .udt ∨
                v.isNullString = false ∧ (env.converts info v = true → stringsGiven oids args)
  | _, _ => True

/-- **What the client has to keep to**: a level of at most `FATAL`; a known kind of quotation and a
    string to quote; names for the types of a plan, and strings for its values. -/
def KeepsToSession : PlcMessage → Prop
  | .log m => m.level.toInt ≤ fatalLevel
  | .quote m => (m.quoteType = 0 ∨ m.quoteType = 1 ∨ m.quoteType = 2) ∧ m.msg.isSome
  | .sql (.prepare _ args _) => namesGiven env args
  | .sql (.pexecute nargs args _ pplan) =>
      ∀ plan, searchPplan env.pplans pplan = some plan → plan.nargs = nargs →
        stringsGiven env plan.argOids args
  | _ => True

end

/-! ## The handlers one by one -/

section

variable {env : ServerEnv}

@[simp] theorem harmless_report {level : ℤ} :
    (Effect.report level).Harmless ↔ level ≤ fatalLevel := Iff.rfl

@[simp] theorem harmless_cstring {routine : CStringRoutine} {s : Option CString} :
    (Effect.cstring routine s).Harmless ↔ s.isSome := Iff.rfl

@[simp] theorem harmless_reply {r : Reply} : (Effect.reply r).Harmless ↔ r.Assigned := Iff.rfl

@[simp] theorem errorLevel_le_fatalLevel : errorLevel ≤ fatalLevel := by decide

@[simp] theorem allHarmless_nil : AllHarmless [] := by simp [AllHarmless]

@[simp] theorem allHarmless_cons {e : Effect} {effects : List Effect} :
    AllHarmless (e :: effects) ↔ e.Harmless ∧ AllHarmless effects := by simp [AllHarmless]

@[simp] theorem allHarmless_append {effects effects' : List Effect} :
    AllHarmless (effects ++ effects') ↔ AllHarmless effects ∧ AllHarmless effects' := by
  simp [AllHarmless, or_imp, forall_and]

@[simp] theorem allHarmless_sendReply {r : Reply} : AllHarmless (sendReply env r) ↔ r.Assigned := by
  rw [sendReply]
  split <;> simp

theorem allHarmless_answer {α : Type} {f : α → Reply} (hf : ∀ a, (f a).Assigned) (r : Option α) :
    AllHarmless (answer env (r.map f)) := by
  cases r with
  | none => simp [answer]
  | some a => simpa [answer] using hf a

theorem allHarmless_quoteWith (routine : CStringRoutine) (quote : CString → CString)
    (msg : PlcMsgQuote) : AllHarmless (quoteWith env routine quote msg) ↔ msg.msg.isSome := by
  rw [quoteWith]
  cases msg.msg with
  | none => simp
  | some s => simp [Reply.Assigned]

theorem allHarmless_quote (msg : PlcMsgQuote) :
    AllHarmless (plcontainerProcessQuote env msg) ↔
      (msg.quoteType = 0 ∨ msg.quoteType = 1 ∨ msg.quoteType = 2) ∧ msg.msg.isSome := by
  rw [plcontainerProcessQuote]
  split
  next hliteral =>
    have hknown : msg.quoteType = 0 ∨ msg.quoteType = 1 ∨ msg.quoteType = 2 := by tauto
    rw [allHarmless_quoteWith, and_iff_right hknown]
  next hliteral =>
    split
    next hident =>
      rw [allHarmless_quoteWith, and_iff_right (Or.inr (Or.inr hident))]
    next hident =>
      have hunknown : ¬ (msg.quoteType = 0 ∨ msg.quoteType = 1 ∨ msg.quoteType = 2) := by tauto
      rw [allHarmless_sendReply]
      -- the field is sent as `palloc` left it
      exact iff_of_false (by simp [Reply.Assigned]) fun h => hunknown h.1

/-- The loop over the names follows the arguments up to the first one that ends it. -/
theorem allHarmless_prepareArguments (args : List PlcArgument) :
    AllHarmless (prepareArguments env args).1 ↔ namesGiven env args := by
  induction args with
  | nil => simp [prepareArguments, namesGiven]
  | cons arg args ih =>
      rw [prepareArguments, namesGiven]
      cases argumentRoutine env arg.type.type with
      | none => simp
      | some r =>
          obtain ⟨routine, parse⟩ := r
          cases arg.type.typeName with
          | none => simp
          | some name =>
              cases hparse : parse name with
              | none => simp [hparse]
              | some oid => simp [hparse, ih]

theorem allHarmless_valueEffects (v : Value) :
    AllHarmless (valueEffects v) ↔ v.isNullString = false := by
  cases v with
  | text s => cases s <;> simp [valueEffects, Value.isNullString]
  | _ => simp [valueEffects, Value.isNullString]

theorem allHarmless_pexecuteValues (oids : List Oid) (args : List PlcArgument) :
    AllHarmless (pexecuteValues env oids args).1 ↔ stringsGiven env oids args := by
  induction oids generalizing args with
  | nil => simp [pexecuteValues, stringsGiven]
  | cons oid oids ih =>
      cases args with
      | nil => simp [pexecuteValues, stringsGiven]
      | cons arg args =>
          rw [pexecuteValues, stringsGiven]
          cases arg.data with
          | none => exact ih args
          | some v =>
              cases fillTypeInfo env.types none oid with
              | error e => simp
              | ok info =>
                  dsimp only
                  split
                  next htype => simp [or_assoc.symm, htype]
                  next htype =>
                    have htype' : ¬ (info.type = .array) ∧ ¬ (info.type = .udt) := not_or.1 htype
                    simp only [htype'.1, htype'.2, false_or]
                    split
                    next hnull => simp [allHarmless_valueEffects, hnull]
                    next hnull =>
                      have hgiven : v.isNullString = false := by simpa using hnull
                      cases hconv : env.converts info v with
                      | false => simp [allHarmless_valueEffects, hgiven]
                      | true => simp [allHarmless_valueEffects, hgiven, ih]

/-- Where this loop gets to its end, `pexecuteArguments` does too. -/
theorem pexecuteArguments_of_pexecuteValues {oids : List Oid} {args : List PlcArgument}
    (h : (pexecuteValues env oids args).2 = true) :
    ∃ accesses, pexecuteArguments env.types oids args = .ok accesses := by
  induction oids generalizing args with
  | nil => exact ⟨[], by simp [pexecuteArguments, pure, Except.pure]⟩
  | cons oid oids ih =>
      cases args with
      | nil => exact ⟨[], by simp [pexecuteArguments, pure, Except.pure]⟩
      | cons arg args =>
          rw [pexecuteValues] at h
          rw [pexecuteArguments]
          cases hdata : arg.data with
          | none =>
              rw [hdata] at h
              exact ih h
          | some v =>
              rw [hdata] at h
              cases hinfo : fillTypeInfo env.types none oid with
              | error e => simp [hinfo] at h
              | ok info =>
                  simp only [hinfo] at h ⊢
                  split at h
                  · cases h
                  next hscalar =>
                    split at h
                    · cases h
                    · split at h
                      · cases h
                      · obtain ⟨accesses, haccesses⟩ := ih h
                        rw [if_neg hscalar, haccesses]
                        exact ⟨_, rfl⟩

theorem allHarmless_sql (m : PlcMsgSQL) :
    AllHarmless (plcontainerProcessSql env m) ↔ KeepsToSession env (.sql m) := by
  have hresult (r : Option PlcMsgResult) : AllHarmless (answer env (r.map .result)) :=
    allHarmless_answer (f := Reply.result) (fun _ => trivial) r
  have hraw (r : Option PlcMsgRaw) : AllHarmless (answer env (r.map .raw)) :=
    allHarmless_answer (f := Reply.raw) (fun _ => trivial) r
  cases m with
  | statement limit statement =>
      simp [plcontainerProcessSql, KeepsToSession, hresult]
  | prepare nargs args statement =>
      rw [plcontainerProcessSql, KeepsToSession, allHarmless_append, allHarmless_prepareArguments]
      cases (prepareArguments env args).2 with
      | none => simp
      | some oids => simp [hraw]
  | unprepare pplan => simp [plcontainerProcessSql, KeepsToSession, Reply.Assigned]
  | pexecute nargs args limit pplan =>
      rw [plcontainerProcessSql, KeepsToSession]
      cases searchPplan env.pplans pplan with
      | none => simp
      | some plan =>
          dsimp only
          split
          next hnargs => simp [hnargs]
          next hnargs =>
            rw [allHarmless_append, allHarmless_pexecuteValues]
            have hnargs' : plan.nargs = nargs := not_not.1 hnargs
            split
            · simp [hresult, hnargs']
            · simp [hnargs']
  | unhandled sqltype => simp [plcontainerProcessSql, KeepsToSession]

theorem allHarmless_iff (m : PlcMessage) :
    AllHarmless (plcontainerProcess env m) ↔ KeepsToSession env m := by
  cases m with
  | log m => simp [plcontainerProcess, plcontainerProcessLog, KeepsToSession]
  | exception m => simp [plcontainerProcess, plcontainerProcessException, KeepsToSession]
  | quote m =>
      rw [plcontainerProcess, KeepsToSession]
      exact allHarmless_quote m
  | sql m => exact allHarmless_sql m
  | _ => simp [plcontainerProcess, KeepsToSession]

end

/-! ## Whatever the client sends -/

/-- **A client hurts no more than its own session exactly with messages that keep to it.** Whatever
    bytes it sends and whatever the server's routines answer, the handler of the message that is decoded
    raises nothing above `FATAL`, follows no `NULL` string and sends no field that it has not assigned,
    if and only if the message keeps to the session. -/
theorem handled_within_session_iff (env : ServerEnv) (bs : List UInt8) :
    (∀ m rest, (plcontainerChannelReceive mtAllBits).run bs = .ok (m, rest) →
      AllHarmless (plcontainerProcess env m)) ↔
    ∀ m rest, (plcontainerChannelReceive mtAllBits).run bs = .ok (m, rest) →
      KeepsToSession env m := by
  constructor
  · intro h m rest hm
    exact allHarmless_iff m |>.1 (h m rest hm)
  · intro h m rest hm
    exact allHarmless_iff m |>.2 (h m rest hm)

/-- A server on which everything succeeds, with the type `text` and a plan that takes one. -/
def textServer : ServerEnv where
  quoteLiteralCstr s := s
  quoteIdentifier s := s
  parseTypeString _ := some 25
  strtol _ := some 25
  sends := true
  types oid := if oid = 25 then some ⟨[116], .other, 0, false, []⟩ else none
  pplans := [(8, ⟨1, [25], rfl⟩)]
  converts _ _ := true
  execute _ _ := some ⟨0, 0, [], [], [], none⟩
  executePlan _ _ := some ⟨0, 0, [], [], [], none⟩
  prepare _ _ := some ⟨0, []⟩
  unprepare _ := ⟨0, []⟩

/-- Messages that are decoded and hurt the server: a LOG of level `PANIC`; a QUOTE without a string;
    a QUOTE of no known kind; a PREPARE with an argument without a type name, as text and as an oid; a
    PEXECUTE with a `NULL` string that is not marked as null. -/
theorem client_hurts_server :
    (∃ m, (plcontainerChannelReceive mtAllBits).run [76, 22, 0, 0, 0, 255, 255, 255, 255]
        = .ok (m, []) ∧
      plcontainerProcess textServer m = [.report (fatalLevel + 1)]) ∧
    (∃ m, (plcontainerChannelReceive mtAllBits).run [81, 0, 0, 0, 0, 255, 255, 255, 255]
        = .ok (m, []) ∧
      plcontainerProcess textServer m = [.cstring .quoteLiteralCstr none]) ∧
    (∃ m, (plcontainerChannelReceive mtAllBits).run [81, 7, 0, 0, 0, 1, 0, 0, 0, 120]
        = .ok (m, []) ∧
      plcontainerProcess textServer m = [.reply (.quoteResult 7 none)]) ∧
    (∃ m, (plcontainerChannelReceive mtAllBits).run
          [83, 5, 0, 0, 0, 1, 0, 0, 0, 255, 255, 255, 255, 6, 255, 255, 255, 255, 78,
            255, 255, 255, 255] = .ok (m, []) ∧
      plcontainerProcess textServer m = [.cstring .parseTypeString none]) ∧
    (∃ m, (plcontainerChannelReceive mtAllBits).run
          [83, 5, 0, 0, 0, 1, 0, 0, 0, 255, 255, 255, 255, 2, 255, 255, 255, 255, 78,
            255, 255, 255, 255] = .ok (m, []) ∧
      plcontainerProcess textServer m = [.cstring .strtol none]) ∧
    (∃ m, (plcontainerChannelReceive mtAllBits).run
          [83, 6, 0, 0, 0, 1, 0, 0, 0, 255, 255, 255, 255, 6, 255, 255, 255, 255,
            68, 255, 255, 255, 255, 0, 0, 0, 0, 0, 0, 0, 0, 8, 0, 0, 0, 0, 0, 0, 0] = .ok (m, []) ∧
      plcontainerProcess textServer m = [.cstring .infunc none]) ∧
    ¬ AllHarmless [.report (fatalLevel + 1)] ∧
    ¬ AllHarmless [.reply (.quoteResult 7 none)] ∧
    ∀ routine, ¬ AllHarmless [.cstring routine none] := by
  refine ⟨⟨_, rfl, rfl⟩, ⟨_, rfl, rfl⟩, ⟨_, rfl, rfl⟩, ⟨_, rfl, rfl⟩, ⟨_, rfl, rfl⟩, ⟨_, rfl, rfl⟩,
    ?_, ?_, ?_⟩
  · simp
  · simp [Reply.Assigned]
  · simp

end PlContainer
