import PlContainer.Backend.Datums
import PlContainer.Library.ThreadedList
import PlContainer.Library.Runs

set_option autoImplicit false

/-! # Prepared plans

`sqlhandler.c` keeps the plans that a client has prepared in a table of `MAX_PPLAN` slots per
connection, whose free slots form a list. The handle of a plan is the address of a field in its
`plcPlan`: it goes to the client and comes back in PEXECUTE and UNPREPARE messages, where the client
can send any 64-bit number. -/

namespace PlContainer

open Runs ThreadedList

/-- `MAX_PPLAN`. -/
abbrev maxPplan : ℕ := 32

/-- `struct pplan_slots`: the handle of a plan, 0 in a free slot, and the next free slot (-1 is
    `none`). -/
structure PplanSlot where
  pplan : BitVec 64
  next : Option (Fin maxPplan)
deriving DecidableEq

/-- The fields `pplans` and `head_free_pplan_slot` of a connection. -/
structure PplanSlots where
  pplans : Fin maxPplan → PplanSlot
  headFreePplanSlot : Option (Fin maxPplan)

/-! ## The table -/

namespace PplanSlots

def initPplanSlots : PplanSlots where
  pplans i := ⟨0, cellAt maxPplan (i + 1)⟩
  headFreePplanSlot := some 0

/-- `search_pplan`: the first slot with the handle; -1 is `none`. -/
def searchPplan (t : PplanSlots) (pplan : BitVec 64) : Option (Fin maxPplan) :=
  if pplan = 0 then none else (List.finRange maxPplan).find? fun i => (t.pplans i).pplan == pplan

def insertPplan (t : PplanSlots) (pplan : BitVec 64) : Option (Fin maxPplan) × PplanSlots :=
  if pplan = 0 then (none, t)
  else
    match t.headFreePplanSlot with
    | none => (none, t)
    | some slot =>
        (some slot,
          { pplans := Function.update t.pplans slot { t.pplans slot with pplan := pplan }
            headFreePplanSlot := (t.pplans slot).next })

def deletePplan (t : PplanSlots) (pplan : BitVec 64) : Option (Fin maxPplan) × PplanSlots :=
  match t.searchPplan pplan with
  | none => (none, t)
  | some slot =>
      (some slot,
        { pplans := Function.update t.pplans slot ⟨0, t.headFreePplanSlot⟩
          headFreePplanSlot := some slot })

/-- The slot holds no plan. -/
def Free (t : PplanSlots) (i : Fin maxPplan) : Prop := (t.pplans i).pplan = 0

/-- **What holds of the table**: its free slots are in the list, each once, and no handle is in two
    slots. -/
structure Valid (t : PplanSlots) : Prop where
  freeList : ∃ cells, Holds (fun i => (t.pplans i).next) t.headFreePplanSlot t.Free cells
  distinct : ∀ i j, (t.pplans i).pplan = (t.pplans j).pplan → ¬ t.Free i → i = j

/-- The handles in the table. -/
def Contains (t : PplanSlots) (pplan : BitVec 64) : Prop :=
  pplan ≠ 0 ∧ ∃ i, (t.pplans i).pplan = pplan

variable {t : PplanSlots} {pplan : BitVec 64}

theorem searchPplan_eq_some {i : Fin maxPplan} (h : t.searchPplan pplan = some i) :
    (t.pplans i).pplan = pplan ∧ pplan ≠ 0 := by
  rw [searchPplan] at h
  split at h
  · cases h
  next hne => exact ⟨by simpa using List.find?_some h, hne⟩

theorem searchPplan_eq_none : t.searchPplan pplan = none ↔ ¬ t.Contains pplan := by
  rw [searchPplan, Contains]
  split
  next hzero => simp [hzero]
  next hne =>
    have hne' : pplan ≠ 0 := hne
    rw [List.find?_eq_none]
    constructor
    · rintro hall ⟨-, i, hi⟩
      exact hall i (List.mem_finRange i) (by simpa using hi)
    · intro hnot i _ hi
      exact hnot ⟨hne', i, by simpa using hi⟩

theorem valid_initPplanSlots : initPplanSlots.Valid := by
  refine ⟨⟨List.finRange maxPplan, ?_, List.nodup_finRange _, fun i => ?_⟩, fun i j _ hi => ?_⟩
  · exact (holds_inOrder fun _ => rfl).threads
  · exact iff_of_true (List.mem_finRange i) rfl
  · exact absurd rfl hi

/-- A handle that cannot be stored changes nothing. -/
theorem insertPplan_none {t' : PplanSlots} (h : t.insertPplan pplan = (none, t')) : t' = t := by
  rw [insertPplan] at h
  split at h
  · cases h
    rfl
  · split at h <;> cases h
    rfl

theorem deletePplan_none {t' : PplanSlots} (h : t.deletePplan pplan = (none, t')) : t' = t := by
  rw [deletePplan] at h
  split at h <;> cases h
  rfl

/-- The handle in each slot after a slot has been written. -/
theorem pplan_update (t : PplanSlots) (slot i : Fin maxPplan) (new : PplanSlot) :
    (Function.update t.pplans slot new i).pplan
      = if i = slot then new.pplan else (t.pplans i).pplan := by
  split
  next heq => rw [heq, Function.update_self]
  next hne => rw [Function.update_of_ne hne]

/-! ### The free list

It is kept whatever the handles are, also if one of them is in the table twice. -/

/-- The free slots are in the list, each once. -/
def FreeListed (t : PplanSlots) : Prop :=
  ∃ cells, Holds (fun i => (t.pplans i).next) t.headFreePplanSlot t.Free cells

theorem insertPplan_eq_some {slot : Fin maxPplan} {t' : PplanSlots}
    (hins : t.insertPplan pplan = (some slot, t')) :
    pplan ≠ 0 ∧ t.headFreePplanSlot = some slot ∧
      t' = { pplans := Function.update t.pplans slot { t.pplans slot with pplan := pplan }
             headFreePplanSlot := (t.pplans slot).next } := by
  rw [PplanSlots.insertPplan] at hins
  split at hins
  · cases hins
  next hne =>
    split at hins
    · cases hins
    next head hhead =>
      cases hins
      exact ⟨hne, hhead, rfl⟩

theorem deletePplan_eq_some {slot : Fin maxPplan} {t' : PplanSlots}
    (hdel : t.deletePplan pplan = (some slot, t')) :
    t.searchPplan pplan = some slot ∧
      t' = { pplans := Function.update t.pplans slot ⟨0, t.headFreePplanSlot⟩
             headFreePplanSlot := some slot } := by
  rw [PplanSlots.deletePplan] at hdel
  split at hdel
  · cases hdel
  next found hfound =>
    cases hdel
    exact ⟨hfound, rfl⟩

/-- The free list loses its head. -/
theorem FreeListed.insertPplan (h : t.FreeListed) {slot : Fin maxPplan} {t' : PplanSlots}
    (hins : t.insertPplan pplan = (some slot, t')) : t.Free slot ∧ t'.FreeListed := by
  obtain ⟨hne, hhead, rfl⟩ := insertPplan_eq_some hins
  obtain ⟨cells, hholds⟩ := h
  rw [hhead] at hholds
  have hfree (i : Fin maxPplan) :
      (Function.update t.pplans slot { t.pplans slot with pplan := pplan } i).pplan = 0 ↔
        t.Free i ∧ i ≠ slot := by
    rw [pplan_update]
    split
    next heq => simpa [heq] using hne
    next hne' => simp [Free, hne']
  obtain ⟨hslot, cells', hholds'⟩ := hholds.take hfree
  refine ⟨hslot, cells', hholds'.threads.congr fun i _ => ?_, hholds'.nodup, hholds'.mem_iff⟩
  dsimp only
  by_cases heq : i = slot
  · rw [heq, Function.update_self]
  · rw [Function.update_of_ne heq]

/-- The slot goes to the head of the free list. -/
theorem FreeListed.deletePplan (h : t.FreeListed) {slot : Fin maxPplan} {t' : PplanSlots}
    (hdel : t.deletePplan pplan = (some slot, t')) : t'.FreeListed := by
  obtain ⟨hfound, rfl⟩ := deletePplan_eq_some hdel
  obtain ⟨hslot, hne⟩ := searchPplan_eq_some hfound
  obtain ⟨cells, hholds⟩ := h
  have hused : ¬ t.Free slot := fun hzero => hne (hslot.symm.trans hzero)
  have hfree (i : Fin maxPplan) :
      (Function.update t.pplans slot ⟨0, t.headFreePplanSlot⟩ i).pplan = 0 ↔
        t.Free i ∨ i = slot := by
    rw [pplan_update]
    split
    next heq => simp [heq]
    next hne' => simp [Free, hne']
  have hput := hholds.put hused hfree
  refine ⟨slot :: cells, hput.threads.congr fun i _ => ?_, hput.nodup, hput.mem_iff⟩
  dsimp only
  by_cases heq : i = slot
  · rw [heq, Function.update_self, Function.update_self]
  · rw [Function.update_of_ne heq, Function.update_of_ne heq]

theorem FreeListed.afterInsert (h : t.FreeListed) (pplan : BitVec 64) :
    (t.insertPplan pplan).2.FreeListed := by
  rcases hres : t.insertPplan pplan with ⟨_ | slot, t'⟩
  · obtain rfl := insertPplan_none hres
    exact h
  · exact (h.insertPplan hres).2

theorem FreeListed.afterDelete (h : t.FreeListed) (pplan : BitVec 64) :
    (t.deletePplan pplan).2.FreeListed := by
  rcases hres : t.deletePplan pplan with ⟨_ | slot, t'⟩
  · obtain rfl := deletePplan_none hres
    exact h
  · exact h.deletePplan hres

/-- A handle is refused exactly when all slots are in use. -/
theorem FreeListed.insertPplan_fails (h : t.FreeListed) (hne : pplan ≠ 0) :
    (t.insertPplan pplan).1 = none ↔ ∀ i, ¬ t.Free i := by
  obtain ⟨cells, hholds⟩ := h
  rw [PplanSlots.insertPplan, if_neg hne]
  cases hhead : t.headFreePplanSlot with
  | none =>
      rw [hhead] at hholds
      refine iff_of_true rfl fun i hi => ?_
      have hmem := (hholds.mem_iff i).2 hi
      cases hholds.threads
      cases hmem
  | some slot =>
      rw [hhead] at hholds
      refine iff_of_false (by simp) fun hfull => ?_
      exact hfull slot (hholds.take fun _ => Iff.rfl).1

theorem deletePplan_fails :
    (t.deletePplan pplan).1 = none ↔ pplan = 0 ∨ ∀ i, (t.pplans i).pplan ≠ pplan := by
  have hnot : (t.deletePplan pplan).1 = none ↔ t.searchPplan pplan = none := by
    rw [deletePplan]
    split
    next hnone => simp [hnone]
    next hfound => simp [hfound]
  rw [hnot, searchPplan_eq_none, Contains, not_and_or, not_not, not_exists]

/-! ### The handles -/

/-- A handle that is not in the table goes to a slot that was free. -/
theorem Valid.insertPplan (h : t.Valid) (hnew : ¬ t.Contains pplan) {slot : Fin maxPplan}
    {t' : PplanSlots} (hins : t.insertPplan pplan = (some slot, t')) :
    t'.Valid ∧ ∀ x, t'.Contains x ↔ t.Contains x ∨ x = pplan := by
  obtain ⟨hlist, hdistinct⟩ := h
  obtain ⟨hslot, hlist'⟩ := FreeListed.insertPplan hlist hins
  obtain ⟨hne, -, rfl⟩ := insertPplan_eq_some hins
  have hpplan (i : Fin maxPplan) :
      (Function.update t.pplans slot { t.pplans slot with pplan := pplan } i).pplan
        = if i = slot then pplan else (t.pplans i).pplan := pplan_update t slot i _
  refine ⟨⟨hlist', ?_⟩, fun x => ?_⟩
  · exact Distinct.write (z := 0) hdistinct (fun i hi => hnew ⟨hne, i, hi⟩) hpplan
  · have hwrite (hx : x ≠ 0) := exists_write (f := fun i => (t.pplans i).pplan)
      (fun he => hx (he.symm.trans hslot)) hpplan
    constructor
    · rintro ⟨hx, hwritten⟩
      exact ((hwrite hx).1 hwritten).imp_left fun hold => ⟨hx, hold⟩
    · rintro (⟨hx, hold⟩ | rfl)
      · exact ⟨hx, (hwrite hx).2 (.inl hold)⟩
      · exact ⟨hne, (hwrite hne).2 (.inr rfl)⟩

/-- Only the handle that is deleted is gone. -/
theorem Valid.deletePplan (h : t.Valid) {slot : Fin maxPplan} {t' : PplanSlots}
    (hdel : t.deletePplan pplan = (some slot, t')) :
    t'.Valid ∧ t.Contains pplan ∧ ∀ x, t'.Contains x ↔ t.Contains x ∧ x ≠ pplan := by
  obtain ⟨hlist, hdistinct⟩ := h
  have hlist' := FreeListed.deletePplan hlist hdel
  obtain ⟨hfound, rfl⟩ := deletePplan_eq_some hdel
  obtain ⟨hslot, hne⟩ := searchPplan_eq_some hfound
  have hpplan (i : Fin maxPplan) :
      (Function.update t.pplans slot ⟨0, t.headFreePplanSlot⟩ i).pplan
        = if i = slot then 0 else (t.pplans i).pplan := pplan_update t slot i _
  refine ⟨⟨hlist', Distinct.clear (z := 0) hdistinct hpplan⟩, ⟨hne, slot, hslot⟩, fun x => ?_⟩
  rw [Contains, Contains, and_assoc]
  refine and_congr_right fun hx => ?_
  rw [← hslot]
  exact Distinct.exists_clear (z := 0) hdistinct hx hpplan

/-- A list of plans under their handles, which is how `handlePexecute` sees the table, gives the same
    answers when it has the handles of the table. -/
theorem searchPplan_isSome {pplans : List (BitVec 64 × PlcPlan)}
    (hkeys : ∀ x, x ∈ pplans.map Prod.fst ↔ t.Contains x) :
    (PlContainer.searchPplan pplans pplan).isSome ↔ (t.searchPplan pplan).isSome := by
  have hfound : (t.searchPplan pplan).isSome ↔ t.Contains pplan := by
    rw [← not_iff_not, ← searchPplan_eq_none]
    simp
  rw [hfound, ← hkeys, PlContainer.searchPplan]
  split
  next hzero =>
    refine iff_of_false (by simp) fun hmem => ?_
    exact ((hkeys pplan).1 hmem).1 hzero
  next =>
    have hnone : pplans.lookup pplan = none ↔ pplan ∉ pplans.map Prod.fst := by
      rw [List.lookup_eq_none_iff]
      refine ⟨fun hall hmem => ?_, fun hnot p hp => ?_⟩
      · obtain ⟨p, hp, rfl⟩ := List.mem_map.1 hmem
        simpa using hall p hp
      · rw [bne_iff_ne]
        rintro rfl
        exact hnot (List.mem_map_of_mem hp)
    rw [← not_iff_not, ← hnone, Bool.not_eq_true, Option.isSome_eq_false_iff,
      Option.isNone_iff_eq_none]

/-- When all slots are in use, a new handle is refused and nothing changes. -/
theorem Valid.insertPplan_full (h : t.Valid) (hfull : ∀ i, ¬ t.Free i) :
    t.insertPplan pplan = (none, t) := by
  by_cases hzero : pplan = 0
  · rw [PplanSlots.insertPplan, if_pos hzero]
  · have hnone := (FreeListed.insertPplan_fails h.freeList hzero).2 hfull
    have hins : t.insertPplan pplan = (none, (t.insertPplan pplan).2) := Prod.ext hnone rfl
    rw [hins, insertPplan_none hins]

end PplanSlots

/-! ## The messages of a connection -/

/-- What becomes of the statement of a PREPARE. -/
inductive SpiPrepare where
  /-- An argument type is refused, or `SPI_prepare` raises an error. -/
  | raises
  /-- `SPI_prepare` returns NULL. -/
  | null
  | plan
deriving DecidableEq

inductive PlanMessage where
  /-- The handle belongs to the `plcPlan` that the backend allocates for the message. -/
  | prepare (pplan : BitVec 64) (outcome : SpiPrepare)
  | pexecute (pplan : BitVec 64)
  | unprepare (pplan : BitVec 64)

/-- What the backend does with plans. -/
inductive PlanEvent where
  /-- `SPI_saveplan` for a new `plcPlan`. -/
  | saved (pplan : BitVec 64)
  /-- The answer to a PREPARE, with the mark for a valid plan. -/
  | answered (pplan : BitVec 64) (valid : Bool)
  /-- `SPI_freeplan` for a plan that no slot was left for. -/
  | discarded (pplan : BitVec 64)
  /-- The handle is read as the address of a `plcPlan`, for execution. -/
  | executed (pplan : BitVec 64)
  /-- The handle is read as the address of a `plcPlan`, which is freed with its plan. -/
  | freed (pplan : BitVec 64)
deriving DecidableEq

/-- A connection and what has been done with its plans, the latest event first. -/
structure PlanConn where
  slots : PplanSlots
  history : List PlanEvent

namespace PlanConn

def handlePrepare (c : PlanConn) (pplan : BitVec 64) : SpiPrepare → PlanConn
  | .raises => c
  | .null => { c with history := .answered pplan false :: c.history }
  | .plan =>
      match c.slots.insertPplan pplan with
      | (none, slots) => ⟨slots, .discarded pplan :: .saved pplan :: c.history⟩
      | (some _, slots) => ⟨slots, .answered pplan true :: .saved pplan :: c.history⟩

def freePlcPlan (c : PlanConn) (pplan : BitVec 64) : PlanConn :=
  match c.slots.deletePplan pplan with
  | (none, slots) => { c with slots := slots }
  | (some _, slots) => ⟨slots, .freed pplan :: c.history⟩

/-- `handle_sql_message`. All that PEXECUTE reads of the `plcPlan` it reads before
    `SPI_execute_plan`, so the messages of calls inside the execution come after this one. -/
def handleSqlMessage (c : PlanConn) : PlanMessage → PlanConn
  | .prepare pplan outcome => c.handlePrepare pplan outcome
  | .pexecute pplan =>
      match c.slots.searchPplan pplan with
      | none => c
      | some _ => { c with history := .executed pplan :: c.history }
  | .unprepare pplan => c.freePlcPlan pplan

def deinitPplanSlots (c : PlanConn) : PlanConn :=
  (List.finRange maxPplan).foldl (fun c i => c.freePlcPlan (c.slots.pplans i).pplan) c

/-- `plcDisconnect`, as far as plans are concerned. -/
def plcDisconnect (c : PlanConn) : PlanConn := c.deinitPplanSlots

end PlanConn

/-! ## Live plans -/

/-- The handle was returned by a successful PREPARE and its plan has not been freed since. -/
def livePlan : List PlanEvent → BitVec 64 → Bool
  | [], _ => false
  | .answered p true :: past, pplan => pplan == p || livePlan past pplan
  | .freed p :: past, pplan => pplan != p && livePlan past pplan
  | _ :: past, pplan => livePlan past pplan

/-- The backend takes the number for the address of a `plcPlan`. -/
def PlanEvent.Uses (e : PlanEvent) (pplan : BitVec 64) : Prop :=
  e = .executed pplan ∨ e = .freed pplan

/-- Every handle was live when it was used. -/
def UsesLive (history : List PlanEvent) : Prop :=
  ∀ later e earlier, history = later ++ e :: earlier →
    ∀ pplan, e.Uses pplan → livePlan earlier pplan = true

/-- Every plan is live, discarded or freed, once. -/
def Balanced (history : List PlanEvent) : Prop :=
  ∀ pplan, history.count (.saved pplan) =
    history.count (.freed pplan) + history.count (.discarded pplan) + (livePlan history pplan).toNat

section History

variable {history : List PlanEvent} {pplan : BitVec 64}

theorem UsesLive.cons {e : PlanEvent} (h : UsesLive history)
    (he : ∀ pplan, e.Uses pplan → livePlan history pplan = true) : UsesLive (e :: history) := by
  intro later e' earlier heq pplan' huses
  cases later with
  | nil =>
      cases heq
      exact he pplan' huses
  | cons _ later =>
      cases heq
      exact h later e' earlier rfl pplan' huses

/-- A step that uses no handle. -/
theorem UsesLive.cons_other {e : PlanEvent} (h : UsesLive history) (he : ∀ x, ¬ e.Uses x) :
    UsesLive (e :: history) :=
  h.cons fun x hx => absurd hx (he x)

theorem Balanced.answered (h : Balanced history) (hnew : livePlan history pplan = false) :
    Balanced (.answered pplan true :: .saved pplan :: history) := by
  intro x
  have hx := h x
  by_cases heq : x = pplan
  · subst heq
    simp [livePlan, hnew] at hx ⊢
    omega
  · simpa [livePlan, beq_eq_false_iff_ne.2 heq, List.count_cons, Ne.symm heq] using hx

theorem Balanced.discarded (h : Balanced history) :
    Balanced (.discarded pplan :: .saved pplan :: history) := by
  intro x
  have hx := h x
  by_cases heq : x = pplan
  · subst heq
    simp [livePlan] at hx ⊢
    omega
  · simpa [livePlan, List.count_cons, Ne.symm heq] using hx

theorem Balanced.freed (h : Balanced history) (hlive : livePlan history pplan = true) :
    Balanced (.freed pplan :: history) := by
  intro x
  have hx := h x
  by_cases heq : x = pplan
  · subst heq
    simp [livePlan, hlive] at hx ⊢
    omega
  · simpa [livePlan, bne_iff_ne.2 heq, List.count_cons, Ne.symm heq] using hx

end History

namespace PlanConn

/-- **The invariant**: the table holds the handles of the live plans. -/
structure Sound (c : PlanConn) : Prop where
  valid : c.slots.Valid
  contains : ∀ pplan, c.slots.Contains pplan ↔ livePlan c.history pplan = true
  usesLive : UsesLive c.history
  balanced : Balanced c.history

/-- A new connection. -/
def fresh : PlanConn := ⟨.initPplanSlots, []⟩

theorem sound_fresh : fresh.Sound where
  valid := PplanSlots.valid_initPplanSlots
  contains pplan := by
    refine iff_of_false ?_ (by simp [fresh, livePlan])
    rintro ⟨hne, i, hi⟩
    exact hne hi.symm
  usesLive later e earlier heq := by
    cases later <;> cases heq
  balanced pplan := by simp [fresh, livePlan]

variable {c : PlanConn} {pplan : BitVec 64}

theorem Sound.handlePrepare (h : c.Sound) (hnew : livePlan c.history pplan = false)
    (outcome : SpiPrepare) : (c.handlePrepare pplan outcome).Sound := by
  obtain ⟨hvalid, hcontains, huses, hbalanced⟩ := h
  have hsaved : UsesLive (.saved pplan :: c.history) := huses.cons_other (by simp [PlanEvent.Uses])
  cases outcome with
  | raises => exact ⟨hvalid, hcontains, huses, hbalanced⟩
  | null =>
      refine ⟨hvalid, by simpa [PlanConn.handlePrepare, livePlan] using hcontains,
        huses.cons_other (by simp [PlanEvent.Uses]), fun x => ?_⟩
      simpa [PlanConn.handlePrepare, livePlan] using hbalanced x
  | plan =>
      rw [PlanConn.handlePrepare]
      split
      next slots hins =>
        obtain rfl := PplanSlots.insertPplan_none hins
        exact ⟨hvalid, by simpa [livePlan] using hcontains,
          hsaved.cons_other (by simp [PlanEvent.Uses]), hbalanced.discarded⟩
      next slot slots hins =>
        have hnotIn : ¬ c.slots.Contains pplan := by simp [hcontains, hnew]
        obtain ⟨hvalid', hcontains'⟩ := hvalid.insertPplan hnotIn hins
        refine ⟨hvalid', fun x => ?_, hsaved.cons_other (by simp [PlanEvent.Uses]),
          hbalanced.answered hnew⟩
        rw [hcontains', hcontains]
        simp [livePlan, or_comm]

theorem Sound.freePlcPlan (h : c.Sound) (pplan : BitVec 64) : (c.freePlcPlan pplan).Sound := by
  obtain ⟨hvalid, hcontains, huses, hbalanced⟩ := h
  rw [PlanConn.freePlcPlan]
  split
  next slots hdel =>
    obtain rfl := PplanSlots.deletePplan_none hdel
    exact ⟨hvalid, hcontains, huses, hbalanced⟩
  next slot slots hdel =>
    obtain ⟨hvalid', hin, hcontains'⟩ := hvalid.deletePplan hdel
    have hlive := (hcontains pplan).1 hin
    refine ⟨hvalid', fun x => ?_, huses.cons ?_, hbalanced.freed hlive⟩
    · rw [hcontains', hcontains]
      simp [livePlan, and_comm]
    · rintro x (hx | hx) <;> cases hx
      exact hlive

theorem Sound.handleSqlMessage (h : c.Sound) {m : PlanMessage}
    (hnew : ∀ pplan outcome, m = .prepare pplan outcome → livePlan c.history pplan = false) :
    (c.handleSqlMessage m).Sound := by
  cases m with
  | prepare pplan outcome => exact h.handlePrepare (hnew _ _ rfl) outcome
  | unprepare pplan => exact h.freePlcPlan pplan
  | pexecute pplan =>
      rw [PlanConn.handleSqlMessage]
      split
      · exact h
      next slot hfound =>
        obtain ⟨hvalid, hcontains, huses, hbalanced⟩ := h
        obtain ⟨hslot, hne⟩ := PplanSlots.searchPplan_eq_some hfound
        refine ⟨hvalid, by simpa [livePlan] using hcontains, huses.cons ?_, fun x => ?_⟩
        · rintro x (hx | hx) <;> cases hx
          exact (hcontains _).1 ⟨hne, slot, hslot⟩
        · simpa [livePlan] using hbalanced x

/-! ## The end of a connection -/

theorem freePlcPlan_found {i : Fin maxPplan} (hfound : c.slots.searchPplan pplan = some i) :
    c.freePlcPlan pplan =
      { slots :=
          { pplans := Function.update c.slots.pplans i ⟨0, c.slots.headFreePplanSlot⟩
            headFreePplanSlot := some i }
        history := .freed pplan :: c.history } := by
  rw [freePlcPlan, PplanSlots.deletePplan, hfound]

/-- No other slot has the handle of a slot in use, so that the search finds this slot. -/
theorem searchPplan_slot (h : c.slots.Valid) {i : Fin maxPplan} (hi : ¬ c.slots.Free i) :
    c.slots.searchPplan (c.slots.pplans i).pplan = some i := by
  cases hs : c.slots.searchPplan (c.slots.pplans i).pplan with
  | none => exact absurd ⟨hi, i, rfl⟩ (PplanSlots.searchPplan_eq_none.1 hs)
  | some j => rw [h.distinct i j (PplanSlots.searchPplan_eq_some hs).1.symm hi]

/-- The handles in these slots. -/
def handles (t : PplanSlots) (is : List (Fin maxPplan)) : List (BitVec 64) :=
  (is.map fun i => (t.pplans i).pplan).filter (· ≠ 0)

/-- The loop of `deinit_pplan_slots`: the plans in the slots it goes through are freed. -/
theorem history_deinit (h : c.Sound) {is : List (Fin maxPplan)} (his : is.Nodup) :
    (is.foldl (fun c i => c.freePlcPlan (c.slots.pplans i).pplan) c).history
      = (handles c.slots is).reverse.map .freed ++ c.history := by
  induction is generalizing c with
  | nil => rfl
  | cons i is ih =>
      rw [List.nodup_cons] at his
      have hsound := h.freePlcPlan (c.slots.pplans i).pplan
      rw [List.foldl_cons, ih hsound his.2]
      by_cases hi : c.slots.Free i
      · have hzero : (c.slots.pplans i).pplan = 0 := hi
        have hsame : c.freePlcPlan 0 = c := rfl
        rw [hzero, hsame, handles, handles, List.map_cons, List.filter_cons_of_neg (by simp [hzero])]
      · have hne : (c.slots.pplans i).pplan ≠ 0 := hi
        rw [freePlcPlan_found (searchPplan_slot h.valid hi)]
        -- the other slots keep their handles
        have hrest : (is.map fun j =>
            (Function.update c.slots.pplans i ⟨0, c.slots.headFreePplanSlot⟩ j).pplan)
            = is.map fun j => (c.slots.pplans j).pplan := by
          refine List.map_congr_left fun j hj => ?_
          rw [Function.update_of_ne]
          rintro rfl
          exact his.1 hj
        simp only [handles, hrest]
        rw [List.map_cons, List.filter_cons_of_pos (by simpa using hne), List.reverse_cons,
          List.map_append, List.append_assoc]
        rfl

theorem nodup_handles (h : c.slots.Valid) {is : List (Fin maxPplan)} (his : is.Nodup) :
    (handles c.slots is).Nodup := by
  rw [handles, List.Nodup, List.pairwise_filter, List.pairwise_map]
  refine his.imp fun {i j} hne hi _ heq => hne ?_
  exact h.distinct i j heq fun hzero => of_decide_eq_true hi hzero

theorem mem_handles_finRange : pplan ∈ handles c.slots (List.finRange maxPplan) ↔
    c.slots.Contains pplan := by
  simp [handles, PplanSlots.Contains, and_comm]

/-! ## Every run -/

/-- What is reached from a new connection by any messages, where the allocator never gives a new
    plan the address of a live one. -/
def Reached : PlanConn → Prop :=
  ReachableUnder (· = fresh) (fun c m c' => c' = c.handleSqlMessage m) fun c m =>
    ∀ pplan outcome, m = .prepare pplan outcome → livePlan c.history pplan = false

theorem Reached.sound (h : Reached c) : c.Sound :=
  h.invariant (fun _ hc => hc ▸ sound_fresh) fun _ _ _ hc hok hstep => hstep ▸ hc.handleSqlMessage hok

/-- **Only live plans are used**: in every run a handle is executed or freed only while its plan is
    live, and every plan is freed at most once. A PREPARE that finds no slot leaves the table as it
    is and its plan does not become live, and the end of the connection frees the plans that are
    still live, each once. -/
theorem plans_used_while_live (h : Reached c) :
    (∀ later e earlier, c.history = later ++ e :: earlier →
      ∀ pplan, e.Uses pplan → livePlan earlier pplan = true) ∧
    (∀ pplan, c.history.count (.saved pplan) = c.history.count (.freed pplan)
      + c.history.count (.discarded pplan) + (livePlan c.history pplan).toNat) ∧
    ((∀ i, ¬ c.slots.Free i) → ∀ pplan, c.handleSqlMessage (.prepare pplan .plan) =
      { c with history := .discarded pplan :: .saved pplan :: c.history }) ∧
    ∃ freed : List (BitVec 64), c.plcDisconnect.history = freed.map .freed ++ c.history ∧
      freed.Nodup ∧ ∀ pplan, pplan ∈ freed ↔ livePlan c.history pplan = true := by
  have hsound := h.sound
  refine ⟨hsound.usesLive, hsound.balanced, fun hfull pplan => ?_,
    (handles c.slots (List.finRange maxPplan)).reverse,
    history_deinit hsound (List.nodup_finRange _), ?_, fun pplan => ?_⟩
  · rw [handleSqlMessage, handlePrepare, hsound.valid.insertPplan_full hfull]
  · exact List.nodup_reverse.2 (nodup_handles hsound.valid (List.nodup_finRange _))
  · rw [List.mem_reverse, mem_handles_finRange, hsound.contains]

/-- A plan is prepared and executed, and its handle sent back twice for UNPREPARE. -/
theorem plans_used_while_live_twice :
    ∃ c, Reached c ∧ c.history = [.freed 16, .executed 16, .answered 16 true, .saved 16] ∧
      ∀ pplan, c.history.count (.saved pplan) = c.history.count (.freed pplan)
        + c.history.count (.discarded pplan) + (livePlan c.history pplan).toNat := by
  have hprepared : Reached (fresh.handleSqlMessage (.prepare 16 .plan)) :=
    .step (.init rfl) (fun _ _ _ => rfl) rfl
  have hexecuted := ReachableUnder.step hprepared
    (fun _ _ h => nomatch (h : PlanMessage.pexecute 16 = _)) rfl
  have hfreed := ReachableUnder.step hexecuted
    (fun _ _ h => nomatch (h : PlanMessage.unprepare 16 = _)) rfl
  have hagain := ReachableUnder.step hfreed
    (fun _ _ h => nomatch (h : PlanMessage.unprepare 16 = _)) rfl
  exact ⟨_, hagain, by decide, (plans_used_while_live hagain).2.1⟩

/-! ## The slots under any calls

The functions of the table take any 64-bit value, and one can be in the table more than once. -/

inductive SlotCall where
  | insert (pplan : BitVec 64)
  | delete (pplan : BitVec 64)
  | free (pplan : BitVec 64)

def slotCall (c : PlanConn) : SlotCall → PlanConn
  | .insert pplan => { c with slots := (c.slots.insertPplan pplan).2 }
  | .delete pplan => { c with slots := (c.slots.deletePplan pplan).2 }
  | .free pplan => c.freePlcPlan pplan

/-- What `free_plc_plan` does to the table. -/
theorem slots_freePlcPlan (c : PlanConn) (pplan : BitVec 64) :
    (c.freePlcPlan pplan).slots = (c.slots.deletePplan pplan).2 := by
  rw [freePlcPlan]
  split
  next hdel => rw [hdel]
  next hdel => rw [hdel]

theorem freeListed_free (h : c.slots.FreeListed) : (c.freePlcPlan pplan).slots.FreeListed := by
  rw [slots_freePlcPlan]
  exact h.afterDelete pplan

theorem freeListed_slotCall (h : c.slots.FreeListed) (call : SlotCall) :
    (c.slotCall call).slots.FreeListed := by
  cases call with
  | insert pplan => exact h.afterInsert pplan
  | delete pplan => exact h.afterDelete pplan
  | free pplan => exact freeListed_free h

theorem freeListed_slotCalls (h : c.slots.FreeListed) (calls : List SlotCall) :
    (calls.foldl slotCall c).slots.FreeListed := by
  induction calls generalizing c with
  | nil => exact h
  | cons call calls ih => exact ih (freeListed_slotCall h call)

theorem freeListed_deinit (h : c.slots.FreeListed) (is : List (Fin maxPplan)) :
    (is.foldl (fun c i => c.freePlcPlan (c.slots.pplans i).pplan) c).slots.FreeListed := by
  induction is generalizing c with
  | nil => exact h
  | cons i is ih => exact ih (freeListed_free h)

/-- The search finds a slot in use whose handle is in none of the slots before it. -/
theorem searchPplan_first {done is : List (Fin maxPplan)} {i : Fin maxPplan}
    (hsplit : List.finRange maxPplan = done ++ i :: is) (hdone : ∀ j ∈ done, c.slots.Free j)
    (hi : ¬ c.slots.Free i) : c.slots.searchPplan (c.slots.pplans i).pplan = some i := by
  have hne : (c.slots.pplans i).pplan ≠ 0 := hi
  rw [PplanSlots.searchPplan, if_neg hne, List.find?_eq_some_iff_append]
  refine ⟨by simp, done, is, hsplit, fun j hj => ?_⟩
  have hzero : (c.slots.pplans j).pplan = 0 := hdone j hj
  rw [hzero, Bool.not_eq_eq_eq_not, Bool.not_true, beq_eq_false_iff_ne]
  exact hne.symm

/-- The loop of `deinit_pplan_slots`: behind it all slots are free. A handle that is in two slots is
    freed when the loop comes to the first, and again at the second. -/
theorem free_deinit (done : List (Fin maxPplan)) {is : List (Fin maxPplan)}
    (hsplit : List.finRange maxPplan = done ++ is) (hdone : ∀ j ∈ done, c.slots.Free j)
    (i : Fin maxPplan) :
    (is.foldl (fun c i => c.freePlcPlan (c.slots.pplans i).pplan) c).slots.Free i := by
  induction is generalizing c done with
  | nil =>
      rw [List.append_nil] at hsplit
      exact hdone i (hsplit ▸ List.mem_finRange i)
  | cons k is ih =>
      refine ih (done ++ [k]) (by rw [hsplit, List.append_assoc, List.singleton_append])
        fun j hj => ?_
      show (c.freePlcPlan (c.slots.pplans k).pplan).slots.Free j
      by_cases hk : c.slots.Free k
      · have hzero : (c.slots.pplans k).pplan = 0 := hk
        have hsame : c.freePlcPlan 0 = c := rfl
        rw [hzero, hsame]
        rcases List.mem_append.1 hj with hj | hj
        · exact hdone j hj
        · rwa [List.mem_singleton.1 hj]
      · rw [freePlcPlan_found (searchPplan_first hsplit hdone hk), PplanSlots.Free,
          PplanSlots.pplan_update]
        split
        · rfl
        next hne =>
          refine hdone j ((List.mem_append.1 hj).resolve_right fun hmem => ?_)
          exact hne (List.mem_singleton.1 hmem)

/-- **The list of free slots is exact** after any calls with any values: following it from the head
    visits the slots without a handle, each once, and ends. So a handle is refused only when all slots
    are in use, a handle is not deleted only when it is 0 or in no slot, and the end of the connection
    leaves all slots free. -/
theorem pplan_free_list (calls : List SlotCall) :
    let c := calls.foldl slotCall fresh
    (∃ cells, Threads (fun i => (c.slots.pplans i).next) c.slots.headFreePplanSlot cells ∧
      cells.Nodup ∧ ∀ i, i ∈ cells ↔ (c.slots.pplans i).pplan = 0) ∧
    (∀ pplan, pplan ≠ 0 →
      ((c.slots.insertPplan pplan).1 = none ↔ ∀ i, (c.slots.pplans i).pplan ≠ 0)) ∧
    (∀ pplan, (c.slots.deletePplan pplan).1 = none ↔
      pplan = 0 ∨ ∀ i, (c.slots.pplans i).pplan ≠ pplan) ∧
    (∀ i, (c.deinitPplanSlots.slots.pplans i).pplan = 0) ∧
    ∃ cells, Threads (fun i => (c.deinitPplanSlots.slots.pplans i).next)
      c.deinitPplanSlots.slots.headFreePplanSlot cells ∧ cells.Nodup ∧ ∀ i, i ∈ cells := by
  intro c
  have hlist : c.slots.FreeListed :=
    freeListed_slotCalls (c := fresh) PplanSlots.valid_initPplanSlots.freeList calls
  have hfree (i : Fin maxPplan) : c.deinitPplanSlots.slots.Free i :=
    free_deinit [] (List.nil_append _).symm (List.forall_mem_nil _) i
  have hlist' : c.deinitPplanSlots.slots.FreeListed := freeListed_deinit hlist _
  obtain ⟨cells, hholds⟩ := id hlist
  obtain ⟨cells', hholds'⟩ := hlist'
  refine ⟨⟨cells, hholds.threads, hholds.nodup, hholds.mem_iff⟩, fun pplan hne => ?_, fun pplan => ?_,
    hfree, cells', hholds'.threads, hholds'.nodup, fun i => (hholds'.mem_iff i).2 (hfree i)⟩
  · exact hlist.insertPplan_fails hne
  · exact PplanSlots.deletePplan_fails

/-- A handle is inserted twice and deleted once, and 0 is inserted. -/
theorem pplan_free_list_twice :
    let c := [SlotCall.insert 16, .insert 16, .delete 16, .insert 0].foldl slotCall fresh
    (c.slots.pplans 1).pplan = 16 ∧ (c.slots.insertPplan 16).1 = some 0 ∧
      ((c.slots.insertPplan 16).1 = none ↔ ∀ i, (c.slots.pplans i).pplan ≠ 0) ∧
      ∀ i, (c.deinitPplanSlots.slots.pplans i).pplan = 0 :=
  have h := pplan_free_list [.insert 16, .insert 16, .delete 16, .insert 0]
  ⟨by decide, by decide, h.2.1 16 (by decide), h.2.2.2.1⟩

end PlanConn

end PlContainer
