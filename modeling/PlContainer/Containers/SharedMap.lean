import PlContainer.Containers.Info
import PlContainer.Containers.Slots
import PlContainer.Library.History
import Mathlib.Logic.Function.Basic

set_option autoImplicit false

/-! # The sessions and the shared map

All sessions share a map from the ids of containers to the functions that run in them. A session enters
a container when it has started it, and changes the entry at the beginning and at the end of every
later call. The cleanup process of the container, which the session has forked, removes the entry when
the container is gone, or when it gives up. The two do not wait for each other.

The operations on the map hold its lock, so a run of the system is an interleaving of whole operations.
The map exists: `plcontainer.enable_function_collection` is on. Ids of containers can be equal: those
of the process backend all are. -/

namespace PlContainer

open History

/-! ## The map -/

namespace UdfMap

/-- `HASH_ENTER`, with the new name -/
def enter (map : UdfMap) (key name : CString) : UdfMap :=
  (key, name) :: List.filter (fun entry => entry.1 ≠ key) map

/-- `HASH_REMOVE` -/
def remove (map : UdfMap) (key : CString) : UdfMap := List.filter (fun entry => entry.1 ≠ key) map

end UdfMap

/-- `add_containerid_entry` -/
def addContaineridEntry (map : UdfMap) (dockerid udf : CString) : UdfMap :=
  map.enter (udfKey dockerid) (udfName udf)

/-- `replace_containerid_entry`. Without an id it reads through a null pointer, and without an entry it
    writes through one. -/
def replaceContaineridEntry (map : UdfMap) (dockerid : Option CString) (udf : CString) :
    Option UdfMap :=
  dockerid.bind fun dockerid =>
    (map.find (udfKey dockerid)).map fun _ => map.enter (udfKey dockerid) (udfName udf)

/-- `del_containerid_entry` -/
def delContaineridEntry (map : UdfMap) (dockerid : CString) : UdfMap := map.remove (udfKey dockerid)

/-! ## The system -/

/-- What happens in the system, as far as the map and the slots are concerned. -/
inductive MapEvent where
  /-- a session has inserted a container for a runtime into its slots -/
  | created (session : ℕ) (runtime identity : CString)
  /-- a session has called `delete_containers` -/
  | dropped (session : ℕ)
  /-- a call of `add_containerid_entry` -/
  | added (dockerid : Option CString) (udf : CString)
  /-- a call of `replace_containerid_entry` for a runtime of a session -/
  | updated (session : ℕ) (runtime : CString) (dockerid : Option CString) (udf : CString)
  /-- a cleanup process has ended with `del_containerid_entry` -/
  | removed (dockerid : CString)

/-- The map after an event; an update that fails ends the process and leaves the map as it is. -/
def UdfMap.after (map : UdfMap) : MapEvent → UdfMap
  | .created _ _ _ | .dropped _ => map
  | .added dockerid udf => dockerid.elim map fun dockerid => addContaineridEntry map dockerid udf
  | .updated _ _ dockerid udf => (replaceContaineridEntry map dockerid udf).getD map
  | .removed dockerid => delContaineridEntry map dockerid

/-- The map after the events of a run. -/
def mapAfter (events : List MapEvent) : UdfMap := events.foldl UdfMap.after []

/-- The name that an entry gets at the end of a call. -/
def waitingForQuery : CString := Json.utf8 "Waiting for Query".toList

/-- The calls of `replace_containerid_entry` and the others, in a step of a session. -/
def sessionEvents (i : ℕ) (s : ContainerSession) (step : SessionStep) : List MapEvent :=
  match step with
  | .created identity => s.calls.head?.toList.map fun call => .created i call.runtime identity
  | .found => s.calls.head?.toList.map fun call =>
      .updated i call.runtime (s.getContainerId call.runtime).2 call.proname
  | .added => s.calls.head?.toList.map fun call =>
      .added (s.getContainerId call.runtime).2 call.proname
  | .result => s.calls.head?.toList.map fun call =>
      .updated i call.runtime (s.getContainerId call.runtime).2 waitingForQuery
  | .raised interrupt => if interrupt || s.deleteBackendsWhenError then [.dropped i] else []
  | .exception interrupt => if interrupt then [.dropped i] else []
  | .full | .exited => [.dropped i]
  | .call _ _ | .missing | .launched | .connected | .returned => []

/-- The containers whose cleanup process is forked in a step of a session. -/
def forkedCleaners (s : ContainerSession) : SessionStep → List CString
  | .launched => (s.calls.head?.bind fun call => (s.getContainerId call.runtime).2).toList
  | _ => []

/-- The sessions, and for each cleanup process the id of its container. -/
structure MapSystem where
  sessions : ℕ → ContainerSession
  cleaners : List CString

/-- The runs of the system, by their events. -/
inductive MapSystem.Reaches : List MapEvent → MapSystem → Prop where
  | start : Reaches [] ⟨fun _ => .start, []⟩
  | session {events : List MapEvent} {w : MapSystem} {i : ℕ} {step : SessionStep}
      {s' : ContainerSession} (h : Reaches events w) (hstep : (w.sessions i).Step step s') :
      Reaches (events ++ sessionEvents i (w.sessions i) step)
        ⟨Function.update w.sessions i s', forkedCleaners (w.sessions i) step ++ w.cleaners⟩
  /-- the container of a cleanup process has died, or the process gives up -/
  | cleaned {events : List MapEvent} {w : MapSystem} {dockerid : CString} (h : Reaches events w)
      (hcleaner : dockerid ∈ w.cleaners) :
      Reaches (events ++ [.removed dockerid]) ⟨w.sessions, w.cleaners.erase dockerid⟩

/-- The update has an id and finds an entry under it. -/
def UpdateFinds (before : List MapEvent) : MapEvent → Prop
  | .updated _ _ dockerid udf => ∃ map, replaceContaineridEntry (mapAfter before) dockerid udf = some map
  | _ => True

/-! ## Histories -/

def MapEvent.creates (i : ℕ) (runtime : CString) : MapEvent → Bool
  | .created j runtime' _ => i = j ∧ runtime = runtime'
  | _ => false

def MapEvent.drops (i : ℕ) : MapEvent → Bool
  | .dropped j => i = j
  | _ => false

def MapEvent.adds (key : CString) : MapEvent → Bool
  | .added (some dockerid) _ => udfKey dockerid = key
  | _ => false

def MapEvent.removes (key : CString) : MapEvent → Bool
  | .removed dockerid => udfKey dockerid = key
  | _ => false

/-- Each time the session has dropped its containers it has created one for the runtime again, and each
    time a cleanup process has removed the entry of the id it was added again. -/
def UpdateKept (before : List MapEvent) : MapEvent → Prop
  | .updated i runtime dockerid _ => Renewed (MapEvent.creates i runtime) (MapEvent.drops i) before ∧
      ∀ id, dockerid = some id →
        Renewed (MapEvent.adds (udfKey id)) (MapEvent.removes (udfKey id)) before
  | _ => True

/-! ## The map by its history -/

namespace UdfMap

theorem find_remove (map : UdfMap) (key key' : CString) :
    (map.remove key).find key' = if key' = key then none else map.find key' := by
  rw [find, remove, List.find?_filter]
  split
  · next hkey =>
      rw [Option.map_eq_none_iff, List.find?_eq_none]
      intro entry _
      simp [hkey]
  · next hkey =>
      rw [find]
      congr 2
      funext entry
      by_cases hentry : entry.1 = key'
      · simp [hentry, hkey]
      · simp [hentry]

theorem find_enter (map : UdfMap) (key name key' : CString) :
    (map.enter key name).find key' = if key' = key then some name else map.find key' := by
  have hremove := map.find_remove key key'
  rw [find, remove] at hremove
  rw [find, enter, List.find?_cons]
  by_cases hkey : key' = key
  · simp [hkey]
  · rw [if_neg hkey] at hremove ⊢
    simp only [Ne.symm hkey, decide_false]
    exact hremove

/-- An entry is there after an event, if the event adds it, or if it was there and is not removed. -/
theorem isSome_find_after (map : UdfMap) (e : MapEvent) (key : CString) :
    ((map.after e).find key).isSome = (e.adds key || ((map.find key).isSome && !e.removes key)) := by
  cases e with
  | created i runtime identity => simp [after, MapEvent.adds, MapEvent.removes]
  | dropped i => simp [after, MapEvent.adds, MapEvent.removes]
  | added dockerid udf =>
      cases dockerid with
      | none => simp [after, MapEvent.adds, MapEvent.removes]
      | some dockerid =>
          rw [after, Option.elim_some, addContaineridEntry, find_enter]
          by_cases hkey : key = udfKey dockerid
          · simp [hkey, MapEvent.adds]
          · simp [hkey, Ne.symm hkey, MapEvent.adds, MapEvent.removes]
  | updated i runtime dockerid udf =>
      rw [after, replaceContaineridEntry]
      cases dockerid with
      | none => simp [MapEvent.adds, MapEvent.removes]
      | some dockerid =>
          cases hfind : map.find (udfKey dockerid) with
          | none => simp [hfind, MapEvent.adds, MapEvent.removes]
          | some name =>
              rw [Option.bind_some, hfind, Option.map_some, Option.getD_some, find_enter]
              by_cases hkey : key = udfKey dockerid
              · simp [hkey, hfind, MapEvent.adds, MapEvent.removes]
              · simp [hkey, MapEvent.adds, MapEvent.removes]
  | removed dockerid =>
      rw [after, delContaineridEntry, find_remove]
      by_cases hkey : key = udfKey dockerid
      · simp [hkey, MapEvent.adds, MapEvent.removes]
      · simp [hkey, Ne.symm hkey, MapEvent.adds, MapEvent.removes]

end UdfMap

theorem isSome_find_mapAfter (events : List MapEvent) (key : CString) :
    ((mapAfter events).find key).isSome = latched (MapEvent.adds key) (MapEvent.removes key) events := by
  induction events using List.reverseRecOn with
  | nil => rfl
  | append_singleton events e ih =>
      rw [mapAfter, List.foldl_append, List.foldl_cons, List.foldl_nil, ← mapAfter,
        UdfMap.isSome_find_after, ih, latched_concat]

theorem removes_of_adds (key : CString) (e : MapEvent) (h : e.adds key) : e.removes key = false := by
  cases e with
  | removed dockerid => cases h
  | _ => rfl

theorem drops_of_creates (i : ℕ) (runtime : CString) (e : MapEvent) (h : e.creates i runtime) :
    e.drops i = false := by
  cases e with
  | dropped j => cases h
  | _ => rfl

/-! ## The slots by their history -/

namespace ContainerSession

variable {s s' : ContainerSession} {action : SessionStep} {i : ℕ} {events : List MapEvent}
  {runtime : CString}

/-- The runtime has a slot. -/
def HasSlot (s : ContainerSession) (runtime : CString) : Prop :=
  ∃ slot ∈ s.table, slot.runtimeid = some runtime

theorem mem_table_ready {slot : ContainerSlot} (h : slot ∈ s.ready.table)
    (hid : slot.runtimeid = some runtime) : slot ∈ s.table := by
  obtain hready | hready := s.table_ready
  · rwa [hready] at h
  · rw [hready] at h
    rw [(List.mem_replicate.1 h).2] at hid
    cases hid

theorem mem_ready_of_mem {slot : ContainerSlot} (h : slot ∈ s.table) : slot ∈ s.ready.table := by
  rw [ready]
  split
  · exact h
  · next hinit =>
      rw [table, if_neg hinit] at h
      cases h

theorem hasSlot_ready : s.ready.HasSlot runtime ↔ s.HasSlot runtime := by
  constructor
  · rintro ⟨slot, hslot, hid⟩
    exact ⟨slot, mem_table_ready hslot hid, hid⟩
  · rintro ⟨slot, hslot, hid⟩
    exact ⟨slot, mem_ready_of_mem hslot, hid⟩

theorem not_hasSlot_of_table_nil (h : s.table = []) : ¬ s.HasSlot runtime := by
  rintro ⟨slot, hslot, -⟩
  rw [h] at hslot
  cases hslot

/-- The slot that a lookup finds. -/
theorem slotOf_ready {slot : ContainerSlot} (h : s.ready.slotOf runtime = some slot) :
    slot ∈ s.table ∧ slot.runtimeid = some runtime := by
  have hid : slot.runtimeid = some runtime := by simpa using List.find?_some h
  refine ⟨mem_table_ready ?_ hid, hid⟩
  rw [table_of_init s.ready_containersInit]
  exact List.mem_of_find?_eq_some h

theorem hasSlot_of_getContainerConn {conn : ContainerConn}
    (h : (s.getContainerConn runtime).2 = some conn) : s.HasSlot runtime := by
  obtain ⟨slot, hslot, -⟩ := Option.bind_eq_some_iff.1 h
  exact ⟨slot, slotOf_ready hslot⟩

theorem getContainerId_eq_some {identity : CString} (h : (s.getContainerId runtime).2 = some identity) :
    ∃ slot ∈ s.table, slot.runtimeid = some runtime ∧ slot.connection = some identity := by
  obtain ⟨slot, hslot, hidentity⟩ := Option.bind_eq_some_iff.1 h
  obtain ⟨hmem, hid⟩ := slotOf_ready hslot
  exact ⟨slot, hmem, hid, hidentity⟩

/-- A runtime with a slot has a container with an id. -/
theorem Inv.getContainerId_ne_none (h : s.Inv) (hslot : s.HasSlot runtime) :
    (s.getContainerId runtime).2 ≠ none := by
  obtain ⟨slot, hmem, hid⟩ := hslot
  intro hnone
  rw [getContainerId] at hnone
  cases hfind : s.ready.slotOf runtime with
  | none =>
      rw [slotOf, List.find?_eq_none, ← table_of_init s.ready_containersInit] at hfind
      exact hfind slot (mem_ready_of_mem hmem) (decide_eq_true hid)
  | some found =>
      obtain ⟨hfound, hfoundId⟩ := slotOf_ready hfind
      refine h.table.identity found hfound (by rw [hfoundId]; exact Option.some_ne_none _) ?_
      rwa [hfind, Option.bind_some] at hnone

/-- The slots with ids after a container was inserted into a free one. -/
theorem hasSlot_insert {j : ℕ} {slot : ContainerSlot} {new identity : CString}
    (hslot : s.table[j]? = some slot) (hfree : slot.runtimeid = none) :
    (s.insertContainerSlot new identity j).HasSlot runtime ↔ runtime = new ∨ s.HasSlot runtime := by
  rw [HasSlot, table_insertContainerSlot]
  constructor
  · rintro ⟨c, hc, hid⟩
    obtain ⟨k, a, ha, rfl⟩ := TableInv.of_mem_modify hc
    split at hid
    · exact .inl (Option.some.inj hid).symm
    · exact .inr ⟨a, List.mem_of_getElem? ha, hid⟩
  · rintro (rfl | ⟨c, hc, hid⟩)
    · refine ⟨⟨some runtime, some identity, slot.conn⟩, List.mem_of_getElem? (i := j) ?_, rfl⟩
      rw [List.getElem?_modify, hslot]
      simp
    · obtain ⟨k, hk⟩ := List.mem_iff_getElem?.1 hc
      have hjk : j ≠ k := by
        rintro rfl
        rw [hslot, Option.some.injEq] at hk
        rw [← hk, hfree] at hid
        cases hid
      refine ⟨c, List.mem_of_getElem? (i := k) ?_, hid⟩
      rw [List.getElem?_modify, hk]
      simp [hjk]

theorem hasSlot_setContainerConn (s : ContainerSession) (conn : ContainerConn) :
    (s.setContainerConn conn).HasSlot runtime ↔ s.HasSlot runtime := by
  rw [HasSlot, table_setContainerConn]
  constructor
  · rintro ⟨c, hc, hid⟩
    obtain ⟨k, a, ha, rfl⟩ := TableInv.of_mem_modify hc
    refine ⟨a, List.mem_of_getElem? ha, ?_⟩
    split at hid <;> exact hid
  · rintro ⟨c, hc, hid⟩
    obtain ⟨k, hk⟩ := List.mem_iff_getElem?.1 hc
    refine ⟨if conn.containerSlot = k then { c with conn := some conn } else c,
      List.mem_of_getElem? (i := k) ?_, ?_⟩
    · rw [List.getElem?_modify, hk]
      rfl
    · split <;> exact hid

/-- The slots of a session are those that it created and has not dropped since. -/
def SlotsByHistory (i : ℕ) (s : ContainerSession) (events : List MapEvent) : Prop :=
  ∀ runtime, s.HasSlot runtime ↔ latched (MapEvent.creates i runtime) (MapEvent.drops i) events

/-- The session is not concerned by an event. -/
def Unconcerned (i : ℕ) (e : MapEvent) : Prop :=
  (∀ runtime, e.creates i runtime = false) ∧ e.drops i = false

theorem latched_append_unconcerned {new : List MapEvent} (hnew : ∀ e ∈ new, Unconcerned i e)
    (runtime : CString) (events : List MapEvent) :
    latched (MapEvent.creates i runtime) (MapEvent.drops i) (events ++ new) =
      latched (MapEvent.creates i runtime) (MapEvent.drops i) events := by
  induction new generalizing events with
  | nil => rw [List.append_nil]
  | cons e new ih =>
      obtain ⟨he, hnew⟩ := List.forall_mem_cons.1 hnew
      rw [List.append_cons, ih hnew, latched_neutral (he.1 runtime) he.2]

theorem SlotsByHistory.keep (h : SlotsByHistory i s events)
    (hsame : ∀ runtime, s'.HasSlot runtime ↔ s.HasSlot runtime) {new : List MapEvent}
    (hnew : ∀ e ∈ new, Unconcerned i e) : SlotsByHistory i s' (events ++ new) := by
  intro runtime
  rw [hsame runtime, h runtime, latched_append_unconcerned hnew]

theorem SlotsByHistory.drop (htable : s'.table = []) : SlotsByHistory i s' (events ++ [.dropped i]) := by
  intro runtime
  refine iff_of_false (not_hasSlot_of_table_nil htable) ?_
  rw [latched_concat]
  simp [MapEvent.creates, MapEvent.drops]

theorem SlotsByHistory.create {new identity : CString} (h : SlotsByHistory i s events)
    (hsame : ∀ runtime, s'.HasSlot runtime ↔ runtime = new ∨ s.HasSlot runtime) :
    SlotsByHistory i s' (events ++ [.created i new identity]) := by
  intro runtime
  rw [hsame runtime, h runtime, latched_concat]
  simp [MapEvent.creates, MapEvent.drops]

theorem unconcerned_updated (i j : ℕ) (runtime : CString) (dockerid : Option CString) (udf : CString) :
    Unconcerned i (.updated j runtime dockerid udf) := ⟨fun _ => rfl, rfl⟩

theorem unconcerned_added (i : ℕ) (dockerid : Option CString) (udf : CString) :
    Unconcerned i (.added dockerid udf) := ⟨fun _ => rfl, rfl⟩

section Events

variable {call : PlcCall} {calls : List PlcCall} (hcalls : s.calls = call :: calls)

include hcalls

theorem sessionEvents_found : sessionEvents i s .found =
    [.updated i call.runtime (s.getContainerId call.runtime).2 call.proname] := by
  simp [sessionEvents, hcalls]

theorem sessionEvents_result : sessionEvents i s .result =
    [.updated i call.runtime (s.getContainerId call.runtime).2 waitingForQuery] := by
  simp [sessionEvents, hcalls]

theorem sessionEvents_added : sessionEvents i s .added =
    [.added (s.getContainerId call.runtime).2 call.proname] := by
  simp [sessionEvents, hcalls]

theorem sessionEvents_created (identity : CString) : sessionEvents i s (.created identity) =
    [.created i call.runtime identity] := by
  simp [sessionEvents, hcalls]

end Events

theorem SlotsByHistory.step (h : SlotsByHistory i s events) (hinv : s.Inv) (hstep : s.Step action s') :
    SlotsByHistory i s' (events ++ sessionEvents i s action) := by
  cases hstep with
  | call runtime proname hcan => exact h.keep (fun _ => .rfl) (List.forall_mem_nil _)
  | found hcalls hphase hconn =>
      refine h.keep (fun _ => hasSlot_ready) ?_
      rw [sessionEvents_found hcalls]
      exact List.forall_mem_singleton.2 (unconcerned_updated ..)
  | missing hcalls hphase hconn hslot => exact h.keep (fun _ => hasSlot_ready) (List.forall_mem_nil _)
  | full hcalls hphase hconn hslot => exact .drop (table_deleteContainers _)
  | created identity hcalls hphase =>
      have hholds := hinv.head hcalls
      rw [Holds, hphase] at hholds
      obtain ⟨-, -, ⟨slot, hslot, hfree⟩, -⟩ := hholds
      rw [sessionEvents_created hcalls]
      exact h.create fun _ => hasSlot_insert hslot hfree
  | launched hcalls hphase => exact h.keep (fun _ => .rfl) (List.forall_mem_nil _)
  | connected hcalls hphase =>
      exact h.keep (fun _ => hasSlot_setContainerConn s _) (List.forall_mem_nil _)
  | added hcalls hphase =>
      refine h.keep (fun _ => .rfl) ?_
      rw [sessionEvents_added hcalls]
      exact List.forall_mem_singleton.2 (unconcerned_added ..)
  | exception interrupt hcalls hphase =>
      cases interrupt with
      | true => exact .drop (table_deleteContainers _)
      | false => exact h.keep (fun _ => .rfl) (List.forall_mem_nil _)
  | result hcalls hphase =>
      refine h.keep (fun _ => hasSlot_ready) ?_
      rw [sessionEvents_result hcalls]
      exact List.forall_mem_singleton.2 (unconcerned_updated ..)
  | returned hcalls hphase => exact h.keep (fun _ => .rfl) (List.forall_mem_nil _)
  | raised interrupt hcalls =>
      by_cases hdelete : interrupt || s.deleteBackendsWhenError
      · rw [caught_delete hdelete, sessionEvents, if_pos hdelete]
        exact .drop (table_deleteContainers s)
      · rw [caught_keep hdelete, sessionEvents, if_neg hdelete]
        exact h.keep (fun _ => .rfl) (List.forall_mem_nil _)
  | exited => exact .drop (table_deleteContainers s)

/-- The container of a slot was entered into the map. -/
def SlotAdded (events : List MapEvent) (slot : ContainerSlot) : Prop :=
  ∀ identity, slot.connection = some identity → ∃ e ∈ events, e.adds (udfKey identity)

theorem SlotAdded.append {slot : ContainerSlot} (h : SlotAdded events slot) (new : List MapEvent) :
    SlotAdded (events ++ new) slot := by
  intro identity hidentity
  obtain ⟨e, he, hadds⟩ := h identity hidentity
  exact ⟨e, List.mem_append_left _ he, hadds⟩

/-- The innermost call has connected the slot and not entered it into the map yet. -/
def AboutToAdd (s : ContainerSession) (slot : ContainerSlot) : Prop :=
  ∃ call ∈ s.calls.head?, ∃ conn, call.phase = .connected conn ∧ slot.runtimeid = some call.runtime

/-- The slots with a connection were entered into the map, up to the one of the innermost call. -/
structure EntriesByHistory (s : ContainerSession) (events : List MapEvent) : Prop where
  entry : ∀ slot ∈ s.table, slot.conn ≠ none → SlotAdded events slot ∨ s.AboutToAdd slot

/-- All of them were, while the innermost call is in another phase. -/
theorem EntriesByHistory.all (h : EntriesByHistory s events)
    (hphase : ∀ call ∈ s.calls.head?, ∀ conn, call.phase ≠ .connected conn) :
    ∀ slot ∈ s.table, slot.conn ≠ none → SlotAdded events slot := by
  intro slot hslot hconn
  obtain hadded | ⟨call, hcall, conn, hconnected, -⟩ := h.entry slot hslot hconn
  · exact hadded
  · exact absurd hconnected (hphase call hcall conn)

theorem EntriesByHistory.all_of_phase {call : PlcCall} {calls : List PlcCall}
    (h : EntriesByHistory s events) (hcalls : s.calls = call :: calls)
    (hphase : ∀ conn, call.phase ≠ .connected conn) :
    ∀ slot ∈ s.table, slot.conn ≠ none → SlotAdded events slot := by
  refine h.all fun top htop => ?_
  rw [hcalls, List.head?_cons, Option.mem_some_iff] at htop
  rw [← htop]
  exact hphase

/-- No slot gets a connection. -/
theorem EntriesByHistory.keep {new : List MapEvent}
    (h : ∀ slot ∈ s.table, slot.conn ≠ none → SlotAdded events slot)
    (hsame : ∀ slot ∈ s'.table, slot.conn ≠ none → slot ∈ s.table) :
    EntriesByHistory s' (events ++ new) :=
  ⟨fun slot hslot hconn => .inl ((h slot (hsame slot hslot hconn) hconn).append new)⟩

theorem EntriesByHistory.of_table_nil (htable : s'.table = []) :
    EntriesByHistory s' events := by
  refine ⟨fun slot hslot => ?_⟩
  rw [htable] at hslot
  cases hslot

theorem mem_of_mem_ready {slot : ContainerSlot} (h : slot ∈ s.ready.table) (hconn : slot.conn ≠ none) :
    slot ∈ s.table := by
  obtain hready | hready := s.table_ready
  · rwa [hready] at h
  · rw [hready] at h
    rw [(List.mem_replicate.1 h).2] at hconn
    exact absurd rfl hconn

/-- The lookup of a runtime finds its only slot. -/
theorem Inv.getContainerId_eq (h : s.Inv) {slot : ContainerSlot} (hslot : slot ∈ s.table)
    (hid : slot.runtimeid = some runtime) : (s.getContainerId runtime).2 = slot.connection := by
  have hsome := h.getContainerId_ne_none ⟨slot, hslot, hid⟩
  obtain ⟨identity, hidentity⟩ := Option.ne_none_iff_exists'.1 hsome
  obtain ⟨found, hfound, hfoundId, hconnection⟩ := getContainerId_eq_some hidentity
  obtain ⟨j, hj⟩ := List.mem_iff_getElem?.1 hslot
  obtain ⟨k, hk⟩ := List.mem_iff_getElem?.1 hfound
  have hjk := h.table.distinct j k slot found runtime hj hk hid hfoundId
  rw [hjk, hk, Option.some.injEq] at hj
  rw [hidentity, ← hj, hconnection]

theorem EntriesByHistory.caught {call : PlcCall} {calls : List PlcCall} (h : EntriesByHistory s events)
    (hinv : s.Inv) (hcalls : s.calls = call :: calls) (interrupt : Bool) {new : List MapEvent} :
    EntriesByHistory { s.caught interrupt with calls := calls } (events ++ new) := by
  by_cases hdelete : interrupt || s.deleteBackendsWhenError
  · rw [caught_delete hdelete]
    exact .of_table_nil (table_deleteContainers s)
  · rw [caught_keep hdelete]
    have hphase : ∀ conn, call.phase ≠ .connected conn := by
      intro conn hphase
      have hholds := hinv.head hcalls
      rw [Holds, hphase] at hholds
      exact hdelete (by rw [hholds.1, Bool.or_true])
    exact .keep (h.all_of_phase hcalls hphase) (fun _ hslot _ => hslot)

theorem EntriesByHistory.step (h : EntriesByHistory s events) (hinv : s.Inv)
    (hstep : s.Step action s') : EntriesByHistory s' (events ++ sessionEvents i s action) := by
  cases hstep with
  | call runtime proname hcan =>
      have hall := h.all fun call hcall conn hphase => by
        have hout := hcan.2 call hcall
        rw [hphase] at hout
        cases hout
      exact .keep hall (fun _ hslot _ => hslot)
  | found hcalls hphase hconn =>
      exact .keep (h.all_of_phase hcalls (by simp [hphase])) (fun _ => mem_of_mem_ready)
  | missing hcalls hphase hconn hslot =>
      exact .keep (h.all_of_phase hcalls (by simp [hphase])) (fun _ => mem_of_mem_ready)
  | full hcalls hphase hconn hslot => exact .of_table_nil (table_deleteContainers _)
  | @created call calls j identity hcalls hphase =>
      have hholds := hinv.head hcalls
      rw [Holds, hphase] at hholds
      obtain ⟨-, -, ⟨free, hfree, hfreeId⟩, -⟩ := hholds
      refine .keep (h.all_of_phase hcalls (by simp [hphase])) fun slot hslot hconn => ?_
      -- The slot that is changed was free, and has no connection.
      have htable := s.table_insertContainerSlot call.runtime identity j
      obtain ⟨k, a, ha, rfl⟩ := TableInv.of_mem_modify (htable ▸ hslot)
      by_cases hjk : j = k
      · rw [if_pos hjk] at hconn
        rw [← hjk, hfree, Option.some.injEq] at ha
        exact absurd (ha ▸ hinv.table.free free (List.mem_of_getElem? hfree) hfreeId) hconn
      · rw [if_neg hjk]
        exact List.mem_of_getElem? ha
  | launched hcalls hphase =>
      exact .keep (h.all_of_phase hcalls (by simp [hphase])) (fun _ hslot _ => hslot)
  | @connected call calls j hcalls hphase =>
      have hholds := hinv.head hcalls
      rw [Holds, hphase] at hholds
      obtain ⟨-, -, own, hown, hownId, -⟩ := hholds
      refine ⟨fun slot hslot hconn => ?_⟩
      have htable := s.table_setContainerConn ⟨s.made, j⟩
      obtain ⟨k, a, ha, rfl⟩ := TableInv.of_mem_modify (htable ▸ hslot)
      by_cases hjk : j = k
      · rw [if_pos hjk]
        rw [← hjk, hown, Option.some.injEq] at ha
        exact .inr ⟨_, rfl, _, rfl, ha ▸ hownId⟩
      · rw [if_neg hjk] at hconn ⊢
        exact .inl ((h.all_of_phase hcalls (by simp [hphase]) a (List.mem_of_getElem? ha) hconn).append _)
  | @added call calls conn hcalls hphase =>
      refine ⟨fun slot hslot hconn => ?_⟩
      rw [sessionEvents_added hcalls]
      obtain hadded | ⟨top, htop, -, -, hid⟩ := h.entry slot hslot hconn
      · exact .inl (hadded.append _)
      · rw [hcalls, List.head?_cons, Option.mem_some_iff] at htop
        rw [← htop] at hid
        refine .inl fun identity hidentity => ?_
        rw [hinv.getContainerId_eq hslot hid, hidentity]
        exact ⟨_, List.mem_append_right _ (List.mem_singleton_self _), by simp [MapEvent.adds]⟩
  | exception interrupt hcalls hphase =>
      have hall := h.all_of_phase hcalls (by simp [hphase])
      cases interrupt with
      | true => exact .of_table_nil (table_deleteContainers _)
      | false => exact .keep hall (fun _ hslot _ => hslot)
  | result hcalls hphase =>
      exact .keep (h.all_of_phase hcalls (by simp [hphase])) (fun _ => mem_of_mem_ready)
  | returned hcalls hphase =>
      exact .keep (h.all_of_phase hcalls (by simp [hphase])) (fun _ hslot _ => hslot)
  | raised interrupt hcalls => exact h.caught hinv hcalls interrupt
  | exited => exact .of_table_nil (table_deleteContainers _)

theorem SlotsByHistory.iff (h : SlotsByHistory i s events) (runtime : CString) :
    s.HasSlot runtime ↔ (∃ e ∈ events, e.creates i runtime) ∧
      Renewed (MapEvent.creates i runtime) (MapEvent.drops i) events :=
  (h runtime).trans (latched_iff (drops_of_creates i runtime) events)

/-- A container was created for the runtime of every call that exchanges messages with one. -/
structure CallsByHistory (i : ℕ) (s : ContainerSession) (events : List MapEvent) : Prop where
  created : ∀ call ∈ s.calls, ∀ conn, call.phase = .running conn → ∃ e ∈ events, e.creates i call.runtime

theorem CallsByHistory.keep {new : List MapEvent} (h : CallsByHistory i s events)
    (hcalls : ∀ call ∈ s'.calls, (∀ conn, call.phase ≠ .running conn) ∨ call ∈ s.calls ∨
      ∃ e ∈ events, e.creates i call.runtime) : CallsByHistory i s' (events ++ new) := by
  refine ⟨fun call hcall conn hphase => ?_⟩
  have hcreated : ∃ e ∈ events, e.creates i call.runtime := by
    obtain hother | hold | hcreated := hcalls call hcall
    · exact absurd hphase (hother conn)
    · exact h.created call hold conn hphase
    · exact hcreated
  obtain ⟨e, he, hcreates⟩ := hcreated
  exact ⟨e, List.mem_append_left _ he, hcreates⟩

/-- The innermost call is in another phase, and no call has been added. -/
theorem CallsByHistory.enter {new : List MapEvent} {call : PlcCall} {calls : List PlcCall}
    {phase : CallPhase} (h : CallsByHistory i s events) (hcalls : s.calls = call :: calls)
    (hs' : s'.calls = { call with phase := phase } :: calls)
    (hphase : (∀ conn, phase ≠ .running conn) ∨ ∃ e ∈ events, e.creates i call.runtime) :
    CallsByHistory i s' (events ++ new) := by
  refine h.keep ?_
  rw [hs', hcalls]
  refine List.forall_mem_cons.2 ⟨?_, fun c hc => .inr (.inl (List.mem_cons_of_mem _ hc))⟩
  obtain hphase | hcreated := hphase
  · exact .inl hphase
  · exact .inr (.inr hcreated)

/-- The innermost call has ended. -/
theorem CallsByHistory.pop {new : List MapEvent} {call : PlcCall} {calls : List PlcCall}
    (h : CallsByHistory i s events) (hcalls : s.calls = call :: calls) (hs' : s'.calls = calls) :
    CallsByHistory i s' (events ++ new) := by
  refine h.keep ?_
  rw [hs', hcalls]
  exact fun c hc => .inr (.inl (List.mem_cons_of_mem _ hc))

theorem CallsByHistory.step (h : CallsByHistory i s events) (hslots : SlotsByHistory i s events)
    (hinv : s.Inv) (hstep : s.Step action s') :
    CallsByHistory i s' (events ++ sessionEvents i s action) := by
  cases hstep with
  | call runtime proname hcan =>
      refine h.keep (List.forall_mem_cons.2 ⟨.inl ?_, fun c hc => .inr (.inl hc)⟩)
      simp
  | found hcalls hphase hconn =>
      have hslot := hasSlot_of_getContainerConn hconn
      exact h.enter hcalls rfl (.inr ((hslots.iff _).1 hslot).1)
  | missing hcalls hphase hconn hslot => exact h.enter hcalls rfl (.inl (by simp))
  | full hcalls hphase hconn hslot => exact h.keep (List.forall_mem_nil _)
  | created identity hcalls hphase => exact h.enter hcalls rfl (.inl (by simp))
  | launched hcalls hphase => exact h.enter hcalls rfl (.inl (by simp))
  | connected hcalls hphase => exact h.enter hcalls rfl (.inl (by simp))
  | added hcalls hphase =>
      have hholds := hinv.head hcalls
      rw [Holds, hphase] at hholds
      exact h.enter hcalls rfl (.inr ((hslots.iff _).1 hholds.2).1)
  | exception interrupt hcalls hphase => exact h.pop hcalls rfl
  | result hcalls hphase => exact h.enter hcalls rfl (.inl (by simp))
  | returned hcalls hphase => exact h.pop hcalls rfl
  | raised interrupt hcalls => exact h.pop hcalls rfl
  | exited => exact h.keep (List.forall_mem_nil _)

/-! ## One update -/

theorem exists_replaceContaineridEntry_iff (events : List MapEvent) (identity udf : CString) :
    (∃ map, replaceContaineridEntry (mapAfter events) (some identity) udf = some map) ↔
      (∃ e ∈ events, e.adds (udfKey identity)) ∧
        Renewed (MapEvent.adds (udfKey identity)) (MapEvent.removes (udfKey identity)) events := by
  rw [← latched_iff (removes_of_adds (udfKey identity)), ← isSome_find_mapAfter,
    replaceContaineridEntry, Option.bind_some]
  cases (mapAfter events).find (udfKey identity) with
  | none => simp
  | some name => simp

/-- An update by a session none of whose calls is connecting, for a runtime that had a container. -/
theorem update_iff {udf : CString} (hinv : s.Inv) (hslots : SlotsByHistory i s events)
    (hsettled : TableSettled s.table)
    (hadded : ∀ slot ∈ s.table, slot.conn ≠ none → SlotAdded events slot)
    (hcreated : ∃ e ∈ events, e.creates i runtime) :
    UpdateFinds events (.updated i runtime (s.getContainerId runtime).2 udf) ↔
      UpdateKept events (.updated i runtime (s.getContainerId runtime).2 udf) := by
  rw [UpdateFinds, UpdateKept]
  cases hid : (s.getContainerId runtime).2 with
  | none =>
      refine iff_of_false (by rintro ⟨map, ⟨⟩⟩) fun hkept => ?_
      exact hinv.getContainerId_ne_none ((hslots.iff runtime).2 ⟨hcreated, hkept.1⟩) hid
  | some identity =>
      obtain ⟨slot, hslot, hslotId, hidentity⟩ := getContainerId_eq_some hid
      have hrenewed := ((hslots.iff runtime).1 ⟨slot, hslot, hslotId⟩).2
      have hconn := hsettled slot hslot (by rw [hslotId]; exact Option.some_ne_none _)
      have hentry := hadded slot hslot hconn identity hidentity
      rw [exists_replaceContaineridEntry_iff]
      constructor
      · rintro ⟨-, hkept⟩
        refine ⟨hrenewed, fun id hid' => ?_⟩
        rwa [← Option.some.inj hid']
      · rintro ⟨-, hkept⟩
        exact ⟨hentry, hkept identity rfl⟩

/-- What the history says about a session. -/
structure ByHistory (i : ℕ) (s : ContainerSession) (events : List MapEvent) : Prop where
  inv : s.Inv
  slots : SlotsByHistory i s events
  entries : EntriesByHistory s events
  calls : CallsByHistory i s events

theorem ByHistory.step (h : ByHistory i s events) (hstep : s.Step action s') :
    ByHistory i s' (events ++ sessionEvents i s action) :=
  ⟨h.inv.step hstep, h.slots.step h.inv hstep, h.entries.step h.inv hstep,
    h.calls.step h.slots h.inv hstep⟩

/-- Events of others. -/
theorem ByHistory.append (h : ByHistory i s events) {new : List MapEvent}
    (hnew : ∀ e ∈ new, Unconcerned i e) : ByHistory i s (events ++ new) := by
  refine ⟨h.inv, h.slots.keep (fun _ => .rfl) hnew, ⟨fun slot hslot hconn => ?_⟩,
    h.calls.keep fun call hcall => .inr (.inl hcall)⟩
  obtain hadded | habout := h.entries.entry slot hslot hconn
  · exact .inl (hadded.append new)
  · exact .inr habout

theorem unconcerned_sessionEvents {j : ℕ} (hij : i ≠ j) (s : ContainerSession) (action : SessionStep) :
    ∀ e ∈ sessionEvents j s action, Unconcerned i e := by
  have hcreated : ∀ runtime identity, Unconcerned i (.created j runtime identity) :=
    fun runtime identity => ⟨fun runtime' => by simp [MapEvent.creates, hij], rfl⟩
  have hdropped : Unconcerned i (.dropped j) := ⟨fun runtime => rfl, by simp [MapEvent.drops, hij]⟩
  intro e he
  cases action with
  | created identity =>
      obtain ⟨call, -, rfl⟩ := List.mem_map.1 he
      exact hcreated ..
  | found =>
      obtain ⟨call, -, rfl⟩ := List.mem_map.1 he
      exact unconcerned_updated ..
  | result =>
      obtain ⟨call, -, rfl⟩ := List.mem_map.1 he
      exact unconcerned_updated ..
  | added =>
      obtain ⟨call, -, rfl⟩ := List.mem_map.1 he
      exact unconcerned_added ..
  | raised interrupt =>
      rw [sessionEvents] at he
      split at he
      · rw [List.mem_singleton.1 he]
        exact hdropped
      · cases he
  | exception interrupt =>
      rw [sessionEvents] at he
      split at he
      · rw [List.mem_singleton.1 he]
        exact hdropped
      · cases he
  | full =>
      rw [List.mem_singleton.1 he]
      exact hdropped
  | exited =>
      rw [List.mem_singleton.1 he]
      exact hdropped
  | _ => cases he

/-- The update of a call that looks up its runtime or ends. -/
theorem ByHistory.update_iff {call : PlcCall} {calls : List PlcCall} {udf : CString}
    (h : ByHistory i s events) (hcalls : s.calls = call :: calls) (hphase : call.phase.callsOut)
    (hcreated : ∃ e ∈ events, e.creates i call.runtime) :
    UpdateFinds events (.updated i call.runtime (s.getContainerId call.runtime).2 udf) ↔
      UpdateKept events (.updated i call.runtime (s.getContainerId call.runtime).2 udf) := by
  have hconnected : ∀ conn, call.phase ≠ .connected conn := by
    intro conn hconn
    rw [hconn] at hphase
    cases hphase
  exact ContainerSession.update_iff h.inv h.slots
    (h.inv.settled_of_phase hcalls (not_connecting_of_callsOut hphase))
    (h.entries.all_of_phase hcalls hconnected) hcreated

theorem ByHistory.updates_iff (h : ByHistory i s events) (hstep : s.Step action s')
    (hiff : EachTime UpdateFinds events ↔ EachTime UpdateKept events) :
    EachTime UpdateFinds (events ++ sessionEvents i s action) ↔
      EachTime UpdateKept (events ++ sessionEvents i s action) := by
  have hnil : EachTime UpdateFinds (events ++ []) ↔ EachTime UpdateKept (events ++ []) := by
    rwa [List.append_nil]
  cases hstep with
  | found hcalls hphase hconn =>
      have hslot := hasSlot_of_getContainerConn hconn
      rw [sessionEvents_found hcalls]
      exact eachTime_congr_concat hiff
        (h.update_iff hcalls (by rw [hphase]; rfl) ((h.slots.iff _).1 hslot).1)
  | @result call calls conn hcalls hphase =>
      rw [sessionEvents_result hcalls]
      refine eachTime_congr_concat hiff (h.update_iff hcalls (by rw [hphase]; rfl) ?_)
      exact h.calls.created call (by rw [hcalls]; exact List.mem_cons_self ..) conn hphase
  | created identity hcalls hphase =>
      rw [sessionEvents_created hcalls]
      exact eachTime_congr_concat hiff .rfl
  | added hcalls hphase =>
      rw [sessionEvents_added hcalls]
      exact eachTime_congr_concat hiff .rfl
  | full hcalls hphase hconn hslot => exact eachTime_congr_concat hiff .rfl
  | exited => exact eachTime_congr_concat hiff .rfl
  | exception interrupt hcalls hphase =>
      rw [sessionEvents]
      split
      · exact eachTime_congr_concat hiff .rfl
      · exact hnil
  | raised interrupt hcalls =>
      rw [sessionEvents]
      split
      · exact eachTime_congr_concat hiff .rfl
      · exact hnil
  | call runtime proname hcan => exact hnil
  | missing hcalls hphase hconn hslot => exact hnil
  | launched hcalls hphase => exact hnil
  | connected hcalls hphase => exact hnil
  | returned hcalls hphase => exact hnil

end ContainerSession

/-! ## Whole runs -/

namespace MapSystem

open ContainerSession

variable {w : MapSystem} {events : List MapEvent}

theorem byHistory_start (i : ℕ) : ByHistory i .start [] where
  inv := .of_table_nil rfl (List.forall_mem_nil _)
  slots := fun runtime => iff_of_false (not_hasSlot_of_table_nil rfl) (by simp [latched])
  entries := .of_table_nil rfl
  calls := ⟨List.forall_mem_nil _⟩

theorem Reaches.byHistory (h : Reaches events w) (i : ℕ) : ByHistory i (w.sessions i) events := by
  induction h with
  | start => exact byHistory_start i
  | @session events w j action s' _ hstep ih =>
      dsimp only
      by_cases hij : i = j
      · subst hij
        rw [Function.update_self]
        exact ih.step hstep
      · rw [Function.update_of_ne hij]
        exact ih.append (unconcerned_sessionEvents hij _ _)
  | cleaned _ hcleaner ih =>
      exact ih.append (List.forall_mem_singleton.2 ⟨fun _ => rfl, rfl⟩)

/-- In a run of the system, all updates of the map have an id and find an entry exactly if before each
    of them the session has created a container for the runtime again each time it had dropped its
    containers, and the entry was added again each time a cleanup process had removed it. -/
theorem map_updates_iff (h : Reaches events w) :
    EachTime UpdateFinds events ↔ EachTime UpdateKept events := by
  induction h with
  | start => exact iff_of_true (eachTime_nil _) (eachTime_nil _)
  | session h hstep ih => exact (h.byHistory _).updates_iff hstep ih
  | cleaned h hcleaner ih => exact eachTime_congr_concat ih .rfl

/-- The events of one complete call in a new container. -/
def oneCall : List MapEvent :=
  [.created 0 [114] [99], .added (some [99]) [102], .updated 0 [114] (some [99]) waitingForQuery]

theorem reaches_oneCall : ∃ w, Reaches oneCall w ∧ w.cleaners = [[99]] ∧
    w.sessions 0 = afterOneCall := by
  have hcall := Reaches.start.session (i := 0) (.call [114] [102] ⟨rfl, by simp [start]⟩)
  have hmissing := hcall.session (i := 0) (.missing rfl rfl rfl rfl)
  have hcreated := hmissing.session (i := 0) (.created [99] rfl rfl)
  have hlaunched := hcreated.session (i := 0) (.launched rfl rfl)
  have hconnected := hlaunched.session (i := 0) (.connected rfl rfl)
  have hadded := hconnected.session (i := 0) (.added rfl rfl)
  have hresult := hadded.session (i := 0) (.result rfl rfl)
  exact ⟨_, hresult.session (i := 0) (.returned rfl rfl), rfl, rfl⟩

theorem map_updates_one_call : (∃ w, Reaches oneCall w) ∧ EachTime UpdateFinds oneCall := by
  obtain ⟨w, hreaches, -, -⟩ := reaches_oneCall
  refine ⟨⟨w, hreaches⟩, (map_updates_iff hreaches).2 ?_⟩
  -- Nothing is dropped and nothing removed before the update.
  have hupdate : UpdateKept [.created 0 [114] [99], .added (some [99]) [102]]
      (.updated 0 [114] (some [99]) waitingForQuery) := by
    constructor
    · exact renewed_of_not_clears (by simp [MapEvent.drops])
    · exact fun id _ => renewed_of_not_clears (by simp [MapEvent.removes])
  have hfirst : EachTime UpdateKept ([] ++ [.created 0 [114] [99]]) :=
    eachTime_concat.2 ⟨eachTime_nil _, trivial⟩
  have hsecond : EachTime UpdateKept ([.created 0 [114] [99]] ++ [.added (some [99]) [102]]) :=
    eachTime_concat.2 ⟨hfirst, trivial⟩
  exact eachTime_concat.2 ⟨hsecond, hupdate⟩

/-- The container dies after a call, and the runtime is used again. -/
def containerDied : List MapEvent :=
  oneCall ++ [.removed [99], .updated 0 [114] (some [99]) [102]]

theorem reaches_containerDied : ∃ w, Reaches containerDied w := by
  obtain ⟨w, hreaches, hcleaners, hsession⟩ := reaches_oneCall
  have hcleaner : [99] ∈ w.cleaners := by
    rw [hcleaners]
    exact List.mem_singleton_self _
  have hstep : (w.sessions 0).Step (.call [114] [102])
      { afterOneCall with calls := [⟨[114], [102], .entered⟩] } := by
    rw [hsession]
    exact .call [114] [102] ⟨rfl, by simp [afterOneCall]⟩
  have hcall := (hreaches.cleaned hcleaner).session (i := 0) hstep
  exact ⟨_, hcall.session (i := 0) (.found rfl rfl rfl)⟩

theorem map_update_finds_nothing :
    ∃ w, Reaches containerDied w ∧ ¬ EachTime UpdateFinds containerDied := by
  obtain ⟨w, hdied⟩ := reaches_containerDied
  refine ⟨w, hdied, fun hall => ?_⟩
  obtain ⟨map, hmap⟩ := hall (oneCall ++ [.removed [99]]) _ [] rfl
  cases hmap

end MapSystem

end PlContainer
