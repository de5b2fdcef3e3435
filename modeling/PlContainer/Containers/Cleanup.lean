import PlContainer.Common.Messages
import PlContainer.Library.Json
import Mathlib.Algebra.Order.Ring.Int

set_option autoImplicit false

/-! # The cleanup process

`start_backend` forks a process for each container that waits for the end of the container and deletes
it. Its loop has one counter for failures: a failed kill and a failed inspect or delete each add one, an
executor that is alive and a container that is alive each set it back. The parent of this process is the
executor or process 1, so that `backend_log` only writes to the log, also at level `FATAL`. -/

namespace PlContainer

/-! ## The Docker API -/

/-- The status of a response: -1 if there is none, and an HTTP status otherwise. -/
abbrev ApiStatus := { status : ℤ // status = -1 ∨ 100 ≤ status }

def unexistText : CString := Json.utf8 "unexist".toList
def exitedText : CString := Json.utf8 "exited".toList
def falseText : CString := Json.utf8 "false".toList

/-- What one pass of the loop meets: whether the executor is alive, the responses to its requests,
    and the state in the body of the response to the inspect request; `none` is a body without one. -/
structure CleanupPass where
  qeIsAlive : Bool
  kill : ApiStatus
  inspect : ApiStatus
  state : Option CString
  delete : ApiStatus

/-- `plc_docker_kill_container` -/
def plcDockerKillContainer (status : ApiStatus) : ℤ := status.1

/-- `plc_docker_inspect_container` with `PLC_INSPECT_STATUS`: the result, and the element if it is set. -/
def plcDockerInspectContainer (status : ApiStatus) (state : Option CString) : ℤ × Option CString :=
  if status.1 = 404 then (0, some unexistText)
  else if status.1 ≠ 200 then (-1, none)
  else state.elim (-1, none) fun element => (0, some element)

/-- `plc_docker_delete_container` -/
def plcDockerDeleteContainer (status : ApiStatus) : ℤ :=
  if status.1 = 204 ∨ status.1 = 404 then 0
  else if status.1 ≥ 0 then -1
  else status.1

/-! ## The loop -/

/-- What follows from the element that the inspect request returned. -/
def deleteIfExited (element : CString) (delete : ApiStatus) : ℤ :=
  if element = exitedText ∨ element = falseText then plcDockerDeleteContainer delete
  else if element = unexistText then 0
  else 1

/-- `delete_backend_if_exited`. Whether the container was killed for its memory is only logged. -/
def deleteBackendIfExited (it : CleanupPass) : ℤ :=
  let inspected := plcDockerInspectContainer it.inspect it.state
  if inspected.1 < 0 then inspected.1
  else inspected.2.elim 1 fun element => deleteIfExited element it.delete

/-- `CLEANUP_CONTAINER_CONNECT_RETRY_TIMES` -/
def cleanupContainerConnectRetryTimes : ℕ := 60

/-- The end of a pass, with the result of `delete_backend_if_exited`; `none` leaves the loop. -/
def countFailure (waitTimes : ℕ) (res : ℤ) : Option ℕ :=
  if res = 0 then none
  else
    let waitTimes := if res > 0 then 0 else waitTimes + 1
    if waitTimes ≥ cleanupContainerConnectRetryTimes then none else some waitTimes

/-- One pass with `wait_times`: its new value, or `none` if the loop is left. -/
def cleanupPass (waitTimes : ℕ) (it : CleanupPass) : Option ℕ :=
  if it.qeIsAlive then countFailure 0 (deleteBackendIfExited it)
  else
    let res := plcDockerKillContainer it.kill
    if res = 0 then none
    else
      let waitTimes := if res < 0 then waitTimes + 1 else waitTimes
      countFailure waitTimes (deleteBackendIfExited it)

/-- `wait_times` after so many passes, if the loop has not been left. -/
def waitTimesAfter (its : ℕ → CleanupPass) : ℕ → Option ℕ
  | 0 => some 0
  | n + 1 => (waitTimesAfter its n).bind fun waitTimes => cleanupPass waitTimes (its n)

/-- The loop is left in the pass `n`. -/
def EndsIn (its : ℕ → CleanupPass) (n : ℕ) : Prop :=
  ∃ waitTimes, waitTimesAfter its n = some waitTimes ∧ cleanupPass waitTimes (its n) = none

/-! ## When it ends -/

namespace CleanupPass

/-- The container was reported not to exist. -/
def ReportedGone (it : CleanupPass) : Prop :=
  it.inspect.1 = 404 ∨ it.inspect.1 = 200 ∧ it.state = some unexistText

/-- The container was reported to have exited. -/
def ReportedExited (it : CleanupPass) : Prop :=
  it.inspect.1 = 200 ∧ (it.state = some exitedText ∨ it.state = some falseText)

/-- The container was deleted, or the request to delete it says that it does not exist. -/
def DeletionAcknowledged (it : CleanupPass) : Prop :=
  it.ReportedExited ∧ (it.delete.1 = 204 ∨ it.delete.1 = 404)

/-- The inspect request failed, or a delete request that was made. -/
def RequestFailed (it : CleanupPass) : Prop :=
  (it.inspect.1 ≠ 404 ∧ (it.inspect.1 ≠ 200 ∨ it.state = none)) ∨
    it.ReportedExited ∧ it.delete.1 ≠ 204 ∧ it.delete.1 ≠ 404

end CleanupPass

theorem plcDockerDeleteContainer_cases (status : ApiStatus) :
    plcDockerDeleteContainer status = 0 ∧ (status.1 = 204 ∨ status.1 = 404) ∨
      plcDockerDeleteContainer status < 0 ∧ status.1 ≠ 204 ∧ status.1 ≠ 404 := by
  rw [plcDockerDeleteContainer]
  split
  next h => exact .inl ⟨rfl, h⟩
  next h =>
    rw [not_or] at h
    split
    · exact .inr ⟨by omega, h⟩
    · exact .inr ⟨by omega, h⟩

/-- An element that ends the loop, one with a delete request that failed, or any other. -/
theorem deleteIfExited_cases (element : CString) (delete : ApiStatus) :
    deleteIfExited element delete = 0 ∧ (element = unexistText ∨
        (element = exitedText ∨ element = falseText) ∧ (delete.1 = 204 ∨ delete.1 = 404)) ∨
      deleteIfExited element delete < 0 ∧ (element = exitedText ∨ element = falseText) ∧
        delete.1 ≠ 204 ∧ delete.1 ≠ 404 ∨
      0 < deleteIfExited element delete := by
  rw [deleteIfExited]
  split
  next hexited =>
    rcases plcDockerDeleteContainer_cases delete with ⟨hres, hok⟩ | ⟨hres, hfailed⟩
    · exact .inl ⟨hres, .inr ⟨hexited, hok⟩⟩
    · exact .inr (.inl ⟨hres, hexited, hfailed⟩)
  next =>
    split
    next hgone => exact .inl ⟨rfl, .inl hgone⟩
    next => exact .inr (.inr Int.one_pos)

/-- The result is 0 only if the container is gone, and negative only if a request failed. -/
theorem deleteBackendIfExited_cases (it : CleanupPass) :
    deleteBackendIfExited it = 0 ∧ (it.ReportedGone ∨ it.DeletionAcknowledged) ∨
      deleteBackendIfExited it < 0 ∧ it.RequestFailed ∨ 0 < deleteBackendIfExited it := by
  by_cases hnotFound : it.inspect.1 = 404
  · have hres : deleteBackendIfExited it = 0 := by
      rw [deleteBackendIfExited, plcDockerInspectContainer, if_pos hnotFound]
      rfl
    exact .inl ⟨hres, .inl (.inl hnotFound)⟩
  · by_cases hfound : it.inspect.1 = 200
    · cases hstate : it.state with
      | none =>
          have hres : deleteBackendIfExited it = -1 := by
            rw [deleteBackendIfExited, plcDockerInspectContainer, if_neg hnotFound,
              if_neg (not_not.2 hfound), hstate]
            rfl
          exact .inr (.inl ⟨by omega, .inl ⟨hnotFound, .inr hstate⟩⟩)
      | some element =>
          have hres : deleteBackendIfExited it = deleteIfExited element it.delete := by
            rw [deleteBackendIfExited, plcDockerInspectContainer, if_neg hnotFound,
              if_neg (not_not.2 hfound), hstate]
            rfl
          rw [hres, CleanupPass.ReportedGone, CleanupPass.DeletionAcknowledged, CleanupPass.RequestFailed,
            CleanupPass.ReportedExited, hstate]
          simp only [Option.some_inj]
          obtain ⟨hzero, hgone | hacknowledged⟩ | ⟨hneg, hfailed⟩ | hpos :=
            deleteIfExited_cases element it.delete
          · exact .inl ⟨hzero, .inl (.inr ⟨hfound, hgone⟩)⟩
          · exact .inl ⟨hzero, .inr ⟨⟨hfound, hacknowledged.1⟩, hacknowledged.2⟩⟩
          · exact .inr (.inl ⟨hneg, .inr ⟨⟨hfound, hfailed.1⟩, hfailed.2⟩⟩)
          · exact .inr (.inr hpos)
    · have hres : deleteBackendIfExited it = -1 := by
        rw [deleteBackendIfExited, plcDockerInspectContainer, if_neg hnotFound, if_pos hfound]
        rfl
      exact .inr (.inl ⟨by omega, .inl ⟨hnotFound, .inl hfound⟩⟩)

theorem countFailure_zero (waitTimes : ℕ) : countFailure waitTimes 0 = none := if_pos rfl

theorem countFailure_pos (waitTimes : ℕ) {res : ℤ} (h : 0 < res) :
    countFailure waitTimes res = some 0 := by
  rw [countFailure, if_neg h.ne', if_pos h]
  rfl

theorem countFailure_neg (waitTimes : ℕ) {res : ℤ} (h : res < 0) :
    countFailure waitTimes res =
      if waitTimes + 1 ≥ cleanupContainerConnectRetryTimes then none else some (waitTimes + 1) := by
  have hnot : ¬ res > 0 := by omega
  rw [countFailure, if_neg h.ne]
  simp only [if_neg hnot]

/-- The counter before the inspect request: a kill never returns 0, and counts once if it fails. -/
theorem cleanupPass_eq (waitTimes : ℕ) (it : CleanupPass) :
    ∃ waitTimes', (it.qeIsAlive = true → waitTimes' = 0) ∧ waitTimes' ≤ waitTimes + 1 ∧
      cleanupPass waitTimes it = countFailure waitTimes' (deleteBackendIfExited it) := by
  rw [cleanupPass]
  split
  next halive => exact ⟨0, fun _ => rfl, Nat.zero_le _, rfl⟩
  next hdead =>
    have hkill : plcDockerKillContainer it.kill ≠ 0 := by
      have hstatus := it.kill.2
      rw [plcDockerKillContainer]
      omega
    rw [if_neg hkill]
    refine ⟨_, fun halive => absurd halive hdead, ?_, rfl⟩
    split
    · exact Nat.le_refl _
    · exact Nat.le_succ _

/-- One pass: the container is gone and the loop ends; or a request fails and the counter grows, by
    at most 2, and not beyond 1 while the executor is alive; or the counter is set back. -/
theorem cleanupPass_cases (waitTimes : ℕ) (it : CleanupPass) :
    cleanupPass waitTimes it = none ∧ (it.ReportedGone ∨ it.DeletionAcknowledged) ∨
      (∃ waitTimes', it.RequestFailed ∧ (it.qeIsAlive = true → waitTimes' = 1) ∧
        waitTimes' ≤ waitTimes + 2 ∧ cleanupPass waitTimes it =
          if waitTimes' ≥ cleanupContainerConnectRetryTimes then none else some waitTimes') ∨
      cleanupPass waitTimes it = some 0 := by
  obtain ⟨waitTimes', halive, hle, heq⟩ := cleanupPass_eq waitTimes it
  rw [heq]
  obtain ⟨hzero, hgone⟩ | ⟨hneg, hfailed⟩ | hpos := deleteBackendIfExited_cases it
  · exact .inl ⟨by rw [hzero, countFailure_zero], hgone⟩
  · exact .inr (.inl ⟨waitTimes' + 1, hfailed, fun h => by rw [halive h], by omega,
      countFailure_neg waitTimes' hneg⟩)
  · exact .inr (.inr (countFailure_pos waitTimes' hpos))

/-- The last `k` of the first `n` passes all found the executor dead and had a request fail. -/
def FailedLast (its : ℕ → CleanupPass) (n k : ℕ) : Prop :=
  ∀ i, i < n → n ≤ i + k → (its i).qeIsAlive = false ∧ (its i).RequestFailed

theorem FailedLast.succ {its : ℕ → CleanupPass} {n k : ℕ} (h : FailedLast its n k)
    (halive : (its n).qeIsAlive = false) (hfailed : (its n).RequestFailed) :
    FailedLast its (n + 1) (k + 1) := by
  intro i hi hk
  rcases Nat.lt_succ_iff_lt_or_eq.1 hi with hlt | rfl
  · exact h i hlt (by omega)
  · exact ⟨halive, hfailed⟩

/-- The counter never exceeds twice the number of failed passes in a row, plus one for the last
    pass with the executor alive. -/
theorem waitTimesAfter_le {its : ℕ → CleanupPass} {n waitTimes : ℕ}
    (h : waitTimesAfter its n = some waitTimes) :
    ∃ k ≤ n, waitTimes ≤ 2 * k + 1 ∧ FailedLast its n k := by
  induction n generalizing waitTimes with
  | zero =>
      cases h
      exact ⟨0, Nat.le_refl _, by omega, fun i hi => absurd hi (Nat.not_lt_zero i)⟩
  | succ n ih =>
      have hnone : FailedLast its (n + 1) 0 := fun i hi hk => by omega
      rw [waitTimesAfter, Option.bind_eq_some_iff] at h
      obtain ⟨before, hbefore, hstep⟩ := h
      obtain ⟨k, hk, hle, hlast⟩ := ih hbefore
      obtain ⟨hend, -⟩ | ⟨after, hfailed, halive, hafter, hres⟩ | hreset :=
        cleanupPass_cases before (its n)
      · rw [hend] at hstep
        cases hstep
      · rw [hres] at hstep
        split at hstep
        · cases hstep
        · obtain rfl := Option.some.inj hstep
          cases hqe : (its n).qeIsAlive with
          | true => exact ⟨0, Nat.zero_le _, by rw [halive hqe], hnone⟩
          | false => exact ⟨k + 1, by omega, by omega, hlast.succ hqe hfailed⟩
      · rw [hreset] at hstep
        obtain rfl := Option.some.inj hstep
        exact ⟨0, Nat.zero_le _, by omega, hnone⟩

/-- **The cleanup process does not give up early.** The loop ends only in a pass that found the
    container gone or deleted it, or with at least 30 passes in a row that all found the executor dead
    and had a request fail. So while the executor is alive, failures alone never end it. -/
theorem cleanup_ends (its : ℕ → CleanupPass) (n : ℕ) (h : EndsIn its n) :
    ((its n).ReportedGone ∨ (its n).DeletionAcknowledged ∨
      30 ≤ n + 1 ∧ ∀ i, i < n + 1 → n + 1 ≤ i + 30 →
        (its i).qeIsAlive = false ∧ (its i).RequestFailed) ∧
    ((∀ i, i < n + 1 → (its i).qeIsAlive = true) →
      (its n).ReportedGone ∨ (its n).DeletionAcknowledged) := by
  obtain ⟨waitTimes, hwait, hend⟩ := h
  obtain ⟨k, hk, hle, hlast⟩ := waitTimesAfter_le hwait
  obtain ⟨-, hgone⟩ | ⟨after, hfailed, halive, hafter, hres⟩ | hreset :=
    cleanupPass_cases waitTimes (its n)
  · exact ⟨hgone.imp_right .inl, fun _ => hgone⟩
  · rw [hres] at hend
    split at hend
    next hmany =>
      rw [cleanupContainerConnectRetryTimes] at hmany
      cases hqe : (its n).qeIsAlive with
      | true =>
          rw [halive hqe] at hmany
          omega
      | false =>
          have hrow := hlast.succ hqe hfailed
          refine ⟨.inr (.inr ⟨by omega, fun i hi hthirty => hrow i hi (by omega)⟩), fun hall => ?_⟩
          rw [hall n (Nat.lt_succ_self n)] at hqe
          cases hqe
    next => cases hend
  · rw [hreset] at hend
    cases hend

/-- The first inspect request is answered with 404. -/
def goneAtOnce : CleanupPass := ⟨true, ⟨-1, .inl rfl⟩, ⟨404, .inr (by decide)⟩, none, ⟨-1, .inl rfl⟩⟩

theorem cleanup_ends_at_once : EndsIn (fun _ => goneAtOnce) 0 ∧
    (goneAtOnce.ReportedGone ∨ goneAtOnce.DeletionAcknowledged) := by
  have hends : EndsIn (fun _ => goneAtOnce) 0 := ⟨0, rfl, rfl⟩
  exact ⟨hends, (cleanup_ends (fun _ => goneAtOnce) 0 hends).2 fun _ _ => rfl⟩

end PlContainer
