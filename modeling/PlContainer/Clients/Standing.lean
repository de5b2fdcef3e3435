import PlContainer.Clients.Messages

set_option autoImplicit false

/-! # Where a call stands

Both clients have a flag `plc_is_execution_terminated` that is meant to say that the terminal message
of the call has been sent. A standing says what has been sent and whether the flag is set; that the
two can differ is what the clients' proofs are about. -/

namespace PlContainer

/-- Where a call stands. -/
inductive Standing where
  /-- nothing terminal has been sent and the flag is clear -/
  | free
  /-- nothing terminal has been sent but the flag is set -/
  | stuck
  /-- the terminal message has been sent and the flag is set -/
  | told
  /-- the process has exited without a terminal message -/
  | lost
  /-- the process has exited after the terminal message -/
  | gone
  /-- there is more than one terminal message, or something after it -/
  | spoiled
deriving DecidableEq, Repr

/-- A client whose call stands so: whether it is alive, whether its flag is set, what it has sent. -/
def Standing.Holds : Standing → Bool → Bool → List ClientMsg → Prop
  | .free, alive, terminated, sent => alive = true ∧ terminated = false ∧ Unended sent
  | .stuck, alive, terminated, sent => alive = true ∧ terminated = true ∧ Unended sent
  | .told, alive, terminated, sent => alive = true ∧ terminated = true ∧ endsCall sent = true
  | .lost, alive, _, sent => alive = false ∧ Unended sent
  | .gone, alive, _, sent => alive = false ∧ endsCall sent = true
  | .spoiled, _, _, sent => Spoiled sent

/-- The standing after a message that is sent whatever the flag says. -/
def Standing.late : Standing → Standing
  | .told => .spoiled
  | st => st

/-- The same for a LOG of level ERROR or above, which sets the flag. -/
def Standing.failed : Standing → Standing
  | .free | .stuck => .told
  | .told => .spoiled
  | st => st

/-- The flag is cleared once more when the function starts. A call that has already been told of an
    error is then saved only by a process that exits before it says anything else. -/
def Standing.restarted (st : Standing) (dies polite : Bool) : Bool :=
  match st with
  | .free | .stuck => polite
  | .told => dies
  | st => decide (st = .gone)

theorem Standing.late_ne_told (st : Standing) : st.late ≠ .told := by
  cases st <;> decide

namespace Standing.Holds

variable {st : Standing} {alive terminated : Bool} {sent : List ClientMsg}

theorem endsCall_eq (h : st.Holds alive terminated sent) :
    endsCall sent = decide (st ∈ [.told, .gone]) := by
  cases st with
  | free => simp [h.2.2.endsCall_eq_false]
  | stuck => simp [h.2.2.endsCall_eq_false]
  | told => simp [h.2.2]
  | lost => simp [h.2.endsCall_eq_false]
  | gone => simp [h.2]
  | spoiled => simp [Spoiled.endsCall_eq_false h]

theorem late (h : st.Holds alive terminated sent) {m : ClientMsg} (hm : m.isPlain = true) :
    st.late.Holds alive terminated (if alive then sent ++ [m] else sent) := by
  have hplain : Unended [m] := fun n hn => by cases List.mem_singleton.1 hn; exact hm
  cases st with
  | free =>
      rw [if_pos h.1]
      exact ⟨h.1, h.2.1, h.2.2.append hplain⟩
  | stuck =>
      rw [if_pos h.1]
      exact ⟨h.1, h.2.1, h.2.2.append hplain⟩
  | told =>
      rw [if_pos h.1]
      exact spoiled_of_endsCall h.2.2 (List.cons_ne_nil m [])
  | lost =>
      rw [if_neg (by simp [h.1])]
      exact h
  | gone =>
      rw [if_neg (by simp [h.1])]
      exact h
  | spoiled =>
      show Spoiled _
      split
      · exact Spoiled.append h [m]
      · exact h

theorem failed (h : st.Holds alive terminated sent) (t : Terminal) :
    st.failed.Holds alive true (if alive then sent ++ [.terminal t] else sent) := by
  cases st with
  | free =>
      rw [if_pos h.1]
      exact ⟨h.1, rfl, h.2.2.ends t⟩
  | stuck =>
      rw [if_pos h.1]
      exact ⟨h.1, rfl, h.2.2.ends t⟩
  | told =>
      rw [if_pos h.1]
      exact spoiled_of_endsCall h.2.2 (List.cons_ne_nil _ [])
  | lost =>
      rw [if_neg (by simp [h.1])]
      exact h
  | gone =>
      rw [if_neg (by simp [h.1])]
      exact h
  | spoiled =>
      show Spoiled _
      split
      · exact Spoiled.append h [.terminal t]
      · exact h

end Standing.Holds

end PlContainer
