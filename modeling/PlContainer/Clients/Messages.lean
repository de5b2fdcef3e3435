import PlContainer.Calls.Protocol

set_option autoImplicit false

/-! # What a client sends for one call

A call is ended by its first terminal message: a RESULT, an EXCEPTION or a LOG of level ERROR or
above. A client that keeps to the protocol sends nothing after it until it gets another CALLREQ. -/

namespace PlContainer

/-- A message of a client, without the number that `ToBackend` gives to requests. -/
inductive ClientMsg where
  | log
  | request (kind : RequestKind)
  | terminal (t : Terminal)
  /-- the beginning of a RESULT that the process does not live to finish -/
  | truncated
deriving DecidableEq, Repr

def ClientMsg.isPlain : ClientMsg → Bool
  | .log | .request _ => true
  | .terminal _ | .truncated => false

/-- The messages of a call are some that are not terminal, and then one that is. -/
def endsCall : List ClientMsg → Bool
  | [] => false
  | .log :: ms | .request _ :: ms => endsCall ms
  | .terminal _ :: ms => ms.isEmpty
  | .truncated :: _ => false

/-- No terminal message yet. -/
def Unended (ms : List ClientMsg) : Prop := ∀ m ∈ ms, m.isPlain = true

/-- More than one terminal message, or something after it: no continuation mends this. -/
def Spoiled (ms : List ClientMsg) : Prop := ∀ more, endsCall (ms ++ more) = false

theorem unended_nil : Unended [] := fun m hm => by cases hm

theorem Unended.append {ms ms' : List ClientMsg} (h : Unended ms) (h' : Unended ms') :
    Unended (ms ++ ms') := by
  intro m hm
  rcases List.mem_append.1 hm with hm | hm
  · exact h m hm
  · exact h' m hm

theorem Unended.endsCall_append {ms : List ClientMsg} (h : Unended ms) (more : List ClientMsg) :
    endsCall (ms ++ more) = endsCall more := by
  induction ms with
  | nil => rfl
  | cons m ms ih =>
      rw [Unended, List.forall_mem_cons] at h
      cases m with
      | log => exact ih h.2
      | request kind => exact ih h.2
      | terminal t => cases h.1
      | truncated => cases h.1

theorem Unended.endsCall_eq_false {ms : List ClientMsg} (h : Unended ms) : endsCall ms = false := by
  have := h.endsCall_append []
  rwa [List.append_nil] at this

/-- The terminal message of a call. -/
theorem Unended.ends {ms : List ClientMsg} (h : Unended ms) (t : Terminal) :
    endsCall (ms ++ [.terminal t]) = true :=
  h.endsCall_append [.terminal t]

theorem endsCall_append {ms : List ClientMsg} (h : endsCall ms = true) (more : List ClientMsg) :
    endsCall (ms ++ more) = more.isEmpty := by
  induction ms with
  | nil => cases h
  | cons m ms ih =>
      cases m with
      | log => exact ih h
      | request kind => exact ih h
      | terminal t =>
          cases List.isEmpty_iff.1 h
          rfl
      | truncated => cases h

/-- A message after the terminal one. -/
theorem spoiled_of_endsCall {ms more : List ClientMsg} (h : endsCall ms = true) (hne : more ≠ []) :
    Spoiled (ms ++ more) := by
  intro rest
  rw [List.append_assoc, endsCall_append h]
  cases more with
  | nil => exact absurd rfl hne
  | cons => rfl

theorem Unended.spoiled_truncated {ms : List ClientMsg} (h : Unended ms) (more : List ClientMsg) :
    Spoiled (ms ++ .truncated :: more) := by
  intro rest
  rw [List.append_assoc, h.endsCall_append]
  rfl

/-- Only a RESULT that is sent to its end and that nothing follows ends a call. -/
theorem Unended.spoiled_result {ms more : List ClientMsg} {alive : Bool} (h : Unended ms)
    (hmore : alive = false ∨ more ≠ []) :
    Spoiled (ms ++ (if alive then .terminal .result else .truncated) :: more) := by
  cases alive with
  | false => exact h.spoiled_truncated more
  | true =>
      have hne : more ≠ [] := hmore.resolve_left (by simp)
      rw [if_pos rfl, List.append_cons]
      exact spoiled_of_endsCall (h.ends .result) hne

theorem Spoiled.append {ms : List ClientMsg} (h : Spoiled ms) (more : List ClientMsg) :
    Spoiled (ms ++ more) := by
  intro rest
  rw [List.append_assoc]
  exact h (more ++ rest)

theorem Spoiled.endsCall_eq_false {ms : List ClientMsg} (h : Spoiled ms) : endsCall ms = false := by
  have := h []
  rwa [List.append_nil] at this

end PlContainer
