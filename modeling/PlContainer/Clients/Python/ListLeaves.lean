import PlContainer.Clients.Python.ArrayEcho
import Mathlib.Algebra.BigOperators.Ring.List

set_option autoImplicit false

/-! # Lists that a Python function returns for an array type

The dimensions of the array come from the first elements only, and then the elements are fetched at the
places of a box of these dimensions, whatever the form of the list. So the elements that are sent are the
leaves of the list exactly if the objects at these places are. -/

namespace PlContainer

open Odometer

variable {α : Type}

/-! ## What should be sent -/

mutual

/-- The leaves of a list from left to right. -/
def PyObj.leaves : PyObj α → List (PyObj α)
  | .none => [.none]
  | .leaf a => [.leaf a]
  | .list items => PyObj.leavesOf items

def PyObj.leavesOf : List (PyObj α) → List (PyObj α)
  | [] => []
  | x :: xs => x.leaves ++ PyObj.leavesOf xs

end

/-- The conversion of an element reports an error. Whether it does may depend on what went before:
    `converts i o` is about the object `o` as the element number `i`. -/
def ReportsError (converts : ℕ → PyObj α → Bool) (fetched : List (Option (PyObj α))) : Prop :=
  ∃ (i : ℕ) (o : PyObj α), fetched[i]? = some (some o) ∧ o ≠ .none ∧ converts i o = false

/-- The elements are the leaves of the list from left to right, with a null for each `None`. A null is
    sent for `None` and where nothing was fetched. -/
def AreLeaves (list : PyObj α) (fetched : List (Option (PyObj α))) : Prop :=
  (fetched.map fun o => o.getD .none) = list.leaves

section

variable (crashed : Prop) (item : α → ℕ → Option (PyObj α)) (converts : ℕ → PyObj α → Bool)

/-- An error is reported, or the leaves of the list are sent. The proposition `crashed` says whether it
    counts as a report when the client writes behind its local arrays or releases a list that is not
    there: the source does not say what happens then. -/
def SentOrReported (list : PyObj α) : Prop :=
  match plcPyobjectAsArray list with
  | .refused => True
  | .overflow => crashed
  | .iterator dims ptrs =>
      match fetchAll item dims ptrs with
      | none => crashed
      | some (fetched, _) =>
          ReportsError converts (fetched.map Prod.snd) ∨ AreLeaves list (fetched.map Prod.snd)

/-- The places at which the elements are fetched. -/
def places (dims : List ℕ) : List (List ℕ) := (box dims).take (iteratorSize dims).toInt.toNat

/-- What stands at the places, below the list. -/
def PyObj.atPlaces (list : PyObj α) (dims : List ℕ) : List (Option (PyObj α)) :=
  (places dims).map (follow (PyObj.getItem item) (some list))

/-- The same, without the iterator: no row that is finished is missing, and what stands at the places
    are the leaves of the list. -/
def BoxedOrReported (list : PyObj α) : Prop :=
  match plcPyobjectAsArray list with
  | .refused => True
  | .overflow => crashed
  | .iterator dims _ =>
      if ∀ path ∈ places dims, GivesBack (PyObj.getItem item) (some list) dims path then
        ReportsError converts (list.atPlaces item dims) ∨ AreLeaves list (list.atPlaces item dims)
      else crashed

end

/-- What is sent for the leaves: a null for `None`, and the conversion of every other object. -/
theorem pyElement_of_areLeaves {W : Type} (outputfunc : PyObj α → W) {list : PyObj α}
    {fetched : List (Option (PyObj α))} (h : AreLeaves list fetched) :
    fetched.map (pyElement outputfunc) = list.leaves.map fun o => pyElement outputfunc (some o) := by
  rw [← h, List.map_map]
  refine List.map_congr_left fun o _ => ?_
  cases o <;> rfl

/-! ## Any list -/

/-- The `int` size of an iterator is at most the number of places of the box. -/
theorem iteratorSize_le {dims : List ℕ} (hne : dims ≠ []) :
    (iteratorSize dims).toInt.toNat ≤ (box dims).length := by
  rw [iteratorSize_eq hne, length_box, BitVec.toInt_eq_toNat_cond, BitVec.toNat_ofNat]
  split <;> omega

/-- Whatever the form of the list, the elements are fetched at the places, unless a row that is finished
    is missing. -/
theorem fetchAll_places (item : α → ℕ → Option (PyObj α)) {dims : List ℕ} (hne : dims ≠ [])
    (list : PyObj α) :
    (∀ r, fetchAll item dims (descend (PyObj.getItem item) (some list) dims) = some r →
      r.1.map Prod.snd = list.atPlaces item dims) ∧
    ((fetchAll item dims (descend (PyObj.getItem item) (some list) dims)).isSome ↔
      ∀ path ∈ places dims, GivesBack (PyObj.getItem item) (some list) dims path) := by
  rw [fetchAll, PyObj.atPlaces, places]
  rcases Nat.eq_zero_or_pos (iteratorSize dims).toInt.toNat with hzero | hsize
  · rw [hzero]
    refine ⟨?_, iff_of_true rfl (by simp)⟩
    rintro r ⟨⟩
    rfl
  · -- the box has places, so no dimension is empty
    have hdims : ∀ d ∈ dims, 0 < d := by
      intro d hd
      refine Nat.pos_of_ne_zero fun hd0 => ?_
      have hprod : dims.prod = 0 := List.prod_eq_zero (hd0 ▸ hd)
      have hle := iteratorSize_le hne
      rw [length_box, hprod] at hle
      omega
    have hstands : Stands (PyObj.getItem item) (some list) dims
        (descend (PyObj.getItem item) (some list) dims) (box dims) := stands_descend _ hdims
    have hrun := hstands.run hne hdims (iteratorSize_le hne)
    refine ⟨fun r hr => ?_, hrun.2⟩
    rw [(hrun.1 r hr).1, List.map_map]
    rfl

/-- What the iterator of an object fetches. -/
theorem fetchAll_of_iterator (item : α → ℕ → Option (PyObj α)) {input : PyObj α} {dims : List ℕ}
    {ptrs : List (Level (PyObj α))} (h : plcPyobjectAsArray input = .iterator dims ptrs) :
    dims ≠ [] ∧
      (∀ r, fetchAll item dims ptrs = some r → r.1.map Prod.snd = input.atPlaces item dims) ∧
      ((fetchAll item dims ptrs).isSome ↔
        ∀ path ∈ places dims, GivesBack (PyObj.getItem item) (some input) dims path) := by
  cases input with
  | list items =>
      obtain ⟨hdims, rfl⟩ := plcPyobjectAsArray_iterator item h
      have hne : dims ≠ [] := by
        rw [hdims, PyObj.stack]
        simp
      exact ⟨hne, fetchAll_places item hne (.list items)⟩
  | _ => cases h

end PlContainer
