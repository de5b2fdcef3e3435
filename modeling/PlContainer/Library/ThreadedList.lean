import Mathlib.Logic.Function.Basic
import Mathlib.Data.List.FinRange

set_option autoImplicit false

/-! # Lists threaded through a table

A table whose cells each name the next cell holds a list, given by its head. Such a list is used to
keep the free cells of the table: cells are taken from its head and put back there. -/

namespace ThreadedList

variable {ι β : Type}

/-- Following `next` from the head visits these cells, in this order, and ends. -/
inductive Threads (next : ι → Option ι) : Option ι → List ι → Prop where
  | nil : Threads next none []
  | cons {i : ι} {is : List ι} (h : Threads next (next i) is) : Threads next (some i) (i :: is)

variable {next : ι → Option ι} {head : Option ι} {cells : List ι}

/-- Only the cells of the list matter. -/
theorem Threads.congr {next' : ι → Option ι} (h : Threads next head cells)
    (heq : ∀ i ∈ cells, next' i = next i) : Threads next' head cells := by
  induction h with
  | nil => exact .nil
  | cons _ ih =>
      rw [List.forall_mem_cons] at heq
      refine .cons ?_
      rw [heq.1]
      exact ih heq.2

/-- Putting a cell back at the head. -/
theorem Threads.push [DecidableEq ι] (h : Threads next head cells) {i : ι} (hi : i ∉ cells) :
    Threads (Function.update next i head) (some i) (i :: cells) := by
  refine .cons ?_
  rw [Function.update_self]
  refine h.congr fun j hj => Function.update_of_ne ?_ _ _
  rintro rfl
  exact hi hj

/-- The list holds exactly the cells with the property `free`, each once. -/
structure Holds (next : ι → Option ι) (head : Option ι) (free : ι → Prop) (cells : List ι) :
    Prop where
  threads : Threads next head cells
  nodup : cells.Nodup
  mem_iff : ∀ i, i ∈ cells ↔ free i

variable {free free' : ι → Prop}

/-- The cell at the head is free; once it is taken, the list goes on behind it. -/
theorem Holds.take {i : ι} (h : Holds next (some i) free cells)
    (hfree : ∀ j, free' j ↔ free j ∧ j ≠ i) :
    free i ∧ ∃ cells', Holds next (next i) free' cells' := by
  obtain ⟨hthreads, hnodup, hmem⟩ := h
  cases hthreads with
  | cons htail =>
      rw [List.nodup_cons] at hnodup
      refine ⟨(hmem i).1 (List.mem_cons_self ..), _, htail, hnodup.2, fun j => ?_⟩
      rw [hfree, ← hmem, List.mem_cons]
      constructor
      · intro hj
        exact ⟨.inr hj, fun he => hnodup.1 (he ▸ hj)⟩
      · rintro ⟨rfl | hj, hne⟩
        · exact absurd rfl hne
        · exact hj

/-- A cell that was in use is put back. -/
theorem Holds.put [DecidableEq ι] {i : ι} (h : Holds next head free cells) (hi : ¬ free i)
    (hfree : ∀ j, free' j ↔ free j ∨ j = i) :
    Holds (Function.update next i head) (some i) free' (i :: cells) := by
  have hmem : i ∉ cells := fun hmem => hi ((h.mem_iff i).1 hmem)
  refine ⟨h.threads.push hmem, List.nodup_cons.2 ⟨hmem, h.nodup⟩, fun j => ?_⟩
  rw [hfree, List.mem_cons, h.mem_iff, or_comm]

/-! ## What the cells hold

Each cell holds a value, and `z` if it is free. -/

/-- No value is in two cells. -/
def Distinct (z : β) (f : ι → β) : Prop := ∀ i j, f i = f j → f i ≠ z → i = j

section Values

variable [DecidableEq ι] {z v : β} {f f' : ι → β} {slot : ι}

/-- A new value is written into a cell. -/
theorem Distinct.write (h : Distinct z f) (hnew : ∀ i, f i ≠ v)
    (hf : ∀ i, f' i = if i = slot then v else f i) : Distinct z f' := by
  intro i j hij hi
  rw [hf] at hi
  rw [hf, hf] at hij
  split at hij
  next hislot =>
    split at hij
    next hjslot => rw [hislot, hjslot]
    next => exact absurd hij.symm (hnew j)
  next hislot =>
    rw [if_neg hislot] at hi
    split at hij
    next => exact absurd hij (hnew i)
    next => exact h i j hij hi

theorem exists_write {x : β} (hslot : f slot ≠ x) (hf : ∀ i, f' i = if i = slot then v else f i) :
    (∃ i, f' i = x) ↔ (∃ i, f i = x) ∨ x = v := by
  constructor
  · rintro ⟨i, hi⟩
    rw [hf] at hi
    split at hi
    · exact .inr hi.symm
    · exact .inl ⟨i, hi⟩
  · rintro (⟨i, hi⟩ | rfl)
    · refine ⟨i, ?_⟩
      rw [hf, if_neg ?_]
      · exact hi
      · rintro rfl
        exact hslot hi
    · exact ⟨slot, by rw [hf, if_pos rfl]⟩

/-- A cell is cleared. -/
theorem Distinct.clear (h : Distinct z f) (hf : ∀ i, f' i = if i = slot then z else f i) :
    Distinct z f' := by
  intro i j hij hi
  rw [hf] at hi
  rw [hf, hf] at hij
  split at hij
  next hislot => exact absurd (if_pos hislot) hi
  next hislot =>
    rw [if_neg hislot] at hi
    split at hij
    next => exact absurd hij hi
    next => exact h i j hij hi

theorem Distinct.exists_clear (h : Distinct z f) {x : β} (hx : x ≠ z)
    (hf : ∀ i, f' i = if i = slot then z else f i) :
    (∃ i, f' i = x) ↔ (∃ i, f i = x) ∧ x ≠ f slot := by
  constructor
  · rintro ⟨i, hi⟩
    rw [hf] at hi
    split at hi
    · exact absurd hi.symm hx
    next hislot =>
      refine ⟨⟨i, hi⟩, fun hxslot => hislot (h i slot (hi.trans hxslot) ?_)⟩
      rwa [hi]
  · rintro ⟨⟨i, hi⟩, hxslot⟩
    refine ⟨i, ?_⟩
    rw [hf, if_neg ?_]
    · exact hi
    · rintro rfl
      exact hxslot hi.symm

end Values

/-! ## The list of all cells -/

/-- The cell of the given number, if there is one. -/
def cellAt (n k : ℕ) : Option (Fin n) := if h : k < n then some ⟨k, h⟩ else none

/-- The table in which each cell names the one after it. -/
theorem threads_inOrder {n : ℕ} {next : Fin n → Option (Fin n)}
    (hnext : ∀ i, next i = cellAt n (i + 1)) (m k : ℕ) (hk : k + m = n) :
    Threads next (cellAt n k) ((List.finRange n).drop k) := by
  induction m generalizing k with
  | zero =>
      have hend : (List.finRange n).drop k = [] := List.drop_eq_nil_of_le (by simp; omega)
      rw [hend, cellAt, dif_neg (by omega)]
      exact .nil
  | succ m ih =>
      have hlt : k < n := by omega
      have hdrop : (List.finRange n).drop k = ⟨k, hlt⟩ :: (List.finRange n).drop (k + 1) := by
        rw [List.drop_eq_getElem_cons (by simpa using hlt), List.getElem_finRange]
        rfl
      rw [hdrop, cellAt, dif_pos hlt]
      refine .cons ?_
      rw [hnext]
      exact ih (k + 1) (by omega)

theorem holds_inOrder {n : ℕ} {next : Fin n → Option (Fin n)}
    (hnext : ∀ i, next i = cellAt n (i + 1)) :
    Holds next (cellAt n 0) (fun _ => True) (List.finRange n) :=
  ⟨by simpa using threads_inOrder hnext n 0 (by omega), List.nodup_finRange n, by simp⟩

end ThreadedList
