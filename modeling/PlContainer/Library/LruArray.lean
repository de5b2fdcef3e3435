import Mathlib.Data.List.GetD
import PlContainer.Library.LruRecency

set_option autoImplicit false

/-! # A least-recently-used cache in an array

The entries stand in the first cells of an array, most recently used first, and the cells after them
are empty. A lookup scans the cells and rotates the one it finds to the front with a shifting loop;
an insertion looks its key up, and then writes the new entry over the one that came to the front, or
shifts all cells by one and writes it into the first. The loops are those of a program that works on
the cells in place. `Holds` relates the cells to the list of `LruCache`, and the two operations on the
cells are the two on the list, including the entry that they give up. -/

namespace LruArray

open LruCache

variable {α κ : Type}

/-! ## The loops -/

/-- `for (i = index; i > 0; i--) cells[i] = cells[i - 1];` -/
def shift : ℕ → List (Option α) → List (Option α)
  | 0, cells => cells
  | i + 1, cells => shift i (cells.set (i + 1) (cells.getD i none))

/-- Move a cell to the front. -/
def up (index : ℕ) (cells : List (Option α)) : List (Option α) :=
  if 0 < index then
    let tmp := cells.getD index none
    (shift index cells).set 0 tmp
  else cells

/-- The cells from `index` on lose the first of them, and the first cell is there twice. -/
theorem shift_eq (index : ℕ) (cells : List (Option α)) (h : index < cells.length) :
    shift index cells = cells.take 1 ++ (cells.take index ++ cells.drop (index + 1)) := by
  induction index generalizing cells with
  | zero =>
      cases cells with
      | nil => rfl
      | cons c cells => simp [shift]
  | succ i ih =>
      -- the cell written is beyond what the rest of the loop reads
      have hi : i < cells.length := Nat.lt_of_succ_lt h
      have htake : cells.take i ++ [cells.getD i none] = cells.take (i + 1) := by
        rw [List.take_succ_eq_append_getElem hi, List.getD_eq_getElem _ _ hi]
      have hdrop : (cells.set (i + 1) (cells.getD i none)).drop (i + 1)
          = cells.getD i none :: cells.drop (i + 2) := by
        rw [List.drop_set, if_neg (Nat.lt_irrefl _), Nat.sub_self, List.drop_eq_getElem_cons h,
          List.set_cons_zero]
      rw [shift, ih _ (by simpa using hi), List.take_set_of_le (by omega),
        List.take_set_of_le (by omega), hdrop, ← htake]
      simp

theorem up_eq {index : ℕ} {cells : List (Option α)} {c : Option α} (h : cells[index]? = some c) :
    up index cells = c :: cells.eraseIdx index := by
  obtain ⟨hlt, rfl⟩ := List.getElem?_eq_some_iff.1 h
  rw [up]
  split
  next hpos =>
    rw [shift_eq index cells hlt, List.getD_eq_getElem _ _ hlt, List.eraseIdx_eq_take_drop_succ]
    cases cells with
    | nil => exact absurd hlt (Nat.not_lt_zero _)
    | cons c cells => simp
  next hzero =>
    obtain rfl : index = 0 := by omega
    cases cells with
    | nil => exact absurd hlt (Nat.not_lt_zero _)
    | cons c cells => simp

/-! ## The operations -/

section

variable [DecidableEq κ] (key : α → κ)

/-- `cell != NULL && cell->key == k` -/
def hit (k : κ) (cell : Option α) : Bool := cell.any fun a => key a = k

/-- The scan of `n` cells from `i` on, which moves the cell it finds to the front and stops. -/
def scan (k : κ) (cells : List (Option α)) : ℕ → ℕ → Option α × List (Option α)
  | 0, _ => (none, cells)
  | n + 1, i =>
      if hit key k (cells.getD i none) then (cells.getD i none, up i cells)
      else scan k cells n (i + 1)

/-- The lookup in an array of `cap` cells. -/
def get (cap : ℕ) (k : κ) (cells : List (Option α)) : Option α × List (Option α) :=
  scan key k cells cap 0

/-- The insertion: the entry that is freed, and the cells it leaves. -/
def put (cap : ℕ) (a : α) (cells : List (Option α)) : Option α × List (Option α) :=
  match get key cap (key a) cells with
  | (none, cells) => (cells.getD (cap - 1) none, (shift (cap - 1) cells).set 0 (some a))
  | (some b, cells) => (some b, cells.set 0 (some a))

/-- The cells hold the entries of the list in its order. -/
structure Holds (cap : ℕ) (cells : List (Option α)) (l : List α) : Prop where
  length_le : l.length ≤ cap
  cells_eq : cells = l.map some ++ List.replicate (cap - l.length) none

variable {key} {cap : ℕ} {cells : List (Option α)} {l : List α}

theorem holds_empty : Holds cap (List.replicate cap none) ([] : List α) := ⟨Nat.zero_le _, by simp⟩

theorem Holds.length_cells (h : Holds cap cells l) : cells.length = cap := by
  have hle := h.length_le
  rw [h.cells_eq]
  simp only [List.length_append, List.length_map, List.length_replicate]
  omega

/-! ## The lookup -/

/-- The scan finds the first cell that holds the key. -/
theorem scan_eq (k : κ) (cells : List (Option α)) (n i : ℕ) (h : i + n = cells.length) :
    scan key k cells n i =
      match (cells.drop i).findIdx? (hit key k) with
      | none => (none, cells)
      | some j => (cells.getD (i + j) none, up (i + j) cells) := by
  induction n generalizing i with
  | zero => simp [scan, List.drop_of_length_le (show cells.length ≤ i by omega)]
  | succ n ih =>
      have hi : i < cells.length := by omega
      rw [scan, ih (i + 1) (by omega), List.drop_eq_getElem_cons hi, List.findIdx?_cons,
        List.getD_eq_getElem _ _ hi]
      split
      next hhit => simp [hi]
      next hmiss =>
        cases (cells.drop (i + 1)).findIdx? (hit key k) with
        | none => rfl
        | some j => simp [Nat.add_assoc, Nat.add_comm 1]

/-- Only the cells of the entries are found. -/
theorem Holds.findIdx?_hit (h : Holds cap cells l) (k : κ) :
    cells.findIdx? (hit key k) = l.findIdx? (fun a => key a = k) := by
  have hempty : (List.replicate (cap - l.length) (none : Option α)).findIdx? (hit key k) = none := by
    rw [List.findIdx?_eq_none_iff]
    intro c hc
    rw [List.eq_of_mem_replicate hc]
    rfl
  rw [h.cells_eq, List.findIdx?_append, hempty, List.findIdx?_map]
  simp [Function.comp_def, hit]

theorem Holds.getElem? (h : Holds cap cells l) {i : ℕ} {a : α} (ha : l[i]? = some a) :
    cells[i]? = some (some a) := by
  obtain ⟨hi, rfl⟩ := List.getElem?_eq_some_iff.1 ha
  rw [h.cells_eq, List.getElem?_append_left (by simpa using hi), List.getElem?_map, ha]
  rfl

/-- Moving the cell of an entry moves the entry. -/
theorem Holds.up (h : Holds cap cells l) {i : ℕ} {a : α} (ha : l[i]? = some a) :
    Holds cap (up i cells) (a :: l.eraseIdx i) := by
  obtain ⟨hi, -⟩ := List.getElem?_eq_some_iff.1 ha
  have hlen : (l.eraseIdx i).length + 1 = l.length := by
    rw [List.length_eraseIdx_of_lt hi]
    omega
  refine ⟨by rw [List.length_cons, hlen]; exact h.length_le, ?_⟩
  rw [up_eq (h.getElem? ha), h.cells_eq, List.eraseIdx_append_of_lt_length (by simpa using hi),
    List.length_cons, hlen]
  simp [List.eraseIdx_eq_take_drop_succ]

variable (key) in
/-- **The lookup** in the array is the lookup in the list. -/
theorem Holds.get (h : Holds cap cells l) (k : κ) :
    (get key cap k cells).1 = (LruCache.get key k l).1 ∧
      Holds cap (get key cap k cells).2 (LruCache.get key k l).2 := by
  rw [LruArray.get, scan_eq k cells cap 0 (by rw [h.length_cells, Nat.zero_add]), List.drop_zero,
    h.findIdx?_hit, LruCache.get, List.eraseP_eq_eraseIdx]
  cases hfind : l.findIdx? (fun a => key a = k) with
  | none =>
      have hnone : l.find? (fun a => key a = k) = none := by
        rw [List.find?_eq_none]
        intro a ha
        simpa using List.findIdx?_eq_none_iff.1 hfind a ha
      rw [hnone]
      exact ⟨rfl, h⟩
  | some i =>
      obtain ⟨hi, hidx⟩ := List.findIdx?_eq_some_iff_findIdx_eq.1 hfind
      have ha : l[i]? = some l[i] := List.getElem?_eq_getElem hi
      rw [List.find?_eq_getElem?_findIdx, hidx, ha]
      dsimp only
      rw [Nat.zero_add, List.getD_eq_getElem?_getD, h.getElem? ha]
      exact ⟨rfl, h.up ha⟩

/-! ## The insertion -/

/-- Shifting all cells makes room for a new entry and pushes the last cell out. -/
theorem Holds.push (h : Holds cap cells l) (hcap : 0 < cap) (a : α) :
    Holds cap ((shift (cap - 1) cells).set 0 (some a)) (a :: l.take (cap - 1)) := by
  have hle := h.length_le
  have hlen := h.length_cells
  have hlast : cap - 1 < cells.length := by omega
  have hrest : cells.take (cap - 1)
      = (l.take (cap - 1)).map some ++ List.replicate (cap - 1 - l.length) none := by
    rw [h.cells_eq, List.take_append, List.map_take, List.length_map, List.take_replicate,
      Nat.min_eq_left (by omega)]
  have hend : cells.drop (cap - 1 + 1) = [] := List.drop_of_length_le (by omega)
  refine ⟨by simp; omega, ?_⟩
  rw [shift_eq _ _ hlast, hend, List.append_nil, hrest]
  cases cells with
  | nil => exact absurd hlast (Nat.not_lt_zero _)
  | cons c cells =>
      have hempty : cap - 1 - l.length = cap - (min (cap - 1) l.length + 1) := by omega
      simp [hempty]

/-- The last cell is that of the last entry of a full array. -/
theorem Holds.getD_last (h : Holds cap cells l) : cells.getD (cap - 1) none = l[cap - 1]? := by
  rw [List.getD_eq_getElem?_getD]
  cases hlast : l[cap - 1]? with
  | some a => rw [h.getElem? hlast, Option.getD_some]
  | none =>
      have hle := List.getElem?_eq_none_iff.1 hlast
      rw [h.cells_eq, List.getElem?_append_right (by simpa using hle), List.getElem?_replicate]
      split <;> rfl

variable (key) in
/-- **The insertion** into the array is the insertion into the list, and frees what that gives up. -/
theorem Holds.put (h : Holds cap cells l) (hcap : 0 < cap) (a : α) :
    (put key cap a cells).1 = dropped key cap a l ∧
      Holds cap (put key cap a cells).2 (LruCache.put key cap a l) := by
  have hget := h.get key (key a)
  rw [LruArray.put, dropped, LruCache.put, others]
  rcases hcells : LruArray.get key cap (key a) cells with ⟨_ | b, cells'⟩
  · rcases hlist : LruCache.get key (key a) l with ⟨_ | b, l'⟩
    · rw [hcells, hlist] at hget
      exact ⟨hget.2.getD_last, hget.2.push hcap a⟩
    · rw [hcells, hlist] at hget
      cases hget.1
  · rcases hlist : LruCache.get key (key a) l with ⟨_ | b', l'⟩
    · rw [hcells, hlist] at hget
      cases hget.1
    · obtain ⟨hfront, -, -⟩ :=
        get_eq_some (show (LruCache.get key (key a) l).1 = some b' by rw [hlist])
      rw [hlist] at hfront
      obtain rfl : l' = _ := hfront
      rw [hcells, hlist] at hget
      refine ⟨hget.1, hget.2.length_le, ?_⟩
      -- the old entry stands in the first cell, which is written
      have hold : cells' = _ := hget.2.cells_eq
      rw [hold]
      rfl

end

end LruArray
