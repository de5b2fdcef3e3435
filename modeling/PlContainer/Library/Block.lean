import Mathlib.Data.List.Basic

set_option autoImplicit false

/-! # Memory blocks: slices and overwrites

A block of memory is a list of cells. `slice` reads a range of it and `overwrite` stores into one;
the lemmas say what a slice of an overwritten block is. Offsets are counted from the block's start,
and every range is assumed to lie inside the block. -/

namespace Block

variable {α : Type}

/-- The `len` cells from offset `off` on. -/
def slice (b : List α) (off len : ℕ) : List α := (b.drop off).take len

/-- The block with `xs` stored from offset `off` on. -/
def overwrite (b : List α) (off : ℕ) (xs : List α) : List α :=
  b.take off ++ xs ++ b.drop (off + xs.length)

@[simp] theorem slice_zero (b : List α) (off : ℕ) : slice b off 0 = [] := by
  simp [slice]

theorem slice_length {b : List α} {off len : ℕ} (h : off + len ≤ b.length) :
    (slice b off len).length = len := by
  rw [slice, List.length_take, List.length_drop]
  omega

theorem overwrite_length {b : List α} {off : ℕ} {xs : List α} (h : off + xs.length ≤ b.length) :
    (overwrite b off xs).length = b.length := by
  simp only [overwrite, List.length_append, List.length_take, List.length_drop]
  omega

/-- A slice is cut at any point into two adjacent ones. -/
theorem slice_add (b : List α) (off m n : ℕ) :
    slice b off (m + n) = slice b off m ++ slice b (off + m) n := by
  rw [slice, slice, slice, List.take_add, List.drop_drop]

theorem take_slice (b : List α) (off : ℕ) {k len : ℕ} (h : k ≤ len) :
    (slice b off len).take k = slice b off k := by
  rw [slice, slice, List.take_take, Nat.min_eq_left h]

theorem drop_slice (b : List α) (off k len : ℕ) :
    (slice b off len).drop k = slice b (off + k) (len - k) := by
  rw [slice, slice, List.drop_take, List.drop_drop]

/-- The middle part of a block. -/
theorem slice_append_middle (a b c : List α) : slice (a ++ (b ++ c)) a.length b.length = b := by
  rw [slice, List.drop_left, List.take_left]

/-- Cells before the overwritten range keep their contents. -/
theorem slice_overwrite_before {b : List α} {off i n : ℕ} {xs : List α} (h : i + n ≤ off)
    (hoff : off ≤ b.length) : slice (overwrite b off xs) i n = slice b i n := by
  have hi : i ≤ (b.take off).length := by
    rw [List.length_take]
    omega
  have hn : n ≤ ((b.take off).drop i).length := by
    rw [List.length_drop, List.length_take]
    omega
  rw [slice, slice, overwrite, List.append_assoc, List.drop_append_of_le_length hi,
    List.take_append_of_le_length hn, List.drop_take, List.take_take]
  congr 1
  omega

/-- The overwritten range holds what was stored. -/
theorem slice_overwrite_self {b : List α} {off : ℕ} {xs : List α} (hoff : off ≤ b.length) :
    slice (overwrite b off xs) off xs.length = xs := by
  have hlen : (b.take off).length = off := by
    rw [List.length_take]
    omega
  rw [slice, overwrite, List.append_assoc, List.drop_append, hlen, Nat.sub_self, List.drop_zero,
    List.drop_of_length_le (by omega), List.nil_append]
  exact List.take_left

/-- Storing right after a slice extends it. -/
theorem slice_overwrite_append {b : List α} {off len : ℕ} {xs : List α}
    (h : off + len ≤ b.length) :
    slice (overwrite b (off + len) xs) off (len + xs.length) = slice b off len ++ xs := by
  rw [slice_add, slice_overwrite_before (Nat.le_refl _) h, slice_overwrite_self h]

end Block
