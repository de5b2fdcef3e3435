import PlContainer.Library.Block
import PlContainer.Library.ByteStream

set_option autoImplicit false

/-! # Memory cells: numbers and pointers in a block

A block whose cells hold bytes or parts of pointers. A pointer to an object takes eight cells, one
fragment each; it is read back only from its own eight fragments, in order. Objects are numbered, and
what they hold stands in a heap beside the block. -/

namespace Cells

open Block ByteStream

inductive Cell where
  | byte (b : UInt8)
  /-- byte `k` of a pointer to the object `obj` -/
  | fragment (obj k : ℕ)
deriving DecidableEq, Repr

/-! ## Numbers -/

def ofBytes (bs : List UInt8) : List Cell := bs.map .byte

/-- The bytes in the cells, unless one holds part of a pointer. -/
def bytes? : List Cell → Option (List UInt8)
  | [] => some []
  | .byte b :: cells => (bytes? cells).map (b :: ·)
  | .fragment _ _ :: _ => none

@[simp] theorem ofBytes_length (bs : List UInt8) : (ofBytes bs).length = bs.length := by
  simp [ofBytes]

@[simp] theorem bytes?_ofBytes (bs : List UInt8) : bytes? (ofBytes bs) = some bs := by
  induction bs with
  | nil => rfl
  | cons b bs ih =>
      rw [ofBytes, List.map_cons, bytes?]
      rw [ofBytes] at ih
      rw [ih, Option.map_some]

/-- The number of `n` bytes at `ptr`. -/
def word? (block : List Cell) (ptr n : ℕ) : Option ℕ := (bytes? (slice block ptr n)).map ofLeBytes

theorem word?_eq {block : List Cell} {ptr n : ℕ} {bs : List UInt8}
    (h : slice block ptr n = ofBytes bs) : word? block ptr n = some (ofLeBytes bs) := by
  rw [word?, h, bytes?_ofBytes, Option.map_some]

/-! ## Pointers -/

def pointer (obj : ℕ) : List Cell := (List.range 8).map (Cell.fragment obj)

def pointer? : List Cell → Option ℕ
  | .fragment obj k :: cells => if .fragment obj k :: cells = pointer obj then some obj else none
  | _ => none

@[simp] theorem pointer_length (obj : ℕ) : (pointer obj).length = 8 := by simp [pointer]

@[simp] theorem pointer?_pointer (obj : ℕ) : pointer? (pointer obj) = some obj :=
  if_pos (c := pointer obj = pointer obj) rfl

section Heap

variable {α : Type}

/-- What the pointer at `ptr` points to. -/
def deref? (heap : List α) (block : List Cell) (ptr : ℕ) : Option α :=
  (pointer? (slice block ptr 8)).bind (heap[·]?)

theorem deref?_eq {heap : List α} {block : List Cell} {ptr obj : ℕ} {a : α}
    (h : slice block ptr 8 = pointer obj) (hobj : heap[obj]? = some a) :
    deref? heap block ptr = some a := by
  rw [deref?, h, pointer?_pointer, Option.bind_some, hobj]

end Heap

end Cells
