import PlContainer.Common.Channel.ArrayBlocks
import PlContainer.Library.Odometer

set_option autoImplicit false

/-! # Arrays in the Python client

An array argument becomes a nested list: `plc_pyobject_from_array_dim` recurses over the dimensions and
takes the elements one after the other. A list that is returned for an array type is sent by an
iterator: `plc_pyobject_as_array` reads the dimensions off the first elements, and
`plc_pyobject_as_array_next` goes through all elements with one position and one list for each
dimension. -/

namespace PlContainer

open Odometer

/-! ## Python objects -/

/-- A Python object as the array conversions see it: `None`; a list, or another sequence that is
    neither a `str` nor `bytes`; anything else. -/
inductive PyObj (α : Type) where
  | none
  | leaf (a : α)
  | list (items : List (PyObj α))

section

variable {α : Type}

/-- `PySequence_GetItem`, with nothing for `NULL`. Objects that are not lists may have items too, as a
    `str` has its characters. -/
def PyObj.getItem (item : α → ℕ → Option (PyObj α)) : PyObj α → ℕ → Option (PyObj α)
  | .none, _ => Option.none
  | .leaf a, i => item a i
  | .list items, i => items[i]?

/-! ## From arrays -/

/-- `n` rounds of a loop that carries a position. -/
def times {β : Type} (f : ℕ → Option (β × ℕ)) : ℕ → ℕ → Option (List β × ℕ)
  | 0, ipos => some ([], ipos)
  | n + 1, ipos =>
      (f ipos).bind fun r => (times f n r.2).map fun rs => (r.1 :: rs.1, rs.2)

/-- `plc_pyobject_from_array_dim`; nothing if a conversion fails. The position `ipos` is that of the
    null flag and of the entry. -/
def plcPyobjectFromArrayDim (inputfunc : Value → Option (PyObj α)) (nulls : List Bool)
    (data : List RawData) : List (BitVec 32) → ℕ → Option (PyObj α × ℕ)
  | [], ipos =>
      match nulls[ipos]? with
      | Option.none => Option.none
      | some true => some (.none, ipos + 1)
      | some false => ((data[ipos]?.join).bind inputfunc).map (·, ipos + 1)
  | d :: ds, ipos =>
      (times (plcPyobjectFromArrayDim inputfunc nulls data ds) d.toInt.toNat ipos).map fun r =>
        (.list r.1, r.2)

def plcPyobjectFromArray (inputfunc : Value → Option (PyObj α)) : Value → Option (PyObj α)
  | .array arrMeta nulls data =>
      if arrMeta.ndims = 0 then some (.list [])
      else
        (plcPyobjectFromArrayDim inputfunc nulls data
          (arrMeta.dims.take arrMeta.ndims.toInt.toNat) 0).map Prod.fst
  | _ => Option.none

/-! ## To arrays -/

/-- `PLC_MAX_ARRAY_DIMS` -/
def plcMaxArrayDims : ℕ := 10

/-- `PySequence_Length`, as an `int`. -/
def pyLength (items : List (PyObj α)) : ℤ := (BitVec.ofNat 32 items.length).toInt

mutual

/-- The lists that the loop of `plc_pyobject_as_array` finds, each as the first element of the one
    before, with their lengths. -/
def PyObj.stack : PyObj α → List (ℤ × PyObj α)
  | .list items =>
      (pyLength items, .list items) :: if 0 < pyLength items then PyObj.stackBelow items else []
  | _ => []

def PyObj.stackBelow : List (PyObj α) → List (ℤ × PyObj α)
  | [] => []
  | x :: _ => x.stack

end

/-- What `plc_pyobject_as_array` does with an object. -/
inductive AsArray (α : Type) where
  /-- it returns -1, and an error is reported -/
  | refused
  /-- it writes behind the local arrays `dims` and `stack` -/
  | overflow
  | iterator (dims : List ℕ) (ptrs : List (Level (PyObj α)))

def plcPyobjectAsArray (input : PyObj α) : AsArray α :=
  match input with
  | .list _ =>
      let stored := input.stack.takeWhile fun l => 0 ≤ l.1
      if plcMaxArrayDims < stored.length then .overflow
      else if stored.length < input.stack.length then .refused
      else .iterator (stored.map fun l => l.1.toNat) (stored.map fun l => ⟨0, some l.2⟩)
  -- "Cannot convert non-sequence object to array"
  | _ => .refused

/-- The field `size` of the iterator. -/
def iteratorSize (dims : List ℕ) : BitVec 32 := arraySize (dims.map (BitVec.ofNat 32))

/-- What is sent for an object that was fetched: `NULL` and `None` are nulls. -/
def pyElement {W : Type} (outputfunc : PyObj α → W) : Option (PyObj α) → Option W
  | Option.none => Option.none
  | some .none => Option.none
  | some o => some (outputfunc o)

/-- The elements that `plc_pyobject_as_array_next` fetches while `send_raw_array_iter` sends the array,
    each with its positions; nothing if the client releases a list that is not there. -/
def fetchAll (item : α → ℕ → Option (PyObj α)) (dims : List ℕ) (ptrs : List (Level (PyObj α))) :
    Option (List (List ℕ × Option (PyObj α)) × List (Level (PyObj α))) :=
  run (PyObj.getItem item) dims (iteratorSize dims).toInt.toNat ptrs

theorem foldl_mul_ofNat (dims : List ℕ) (acc : ℕ) :
    (dims.map (BitVec.ofNat 32)).foldl (· * ·) (BitVec.ofNat 32 acc)
      = BitVec.ofNat 32 (acc * dims.prod) := by
  induction dims generalizing acc with
  | nil => simp
  | cons d ds ih =>
      rw [List.map_cons, List.foldl_cons, ← BitVec.ofNat_mul, ih, List.prod_cons, Nat.mul_assoc]

/-- The size is the number of places of the box, reduced to 32 bits. -/
theorem iteratorSize_eq {dims : List ℕ} (hne : dims ≠ []) :
    iteratorSize dims = BitVec.ofNat 32 dims.prod := by
  have hmul := foldl_mul_ofNat dims 1
  rw [Nat.one_mul] at hmul
  rw [iteratorSize, arraySize, if_neg (by simpa using hne)]
  exact hmul

/-! ## The levels of the iterator -/

mutual

/-- Each list of the stack is the first item of the one before. -/
theorem PyObj.stack_descend (item : α → ℕ → Option (PyObj α)) : ∀ o : PyObj α,
    (o.stack.map fun l => (⟨0, some l.2⟩ : Level (PyObj α)))
      = descend (PyObj.getItem item) (some o) (o.stack.map fun l => l.1.toNat)
  | .none => rfl
  | .leaf _ => rfl
  | .list items => by
      rw [PyObj.stack, List.map_cons, List.map_cons, descend]
      split
      · exact congrArg _ (PyObj.stackBelow_descend item items)
      · rfl

theorem PyObj.stackBelow_descend (item : α → ℕ → Option (PyObj α)) : ∀ items : List (PyObj α),
    ((PyObj.stackBelow items).map fun l => (⟨0, some l.2⟩ : Level (PyObj α)))
      = descend (PyObj.getItem item) items[0]? ((PyObj.stackBelow items).map fun l => l.1.toNat)
  | [] => rfl
  | x :: _ => x.stack_descend item

end

/-- The iterator of a list starts at its first place. -/
theorem plcPyobjectAsArray_iterator (item : α → ℕ → Option (PyObj α)) {items : List (PyObj α)}
    {dims : List ℕ} {ptrs : List (Level (PyObj α))}
    (h : plcPyobjectAsArray (.list items) = .iterator dims ptrs) :
    dims = (PyObj.list items).stack.map (fun l => l.1.toNat) ∧
      ptrs = descend (PyObj.getItem item) (some (.list items)) dims := by
  rw [plcPyobjectAsArray] at h
  split at h
  · cases h
  · split at h
    · cases h
    next hall =>
      have hstored : (PyObj.list items).stack.takeWhile (fun l => 0 ≤ l.1)
          = (PyObj.list items).stack :=
        (List.takeWhile_prefix _).eq_of_length_le (Nat.le_of_not_lt hall)
      rw [hstored] at h
      cases h
      exact ⟨rfl, PyObj.stack_descend item _⟩

end

end PlContainer
