import PlContainer.Clients.Python.Arrays
import Mathlib.Algebra.BigOperators.Group.List.Lemmas

set_option autoImplicit false

/-! # An array that a Python function returns as it got it

The recursion that builds the nested list and the iterator that takes it apart both go through the
elements in row-major order. The first is followed along the dimensions: the list it builds holds the
elements that it has passed. Of such a list the iterator sees the same dimensions, and at every place of
the box the element that belongs there. -/

namespace PlContainer

open Odometer

variable {α : Type}

/-! ## Lists of the form of a box -/

/-- The object is nested as the dimensions say, and its leaves are `xs`. -/
def PyObj.Holds : List ℕ → PyObj α → List (PyObj α) → Prop
  | [], o, xs => xs = [o]
  | d :: ds, o, xs =>
      ∃ items xss, o = .list items ∧ items.length = d ∧ List.Forall₂ (PyObj.Holds ds) items xss ∧
        xs = xss.flatten

theorem range_flatMap_getElem? {β γ : Type} (l : List β) (g : Option β → List γ) :
    (List.range l.length).flatMap (fun i => g l[i]?) = l.flatMap fun x => g (some x) := by
  have hmap : (List.range l.length).map (fun i => l[i]?) = l.map some := by
    apply List.ext_getElem?
    intro i
    by_cases hi : i < l.length
    · simp [hi]
    · simp [Nat.le_of_not_lt hi]
  calc (List.range l.length).flatMap (fun i => g l[i]?)
      = ((List.range l.length).map fun i => l[i]?).flatMap g := by rw [List.flatMap_map]
    _ = l.flatMap fun x => g (some x) := by rw [hmap, List.flatMap_map]

/-- At the places of the box stand the leaves. -/
theorem PyObj.Holds.follow_box (item : α → ℕ → Option (PyObj α)) {dims : List ℕ} {o : PyObj α}
    {xs : List (PyObj α)} (h : PyObj.Holds dims o xs) :
    (box dims).map (follow (PyObj.getItem item) (some o)) = xs.map some := by
  induction dims generalizing o xs with
  | nil =>
      obtain rfl : xs = [o] := h
      rfl
  | cons d ds ih =>
      obtain ⟨items, xss, rfl, rfl, hall, rfl⟩ := h
      have hplaces : (box (items.length :: ds)).map
            (follow (PyObj.getItem item) (some (.list items)))
          = (List.range items.length).flatMap
            fun i => (box ds).map (follow (PyObj.getItem item) items[i]?) := by
        rw [box, List.map_flatMap]
        simp only [List.map_map]
        rfl
      rw [hplaces, range_flatMap_getElem? items fun o => (box ds).map (follow (PyObj.getItem item) o)]
      clear hplaces
      induction hall with
      | nil => rfl
      | cons hx _ ihall =>
          rw [List.flatMap_cons, List.flatten_cons, List.map_append, ih hx, ihall]

theorem PyObj.Holds.length_eq {dims : List ℕ} {o : PyObj α} {xs : List (PyObj α)}
    (h : PyObj.Holds dims o xs) : xs.length = dims.prod := by
  have hlength := congrArg List.length (h.follow_box fun _ _ => Option.none)
  rw [List.length_map, List.length_map, length_box] at hlength
  exact hlength.symm

/-- The object is not taken for a list. -/
def PyObj.IsLeaf : PyObj α → Prop
  | .list _ => False
  | _ => True

theorem pyLength_eq {items : List (PyObj α)} (h : items.length < 2 ^ 31) :
    pyLength items = items.length := toInt_ofNat32 h

/-- The dimensions are read off the first elements. -/
theorem PyObj.Holds.stack {dims : List ℕ} (hpos : ∀ d ∈ dims, 0 < d ∧ d < 2 ^ 31) {o : PyObj α}
    {xs : List (PyObj α)} (h : PyObj.Holds dims o xs) (hleaf : ∀ x ∈ xs, x.IsLeaf) :
    o.stack.map Prod.fst = dims.map Int.ofNat := by
  induction dims generalizing o xs with
  | nil =>
      obtain rfl : xs = [o] := h
      have ho := hleaf o (List.mem_singleton_self o)
      cases o with
      | list items => exact ho.elim
      | _ => rfl
  | cons d ds ih =>
      obtain ⟨items, xss, rfl, rfl, hall, rfl⟩ := h
      rw [List.forall_mem_cons] at hpos
      have hlen := pyLength_eq hpos.1.2
      rw [PyObj.stack, if_pos (by omega), List.map_cons, List.map_cons, hlen]
      refine congrArg _ ?_
      cases hall with
      | nil => simp at hpos
      | cons hx _ =>
          refine ih hpos.2 hx fun x hmem => hleaf x ?_
          rw [List.flatten_cons]
          exact List.mem_append_left _ hmem

theorem PyObj.Holds.asArray (item : α → ℕ → Option (PyObj α)) {dims : List ℕ} (hne : dims ≠ [])
    (hmax : dims.length ≤ plcMaxArrayDims) (hpos : ∀ d ∈ dims, 0 < d ∧ d < 2 ^ 31) {o : PyObj α}
    {xs : List (PyObj α)} (h : PyObj.Holds dims o xs) (hleaf : ∀ x ∈ xs, x.IsLeaf) :
    plcPyobjectAsArray o
      = .iterator dims (descend (PyObj.getItem item) (some o) dims) := by
  have hstack := h.stack hpos hleaf
  have hlength : o.stack.length = dims.length := by
    simpa using congrArg List.length hstack
  have hstored : o.stack.takeWhile (fun l => 0 ≤ l.1) = o.stack := by
    rw [List.takeWhile_eq_self_iff]
    intro l hl
    have hmem : l.1 ∈ dims.map Int.ofNat := hstack ▸ List.mem_map_of_mem hl
    obtain ⟨d, -, hd⟩ := List.mem_map.1 hmem
    rw [← hd]
    simp
  have hdims : o.stack.map (fun l => l.1.toNat) = dims := by
    have hnat := congrArg (List.map Int.toNat) hstack
    rw [List.map_map, List.map_map] at hnat
    exact hnat.trans (List.map_id dims)
  cases dims with
  | nil => exact absurd rfl hne
  | cons d ds =>
      obtain ⟨items, xss, rfl, -⟩ := h
      rw [plcPyobjectAsArray, hstored, if_neg (by omega), if_neg (by omega), hdims,
        PyObj.stack_descend item, hdims]

/-! ## Building the list -/

section Build

variable {inputfunc : Value → Option (PyObj α)} {elems : List RawData}

/-- The object for an element of the array. -/
def elementObject (inputfunc : Value → Option (PyObj α)) : RawData → Option (PyObj α)
  | Option.none => some .none
  | some v => inputfunc v

/-- The objects `xs` are those of the elements from `ipos` on. -/
def ObjectsAt (inputfunc : Value → Option (PyObj α)) (elems : List RawData) (ipos : ℕ)
    (xs : List (PyObj α)) : Prop :=
  xs.map some = ((elems.drop ipos).take xs.length).map (elementObject inputfunc)

theorem ObjectsAt.append {ipos : ℕ} {xs ys : List (PyObj α)}
    (hxs : ObjectsAt inputfunc elems ipos xs)
    (hys : ObjectsAt inputfunc elems (ipos + xs.length) ys) :
    ObjectsAt inputfunc elems ipos (xs ++ ys) := by
  rw [ObjectsAt] at hxs hys ⊢
  rw [List.map_append, List.length_append, List.take_add, List.map_append, List.drop_drop, hxs, hys]

/-- A loop each of whose rounds builds one item builds the items of a list. -/
theorem holds_times {f : ℕ → Option (PyObj α × ℕ)} {dims : List ℕ}
    (hf : ∀ ipos o next, f ipos = some (o, next) →
      ∃ xs, PyObj.Holds dims o xs ∧ next = ipos + xs.length ∧ ObjectsAt inputfunc elems ipos xs)
    {n ipos next : ℕ} {items : List (PyObj α)} (h : times f n ipos = some (items, next)) :
    ∃ xss, List.Forall₂ (PyObj.Holds dims) items xss ∧ items.length = n ∧
      next = ipos + xss.flatten.length ∧ ObjectsAt inputfunc elems ipos xss.flatten := by
  induction n generalizing ipos items with
  | zero =>
      cases h
      exact ⟨[], .nil, rfl, rfl, rfl⟩
  | succ n ih =>
      obtain ⟨⟨o, mid⟩, ho, h⟩ := Option.bind_eq_some_iff.1 h
      obtain ⟨⟨os, last⟩, hos, hpair⟩ := Option.map_eq_some_iff.1 h
      cases hpair
      obtain ⟨xs, hxs, rfl, hobjects⟩ := hf ipos o mid ho
      obtain ⟨xss, hall, rfl, rfl, hothers⟩ := ih hos
      refine ⟨xs :: xss, .cons hxs hall, rfl, ?_, ?_⟩
      · rw [List.flatten_cons, List.length_append]
        omega
      · rw [List.flatten_cons]
        exact hobjects.append hothers

/-- The recursion passes as many elements as the dimensions say, and builds a list of them. -/
theorem holds_plcPyobjectFromArrayDim {dims : List ℕ} (hdims : ∀ d ∈ dims, d < 2 ^ 31) {ipos next : ℕ}
    {o : PyObj α}
    (h : plcPyobjectFromArrayDim inputfunc (elems.map Option.isNone) elems
      (dims.map (BitVec.ofNat 32)) ipos = some (o, next)) :
    ∃ xs, PyObj.Holds dims o xs ∧ next = ipos + xs.length ∧ ObjectsAt inputfunc elems ipos xs := by
  induction dims generalizing ipos next o with
  | nil =>
      rw [List.map_nil, plcPyobjectFromArrayDim, List.getElem?_map] at h
      cases helem : elems[ipos]? with
      | none =>
          rw [helem] at h
          cases h
      | some e =>
          obtain ⟨hlt, he⟩ := List.getElem?_eq_some_iff.1 helem
          have hobject : elementObject inputfunc e = some o ∧ next = ipos + 1 := by
            rw [helem] at h
            cases e with
            | none =>
                cases h
                exact ⟨rfl, rfl⟩
            | some v =>
                obtain ⟨o', ho', hpair⟩ := Option.map_eq_some_iff.1 h
                cases hpair
                exact ⟨ho', rfl⟩
          refine ⟨[o], rfl, hobject.2, ?_⟩
          rw [ObjectsAt, List.drop_eq_getElem_cons hlt, he]
          simp [hobject.1]
  | cons d ds ih =>
      rw [List.forall_mem_cons] at hdims
      rw [List.map_cons, plcPyobjectFromArrayDim] at h
      obtain ⟨⟨items, last⟩, hitems, hpair⟩ := Option.map_eq_some_iff.1 h
      cases hpair
      rw [toInt_ofNat32 hdims.1, Int.toNat_natCast] at hitems
      obtain ⟨xss, hall, hlen, hnext, hobjects⟩ := holds_times (fun _ _ _ h => ih hdims.2 h) hitems
      exact ⟨xss.flatten, ⟨items, xss, rfl, hlen, hall, rfl⟩, hnext, hobjects⟩

end Build

/-! ## The echo -/

/-- An array on the wire with 1 to 10 dimensions, none of which is empty. -/
structure PyWireArray where
  type : PlcDatatype
  dims : List ℕ
  elems : List RawData
  ndims_ne : dims ≠ []
  ndims_le : dims.length ≤ plcMaxArrayDims
  dims_pos : ∀ d ∈ dims, 0 < d
  length_elems : elems.length = dims.prod
  length_lt : elems.length < 2 ^ 31

/-- The `plcArray` that the client receives. -/
def PyWireArray.value (array : PyWireArray) : Value :=
  .array ⟨array.type, BitVec.ofNat 32 array.dims.length, array.dims.map (BitVec.ofNat 32),
    BitVec.ofNat 32 array.elems.length⟩ (array.elems.map Option.isNone) array.elems

theorem PyWireArray.dims_lt (array : PyWireArray) : ∀ d ∈ array.dims, 0 < d ∧ d < 2 ^ 31 := by
  intro d hd
  have hlt := array.length_lt
  rw [array.length_elems] at hlt
  have hprod : 0 < array.dims.prod := by
    rw [← length_box]
    exact List.length_pos_iff.2 (box_ne_nil array.dims_pos)
  exact ⟨array.dims_pos d hd, lt_of_le_of_lt (Nat.le_of_dvd hprod (List.dvd_prod hd)) hlt⟩

/-- The size of the iterator is the number of elements. -/
theorem toInt_iteratorSize {dims : List ℕ} (hne : dims ≠ []) (hprod : dims.prod < 2 ^ 31) :
    (iteratorSize dims).toInt = (dims.prod : ℕ) := by
  rw [iteratorSize_eq hne]
  exact toInt_ofNat32 hprod

/-- The list that is built has the form of the array, with the objects of its elements. -/
theorem PyWireArray.holds (array : PyWireArray) {inputfunc : Value → Option (PyObj α)} {o : PyObj α}
    (h : plcPyobjectFromArray inputfunc array.value = some o) :
    ∃ xs, PyObj.Holds array.dims o xs ∧
      xs.map some = array.elems.map (elementObject inputfunc) := by
  have hmax := array.ndims_le
  rw [plcMaxArrayDims] at hmax
  have hndims : (BitVec.ofNat 32 array.dims.length).toInt.toNat = array.dims.length := by
    rw [toInt_ofNat32 (by omega), Int.toNat_natCast]
  have hne : BitVec.ofNat 32 array.dims.length ≠ 0 := by
    intro hzero
    rw [hzero] at hndims
    exact array.ndims_ne (List.length_eq_zero_iff.1 hndims.symm)
  rw [PyWireArray.value, plcPyobjectFromArray, if_neg hne] at h
  obtain ⟨⟨o', last⟩, hdim, rfl⟩ := Option.map_eq_some_iff.1 h
  dsimp only at hdim
  rw [hndims, List.take_of_length_le (by simp)] at hdim
  obtain ⟨xs, hxs, -, hobjects⟩ :=
    holds_plcPyobjectFromArrayDim (fun d hd => (array.dims_lt d hd).2) hdim
  refine ⟨xs, hxs, ?_⟩
  rw [ObjectsAt, List.drop_zero, hxs.length_eq, ← array.length_elems, List.take_length] at hobjects
  exact hobjects

/-- The iterator fetches the leaves of a list of the form of a box. -/
theorem PyObj.Holds.fetchAll (item : α → ℕ → Option (PyObj α)) {dims : List ℕ} (hne : dims ≠ [])
    (hpos : ∀ d ∈ dims, 0 < d) (hprod : dims.prod < 2 ^ 31) {o : PyObj α}
    {xs : List (PyObj α)} (h : PyObj.Holds dims o xs) :
    ∃ fetched, PlContainer.fetchAll item dims (descend (PyObj.getItem item) (some o) dims)
        = some (fetched, released dims.length) ∧
      fetched.map Prod.snd = xs.map some := by
  have hbox := h.follow_box item
  have hfound : ∀ path ∈ box dims, (follow (PyObj.getItem item) (some o) path).isSome := by
    intro path hpath
    have hmem : follow (PyObj.getItem item) (some o) path ∈ xs.map some :=
      hbox ▸ List.mem_map_of_mem hpath
    obtain ⟨x, -, hx⟩ := List.mem_map.1 hmem
    rw [← hx]
    rfl
  have hstands : Stands (PyObj.getItem item) (some o) dims
      (descend (PyObj.getItem item) (some o) dims) (box dims) :=
    stands_descend _ hpos
  have hrun := hstands.run hne hpos (Nat.le_refl _)
  rw [List.take_length, length_box] at hrun
  obtain ⟨⟨fetched, final⟩, hfetched⟩ :=
    Option.isSome_iff_exists.1 (hrun.2.2 fun path hpath => givesBack_of_follow (hfound path hpath))
  obtain ⟨hplaces, hfinal⟩ := hrun.1 _ hfetched
  have hsome : 0 < dims.prod := by
    rw [← length_box]
    exact List.length_pos_iff.2 (box_ne_nil hpos)
  obtain rfl : final = released dims.length := hfinal hsome rfl
  refine ⟨fetched, ?_, ?_⟩
  · rw [PlContainer.fetchAll, toInt_iteratorSize hne hprod, Int.toNat_natCast, hfetched]
  · dsimp only at hplaces
    rw [hplaces, List.map_map, ← hbox]
    rfl

/-- Two rows of two numbers, one of them null. -/
def twoByTwo : PyWireArray where
  type := .int4
  dims := [2, 2]
  elems := [some (.int4 1), Option.none, some (.int4 3), some (.int4 4)]
  ndims_ne := by decide
  ndims_le := by decide
  dims_pos := by decide
  length_elems := rfl
  length_lt := by decide

/-- An `int4` as the number it is. -/
def int4Object : Value → Option (PyObj ℤ)
  | .int4 v => some (.leaf v.toInt)
  | _ => Option.none

end PlContainer
