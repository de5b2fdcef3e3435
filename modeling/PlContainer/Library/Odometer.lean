import Mathlib.Data.List.Basic
import Mathlib.Algebra.BigOperators.Group.List.Basic

set_option autoImplicit false

/-! # Odometers: going through nested objects in row-major order

An object may have children, numbered from 0. An odometer goes through the places of a box of given
dimensions: for each dimension it has a level with a position and the object whose children it counts.
To advance, it counts the innermost level up; a level that has come to its end gives its object back
and the next outer level is counted up instead, and below a level that has been counted up the levels
start again from its new child. The object of a level may be absent, if the nesting does not have the
form of the box; such a level yields absent objects, and it cannot be given back. -/

namespace Odometer

variable {O : Type}

/-! ## Places -/

/-- The places of a box, in row-major order. -/
def box : List ℕ → List (List ℕ)
  | [] => [[]]
  | d :: ds => (List.range d).flatMap fun i => (box ds).map (i :: ·)

theorem length_box (dims : List ℕ) : (box dims).length = dims.prod := by
  induction dims with
  | nil => rfl
  | cons d ds ih => simp [box, List.length_flatMap, ih]

/-- The places of a box after those that start with `i`. -/
def later (d : ℕ) (ds : List ℕ) (i : ℕ) : List (List ℕ) :=
  (List.range' (i + 1) (d - (i + 1))).flatMap fun j => (box ds).map (j :: ·)

theorem box_cons_of_pos {d : ℕ} (h : 0 < d) (ds : List ℕ) :
    box (d :: ds) = (box ds).map (0 :: ·) ++ later d ds 0 := by
  obtain ⟨n, rfl⟩ : ∃ n, d = n + 1 := ⟨d - 1, by omega⟩
  rw [box, later, List.range_eq_range', List.range'_succ, List.flatMap_cons]
  rfl

theorem later_of_lt {d i : ℕ} (h : i + 1 < d) (ds : List ℕ) :
    later d ds i = (box ds).map ((i + 1) :: ·) ++ later d ds (i + 1) := by
  obtain ⟨n, hn⟩ : ∃ n, d - (i + 1) = n + 1 := ⟨d - (i + 1) - 1, by omega⟩
  have hrest : d - (i + 1 + 1) = n := by omega
  rw [later, later, hn, hrest, List.range'_succ, List.flatMap_cons]

theorem later_last {d i : ℕ} (h : i + 1 = d) (ds : List ℕ) : later d ds i = [] := by
  rw [later, h, Nat.sub_self]
  rfl

theorem box_ne_nil {dims : List ℕ} (h : ∀ d ∈ dims, 0 < d) : box dims ≠ [] := by
  induction dims with
  | nil => simp [box]
  | cons d ds ih =>
      have hds := ih fun x hx => h x (List.mem_cons_of_mem _ hx)
      simp [box_cons_of_pos (h d (List.mem_cons_self ..)), hds]

section Children

variable (child : O → ℕ → Option O)

/-- The object at a place. -/
def follow : Option O → List ℕ → Option O
  | o, [] => o
  | o, i :: path => follow (o.bind (child · i)) path

@[simp] theorem follow_none (path : List ℕ) : follow child none path = none := by
  induction path with
  | nil => rfl
  | cons i path ih => exact ih

/-! ## The odometer -/

structure Level (O : Type) where
  pos : ℕ
  obj : Option O

def positions (levels : List (Level O)) : List ℕ := levels.map Level.pos

/-- The child that the innermost level stands at. -/
def fetch : List (Level O) → Option O
  | [] => none
  | [l] => l.obj.bind (child · l.pos)
  | _ :: l :: levels => fetch (l :: levels)

/-- The levels for the dimensions, from the object `o` on and at the start of each. -/
def descend : Option O → List ℕ → List (Level O)
  | _, [] => []
  | o, _ :: ds => ⟨0, o⟩ :: descend (o.bind (child · 0)) ds

/-- Count up, from the innermost level outwards. Says also whether all levels have come to their end;
    fails when the object of a level that has come to its end is absent. -/
def advance : List ℕ → List (Level O) → Option (Bool × List (Level O))
  | d :: ds, l :: levels =>
      (advance ds levels).bind fun r =>
        if r.1 then
          if l.pos + 1 = d then
            if l.obj.isSome then some (true, ⟨0, none⟩ :: r.2) else none
          else
            some (false, ⟨l.pos + 1, l.obj⟩ :: descend child (l.obj.bind (child · (l.pos + 1))) ds)
        else some (false, l :: r.2)
  | _, levels => some (true, levels)

/-- `n` steps, with the place and the object of each. -/
def run (dims : List ℕ) : ℕ → List (Level O) →
    Option (List (List ℕ × Option O) × List (Level O))
  | 0, levels => some ([], levels)
  | n + 1, levels =>
      (advance child dims levels).bind fun r =>
        (run dims n r.2).map fun rs => ((positions levels, fetch child levels) :: rs.1, rs.2)

/-- All levels have given their objects back. -/
def released (n : ℕ) : List (Level O) := List.replicate n ⟨0, none⟩

/-! ## What is given back -/

/-- All positions are the last ones. -/
def closes : List ℕ → List ℕ → Bool
  | d :: ds, i :: path => closes ds path && i + 1 == d
  | _, _ => true

/-- After the place, each object that is given back is there. -/
def GivesBack : Option O → List ℕ → List ℕ → Prop
  | o, d :: ds, i :: path =>
      GivesBack (o.bind (child · i)) ds path ∧ (closes (d :: ds) (i :: path) = true → o.isSome)
  | _, _, _ => True

instance decidableGivesBack : ∀ (o : Option O) (dims path : List ℕ),
    Decidable (GivesBack child o dims path)
  | _, [], _ => isTrue trivial
  | _, _ :: _, [] => isTrue trivial
  | o, _ :: ds, i :: path =>
      have := decidableGivesBack (o.bind (child · i)) ds path
      inferInstanceAs (Decidable (_ ∧ (_ → _)))

variable {child}

theorem isSome_of_follow {o : Option O} {path : List ℕ} (h : (follow child o path).isSome) :
    o.isSome := by
  cases o with
  | none => simp at h
  | some a => rfl

theorem givesBack_of_follow {o : Option O} {dims path : List ℕ} (h : (follow child o path).isSome) :
    GivesBack child o dims path := by
  induction path generalizing o dims with
  | nil => cases dims <;> trivial
  | cons i path ih =>
      cases dims with
      | nil => trivial
      | cons d ds => exact ⟨ih h, fun _ => isSome_of_follow h⟩

variable (child)

/-! ## Where it stands -/

/-- The levels stand at the first of the places `todo` below the object `o`. -/
inductive Stands : Option O → List ℕ → List (Level O) → List (List ℕ) → Prop
  | nil (o : Option O) : Stands o [] [] [[]]
  | cons {o : Option O} {d i : ℕ} {ds : List ℕ} {levels : List (Level O)} {todo : List (List ℕ)}
      (hlt : i < d) (h : Stands (o.bind (child · i)) ds levels todo) :
      Stands o (d :: ds) (⟨i, o⟩ :: levels) (todo.map (i :: ·) ++ later d ds i)

variable {child}

theorem stands_descend (o : Option O) {dims : List ℕ} (hpos : ∀ d ∈ dims, 0 < d) :
    Stands child o dims (descend child o dims) (box dims) := by
  induction dims generalizing o with
  | nil => exact .nil o
  | cons d ds ih =>
      rw [box_cons_of_pos (hpos d (List.mem_cons_self ..)), descend]
      exact .cons (hpos d (List.mem_cons_self ..)) (ih _ fun x hx => hpos x (List.mem_cons_of_mem _ hx))

theorem Stands.fetch {o : Option O} {dims : List ℕ} {levels : List (Level O)} {todo : List (List ℕ)}
    (h : Stands child o dims levels todo) (hne : dims ≠ []) :
    Odometer.fetch child levels = follow child o (positions levels) := by
  induction h with
  | nil => exact absurd rfl hne
  | cons hlt h ih =>
      cases h with
      | nil => rfl
      | cons hlt' h' => exact ih (List.cons_ne_nil _ _)

/-- What one step does: the place is the first one of `todo`; then all levels are given back if there
    is no other place, and otherwise the levels stand at the next one. -/
theorem Stands.advance {o : Option O} {dims : List ℕ} {levels : List (Level O)}
    {todo : List (List ℕ)} (hpos : ∀ d ∈ dims, 0 < d) (h : Stands child o dims levels todo) :
    ∃ rest, todo = positions levels :: rest ∧
      ∀ r, Odometer.advance child dims levels = some r →
        r.1 = closes dims (positions levels) ∧
          (rest = [] ∧ r = (true, released dims.length) ∨
            rest ≠ [] ∧ r.1 = false ∧ Stands child o dims r.2 rest) := by
  induction h with
  | nil o =>
      refine ⟨[], rfl, ?_⟩
      rintro r ⟨⟩
      exact ⟨rfl, .inl ⟨rfl, rfl⟩⟩
  | @cons o d i ds levels todo hlt h ih =>
      have hds : ∀ x ∈ ds, 0 < x := fun x hx => hpos x (List.mem_cons_of_mem _ hx)
      obtain ⟨rest, rfl, hinner⟩ := ih hds
      refine ⟨rest.map (i :: ·) ++ later d ds i, rfl, ?_⟩
      intro r hr
      obtain ⟨r', hr', hr⟩ := Option.bind_eq_some_iff.1 hr
      obtain ⟨hcloses, hinner⟩ := hinner r' hr'
      have hcons : closes (d :: ds) (positions (⟨i, o⟩ :: levels)) = (r'.1 && i + 1 == d) := by
        rw [hcloses]
        rfl
      rw [hcons]
      rcases hinner with ⟨rfl, rfl⟩ | ⟨hrest, hcarry, hstands⟩
      · -- the inner levels have come to their end
        simp only [if_true] at hr
        split at hr
        next hlast =>
          split at hr
          · cases hr
            exact ⟨by simp [hlast], .inl ⟨by simp [later_last hlast], rfl⟩⟩
          · cases hr
        next hlast =>
          cases hr
          have hnext : i + 1 < d := by omega
          refine ⟨by simp [hlast], .inr ⟨?_, rfl, ?_⟩⟩
          · simp [later_of_lt hnext, box_ne_nil hds]
          · rw [List.map_nil, List.nil_append, later_of_lt hnext]
            exact .cons hnext (stands_descend _ hds)
      · rw [hcarry] at hr ⊢
        cases hr
        refine ⟨rfl, .inr ⟨by simp [hrest], rfl, ?_⟩⟩
        exact .cons hlt hstands

/-- A step fails exactly where an object that is given back is absent. -/
theorem Stands.isSome_advance {o : Option O} {dims : List ℕ} {levels : List (Level O)}
    {todo : List (List ℕ)} (hpos : ∀ d ∈ dims, 0 < d) (h : Stands child o dims levels todo) :
    (Odometer.advance child dims levels).isSome ↔ GivesBack child o dims (positions levels) := by
  induction h with
  | nil o => exact iff_of_true rfl trivial
  | @cons o d i ds levels todo hlt h ih =>
      have hds : ∀ x ∈ ds, 0 < x := fun x hx => hpos x (List.mem_cons_of_mem _ hx)
      rw [positions, List.map_cons, GivesBack, closes]
      refine Iff.trans ?_ (and_congr_left' (ih hds))
      rw [Odometer.advance]
      cases hinner : Odometer.advance child ds levels with
      | none => simp
      | some r =>
          obtain ⟨rest, -, hstep⟩ := h.advance hds
          have hcloses : closes ds (levels.map Level.pos) = r.1 := (hstep r hinner).1.symm
          rw [hcloses, Option.bind_some]
          cases r.1 with
          | false => simp
          | true =>
              by_cases hlast : i + 1 = d
              · by_cases ho : o.isSome <;> simp [hlast, ho]
              · simp [hlast]

/-- What `n` steps do, as far as there are places. -/
theorem Stands.run {o : Option O} {dims : List ℕ} {levels : List (Level O)} {todo : List (List ℕ)}
    (hne : dims ≠ []) (hpos : ∀ d ∈ dims, 0 < d) (h : Stands child o dims levels todo) {n : ℕ}
    (hn : n ≤ todo.length) :
    (∀ r, Odometer.run child dims n levels = some r →
      r.1 = (todo.take n).map (fun path => (path, follow child o path)) ∧
        (0 < n → n = todo.length → r.2 = released dims.length)) ∧
    ((Odometer.run child dims n levels).isSome ↔
      ∀ path ∈ todo.take n, GivesBack child o dims path) := by
  induction n generalizing levels todo with
  | zero =>
      refine ⟨?_, iff_of_true rfl (by simp)⟩
      rintro r ⟨⟩
      exact ⟨by simp, by simp⟩
  | succ n ih =>
      have hfetch := h.fetch hne
      have hsome := h.isSome_advance hpos
      obtain ⟨rest, rfl, hstep⟩ := h.advance hpos
      rw [List.length_cons, Nat.add_le_add_iff_right] at hn
      rw [List.take_succ_cons, List.map_cons, Odometer.run, List.forall_mem_cons, ← hsome]
      cases hadvance : Odometer.advance child dims levels with
      | none => simp
      | some r =>
          simp only [Option.bind_some, Option.isSome_some, true_and, Option.isSome_map,
            Option.map_eq_some_iff]
          rcases (hstep r hadvance).2 with ⟨rfl, rfl⟩ | ⟨hrest, -, hstands⟩
          · obtain rfl : n = 0 := by simpa using hn
            refine ⟨?_, iff_of_true rfl (by simp)⟩
            rintro _ ⟨rs, hrs, rfl⟩
            cases hrs
            exact ⟨by simp [hfetch], fun _ _ => rfl⟩
          · refine ⟨?_, (ih hstands hn).2⟩
            rintro _ ⟨rs, hrs, rfl⟩
            obtain ⟨hfst, hlast⟩ := (ih hstands hn).1 rs hrs
            refine ⟨by rw [hfst, hfetch], fun _ hlen => ?_⟩
            have hall : n = rest.length := by simpa using hlen
            exact hlast (by rw [hall]; exact List.length_pos_iff.2 hrest) hall

end Children

end Odometer
