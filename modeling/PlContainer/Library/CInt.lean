import Mathlib.Algebra.Group.Int.Defs
import Mathlib.Data.Int.Notation

set_option autoImplicit false

/-! # Computations with C `int`s

A sum or a product that leaves the range of `int` is undefined in C. A computation here stops with
`overflow` at the first one; what it does until then is compared with a computation that knows nothing
of the range. -/

namespace CInt

variable {ε α β : Type}

/-- The values of an `int`. -/
def InRange (x : ℤ) : Prop := -2 ^ 31 ≤ x ∧ x < 2 ^ 31

instance (x : ℤ) : Decidable (InRange x) := inferInstanceAs (Decidable (_ ∧ _))

/-- How a computation stops. -/
inductive Stop (ε : Type) where
  | overflow
  | other (e : ε)
deriving DecidableEq

/-- The value of an expression, if it is an `int`. -/
def int (x : ℤ) : Except (Stop ε) ℤ := if InRange x then .ok x else .error .overflow

/-- A computation without arithmetic of its own. -/
def lift : Except ε α → Except (Stop ε) α
  | .ok a => .ok a
  | .error e => .error (.other e)

theorem int_bind_eq_ok {x : ℤ} {f : ℤ → Except (Stop ε) α} {a : α} :
    (int x >>= f) = .ok a ↔ InRange x ∧ f x = .ok a := by
  rw [int]
  split
  next hx => exact (and_iff_right hx).symm
  next hx => exact iff_of_false (by rintro ⟨⟩) fun h => hx h.1

theorem int_eq_ok {x : ℤ} (h : InRange x) : (int x : Except (Stop ε) ℤ) = .ok x := if_pos h

theorem lift_ok (a : α) : lift (.ok a : Except ε α) = .ok a := rfl

theorem lift_eq_ok {x : Except ε α} {a : α} : lift x = .ok a ↔ x = .ok a := by
  cases x with
  | error e => exact iff_of_false (by rintro ⟨⟩) (by rintro ⟨⟩)
  | ok a' => exact ⟨fun h => congrArg _ (Except.ok.inj h), fun h => congrArg _ (Except.ok.inj h)⟩

/-! ## Computations without overflow -/

/-- No value leaves the range. -/
def Defined (x : Except (Stop ε) α) : Prop := x ≠ .error .overflow

theorem defined_ok (a : α) : Defined (.ok a : Except (Stop ε) α) := by
  rintro ⟨⟩

theorem defined_int {x : ℤ} : Defined (int x : Except (Stop ε) ℤ) ↔ InRange x := by
  rw [int]
  split
  next hx => exact iff_of_true (defined_ok x) hx
  next hx => exact iff_of_false (fun h => h rfl) hx

theorem defined_int_bind {x : ℤ} {f : ℤ → Except (Stop ε) α} :
    Defined (int x >>= f) ↔ InRange x ∧ Defined (f x) := by
  rw [int]
  split
  next hx => exact (and_iff_right hx).symm
  next hx => exact iff_of_false (fun h => h rfl) fun h => hx h.1

theorem defined_lift (x : Except ε α) : Defined (lift x) := by
  cases x <;> rintro ⟨⟩

theorem Defined.bind {x : Except (Stop ε) α} {f : α → Except (Stop ε) β} (h : Defined x)
    (hf : ∀ a, x = .ok a → Defined (f a)) : Defined (x >>= f) := by
  cases x with
  | error e =>
      intro herr
      cases herr
      exact h rfl
  | ok a => exact hf a rfl

theorem Defined.of_bind {x : Except (Stop ε) α} {f : α → Except (Stop ε) β} (h : Defined (x >>= f)) :
    Defined x := by
  rintro rfl
  exact h rfl

theorem Defined.map {x : Except (Stop ε) α} (h : Defined x) (f : α → β) : Defined (f <$> x) :=
  h.bind fun a _ => defined_ok (f a)

/-! ## The same computation without the range -/

/-- The first computation stops with an overflow, or does what the second does. -/
def Agrees (x : Except (Stop ε) α) (y : Except ε α) : Prop := Defined x → x = lift y

theorem agrees_lift (y : Except ε α) : Agrees (lift y) y := fun _ => rfl

theorem agrees_int {x v : ℤ} (h : InRange x → x = v) :
    Agrees (int x) (.ok v : Except ε ℤ) := by
  intro hdef
  have hx := defined_int.1 hdef
  rw [int_eq_ok hx, h hx]
  rfl

theorem Agrees.int {x : ℤ} {f : ℤ → Except (Stop ε) α} {y : Except ε α}
    (h : InRange x → Agrees (f x) y) : Agrees (CInt.int x >>= f) y := by
  intro hdef
  obtain ⟨hx, hf⟩ := defined_int_bind.1 hdef
  rw [int_eq_ok hx]
  exact h hx hf

theorem Agrees.bind {x : Except (Stop ε) α} {y : Except ε α} {f : α → Except (Stop ε) β}
    {g : α → Except ε β} (h : Agrees x y) (hf : ∀ a, Agrees (f a) (g a)) :
    Agrees (x >>= f) (y >>= g) := by
  intro hdef
  have hx := h hdef.of_bind
  subst hx
  cases y with
  | error e => rfl
  | ok a => exact hf a hdef

/-- A value that is computed on the way. -/
theorem Agrees.value {x : Except (Stop ε) α} {v : α} {f : α → Except (Stop ε) β} {y : Except ε β}
    (h : Agrees x (.ok v)) (hf : Agrees (f v) y) : Agrees (x >>= f) y := by
  intro hdef
  have hx : x = .ok v := h hdef.of_bind
  subst hx
  exact hf hdef

theorem Agrees.map {x : Except (Stop ε) α} {y : Except ε α} (h : Agrees x y) (f : α → β) :
    Agrees (f <$> x) (f <$> y) :=
  h.bind fun a => agrees_lift (.ok (f a))

theorem Agrees.eq_ok {x : Except (Stop ε) α} {y : Except ε α} (h : Agrees x y) {a : α}
    (hx : x = .ok a) : y = .ok a := by
  have hlift := h (hx ▸ defined_ok a)
  exact lift_eq_ok.1 (hlift.symm.trans hx)

end CInt
