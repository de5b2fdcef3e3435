import Mathlib.Data.List.Forall2

set_option autoImplicit false

/-! # Judging computations

A computation that fills in one item after the other can end in four ways: what it returns is right, it
is wrong, the input was refused with an error, or it got stuck where no error is meant to be. A `Verdict`
says which, and the verdict on a sequence of computations follows from those on its parts. -/

namespace Judging

/-- How a computation ends. -/
inductive Verdict where
  | right
  | wrong
  | refused
  | stuck
deriving DecidableEq, Repr

namespace Verdict

/-- One after the other: the first that does not return ends it, and one wrong part makes the whole
    wrong. -/
def seq : Verdict → Verdict → Verdict
  | .right, w => w
  | .wrong, .right => .wrong
  | .wrong, w => w
  | .refused, _ => .refused
  | .stuck, _ => .stuck

def all : List Verdict → Verdict
  | [] => .right
  | v :: vs => v.seq (all vs)

/-- Either the input was refused or the result is right. -/
def Settled (v : Verdict) : Prop := v = .right ∨ v = .refused

instance (v : Verdict) : Decidable v.Settled := inferInstanceAs (Decidable (_ ∨ _))

theorem all_eq_right {vs : List Verdict} (h : ∀ v ∈ vs, v = .right) : all vs = .right := by
  induction vs with
  | nil => rfl
  | cons v vs ih =>
    rw [List.forall_mem_cons] at h
    rw [all, h.1, ih h.2, seq]

end Verdict

variable {ε α β γ : Type}

/-- The verdict on a computation; some errors are refusals, and `H` says which results are right. -/
inductive Judged (refusal : ε → Prop) (H : α → Prop) : Except ε α → Verdict → Prop
  | right {a : α} : H a → Judged refusal H (.ok a) .right
  | wrong {a : α} : ¬ H a → Judged refusal H (.ok a) .wrong
  | refused {e : ε} : refusal e → Judged refusal H (.error e) .refused
  | stuck {e : ε} : ¬ refusal e → Judged refusal H (.error e) .stuck

namespace Judged

variable {refusal : ε → Prop} {H : α → Prop} {x : Except ε α} {v w : Verdict}

theorem settled_iff (h : Judged refusal H x v) :
    (∃ e, x = .error e ∧ refusal e) ∨ (∃ a, x = .ok a ∧ H a) ↔ v.Settled := by
  cases h with
  | right ha => exact iff_of_true (.inr ⟨_, rfl, ha⟩) (.inl rfl)
  | wrong ha =>
    refine iff_of_false ?_ (by decide)
    rintro (⟨e, ⟨⟩, -⟩ | ⟨a, ⟨⟩, h⟩)
    exact ha h
  | refused he => exact iff_of_true (.inl ⟨_, rfl, he⟩) (.inr rfl)
  | stuck he =>
    refine iff_of_false ?_ (by decide)
    rintro (⟨e, ⟨⟩, h⟩ | ⟨a, ⟨⟩, -⟩)
    exact he h

/-- A result that is known. -/
theorem of_ok {a : α} {p : Prop} [Decidable p] (h : H a ↔ p) :
    Judged refusal H (.ok a) (if p then .right else .wrong) := by
  split
  case isTrue hp => exact .right (h.2 hp)
  case isFalse hp => exact .wrong fun ha => hp (h.1 ha)

theorem map {H' : β → Prop} {f : α → β} (h : Judged refusal H x v) (hf : ∀ a, H' (f a) ↔ H a) :
    Judged refusal H' (x.map f) v := by
  cases h with
  | right ha => exact .right ((hf _).2 ha)
  | wrong ha => exact .wrong fun h => ha ((hf _).1 h)
  | refused he => exact .refused he
  | stuck he => exact .stuck he

theorem congr {H' : α → Prop} (h : Judged refusal H x v) (hH : ∀ a, H' a ↔ H a) :
    Judged refusal H' x v := by
  obtain rfl : H' = H := funext fun a => propext (hH a)
  exact h

/-- Two parts that are put together. -/
theorem seq {H' : β → Prop} {y : Except ε β} {K : γ → Prop} {f : α → β → γ}
    (hx : Judged refusal H x v) (hy : Judged refusal H' y w) (hf : ∀ a b, K (f a b) ↔ H a ∧ H' b) :
    Judged refusal K (do let a ← x; let b ← y; .ok (f a b)) (v.seq w) := by
  cases hx with
  | refused he => exact .refused he
  | stuck he => exact .stuck he
  | right ha =>
    cases hy with
    | right hb => exact .right ((hf _ _).2 ⟨ha, hb⟩)
    | wrong hb => exact .wrong fun h => hb ((hf _ _).1 h).2
    | refused he => exact .refused he
    | stuck he => exact .stuck he
  | wrong ha =>
    cases hy with
    | right hb => exact .wrong fun h => ha ((hf _ _).1 h).1
    | wrong hb => exact .wrong fun h => ha ((hf _ _).1 h).1
    | refused he => exact .refused he
    | stuck he => exact .stuck he

/-- A loop over a list. -/
theorem mapM {R : α → β → Prop} {f : α → Except ε β} {verdict : α → Verdict} {l : List α}
    (h : ∀ a ∈ l, Judged refusal (R a) (f a) (verdict a)) :
    Judged refusal (List.Forall₂ R l) (l.mapM f) (Verdict.all (l.map verdict)) := by
  induction l with
  | nil => exact .right .nil
  | cons a l ih =>
    rw [List.forall_mem_cons] at h
    rw [List.mapM_cons, List.map_cons, Verdict.all]
    exact h.1.seq (ih h.2) fun b bs => List.forall₂_cons

end Judged

end Judging
