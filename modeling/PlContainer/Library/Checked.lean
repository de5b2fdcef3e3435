import PlContainer.Library.Runs
import Mathlib.Data.List.Forall2

set_option autoImplicit false

/-! # Computations with checks

A function that checks its input returns a value or an error. `Succeeds` says that all its checks
pass. The rules below take a sequence of checks apart, and turn a loop that checks one item after the
other into a condition on each item and the part of the state that the checks look at. -/

namespace Checked

open Runs

variable {ε α β γ : Type}

/-- All checks pass. -/
def Succeeds (x : Except ε α) : Prop := ∃ a, x = .ok a

theorem ok_bind (a : α) (f : α → Except ε β) : (Except.ok a >>= f) = f a := rfl

theorem bind_eq_ok {x : Except ε α} {f : α → Except ε β} {b : β} :
    (x >>= f) = .ok b ↔ ∃ a, x = .ok a ∧ f a = .ok b := by
  cases x with
  | error e => exact iff_of_false (fun h => nomatch h) (by rintro ⟨a, ⟨⟩, -⟩)
  | ok a => exact ⟨fun h => ⟨a, rfl, h⟩, by rintro ⟨_, ⟨⟩, h⟩; exact h⟩

theorem pure_eq_ok {a b : α} : (pure a : Except ε α) = .ok b ↔ a = b :=
  ⟨fun h => by cases h; rfl, fun h => h ▸ rfl⟩

theorem map_eq_ok {x : Except ε α} {f : α → β} {b : β} :
    f <$> x = .ok b ↔ ∃ a, x = .ok a ∧ f a = b := by
  cases x with
  | error e => exact iff_of_false (fun h => nomatch h) (by rintro ⟨a, ⟨⟩, -⟩)
  | ok a => exact ⟨fun h => ⟨a, rfl, Except.ok.inj h⟩, by rintro ⟨_, ⟨⟩, h⟩; exact congrArg _ h⟩

theorem throw_eq_ok {e : ε} {a : α} : (throw e : Except ε α) = .ok a ↔ False :=
  ⟨(fun h => nomatch h), False.elim⟩

theorem succeeds_pure (a : α) : Succeeds (pure a : Except ε α) := ⟨a, rfl⟩

theorem not_succeeds_throw (e : ε) : ¬ Succeeds (throw e : Except ε α) := by
  rintro ⟨a, h⟩
  exact throw_eq_ok.1 h

theorem succeeds_bind {x : Except ε α} {f : α → Except ε β} :
    Succeeds (x >>= f) ↔ ∃ a, x = .ok a ∧ Succeeds (f a) := by
  constructor
  · rintro ⟨b, h⟩
    obtain ⟨a, hx, hf⟩ := bind_eq_ok.1 h
    exact ⟨a, hx, b, hf⟩
  · rintro ⟨a, hx, b, hf⟩
    exact ⟨b, bind_eq_ok.2 ⟨a, hx, hf⟩⟩

theorem succeeds_bind_congr {x : Except ε α} {f : α → Except ε β} {g : α → Except ε γ}
    (h : ∀ a, Succeeds (f a) ↔ Succeeds (g a)) : Succeeds (x >>= f) ↔ Succeeds (x >>= g) := by
  rw [succeeds_bind, succeeds_bind]
  exact exists_congr fun a => and_congr_right fun _ => h a

theorem succeeds_map {x : Except ε α} {f : α → β} : Succeeds (f <$> x) ↔ Succeeds x := by
  cases x with
  | error e => exact iff_of_false (not_succeeds_throw e) (not_succeeds_throw e)
  | ok b => exact iff_of_true (succeeds_pure (f b)) (succeeds_pure b)

/-- A check whose value does not matter for the success of the rest. -/
theorem succeeds_bind_of {x : Except ε α} {f : α → Except ε β} {q : Prop}
    (h : ∀ a, x = .ok a → (Succeeds (f a) ↔ q)) : Succeeds (x >>= f) ↔ Succeeds x ∧ q := by
  rw [succeeds_bind]
  constructor
  · rintro ⟨a, hx, hf⟩
    exact ⟨⟨a, hx⟩, (h a hx).1 hf⟩
  · rintro ⟨⟨a, hx⟩, hq⟩
    exact ⟨a, hx, (h a hx).2 hq⟩

/-- A check followed by others. -/
theorem succeeds_seq {x : Except ε α} {f : α → Except ε β} {p q : Prop} (hx : Succeeds x ↔ p)
    (hf : ∀ a, Succeeds (f a) ↔ q) : Succeeds (x >>= f) ↔ p ∧ q := by
  rw [succeeds_bind_of fun a _ => hf a, hx]

theorem succeeds_bind_pure {x : Except ε α} {f : α → β} :
    Succeeds (do let a ← x; pure (f a)) ↔ Succeeds x := by
  rw [succeeds_bind_of (q := True) fun a _ => iff_of_true (succeeds_pure _) trivial, and_true]

/-- What every step of a loop keeps is kept by the loop. -/
theorem foldlM_invariant {f : β → α → Except ε β} {I : β → Prop}
    (hstep : ∀ b a b', I b → f b a = .ok b' → I b') {b b' : β} {l : List α} (hb : I b)
    (h : l.foldlM f b = .ok b') : I b' := by
  induction l generalizing b with
  | nil =>
      cases h
      exact hb
  | cons a l ih =>
      rw [List.foldlM_cons] at h
      obtain ⟨b₁, hfirst, hrest⟩ := bind_eq_ok.1 h
      exact ih (hstep _ _ _ hb hfirst) hrest

/-- A loop whose checks look at the part `view` of its state. -/
theorem succeeds_foldlM {f : β → α → Except ε β} {view : β → γ} {next : γ → α → γ}
    {ok : γ → α → Prop} (hok : ∀ b a, Succeeds (f b a) ↔ ok (view b) a)
    (hnext : ∀ b a b', f b a = .ok b' → view b' = next (view b) a) (b : β) (l : List α) :
    Succeeds (l.foldlM f b) ↔ EveryStep next ok (view b) l := by
  induction l generalizing b with
  | nil => exact iff_of_true (succeeds_pure b) trivial
  | cons a l ih =>
      rw [List.foldlM_cons, EveryStep, ← hok]
      refine succeeds_bind_of fun b' hb' => ?_
      rw [ih b', hnext b a b' hb']

/-- A part of the state that every step computes from itself, after the loop. -/
theorem foldlM_view {f : β → α → Except ε β} (view : β → γ) (next : γ → α → γ)
    (hnext : ∀ b a b', f b a = .ok b' → view b' = next (view b) a) {b b' : β} {l : List α}
    (h : l.foldlM f b = .ok b') : view b' = l.foldl next (view b) := by
  induction l generalizing b with
  | nil => rw [← pure_eq_ok.1 h, List.foldl_nil]
  | cons a l ih =>
      rw [List.foldlM_cons] at h
      obtain ⟨b₁, hfirst, hrest⟩ := bind_eq_ok.1 h
      rw [ih hrest, hnext _ _ _ hfirst, List.foldl_cons]

/-- What a loop that checks one item after the other has found, item by item. -/
theorem forall₂_of_mapM {f : α → Except ε β} {l : List α} {r : List β} (h : l.mapM f = .ok r) :
    List.Forall₂ (fun a b => f a = .ok b) l r := by
  induction l generalizing r with
  | nil =>
      cases h
      exact .nil
  | cons a l ih =>
      rw [List.mapM_cons] at h
      obtain ⟨b, hb, h⟩ := bind_eq_ok.1 h
      obtain ⟨bs, hbs, h⟩ := bind_eq_ok.1 h
      cases h
      exact .cons hb (ih hbs)

/-- A loop with one check and one error. -/
theorem mapM_ite_error {p : α → Bool} {f : α → β} {e : ε} {l : List α} :
    (l.mapM fun a => if p a then .ok (f a) else .error e) =
      if l.all p then Except.ok (l.map f) else .error e := by
  induction l with
  | nil => rfl
  | cons a l ih =>
      rw [List.mapM_cons, ih, List.all_cons, List.map_cons]
      cases p a with
      | false => rfl
      | true => cases l.all p <;> rfl

/-- What holds of everything that is found. -/
theorem forall_mem_of_forall₂ {R : α → β → Prop} {p : β → Prop} {l : List α} {r : List β}
    (h : List.Forall₂ R l r) (hp : ∀ a b, R a b → p b) : ∀ b ∈ r, p b := by
  induction h with
  | nil => simp
  | cons hab _ ih => exact List.forall_mem_cons.2 ⟨hp _ _ hab, ih⟩

/-- A relation between the items and what is found, that is a condition on the items alone. -/
theorem forall₂_iff_forall_left {R S : α → β → Prop} {q : α → Prop} {l : List α} {r : List β}
    (h : List.Forall₂ S l r) (hq : ∀ a ∈ l, ∀ b, S a b → (R a b ↔ q a)) :
    List.Forall₂ R l r ↔ ∀ a ∈ l, q a := by
  induction h with
  | nil => simp
  | cons hab _ ih =>
      rw [List.forall_mem_cons] at hq
      rw [List.forall₂_cons, List.forall_mem_cons, hq.1 _ hab, ih hq.2]

/-- Something is found for every item exactly if there is a list of what is found. -/
theorem exists_forall₂_iff {R : α → β → Prop} {l : List α} :
    (∃ r, List.Forall₂ R l r) ↔ ∀ a ∈ l, ∃ b, R a b := by
  induction l with
  | nil => exact iff_of_true ⟨[], .nil⟩ (by simp)
  | cons a l ih =>
      rw [List.forall_mem_cons, ← ih]
      constructor
      · rintro ⟨_, hr⟩
        cases hr with
        | cons hab hr => exact ⟨⟨_, hab⟩, _, hr⟩
      · rintro ⟨⟨b, hab⟩, r, hr⟩
        exact ⟨b :: r, .cons hab hr⟩

/-- Two relations after each other, item by item. -/
theorem forall₂_comp {R : α → β → Prop} {S : β → γ → Prop} {l : List α} {r : List γ} :
    (∃ m, List.Forall₂ R l m ∧ List.Forall₂ S m r)
      ↔ List.Forall₂ (fun a c => ∃ b, R a b ∧ S b c) l r := by
  constructor
  · rintro ⟨m, hR, hS⟩
    induction hR generalizing r with
    | nil =>
        cases hS
        exact .nil
    | cons hab _ ih =>
        cases hS with
        | cons hbc hS => exact .cons ⟨_, hab, hbc⟩ (ih hS)
  · intro h
    induction h with
    | nil => exact ⟨[], .nil, .nil⟩
    | cons hac _ ih =>
        obtain ⟨b, hab, hbc⟩ := hac
        obtain ⟨m, hR, hS⟩ := ih
        exact ⟨b :: m, .cons hab hR, .cons hbc hS⟩

/-- A loop returns exactly what its checks find. -/
theorem mapM_eq_ok_iff {f : α → Except ε β} {l : List α} {r : List β} :
    l.mapM f = .ok r ↔ List.Forall₂ (fun a b => f a = .ok b) l r := by
  refine ⟨forall₂_of_mapM, fun h => ?_⟩
  induction h with
  | nil => rfl
  | cons hab _ ih =>
      rw [List.mapM_cons, hab, ih]
      rfl

/-- A loop fails with the first check that fails. -/
theorem mapM_eq_error_iff {f : α → Except ε β} {l : List α} {e : ε} :
    l.mapM f = .error e ↔
      ∃ before a after, l = before ++ a :: after ∧ (∀ b ∈ before, Succeeds (f b)) ∧ f a = .error e := by
  induction l with
  | nil =>
      refine iff_of_false (fun h => nomatch h) ?_
      rintro ⟨before, a, after, hl, -⟩
      simp at hl
  | cons a l ih =>
      rw [List.mapM_cons]
      cases ha : f a with
      | error e' =>
          constructor
          · rintro ⟨⟩
            exact ⟨[], a, l, rfl, by simp, ha⟩
          · rintro ⟨_ | ⟨b, before⟩, a', after, hl, hbefore, ha'⟩
            · cases hl
              rw [← ha, ha']
              rfl
            · cases hl
              obtain ⟨b', hb'⟩ := hbefore a (List.mem_cons_self ..)
              rw [ha] at hb'
              cases hb'
      | ok b =>
          have hcons : (do let bs ← l.mapM f; pure (b :: bs)) = .error e ↔ l.mapM f = .error e := by
            cases l.mapM f with
            | error e' => rfl
            | ok bs => exact iff_of_false (fun h => nomatch h) (fun h => nomatch h)
          refine hcons.trans (ih.trans ?_)
          constructor
          · rintro ⟨before, a', after, rfl, hbefore, ha'⟩
            exact ⟨a :: before, a', after, rfl, List.forall_mem_cons.2 ⟨⟨b, ha⟩, hbefore⟩, ha'⟩
          · rintro ⟨_ | ⟨b', before⟩, a', after, hl, hbefore, ha'⟩
            · cases hl
              rw [ha] at ha'
              cases ha'
            · cases hl
              exact ⟨before, a', after, rfl, (List.forall_mem_cons.1 hbefore).2, ha'⟩

theorem succeeds_mapM {f : α → Except ε β} (l : List α) :
    Succeeds (l.mapM f) ↔ ∀ a ∈ l, Succeeds (f a) := by
  induction l with
  | nil => simp [succeeds_pure]
  | cons a l ih =>
      rw [List.mapM_cons, List.forall_mem_cons, ← ih]
      exact succeeds_bind_of fun b _ => succeeds_bind_pure

/-! ## Computations that return more often -/

/-- `y` returns what `x` returns, and may return where `x` does not. -/
def Extends (x y : Except ε α) : Prop := ∀ a, x = .ok a → y = .ok a

theorem Extends.refl (x : Except ε α) : Extends x x := fun _ => id

theorem extends_throw (e : ε) (y : Except ε α) : Extends (throw e) y := fun _ h => nomatch h

theorem Extends.bind {x y : Except ε α} {f g : α → Except ε β} (h : Extends x y)
    (hfg : ∀ a, Extends (f a) (g a)) : Extends (x >>= f) (y >>= g) := by
  intro b hb
  obtain ⟨a, ha, hb⟩ := bind_eq_ok.1 hb
  exact bind_eq_ok.2 ⟨a, h a ha, hfg a b hb⟩

theorem Extends.map {x y : Except ε α} (f : α → β) (h : Extends x y) :
    Extends (f <$> x) (f <$> y) := by
  intro b hb
  cases x with
  | error e => cases hb
  | ok a =>
      rw [h a rfl]
      exact hb

theorem Extends.mapM {f g : α → Except ε β} {l : List α} (h : ∀ a ∈ l, Extends (f a) (g a)) :
    Extends (l.mapM f) (l.mapM g) := by
  induction l with
  | nil => exact .refl _
  | cons a l ih =>
      rw [List.forall_mem_cons] at h
      rw [List.mapM_cons, List.mapM_cons]
      exact h.1.bind fun b => (ih h.2).bind fun bs => .refl _

end Checked
