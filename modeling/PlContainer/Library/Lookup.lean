import Mathlib.Data.List.Forall2

set_option autoImplicit false

/-! # Programs that look things up

A program that reads a store row by row, may fail, and does nothing else. `run` gives its result on a
store and `trace` the rows it read on the way. The result depends on these rows only (`run_congr`),
so a result kept from an earlier store is still right as long as they have not changed. -/

/-- A program over rows `ρ`, whose contents have the types `A`. -/
inductive Lookup (ρ : Type) (A : ρ → Type) (ε α : Type) : Type where
  | done (a : α)
  | fail (e : ε)
  | ask (r : ρ) (next : A r → Lookup ρ A ε α)

namespace Lookup

variable {ρ : Type} {A : ρ → Type} {ε α β : Type}

def bind : Lookup ρ A ε α → (α → Lookup ρ A ε β) → Lookup ρ A ε β
  | .done a, f => f a
  | .fail e, _ => .fail e
  | .ask r next, f => .ask r fun x => (next x).bind f

instance : Monad (Lookup ρ A ε) where
  pure := .done
  bind := Lookup.bind

def run (store : ∀ r, A r) : Lookup ρ A ε α → Except ε α
  | .done a => .ok a
  | .fail e => .error e
  | .ask r next => (next (store r)).run store

/-- The rows read. -/
def trace (store : ∀ r, A r) : Lookup ρ A ε α → List ρ
  | .done _ => []
  | .fail _ => []
  | .ask r next => r :: (next (store r)).trace store

/-- The program for each item in turn. -/
def each (f : α → Lookup ρ A ε β) : List α → Lookup ρ A ε (List β)
  | [] => .done []
  | a :: as => f a >>= fun b => each f as >>= fun bs => .done (b :: bs)

variable {store store' : ∀ r, A r}

@[simp] theorem run_done (a : α) : (Lookup.done a : Lookup ρ A ε α).run store = .ok a := rfl

@[simp] theorem run_pure (a : α) : (pure a : Lookup ρ A ε α).run store = .ok a := rfl

@[simp] theorem run_fail (e : ε) : (Lookup.fail e : Lookup ρ A ε α).run store = .error e := rfl

@[simp] theorem trace_done (a : α) : (Lookup.done a : Lookup ρ A ε α).trace store = [] := rfl

@[simp] theorem trace_pure (a : α) : (pure a : Lookup ρ A ε α).trace store = [] := rfl

theorem run_bind_eq_ok {x : Lookup ρ A ε α} {f : α → Lookup ρ A ε β} {b : β} :
    (x >>= f).run store = .ok b ↔ ∃ a, x.run store = .ok a ∧ (f a).run store = .ok b := by
  induction x with
  | done a => exact ⟨fun h => ⟨a, rfl, h⟩, fun ⟨a', ha, h⟩ => Except.ok.inj ha ▸ h⟩
  | fail e =>
      constructor
      · intro h
        cases h
      · rintro ⟨_, ha, _⟩
        cases ha
  | ask r next ih => exact ih (store r)

theorem trace_bind {x : Lookup ρ A ε α} {a : α} (h : x.run store = .ok a)
    (f : α → Lookup ρ A ε β) : (x >>= f).trace store = x.trace store ++ (f a).trace store := by
  induction x with
  | done a' =>
      cases h
      rfl
  | fail e => cases h
  | ask r next ih => exact congrArg (r :: ·) (ih (store r) h)

/-- **A program depends on the rows it reads.** -/
theorem run_congr (x : Lookup ρ A ε α) (h : ∀ r ∈ x.trace store, store' r = store r) :
    x.run store' = x.run store := by
  induction x with
  | done a => rfl
  | fail e => rfl
  | ask r next ih =>
      have hr : store' r = store r := h r (List.mem_cons_self ..)
      rw [run, run, hr]
      exact ih (store r) fun r' hr' => h r' (List.mem_cons_of_mem _ hr')

/-! ## Loops -/

theorem run_each_eq_ok {f : α → Lookup ρ A ε β} {as : List α} {bs : List β} :
    (each f as).run store = .ok bs ↔ List.Forall₂ (fun a b => (f a).run store = .ok b) as bs := by
  induction as generalizing bs with
  | nil =>
      rw [each, run_done, List.forall₂_nil_left_iff]
      exact ⟨fun h => (Except.ok.inj h).symm, fun h => congrArg _ h.symm⟩
  | cons a as ih =>
      rw [each, List.forall₂_cons_left_iff, run_bind_eq_ok]
      constructor
      · rintro ⟨b, hb, h⟩
        obtain ⟨bs', hbs, h⟩ := run_bind_eq_ok.1 h
        cases h
        exact ⟨b, bs', hb, ih.1 hbs, rfl⟩
      · rintro ⟨b, bs', hb, hbs, rfl⟩
        exact ⟨b, hb, run_bind_eq_ok.2 ⟨bs', ih.2 hbs, rfl⟩⟩

/-! ## Rows that may be missing -/

section Fetch

variable {B : ρ → Type} {found : ∀ r, Option (B r)} {r : ρ} {e : ε}

/-- Read a row that has to be there. -/
def fetch (r : ρ) (e : ε) : Lookup ρ (fun r => Option (B r)) ε (B r) :=
  .ask r fun
    | none => .fail e
    | some b => .done b

@[simp] theorem run_fetch_eq_ok {b : B r} :
    (fetch r e : Lookup ρ _ ε (B r)).run found = .ok b ↔ found r = some b := by
  rw [fetch, run]
  cases found r with
  | none => simp
  | some b' => simp

@[simp] theorem trace_fetch : (fetch r e : Lookup ρ _ ε (B r)).trace found = [r] := by
  rw [fetch, trace]
  cases found r <;> rfl

end Fetch

end Lookup
