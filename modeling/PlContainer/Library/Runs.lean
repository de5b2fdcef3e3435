import Mathlib.Logic.Relation

set_option autoImplicit false

/-! # Runs of a labelled transition system

A system is a predicate for its initial states and a relation for its labelled steps. A claim about
all runs that respect some discipline is a claim about the states reachable by steps that meet a
condition; `ReachableUnder.invariant` is the induction that proves one. When the step is a function,
a run is a list of labels, and `EveryStep.congr` compares two conditions on all its steps. -/

namespace Runs

variable {σ ι : Type}

/-- The states reached from an initial one by steps that all meet `ok`. -/
inductive ReachableUnder (init : σ → Prop) (step : σ → ι → σ → Prop) (ok : σ → ι → Prop) :
    σ → Prop where
  | init {s : σ} (hs : init s) : ReachableUnder init step ok s
  | step {s s' : σ} {i : ι} (hs : ReachableUnder init step ok s) (hok : ok s i)
      (hstep : step s i s') : ReachableUnder init step ok s'

variable {init : σ → Prop} {step : σ → ι → σ → Prop} {ok : σ → ι → Prop}

/-- What holds initially and is kept by every step that meets the condition holds in every state
    reached. -/
theorem ReachableUnder.invariant {I : σ → Prop} (hinit : ∀ s, init s → I s)
    (hstep : ∀ s i s', I s → ok s i → step s i s' → I s') {s : σ}
    (h : ReachableUnder init step ok s) : I s := by
  induction h with
  | init hs => exact hinit _ hs
  | step _ hok hs ih => exact hstep _ _ _ ih hok hs

/-- The condition holds at every step of the run. -/
def EveryStep (next : σ → ι → σ) (P : σ → ι → Prop) : σ → List ι → Prop
  | _, [] => True
  | s, i :: is => P s i ∧ EveryStep next P (next s i) is

/-- Two conditions that agree where an invariant holds agree over whole runs, if the invariant is
    kept by steps that meet them. -/
theorem EveryStep.congr {next : σ → ι → σ} {P Q : σ → ι → Prop} {I : σ → Prop}
    (hkeep : ∀ s i, I s → Q s i → I (next s i)) (hiff : ∀ s i, I s → (P s i ↔ Q s i)) {s : σ}
    (hs : I s) (is : List ι) : EveryStep next P s is ↔ EveryStep next Q s is := by
  induction is generalizing s with
  | nil => exact Iff.rfl
  | cons i is ih =>
      rw [EveryStep, EveryStep, hiff s i hs]
      exact and_congr_right fun hq => ih (hkeep s i hs hq)

theorem EveryStep.congr_mem {next : σ → ι → σ} {P Q : σ → ι → Prop} {is : List ι}
    (hiff : ∀ i ∈ is, ∀ s, P s i ↔ Q s i) (s : σ) : EveryStep next P s is ↔ EveryStep next Q s is := by
  induction is generalizing s with
  | nil => exact Iff.rfl
  | cons i is ih =>
      rw [EveryStep, EveryStep, hiff i (List.mem_cons_self ..) s,
        ih (fun j hj => hiff j (List.mem_cons_of_mem _ hj)) (next s i)]

theorem everyStep_append {next : σ → ι → σ} {P : σ → ι → Prop} (is js : List ι) (s : σ) :
    EveryStep next P s (is ++ js) ↔
      EveryStep next P s is ∧ EveryStep next P (is.foldl next s) js := by
  induction is generalizing s with
  | nil => simp [EveryStep]
  | cons i is ih => rw [List.cons_append, EveryStep, EveryStep, ih, List.foldl_cons, and_assoc]

/-- The part of a condition that does not look at the state. -/
theorem everyStep_and {next : σ → ι → σ} {A : ι → Prop} {P : σ → ι → Prop} (is : List ι) (s : σ) :
    EveryStep next (fun s i => A i ∧ P s i) s is ↔ (∀ i ∈ is, A i) ∧ EveryStep next P s is := by
  induction is generalizing s with
  | nil => simp [EveryStep]
  | cons i is ih =>
      rw [EveryStep, EveryStep, ih, List.forall_mem_cons]
      exact and_and_and_comm

theorem everyStep_of_forall {next : σ → ι → σ} {P : σ → ι → Prop} {is : List ι}
    (h : ∀ i ∈ is, ∀ s, P s i) (s : σ) : EveryStep next P s is := by
  induction is generalizing s with
  | nil => trivial
  | cons i is ih =>
      exact ⟨h i (List.mem_cons_self ..) s, ih (fun j hj => h j (List.mem_cons_of_mem _ hj)) _⟩

/-- A run whose steps all leave the state as it is. -/
theorem everyStep_of_fixed {next : σ → ι → σ} {P : σ → ι → Prop} {s : σ} {is : List ι}
    (h : ∀ i ∈ is, next s i = s) : EveryStep next P s is ↔ ∀ i ∈ is, P s i := by
  induction is with
  | nil => simp [EveryStep]
  | cons i is ih =>
      obtain ⟨hi, his⟩ := List.forall_mem_cons.1 h
      rw [EveryStep, hi, ih his, List.forall_mem_cons]

end Runs
