import Mathlib.Data.List.Induction

set_option autoImplicit false

/-! # Histories

A history is the list of the events of a run. `EachTime` is a condition on each event and what happened
before it. A latch is set by some events and cleared by others; `latched_iff` says when it is set in
terms of the events alone: it was set once, and each time it was cleared it was set again. -/

namespace History

variable {ι : Type}

/-- The condition holds for every event and the history before it. -/
def EachTime (P : List ι → ι → Prop) (events : List ι) : Prop :=
  ∀ (before : List ι) (e : ι) (after : List ι), events = before ++ e :: after → P before e

/-- A history that goes on is cut before its last event or earlier. -/
theorem cut_concat {events before after : List ι} {e d : ι}
    (h : events ++ [d] = before ++ e :: after) :
    (before = events ∧ e = d ∧ after = []) ∨
      ∃ after', after = after' ++ [d] ∧ events = before ++ e :: after' := by
  induction after using List.reverseRecOn with
  | nil =>
      obtain ⟨hevents, hlast⟩ := List.append_inj' h rfl
      exact .inl ⟨hevents.symm, (List.singleton_inj.1 hlast).symm, rfl⟩
  | append_singleton after' c _ =>
      rw [← List.cons_append, ← List.append_assoc] at h
      obtain ⟨hevents, hlast⟩ := List.append_inj' h rfl
      exact .inr ⟨after', by rw [List.singleton_inj.1 hlast], hevents⟩

theorem eachTime_nil (P : List ι → ι → Prop) : EachTime P [] := by
  intro before e after h
  simp at h

theorem eachTime_concat {P : List ι → ι → Prop} {events : List ι} {d : ι} :
    EachTime P (events ++ [d]) ↔ EachTime P events ∧ P events d := by
  constructor
  · intro h
    refine ⟨fun before e after hcut => ?_, h events d [] rfl⟩
    exact h before e (after ++ [d]) (by rw [hcut, List.append_assoc, List.cons_append])
  · rintro ⟨hbefore, hlast⟩ before e after hcut
    obtain ⟨rfl, rfl, -⟩ | ⟨after', -, hevents⟩ := cut_concat hcut
    · exact hlast
    · exact hbefore before e after' hevents

/-- Two conditions that agree so far agree after an event for which they agree. -/
theorem eachTime_congr_concat {P Q : List ι → ι → Prop} {events : List ι} {d : ι}
    (h : EachTime P events ↔ EachTime Q events) (hd : P events d ↔ Q events d) :
    EachTime P (events ++ [d]) ↔ EachTime Q (events ++ [d]) := by
  rw [eachTime_concat, eachTime_concat, h, hd]

/-! ## Latches -/

variable (sets clears : ι → Bool)

/-- Whether the latch is set after some events. -/
def latched (events : List ι) : Bool := events.foldl (fun on e => sets e || (on && !clears e)) false

/-- Each event that clears the latch is followed by one that sets it. -/
def Renewed (events : List ι) : Prop :=
  ∀ (before : List ι) (e : ι) (after : List ι), events = before ++ e :: after → clears e →
    ∃ d ∈ after, sets d

variable {sets clears}

theorem renewed_of_not_clears {events : List ι} (h : ∀ e ∈ events, clears e = false) :
    Renewed sets clears events := by
  intro before e after hcut hclears
  rw [h e (by rw [hcut]; simp)] at hclears
  cases hclears

theorem latched_concat (events : List ι) (e : ι) :
    latched sets clears (events ++ [e]) = (sets e || (latched sets clears events && !clears e)) := by
  rw [latched, List.foldl_append]
  rfl

/-- An event that neither sets nor clears the latch. -/
theorem latched_neutral {e : ι} (hsets : sets e = false) (hclears : clears e = false) (events : List ι) :
    latched sets clears (events ++ [e]) = latched sets clears events := by
  rw [latched_concat, hsets, hclears, Bool.not_false, Bool.and_true, Bool.false_or]

theorem latched_iff (hdisjoint : ∀ e, sets e → clears e = false) (events : List ι) :
    latched sets clears events ↔ (∃ e ∈ events, sets e) ∧ Renewed sets clears events := by
  induction events using List.reverseRecOn with
  | nil => simp [latched]
  | append_singleton events e ih =>
      rw [latched_concat]
      constructor
      · intro h
        by_cases hset : sets e
        · refine ⟨⟨e, by simp, hset⟩, fun before c after hcut hclears => ?_⟩
          obtain ⟨-, rfl, -⟩ | ⟨after', rfl, -⟩ := cut_concat hcut
          · rw [hdisjoint c hset] at hclears
            cases hclears
          · exact ⟨e, by simp, hset⟩
        · rw [Bool.not_eq_true] at hset
          rw [hset, Bool.false_or, Bool.and_eq_true] at h
          obtain ⟨⟨d, hd, hdset⟩, hrenewed⟩ := ih.1 h.1
          refine ⟨⟨d, List.mem_append_left _ hd, hdset⟩, fun before c after hcut hclears => ?_⟩
          obtain ⟨-, rfl, -⟩ | ⟨after', rfl, hevents⟩ := cut_concat hcut
          · rw [hclears] at h
            cases h.2
          · obtain ⟨d, hd, hdset⟩ := hrenewed before c after' hevents hclears
            exact ⟨d, List.mem_append_left _ hd, hdset⟩
      · rintro ⟨⟨d, hd, hdset⟩, hrenewed⟩
        by_cases hset : sets e
        · rw [hset, Bool.true_or]
        · -- The last event sets nothing, so what it does not clear was set before.
          have hclears : clears e = false := by
            rw [Bool.eq_false_iff]
            intro hclears
            obtain ⟨c, hc, -⟩ := hrenewed events e [] rfl hclears
            cases hc
          rw [hclears, Bool.not_false, Bool.and_true, Bool.or_eq_true]
          refine .inr (ih.2 ⟨⟨d, ?_, hdset⟩, fun before c after hcut hc => ?_⟩)
          · obtain hd | hd := List.mem_append.1 hd
            · exact hd
            · rw [List.mem_singleton.1 hd] at hdset
              exact absurd hdset hset
          · obtain ⟨c', hc', hc'set⟩ := hrenewed before c (after ++ [e])
              (by rw [hcut, List.append_assoc, List.cons_append]) hc
            obtain hc' | hc' := List.mem_append.1 hc'
            · exact ⟨c', hc', hc'set⟩
            · rw [List.mem_singleton.1 hc'] at hc'set
              exact absurd hc'set hset

end History
