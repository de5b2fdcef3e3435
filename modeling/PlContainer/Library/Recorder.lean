import PlContainer.Library.ByteStream

set_option autoImplicit false

/-! # Readers that keep a record

A *recorder* is a reader that notes entries as it goes, and keeps what it has noted when it fails.
`Records Φ q p` says that the recorder `q` reads exactly as the reader `p` does, and that what it
notes satisfies `Φ`, which may look at the value read (`none` when the reader fails). The rules follow
the way a reader is put together, so a property of all entries is proved with one rule application
per step of the reader. -/

namespace ByteStream

/-- A reader that notes entries of type `ω`. -/
abbrev Recorder (ω ε α : Type) := StateT (List UInt8) (ExceptT ε (StateM (List ω))) α

section Recorder

variable {ω ε α β : Type}

/-- Note one entry. -/
def note (u : ω) : Recorder ω ε Unit := fun s log => (.ok ((), s), log ++ [u])

/-- A reader as a recorder that notes nothing. -/
def plain (p : Reader ε α) : Recorder ω ε α := fun s log => (p.run s, log)

/-- Read a value and note an entry about it. -/
def noting (p : Reader ε α) (u : α → ω) : Recorder ω ε α := do
  let a ← plain p
  note (u a)
  pure a

/-- The loop that reads `n` items one after the other. -/
def recordN (q : Recorder ω ε α) : ℕ → Recorder ω ε (List α)
  | 0 => pure []
  | n + 1 => do
      let x ← q
      let xs ← recordN q n
      pure (x :: xs)

/-- What a recorder notes on a stream. -/
def noted (q : Recorder ω ε α) (s : List UInt8) : List ω := (q s []).2

/-- The value that a reader got, if it did not fail. -/
def got (r : Except ε (α × List UInt8)) : Option α :=
  match r with
  | .ok (a, _) => some a
  | .error _ => none

/-- **The recorder reads as the reader does**, and its entries satisfy `Φ`. -/
def Records (Φ : Option α → List ω → Prop) (q : Recorder ω ε α) (p : Reader ε α) : Prop :=
  ∀ s log, ∃ used, q s log = (p.run s, log ++ used) ∧ Φ (got (p.run s)) used

theorem Records.noted {Φ : Option α → List ω → Prop} {q : Recorder ω ε α} {p : Reader ε α}
    (h : Records Φ q p) (s : List UInt8) : Φ (got (p.run s)) (noted q s) := by
  obtain ⟨used, hrun, hΦ⟩ := h s []
  have hused : ByteStream.noted q s = used := by simp [ByteStream.noted, hrun]
  rw [hused]
  exact hΦ

theorem Records.pure {Φ : Option α → List ω → Prop} {a : α} (h : Φ (some a) []) :
    Records Φ (Pure.pure a : Recorder ω ε α) (Pure.pure a) := fun _ log =>
  ⟨[], by rw [List.append_nil]; rfl, h⟩

theorem Records.throw {Φ : Option α → List ω → Prop} (e : ε) (h : Φ none []) :
    Records Φ (MonadExcept.throw e : Recorder ω ε α) (MonadExcept.throw e) := fun _ log =>
  ⟨[], by rw [List.append_nil]; rfl, h⟩

theorem Records.plain {Φ : Option α → List ω → Prop} (p : Reader ε α) (h : ∀ r, Φ r []) :
    Records Φ (plain p) p := fun _ log =>
  ⟨[], by rw [List.append_nil]; rfl, h _⟩

theorem recorder_bind_ok {q : Recorder ω ε α} {g : α → Recorder ω ε β} {s t : List UInt8}
    {log log' : List ω} {a : α} (h : q s log = (.ok (a, t), log')) :
    (q >>= g) s log = g a t log' := by
  simp only [Bind.bind, StateT.bind, ExceptT.bind, ExceptT.mk, ExceptT.bindCont, h]

theorem recorder_bind_error {q : Recorder ω ε α} {g : α → Recorder ω ε β} {s : List UInt8}
    {log log' : List ω} {e : ε} (h : q s log = (.error e, log')) :
    (q >>= g) s log = (.error e, log') := by
  simp only [Bind.bind, StateT.bind, ExceptT.bind, ExceptT.mk, ExceptT.bindCont, h]
  rfl

/-- Two readers one after the other: the entries of the second come after those of the first. -/
theorem Records.bind {Φ : Option α → List ω → Prop} {Ψ : α → Option β → List ω → Prop}
    {Θ : Option β → List ω → Prop} {q : Recorder ω ε α} {p : Reader ε α}
    {g : α → Recorder ω ε β} {f : α → Reader ε β} (hq : Records Φ q p)
    (hg : ∀ a, Records (Ψ a) (g a) (f a)) (hnone : ∀ u, Φ none u → Θ none u)
    (hsome : ∀ a r u v, Φ (some a) u → Ψ a r v → Θ r (u ++ v)) :
    Records Θ (q >>= g) (p >>= f) := by
  intro s log
  obtain ⟨used, hrun, hΦ⟩ := hq s log
  cases hp : p.run s with
  | error e =>
      rw [hp] at hrun hΦ
      rw [run_bind_error hp]
      exact ⟨used, recorder_bind_error hrun, hnone used hΦ⟩
  | ok r =>
      obtain ⟨a, t⟩ := r
      rw [hp] at hrun hΦ
      obtain ⟨more, hrun', hΨ⟩ := hg a t (log ++ used)
      rw [run_bind_ok hp]
      refine ⟨used ++ more, ?_, hsome a _ used more hΦ hΨ⟩
      rw [recorder_bind_ok hrun, hrun', List.append_assoc]

theorem Records.map {Φ : Option β → List ω → Prop} {q : Recorder ω ε α} {p : Reader ε α}
    (f : α → β) (h : Records (fun r used => Φ (r.map f) used) q p) :
    Records Φ (q >>= fun a => Pure.pure (f a)) (p >>= fun a => Pure.pure (f a)) := by
  have hpure (a : α) : Records (fun r used => r = some (f a) ∧ used = [])
      (Pure.pure (f a) : Recorder ω ε β) (Pure.pure (f a)) := Records.pure ⟨rfl, rfl⟩
  refine h.bind hpure (fun u hu => hu) ?_
  rintro a r u v hu ⟨rfl, rfl⟩
  rw [List.append_nil]
  exact hu

theorem recorder_note_bind (u : ω) (g : Unit → Recorder ω ε β) (s : List UInt8) (log : List ω) :
    (note u >>= g) s log = g () s (log ++ [u]) := rfl

/-- A reader that notes nothing, and then a recorder. -/
theorem Records.plain_bind {Θ : Option β → List ω → Prop} {p : Reader ε α}
    {g : α → Recorder ω ε β} {f : α → Reader ε β} (hnone : Θ none [])
    (hg : ∀ a, Records Θ (g a) (f a)) : Records Θ (ByteStream.plain p >>= g) (p >>= f) := by
  have hp : Records (fun _ used => used = []) (ByteStream.plain p : Recorder ω ε α) p :=
    Records.plain p fun _ => rfl
  refine hp.bind hg ?_ ?_
  · rintro u rfl
    exact hnone
  · rintro a r u v rfl hv
    exact hv

theorem Records.note_bind {Φ Θ : Option β → List ω → Prop} {u : ω} {g : Unit → Recorder ω ε β}
    {p : Reader ε β} (hg : Records Φ (g ()) p) (hΘ : ∀ r v, Φ r v → Θ r (u :: v)) :
    Records Θ (note u >>= g) p := by
  intro s log
  obtain ⟨used, hrun, hΦ⟩ := hg s (log ++ [u])
  refine ⟨u :: used, ?_, hΘ _ _ hΦ⟩
  rw [recorder_note_bind, hrun, List.append_assoc]
  rfl

theorem Records.subset {Φ : Option α → List ω → Prop} {q : Recorder ω ε α} {p : Reader ε α}
    (h : Records Φ q p) (s : List UInt8) (log : List ω) : log ⊆ (q s log).2 := by
  obtain ⟨used, hrun, -⟩ := h s log
  rw [hrun]
  exact List.subset_append_left log used

/-- What has been noted stays noted. -/
theorem recorder_subset_bind {q : Recorder ω ε α} {g : α → Recorder ω ε β}
    (hg : ∀ a s log, log ⊆ (g a s log).2) (s : List UInt8) (log : List ω) :
    (q s log).2 ⊆ ((q >>= g) s log).2 := by
  rcases hq : q s log with ⟨r, log'⟩
  cases r with
  | error e => rw [recorder_bind_error hq]; exact List.Subset.refl _
  | ok r => rw [recorder_bind_ok (a := r.1) (t := r.2) hq]; exact hg r.1 r.2 log'

/-- The value that was read is one that the reader can give. -/
theorem Records.yields {Φ : Option α → List ω → Prop} {q : Recorder ω ε α} {p : Reader ε α}
    (h : Records Φ q p) : Records (fun r used => Φ r used ∧ ∀ a, r = some a → Yields p a) q p := by
  intro s log
  obtain ⟨used, hrun, hΦ⟩ := h s log
  refine ⟨used, hrun, hΦ, fun a ha => ?_⟩
  cases hp : p.run s with
  | error e => simp [got, hp] at ha
  | ok r =>
      rw [hp] at ha
      cases ha
      exact ⟨s, r.2, hp⟩

theorem records_noting (p : Reader ε α) (u : α → ω) :
    Records (fun r used => used = (r.map u).toList) (noting p u) p := by
  intro s log
  cases hp : p.run s with
  | error e =>
      have hplain : plain p s log = (.error e, log) := by rw [plain, hp]
      exact ⟨[], by rw [noting, recorder_bind_error hplain, List.append_nil], rfl⟩
  | ok r =>
      have hplain : plain p s log = (.ok (r.1, r.2), log) := by rw [plain, hp]
      exact ⟨[u r.1], by rw [noting, recorder_bind_ok hplain]; rfl, rfl⟩

end Recorder

/-! ## Entries that hold once the reader succeeds -/

section Passes

variable {ω ε α β : Type} {G : ω → Prop}

/-- Every entry noted by a reading that succeeds satisfies `G`. -/
def Passes (G : ω → Prop) (q : Recorder ω ε α) (p : Reader ε α) : Prop :=
  Records (fun r used => r.isSome → ∀ u ∈ used, G u) q p

theorem Passes.pure (a : α) : Passes G (Pure.pure a : Recorder ω ε α) (Pure.pure a) :=
  Records.pure (by simp)

theorem Passes.throw (e : ε) :
    Passes G (MonadExcept.throw e : Recorder ω ε α) (MonadExcept.throw e) :=
  Records.throw e (by simp)

theorem Passes.plain (p : Reader ε α) : Passes G (plain p) p :=
  Records.plain p (by simp)

theorem Passes.bind {q : Recorder ω ε α} {p : Reader ε α} {g : α → Recorder ω ε β}
    {f : α → Reader ε β} (hq : Passes G q p) (hg : ∀ a, Passes G (g a) (f a)) :
    Passes G (q >>= g) (p >>= f) := by
  refine Records.bind hq hg (by simp) ?_
  intro a r u v hu hv hr x hx
  rcases List.mem_append.1 hx with hx | hx
  · exact hu rfl x hx
  · exact hv hr x hx

theorem Passes.noting {p : Reader ε α} {u : α → ω} (hgood : ∀ a, G (u a)) :
    Passes G (noting p u) p := by
  intro s log
  obtain ⟨used, hrun, hused⟩ := records_noting p u s log
  refine ⟨used, hrun, fun hr x hx => ?_⟩
  obtain ⟨a, ha⟩ := Option.isSome_iff_exists.1 hr
  rw [hused, ha] at hx
  rw [List.mem_singleton.1 hx]
  exact hgood a

/-- An entry may be noted before it is known to be good, if what follows fails when it is not. -/
theorem Passes.noting_bind {p : Reader ε α} {note : α → ω} {g : α → Recorder ω ε β}
    {f : α → Reader ε β} (hgood : ∀ a b, Yields (f a) b → G (note a))
    (hg : ∀ a, Passes G (g a) (f a)) : Passes G (ByteStream.noting p note >>= g) (p >>= f) := by
  refine Records.bind (records_noting p note) (fun a => (hg a).yields) (by simp) ?_
  rintro a r u v rfl ⟨hv, hyields⟩ hr
  obtain ⟨b, rfl⟩ := Option.isSome_iff_exists.1 hr
  exact List.forall_mem_cons.2 ⟨hgood a b (hyields b rfl), hv rfl⟩

theorem Passes.note {u : ω} {g : Unit → Recorder ω ε β} {p : Reader ε β} (hu : G u)
    (hg : Passes G (g ()) p) : Passes G (note u >>= g) p :=
  Records.note_bind hg fun _ _ hv hr => List.forall_mem_cons.2 ⟨hu, hv hr⟩

theorem Passes.readN {q : Recorder ω ε α} {p : Reader ε α} (hq : Passes G q p) (n : ℕ) :
    Passes G (recordN q n) (readN p n) := by
  induction n with
  | zero => exact Passes.pure []
  | succ n ih => exact hq.bind fun x => ih.bind fun xs => Passes.pure (x :: xs)

end Passes

end ByteStream
