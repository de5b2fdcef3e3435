import PlContainer.Library.ByteStream

set_option autoImplicit false

/-! # Readers that fetch their input piece by piece

A reader of `ByteStream` has its whole input at hand. A program that reads from a connection has not:
it asks for some bytes, goes on when they have arrived, and asks again. `Fetch` is such a program, and
`Fetch.onStream` is the reader that it is when all bytes are at hand. `Fetched` says that a reader is
one of these programs, at least on inputs below a length, with a rule for each way of putting readers
together; `Fed` says how far a program has come with the bytes it was given. -/

namespace ByteStream

/-- A program that asks for `n` bytes, goes on with what it gets, and ends with a value or an error. -/
inductive Fetch (ε α : Type) where
  | done (a : α)
  | fail (e : ε)
  | read (n : ℕ) (next : List UInt8 → Fetch ε α)

variable {ε α β : Type}

/-- The program as a reader, which fails with `e` where the input is too short. -/
def Fetch.onStream (e : ε) : Fetch ε α → Reader ε α
  | .done a => pure a
  | .fail e' => throw e'
  | .read n next => do
      let bs ← readBytes e n
      (next bs).onStream e

/-- One program after the other. -/
def Fetch.andThen (t : Fetch ε α) (f : α → Fetch ε β) : Fetch ε β :=
  match t with
  | .done a => f a
  | .fail e => .fail e
  | .read n next => .read n fun bs => (next bs).andThen f

section OnStream

variable {e : ε}

theorem run_readBytes_ok {n : ℕ} {s : List UInt8} (h : n ≤ s.length) :
    (readBytes e n).run s = .ok (s.take n, s.drop n) :=
  if_pos h

theorem run_readBytes_error {n : ℕ} {s : List UInt8} (h : ¬ n ≤ s.length) :
    (readBytes e n).run s = .error e :=
  if_neg h

theorem Fetch.onStream_read (n : ℕ) (next : List UInt8 → Fetch ε α) (s : List UInt8) :
    (Fetch.read n next).onStream e s =
      if n ≤ s.length then (next (s.take n)).onStream e (s.drop n) else .error e := by
  by_cases h : n ≤ s.length
  · rw [if_pos h, Fetch.onStream]
    exact run_bind_ok (run_readBytes_ok h)
  · rw [if_neg h, Fetch.onStream]
    exact run_bind_error (run_readBytes_error h)

theorem Fetch.length_onStream {t : Fetch ε α} {s u : List UInt8} {a : α}
    (h : t.onStream e s = .ok (a, u)) : u.length ≤ s.length := by
  induction t generalizing s with
  | done b =>
      cases h
      exact le_refl _
  | fail e' => cases h
  | read n next ih =>
      rw [onStream_read] at h
      split at h
      · have := ih _ h
        rw [List.length_drop] at this
        omega
      · cases h

theorem Fetch.onStream_andThen (t : Fetch ε α) (f : α → Fetch ε β) (s : List UInt8) :
    (t.andThen f).onStream e s = (t.onStream e >>= fun a => (f a).onStream e) s := by
  induction t generalizing s with
  | done a => rfl
  | fail e' => rfl
  | read n next ih =>
      rw [andThen, onStream_read, onStream, bind_assoc]
      show _ = (readBytes e n >>= _).run s
      by_cases h : n ≤ s.length
      · rw [if_pos h, ih, run_bind_ok (run_readBytes_ok h)]
        rfl
      · rw [if_neg h, run_bind_error (run_readBytes_error h)]

end OnStream

/-! ## Readers that are programs -/

/-- Two readers agree on inputs shorter than `n`. -/
def AgreeBelow (n : ℕ) (p q : Reader ε α) : Prop := ∀ s, s.length < n → p.run s = q.run s

theorem AgreeBelow.bind {n : ℕ} {e : ε} {p q : Reader ε α} {f g : α → Reader ε β}
    (h : AgreeBelow n p q) (hq : SafeBelow e n q) (hf : ∀ a, AgreeBelow n (f a) (g a)) :
    AgreeBelow n (p >>= f) (q >>= g) := by
  intro s hs
  have hrun := h s hs
  cases hqs : q.run s with
  | error e' =>
      rw [run_bind_error hqs, run_bind_error (hrun.trans hqs)]
  | ok r =>
      obtain ⟨a, t⟩ := r
      have hle := (hq s hs).2 a t hqs
      rw [run_bind_ok hqs, run_bind_ok (hrun.trans hqs)]
      exact hf a t (by omega)

theorem AgreeBelow.readN {n : ℕ} {e : ε} {p q : Reader ε α} (h : AgreeBelow n p q)
    (hq : SafeBelow e n q) (k : ℕ) : AgreeBelow n (readN p k) (readN q k) := by
  induction k with
  | zero => exact fun _ _ => rfl
  | succ k ih => exact h.bind hq fun x => ih.bind (hq.readN k) fun _ _ _ => rfl

/-- After the first byte the inputs are shorter. -/
theorem AgreeBelow.step {n : ℕ} {e : ε} {f g : List UInt8 → Reader ε β}
    (h : ∀ bs, AgreeBelow n (f bs) (g bs)) :
    AgreeBelow (n + 1) (readBytes e 1 >>= f) (readBytes e 1 >>= g) := by
  intro s hs
  by_cases hlen : 1 ≤ s.length
  · rw [run_bind_ok (run_readBytes_ok hlen), run_bind_ok (run_readBytes_ok hlen)]
    refine h _ _ ?_
    rw [List.length_drop]
    omega
  · rw [run_bind_error (run_readBytes_error hlen), run_bind_error (run_readBytes_error hlen)]

/-- The reader is a program, on inputs shorter than `n`; it fails with `e` where they are too short. -/
def Fetched (e : ε) (n : ℕ) (p : Reader ε α) : Prop :=
  ∃ t : Fetch ε α, AgreeBelow n (t.onStream e) p

section Fetched

variable {e : ε} {n : ℕ}

theorem Fetched.pure (a : α) : Fetched e n (Pure.pure a : Reader ε α) := ⟨.done a, fun _ _ => rfl⟩

theorem Fetched.throw (e' : ε) : Fetched e n (MonadExcept.throw e' : Reader ε α) :=
  ⟨.fail e', fun _ _ => rfl⟩

theorem Fetched.readBytes (k : ℕ) : Fetched e n (readBytes e k) :=
  ⟨.read k .done, fun s _ => by
    show (ByteStream.readBytes e k >>= fun bs => Pure.pure bs) s = _
    rw [bind_pure]
    rfl⟩

theorem Fetched.bind {p : Reader ε α} {f : α → Reader ε β} (hp : Fetched e n p)
    (hf : ∀ a, Fetched e n (f a)) : Fetched e n (p >>= f) := by
  obtain ⟨t, ht⟩ := hp
  choose k hk using hf
  refine ⟨t.andThen k, fun s hs => ?_⟩
  have hrun := ht s hs
  show (t.andThen k).onStream e s = _
  rw [Fetch.onStream_andThen]
  cases hts : (t.onStream e).run s with
  | error e' =>
      exact (run_bind_error hts).trans (run_bind_error (hrun.symm.trans hts)).symm
  | ok r =>
      obtain ⟨a, u⟩ := r
      have hle := Fetch.length_onStream hts
      rw [run_bind_ok (hrun.symm.trans hts)]
      exact (run_bind_ok hts).trans (hk a u (by omega))

theorem Fetched.readN {p : Reader ε α} (hp : Fetched e n p) (k : ℕ) : Fetched e n (readN p k) := by
  induction k with
  | zero => exact .pure _
  | succ k ih => exact hp.bind fun x => ih.bind fun xs => .pure _

theorem Fetched.congr {p q : Reader ε α} (hp : Fetched e n p) (h : AgreeBelow n p q) :
    Fetched e n q := by
  obtain ⟨t, ht⟩ := hp
  exact ⟨t, fun s hs => (ht s hs).trans (h s hs)⟩

/-- A reader that begins with `k` bytes is a program that asks for them first. -/
theorem Fetched.begins {k : ℕ} {f : List UInt8 → Reader ε β} (hf : ∀ bs, Fetched e n (f bs)) :
    ∃ next, AgreeBelow n ((Fetch.read k next).onStream e) (ByteStream.readBytes e k >>= f) := by
  choose next hnext using hf
  refine ⟨next, fun s hs => ?_⟩
  show (Fetch.read k next).onStream e s = _
  rw [Fetch.onStream_read]
  by_cases h : k ≤ s.length
  · rw [if_pos h, run_bind_ok (run_readBytes_ok h)]
    refine hnext _ _ ?_
    rw [List.length_drop]
    omega
  · rw [if_neg h, run_bind_error (run_readBytes_error h)]

end Fetched

/-! ## How far a program has come -/

/-- The program `t`, given the bytes `bs` in the pieces it asked for, has become `t'`. -/
inductive Fed : Fetch ε α → List UInt8 → Fetch ε α → Prop where
  | nil (t : Fetch ε α) : Fed t [] t
  | read {t t' : Fetch ε α} {bs piece : List UInt8} {n : ℕ} {next : List UInt8 → Fetch ε α}
      (h : Fed t bs (.read n next)) (hlen : piece.length = n) (ht : t' = next piece) :
      Fed t (bs ++ piece) t'

variable {e : ε}

/-- What is left of a program does to the rest of the input what the program does to all of it. -/
theorem Fed.onStream {t t' : Fetch ε α} {bs : List UInt8} (h : Fed t bs t') (u : List UInt8) :
    t.onStream e (bs ++ u) = t'.onStream e u := by
  induction h generalizing u with
  | nil => rfl
  | read h hlen ht ih =>
      subst ht hlen
      rw [List.append_assoc, ih, Fetch.onStream_read, if_pos (by simp)]
      simp

/-- What is left of a program on the rest of an input that it reads to the end. -/
theorem Fed.rest {t t' : Fetch ε α} {bs q : List UInt8} {a : α} (h : Fed t bs t')
    (hrun : t.onStream e (bs ++ q) = .ok (a, [])) :
    (t' = .done a ∧ q = []) ∨ ∃ n next, t' = .read n next ∧ n ≤ q.length := by
  rw [h.onStream] at hrun
  cases t' with
  | done b =>
      cases hrun
      exact .inl ⟨rfl, rfl⟩
  | fail e' => cases hrun
  | read n next =>
      refine .inr ⟨n, next, rfl, ?_⟩
      by_contra hlen
      rw [Fetch.onStream_read, if_neg hlen] at hrun
      cases hrun

/-- A program that asks for bytes has not come far without any. -/
theorem Fed.eq_of_nil {t t' : Fetch ε α} {n : ℕ} {next : List UInt8 → Fetch ε α} (h : Fed t [] t')
    (ht : t = .read (n + 1) next) : t' = t := by
  generalize hbs : ([] : List UInt8) = bs at h
  induction h with
  | nil => rfl
  | read h hlen _ ih =>
      obtain ⟨hbs', rfl⟩ := List.append_eq_nil_iff.1 hbs.symm
      have heq := ih hbs'.symm
      rw [ht] at heq
      cases heq
      cases hlen

end ByteStream
