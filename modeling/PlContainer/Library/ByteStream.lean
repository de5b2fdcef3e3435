import Mathlib.Data.Nat.Basic
import Mathlib.Tactic.Ring
import Mathlib.Tactic.Linarith

set_option autoImplicit false

/-! # Byte streams: little-endian numbers, writers, readers and transfers

A small library for wire formats. A *writer* is the byte string a sender emits, or nothing when the
sender gives up; a *reader* consumes a prefix of its input or fails. `Transfers w p a` says that the
writer `w` emits some bytes from which the reader `p` gets `a`, whatever follows them on the stream.
Formats are built from the rules below (one per way of putting formats together), so that a round
trip of a record is one rule application per field. -/

namespace ByteStream

/-! ## Little-endian numbers -/

/-- The `k` low bytes of `n`, least significant byte first. -/
def leBytes : ℕ → ℕ → List UInt8
  | 0, _ => []
  | k + 1, n => UInt8.ofNat n :: leBytes k (n / 256)

/-- The number whose little-endian bytes are given. -/
def ofLeBytes : List UInt8 → ℕ
  | [] => 0
  | b :: bs => b.toNat + 256 * ofLeBytes bs

@[simp] theorem leBytes_length (k n : ℕ) : (leBytes k n).length = k := by
  induction k generalizing n with
  | zero => rfl
  | succ k ih => simp [leBytes, ih]

theorem ofLeBytes_leBytes (k n : ℕ) : ofLeBytes (leBytes k n) = n % 256 ^ k := by
  induction k generalizing n with
  | zero => simp [leBytes, ofLeBytes, Nat.mod_one]
  | succ k ih =>
      have hbyte : (UInt8.ofNat n).toNat = n % 256 := by simp
      rw [leBytes, ofLeBytes, ih, hbyte]
      rw [pow_succ, mul_comm (256 ^ k) 256, Nat.mod_mul]

theorem ofLeBytes_leBytes_bitVec {w k : ℕ} (hw : w = 8 * k) (x : BitVec w) :
    BitVec.ofNat w (ofLeBytes (leBytes k x.toNat)) = x := by
  apply BitVec.eq_of_toNat_eq
  have hpow : 256 ^ k = 2 ^ w := by
    rw [hw, pow_mul]; norm_num
  rw [ofLeBytes_leBytes, BitVec.toNat_ofNat, hpow, Nat.mod_mod, Nat.mod_eq_of_lt x.isLt]

/-! ## Writers -/

/-- What a sender puts on the stream; `none` when it gives up before the end. -/
abbrev Writer := Option (List UInt8)

/-- Emit several parts one after the other. -/
def emit : List Writer → Writer
  | [] => some []
  | w :: ws => do
      let b ← w
      let bs ← emit ws
      pure (b ++ bs)

@[simp] theorem emit_singleton (w : Writer) : emit [w] = w := by
  cases w <;> simp [emit]

theorem emit_cons_eq_some {w : Writer} {ws : List Writer} {bs : List UInt8}
    (h : emit (w :: ws) = some bs) : ∃ b cs, w = some b ∧ emit ws = some cs ∧ bs = b ++ cs := by
  simp only [emit, Option.bind_eq_bind, Option.bind_eq_some_iff, Option.pure_def,
    Option.some.injEq] at h
  obtain ⟨b, hb, cs, hcs, rfl⟩ := h
  exact ⟨b, cs, hb, hcs, rfl⟩

/-- The loop `for (i = 0; i < n; i++) write(xs[i])`; it gives up when it would read past the end of
    `xs`. -/
def writeN {α : Type} (f : α → Writer) : ℕ → List α → Writer
  | 0, _ => some []
  | _ + 1, [] => none
  | n + 1, x :: xs => emit [f x, writeN f n xs]

theorem writeN_eq_some {α : Type} {f : α → Writer} {xs : List α}
    (h : ∀ x ∈ xs, ∃ b, f x = some b) : ∃ cs, writeN f xs.length xs = some cs := by
  induction xs with
  | nil => exact ⟨[], rfl⟩
  | cons x xs ih =>
      obtain ⟨b, hb⟩ := h x (List.mem_cons_self ..)
      obtain ⟨cs, hcs⟩ := ih fun y hy => h y (List.mem_cons_of_mem _ hy)
      exact ⟨b ++ cs, by simp [writeN, emit, hb, hcs]⟩

/-- What one round of the loop writes is no longer than what the loop writes. -/
theorem length_le_of_writeN {α : Type} {f : α → Writer} {xs : List α} {cs : List UInt8}
    (h : writeN f xs.length xs = some cs) :
    ∀ x ∈ xs, ∀ b, f x = some b → b.length ≤ cs.length := by
  induction xs generalizing cs with
  | nil => simp
  | cons y ys ih =>
      obtain ⟨b₀, ds, hy, hys, rfl⟩ := emit_cons_eq_some h
      rw [emit_singleton] at hys
      intro x hx b hb
      rw [List.length_append]
      rcases List.mem_cons.1 hx with rfl | hmem
      · rw [hy] at hb
        cases hb
        omega
      · have := ih hys x hmem b hb
        omega

/-! ## Readers -/

/-- A reader takes a prefix of its input, or fails with an error. -/
abbrev Reader (ε α : Type) := StateT (List UInt8) (Except ε) α

section Reader

variable {ε α β : Type}

/-- Take the next `n` bytes, failing with `e` when the stream has fewer. -/
def readBytes (e : ε) (n : ℕ) : Reader ε (List UInt8) := fun s =>
  if n ≤ s.length then .ok (s.take n, s.drop n) else .error e

/-- The loop that reads `n` items one after the other. -/
def readN (p : Reader ε α) : ℕ → Reader ε (List α)
  | 0 => pure []
  | n + 1 => do
      let x ← p
      let xs ← readN p n
      pure (x :: xs)

/-- The reader `p` gets `a` from the bytes `bs` and leaves all that follows them. -/
def Reads (p : Reader ε α) (bs : List UInt8) (a : α) : Prop :=
  ∀ t, p.run (bs ++ t) = .ok (a, t)

theorem Reads.pure (a : α) : Reads (Pure.pure a : Reader ε α) [] a := fun _ => rfl

theorem Reads.bind {p : Reader ε α} {f : α → Reader ε β} {bs cs : List UInt8} {a : α} {b : β}
    (hp : Reads p bs a) (hf : Reads (f a) cs b) : Reads (p >>= f) (bs ++ cs) b := by
  intro t
  have hrun : (p >>= f).run (bs ++ cs ++ t)
      = p.run (bs ++ (cs ++ t)) >>= fun r => (f r.1).run r.2 := by
    rw [List.append_assoc]; rfl
  rw [hrun, hp (cs ++ t)]
  exact hf t

theorem reads_readBytes (e : ε) (bs : List UInt8) : Reads (readBytes e bs.length) bs bs := by
  intro t
  show readBytes e bs.length (bs ++ t) = .ok (bs, t)
  simp [readBytes]

/-- On inputs shorter than `n`, the reader never fails with `e`, and it never gives back more than
    it was given. This is what a reader with a bound on its recursion needs of its parts. -/
def SafeBelow (e : ε) (n : ℕ) (p : Reader ε α) : Prop :=
  ∀ s, s.length < n →
    p.run s ≠ .error e ∧ ∀ a t, p.run s = .ok (a, t) → t.length ≤ s.length

theorem SafeBelow.pure (e : ε) (n : ℕ) (a : α) : SafeBelow e n (Pure.pure a : Reader ε α) := by
  intro s _
  refine ⟨(by intro h; cases h), fun b t h => ?_⟩
  cases h
  exact le_refl _

theorem SafeBelow.throw {e e' : ε} (h : e' ≠ e) (n : ℕ) :
    SafeBelow e n (MonadExcept.throw e' : Reader ε α) := by
  intro s _
  refine ⟨fun he => h ?_, fun a t he => by cases he⟩
  cases he
  rfl

theorem run_bind_ok {p : Reader ε α} {f : α → Reader ε β} {s s' : List UInt8} {a : α}
    (h : p.run s = .ok (a, s')) : (p >>= f).run s = (f a).run s' := by
  show (p.run s >>= fun r => (f r.1).run r.2) = _
  rw [h]
  rfl

theorem run_bind_error {p : Reader ε α} {f : α → Reader ε β} {s : List UInt8} {e : ε}
    (h : p.run s = .error e) : (p >>= f).run s = .error e := by
  show (p.run s >>= fun r => (f r.1).run r.2) = _
  rw [h]
  rfl

theorem SafeBelow.bind {e : ε} {n : ℕ} {p : Reader ε α} {f : α → Reader ε β}
    (hp : SafeBelow e n p) (hf : ∀ a, SafeBelow e n (f a)) : SafeBelow e n (p >>= f) := by
  intro s hs
  obtain ⟨hne, hlen⟩ := hp s hs
  cases hrun : p.run s with
  | error e' =>
      rw [run_bind_error hrun]
      refine ⟨fun he => hne ?_, fun b t he => by cases he⟩
      cases he
      exact hrun
  | ok r =>
      obtain ⟨a, s'⟩ := r
      have hle := hlen a s' hrun
      obtain ⟨hne', hlen'⟩ := hf a s' (by omega)
      rw [run_bind_ok hrun]
      exact ⟨hne', fun b t he => le_trans (hlen' b t he) hle⟩

theorem SafeBelow.readBytes {e e' : ε} (h : e' ≠ e) (n k : ℕ) :
    SafeBelow e n (readBytes e' k) := by
  intro s _
  show ByteStream.readBytes e' k s ≠ _ ∧ ∀ a t, ByteStream.readBytes e' k s = .ok (a, t) → _
  unfold ByteStream.readBytes
  split
  · refine ⟨(by intro he; cases he), fun a t he => ?_⟩
    cases he
    simp
  · refine ⟨fun he => h ?_, fun a t he => by cases he⟩
    cases he
    rfl

theorem SafeBelow.readN {e : ε} {n : ℕ} {p : Reader ε α} (hp : SafeBelow e n p) (k : ℕ) :
    SafeBelow e n (readN p k) := by
  induction k with
  | zero => exact SafeBelow.pure e n []
  | succ k ih => exact hp.bind fun x => ih.bind fun xs => SafeBelow.pure e n (x :: xs)

/-- A reader that starts with a byte hands fewer bytes to what follows. -/
theorem SafeBelow.step {e e' : ε} (h : e' ≠ e) {n : ℕ} {f : List UInt8 → Reader ε β}
    (hf : ∀ bs, SafeBelow e n (f bs)) : SafeBelow e (n + 1) (ByteStream.readBytes e' 1 >>= f) := by
  intro s hs
  by_cases hlen : 1 ≤ s.length
  · have hrun : (ByteStream.readBytes e' 1).run s = .ok (s.take 1, s.drop 1) := if_pos hlen
    have hdrop : (s.drop 1).length = s.length - 1 := List.length_drop
    obtain ⟨hne, hle⟩ := hf (s.take 1) (s.drop 1) (by omega)
    rw [run_bind_ok hrun]
    refine ⟨hne, fun b t he => ?_⟩
    have := hle b t he
    omega
  · have hrun : (ByteStream.readBytes e' 1).run s = .error e' := if_neg hlen
    rw [run_bind_error hrun]
    refine ⟨fun he => h ?_, fun b t he => by cases he⟩
    cases he
    rfl

/-- Some input makes the reader give `a`. -/
def Yields (p : Reader ε α) (a : α) : Prop := ∃ s t, p.run s = .ok (a, t)

theorem Yields.of_bind {p : Reader ε α} {f : α → Reader ε β} {b : β} (h : Yields (p >>= f) b) :
    ∃ a, Yields p a ∧ Yields (f a) b := by
  obtain ⟨s, t, hrun⟩ := h
  cases hp : p.run s with
  | error e =>
      rw [run_bind_error hp] at hrun
      cases hrun
  | ok r =>
      obtain ⟨a, s'⟩ := r
      rw [run_bind_ok hp] at hrun
      exact ⟨a, ⟨s, s', hp⟩, s', t, hrun⟩

theorem Yields.of_pure {a b : α} (h : Yields (Pure.pure a : Reader ε α) b) : b = a := by
  obtain ⟨s, t, hrun⟩ := h
  cases hrun
  rfl

theorem Yields.of_throw {e : ε} {a : α} (h : Yields (MonadExcept.throw e : Reader ε α) a) :
    False := by
  obtain ⟨s, t, hrun⟩ := h
  cases hrun

theorem Yields.of_readN {p : Reader ε α} {n : ℕ} {xs : List α} (h : Yields (readN p n) xs) :
    xs.length = n ∧ ∀ x ∈ xs, Yields p x := by
  induction n generalizing xs with
  | zero =>
      rw [h.of_pure]
      simp
  | succ n ih =>
      obtain ⟨x, hx, h⟩ := h.of_bind
      obtain ⟨ys, hys, h⟩ := h.of_bind
      obtain ⟨hlen, hall⟩ := ih hys
      rw [h.of_pure]
      exact ⟨by simp [hlen], List.forall_mem_cons.2 ⟨hx, hall⟩⟩

end Reader

/-! ## Transfers -/

section Transfers

variable {ε α β : Type}

/-- **A transfer**: the writer emits some bytes, and the reader gets `a` back from exactly those. -/
def Transfers (w : Writer) (p : Reader ε α) (a : α) : Prop :=
  ∃ bs, w = some bs ∧ Reads p bs a

theorem Transfers.nil (a : α) : Transfers (emit []) (pure a : Reader ε α) a :=
  ⟨[], rfl, Reads.pure a⟩

theorem Transfers.cons {w : Writer} {ws : List Writer} {p : Reader ε α} {f : α → Reader ε β}
    {a : α} {b : β} (hw : Transfers w p a) (hws : Transfers (emit ws) (f a) b) :
    Transfers (emit (w :: ws)) (p >>= f) b := by
  obtain ⟨bs, rfl, hbs⟩ := hw
  obtain ⟨cs, hcs, hread⟩ := hws
  exact ⟨bs ++ cs, by simp [emit, hcs], hbs.bind hread⟩

/-- A step of the reader that consumes nothing, such as a check that passes. -/
theorem Transfers.skip {w : Writer} {p : Reader ε α} {f : α → Reader ε β} {a : α} {b : β}
    (hp : Reads p [] a) (hw : Transfers w (f a) b) : Transfers w (p >>= f) b := by
  obtain ⟨bs, hbs, hread⟩ := hw
  exact ⟨bs, hbs, hp.bind hread⟩

theorem Transfers.map {w : Writer} {p : Reader ε α} {a : α} (g : α → β) (hw : Transfers w p a) :
    Transfers w (do let x ← p; pure (g x)) (g a) := by
  obtain ⟨bs, hbs, hread⟩ := hw
  have hmap : Reads (do let x ← p; pure (g x)) (bs ++ []) (g a) :=
    Reads.bind (f := fun x => pure (g x)) hread (Reads.pure (g a))
  exact ⟨bs, hbs, by simpa using hmap⟩

theorem transfers_readBytes (e : ε) (bs : List UInt8) :
    Transfers (some bs) (readBytes e bs.length) bs :=
  ⟨bs, rfl, reads_readBytes e bs⟩

/-- A counted loop transfers a list when its body transfers every element. -/
theorem transfers_writeN (f : α → Writer) (p : Reader ε β) (g : α → β) (xs : List α)
    (h : ∀ x ∈ xs, Transfers (f x) p (g x)) :
    Transfers (writeN f xs.length xs) (readN p xs.length) (xs.map g) := by
  induction xs with
  | nil => exact Transfers.nil []
  | cons x xs ih =>
      have hx := h x (List.mem_cons_self ..)
      have hxs := ih fun y hy => h y (List.mem_cons_of_mem _ hy)
      refine Transfers.cons hx ?_
      rw [emit_singleton]
      exact hxs.map (g x :: ·)

end Transfers

end ByteStream
