import Mathlib.Data.List.Count
import Mathlib.Data.Nat.Find

set_option autoImplicit false

/-! # Connecting to a new container

After the container has been started, `start_backend` tries to connect to the client in it, with growing
pauses, until a ping is answered or the time is up. A connection whose ping fails is closed at once, but
the pointer to it stays, and is closed again when the time is up. -/

namespace PlContainer

/-! ## The pauses -/

/-- `CONTAINER_CONNECT_TIMEOUT_MS` -/
def containerConnectTimeoutMs : ℕ := 10000

/-- The next pause in microseconds, and the sum of the pauses so far in milliseconds. -/
structure Backoff where
  sleepus : ℕ
  sleepms : ℕ
  positive : 1000 ≤ sleepus

namespace Backoff

def first : Backoff := ⟨25000, 0, by decide⟩

/-- The pause is made, and the next one is twice as long, up to 200 ms. -/
def next (b : Backoff) : Backoff where
  sleepus := if b.sleepus ≥ 200000 then 200000 else b.sleepus * 2
  sleepms := b.sleepms + b.sleepus / 1000
  positive := by
    have hpositive := b.positive
    split <;> omega

/-- The pauses after so many failed attempts. -/
def after : ℕ → Backoff
  | 0 => first
  | n + 1 => (after n).next

end Backoff

/-! ## The attempts -/

/-- What comes of an attempt: `plcConnect` returns NULL, the ping cannot be sent, no pong is received, or
    the ping is answered. -/
inductive Attempt where
  | notConnected
  | pingFailed
  | pongFailed
  | answered
deriving DecidableEq

/-- What happens to a connection; it has the number of its attempt. -/
inductive ConnEvent where
  /-- `plcConnect` returns it -/
  | connected (conn : ℕ)
  /-- it is passed to `plcDisconnect` -/
  | disconnected (conn : ℕ)
  /-- `set_container_conn` -/
  | stored (conn : ℕ)
deriving DecidableEq

/-- What happens in an attempt. -/
def Attempt.events (i : ℕ) : Attempt → List ConnEvent
  | .notConnected => []
  | .pingFailed | .pongFailed => [.connected i, .disconnected i]
  | .answered => [.connected i]

/-- `conn` after an attempt: it is not set to NULL when the connection is closed. -/
def Attempt.conn (i : ℕ) : Attempt → Option ℕ
  | .notConnected => none
  | .pingFailed | .pongFailed | .answered => some i

/-- The state after the loop. -/
structure Connecting where
  events : List ConnEvent
  conn : Option ℕ
  backoff : Backoff

/-- The state with what happened before. -/
def Connecting.prepend (events : List ConnEvent) (c : Connecting) : Connecting :=
  { c with events := events ++ c.events }

theorem Connecting.prepend_nil (c : Connecting) : c.prepend [] = c := rfl

theorem Connecting.prepend_prepend (events events' : List ConnEvent) (c : Connecting) :
    (c.prepend events').prepend events = c.prepend (events ++ events') := by
  rw [prepend, prepend, prepend, List.append_assoc]

/-- The loop, from the attempt `i` on. -/
def connectLoop (attempts : ℕ → Attempt) (i : ℕ) (backoff : Backoff) (conn : Option ℕ) : Connecting :=
  if backoff.sleepms < containerConnectTimeoutMs then
    if attempts i = .answered then ⟨(attempts i).events i, (attempts i).conn i, backoff⟩
    else (connectLoop attempts (i + 1) backoff.next ((attempts i).conn i)).prepend ((attempts i).events i)
  else ⟨[], conn, backoff⟩
termination_by containerConnectTimeoutMs - backoff.sleepms
decreasing_by
  have hpositive := backoff.positive
  simp only [Backoff.next]
  omega

/-- `plcDisconnect` after the loop: nothing for NULL. -/
def closedAgain (conn : Option ℕ) : List ConnEvent := conn.toList.map .disconnected

/-- `start_backend` from its first attempt on: what happens, and the connection that is returned; `none` is
    the error for the timeout. -/
def startBackendConnect (attempts : ℕ → Attempt) : List ConnEvent × Option ℕ :=
  let loop := connectLoop attempts 0 .first none
  if loop.backoff.sleepms ≥ containerConnectTimeoutMs then (loop.events ++ closedAgain loop.conn, none)
  else (loop.events ++ loop.conn.toList.map .stored, loop.conn)

/-- **Every connection is disposed of once**: it is the one that is stored and returned, or it is closed
    exactly once. -/
def DisposedOnce (run : List ConnEvent × Option ℕ) : Prop :=
  ∀ conn, ConnEvent.connected conn ∈ run.1 →
    (run.2 = some conn ∧ ConnEvent.stored conn ∈ run.1 ∧ ConnEvent.disconnected conn ∉ run.1) ∨
      (run.2 ≠ some conn ∧ run.1.count (.disconnected conn) = 1)

/-! ## The number of attempts -/

/-- The attempts before the time is up. -/
def attemptLimit : ℕ := 53

namespace Backoff

theorem sleepus_next (b : Backoff) :
    b.next.sleepus = if b.sleepus ≥ 200000 then 200000 else b.sleepus * 2 := rfl

theorem sleepms_next (b : Backoff) : b.next.sleepms = b.sleepms + b.sleepus / 1000 := rfl

theorem after_add_three (n : ℕ) :
    (after (n + 3)).sleepus = 200000 ∧ (after (n + 3)).sleepms = 175 + 200 * n := by
  induction n with
  | zero => exact ⟨rfl, rfl⟩
  | succ n ih =>
      rw [Nat.add_right_comm, after, sleepus_next, sleepms_next, ih.1, ih.2]
      exact ⟨rfl, by omega⟩

/-- The time is up after the last of the attempts. -/
theorem sleepms_after_lt_iff (n : ℕ) :
    (after n).sleepms < containerConnectTimeoutMs ↔ n < attemptLimit := by
  rcases n with _ | _ | _ | n
  · decide
  · decide
  · decide
  · rw [(after_add_three n).2, containerConnectTimeoutMs, attemptLimit]
    omega

end Backoff

/-! ## The loop -/

section Loop

variable (attempts : ℕ → Attempt)

/-- What the first attempts did, all of them failed. -/
def failures (n : ℕ) : List ConnEvent := (List.range n).flatMap fun i => (attempts i).events i

/-- `conn` before an attempt. -/
def connBefore : ℕ → Option ℕ
  | 0 => none
  | n + 1 => (attempts n).conn n

variable {attempts}

/-- After so many failed attempts. -/
theorem connectLoop_failed {n : ℕ} (hn : n ≤ attemptLimit) (h : ∀ i < n, attempts i ≠ .answered) :
    connectLoop attempts 0 .first none =
      (connectLoop attempts n (.after n) (connBefore attempts n)).prepend (failures attempts n) := by
  induction n with
  | zero => exact (Connecting.prepend_nil _).symm
  | succ n ih =>
      have hstep : connectLoop attempts n (.after n) (connBefore attempts n) =
          (connectLoop attempts (n + 1) (.after (n + 1)) (connBefore attempts (n + 1))).prepend
            ((attempts n).events n) := by
        rw [connectLoop, if_pos ((Backoff.sleepms_after_lt_iff n).2 hn),
          if_neg (h n (Nat.lt_succ_self n))]
        rfl
      rw [ih (Nat.le_of_succ_le hn) fun i hi => h i (Nat.lt_succ_of_lt hi), hstep,
        Connecting.prepend_prepend, failures, failures, List.range_succ, List.flatMap_append,
        List.flatMap_singleton]

/-- An answered ping ends the loop. -/
theorem connectLoop_answered {n : ℕ} (hn : n < attemptLimit) (h : attempts n = .answered)
    (conn : Option ℕ) :
    connectLoop attempts n (.after n) conn = ⟨[.connected n], some n, .after n⟩ := by
  rw [connectLoop, if_pos ((Backoff.sleepms_after_lt_iff n).2 hn), if_pos h, h]
  rfl

/-- The time is up. -/
theorem connectLoop_timeout (conn : Option ℕ) :
    connectLoop attempts attemptLimit (.after attemptLimit) conn =
      ⟨[], conn, .after attemptLimit⟩ := by
  rw [connectLoop, if_neg (mt (Backoff.sleepms_after_lt_iff attemptLimit).1 (Nat.lt_irrefl _))]

theorem startBackendConnect_answered {n : ℕ} (hn : n < attemptLimit) (h : attempts n = .answered)
    (hfirst : ∀ i < n, attempts i ≠ .answered) :
    startBackendConnect attempts =
      (failures attempts n ++ [.connected n] ++ [.stored n], some n) := by
  rw [startBackendConnect, connectLoop_failed (Nat.le_of_lt hn) hfirst, connectLoop_answered hn h]
  exact if_neg (Nat.not_le.2 ((Backoff.sleepms_after_lt_iff n).2 hn))

theorem startBackendConnect_timeout (h : ∀ i < attemptLimit, attempts i ≠ .answered) :
    startBackendConnect attempts =
      (failures attempts attemptLimit ++ closedAgain (connBefore attempts attemptLimit), none) := by
  rw [startBackendConnect, connectLoop_failed (Nat.le_refl _) h, connectLoop_timeout, Connecting.prepend,
    List.append_nil]
  exact if_pos (Nat.not_lt.1 (mt (Backoff.sleepms_after_lt_iff attemptLimit).1 (Nat.lt_irrefl _)))

theorem mem_events_iff {a : Attempt} {i c : ℕ} :
    ConnEvent.connected c ∈ a.events i ↔ c = i ∧ a ≠ .notConnected := by
  cases a <;> simp [Attempt.events]

theorem count_events {a : Attempt} (ha : a ≠ .answered) (i c : ℕ) :
    (a.events i).count (.disconnected c) = if i = c ∧ a ≠ .notConnected then 1 else 0 := by
  cases a with
  | notConnected => simp [Attempt.events]
  | answered => exact absurd rfl ha
  | pingFailed | pongFailed => simp [Attempt.events, List.count_cons]

theorem connected_mem_failures {n c : ℕ} :
    ConnEvent.connected c ∈ failures attempts n ↔ c < n ∧ attempts c ≠ .notConnected := by
  simp only [failures, List.mem_flatMap, List.mem_range, mem_events_iff]
  constructor
  · rintro ⟨i, hi, rfl, hne⟩
    exact ⟨hi, hne⟩
  · rintro ⟨hc, hne⟩
    exact ⟨c, hc, rfl, hne⟩

/-- Every connection of a failed attempt is closed once in it. -/
theorem count_failures {n : ℕ} (h : ∀ i < n, attempts i ≠ .answered) (c : ℕ) :
    (failures attempts n).count (.disconnected c) =
      if c < n ∧ attempts c ≠ .notConnected then 1 else 0 := by
  induction n with
  | zero => rfl
  | succ n ih =>
      rw [failures, List.range_succ, List.flatMap_append, List.flatMap_singleton, List.count_append,
        ← failures, ih fun i hi => h i (Nat.lt_succ_of_lt hi), count_events (h n (Nat.lt_succ_self n))]
      by_cases hc : n = c
      · subst hc
        simp
      · have hlt : c < n + 1 ↔ c < n := by omega
        simp [hc, hlt]

end Loop

/-- An answered ping: its connection is stored, the earlier ones are closed. -/
theorem disposedOnce_of_answered {attempts : ℕ → Attempt} {n : ℕ} (hn : n < attemptLimit)
    (h : attempts n = .answered) (hfirst : ∀ i < n, attempts i ≠ .answered) :
    DisposedOnce (startBackendConnect attempts) := by
  rw [startBackendConnect_answered hn h hfirst]
  intro c hc
  have hcount := count_failures hfirst c
  simp only [List.mem_append, connected_mem_failures, List.mem_singleton, ConnEvent.connected.injEq,
    reduceCtorEq, or_false] at hc
  rcases hc with ⟨hlt, hne⟩ | rfl
  · refine .inr ⟨fun hsame => ?_, ?_⟩
    · have := Option.some.inj hsame
      omega
    · rw [if_pos ⟨hlt, hne⟩] at hcount
      simp [List.count_append, hcount]
  · refine .inl ⟨rfl, by simp, ?_⟩
    rw [if_neg fun hlt => Nat.lt_irrefl _ hlt.1, List.count_eq_zero] at hcount
    simp [hcount]

/-- The time is up: every connection is closed in its attempt, and the last one once more. -/
theorem disposedOnce_timeout_iff {attempts : ℕ → Attempt}
    (h : ∀ i < attemptLimit, attempts i ≠ .answered) :
    DisposedOnce (startBackendConnect attempts) ↔ attempts (attemptLimit - 1) = .notConnected := by
  have hcount := count_failures h
  have hlimit : attemptLimit - 1 < attemptLimit := by decide
  have hconn : connBefore attempts attemptLimit =
      (attempts (attemptLimit - 1)).conn (attemptLimit - 1) := rfl
  rw [startBackendConnect_timeout h, hconn]
  constructor
  · intro hdisposed
    by_contra hne
    have hagain : (attempts (attemptLimit - 1)).conn (attemptLimit - 1) = some (attemptLimit - 1) := by
      cases hlast : attempts (attemptLimit - 1) with
      | notConnected => exact absurd hlast hne
      | pingFailed | pongFailed | answered => rfl
    rw [hagain, closedAgain, Option.toList_some, List.map_singleton] at hdisposed
    have hmem : ConnEvent.connected (attemptLimit - 1) ∈ failures attempts attemptLimit :=
      connected_mem_failures.2 ⟨hlimit, hne⟩
    -- the last connection is closed in its attempt and after the loop
    obtain ⟨hreturned, -⟩ | ⟨-, honce⟩ := hdisposed _ (List.mem_append_left _ hmem)
    · cases hreturned
    · rw [List.count_append, hcount, if_pos ⟨hlimit, hne⟩, List.count_singleton_self] at honce
      omega
  · intro hlast c hc
    rw [hlast, Attempt.conn, closedAgain, Option.toList_none, List.map_nil, List.append_nil] at hc ⊢
    exact .inr ⟨nofun, by rw [hcount, if_pos (connected_mem_failures.1 hc)]⟩

/-- **Every connection is disposed of once** if a ping is answered in time, or if the last attempt has
    found no connection. -/
theorem disposed_once_iff (attempts : ℕ → Attempt) :
    DisposedOnce (startBackendConnect attempts) ↔
      (∃ i < attemptLimit, attempts i = .answered) ∨
        attempts (attemptLimit - 1) = .notConnected := by
  by_cases hanswered : ∃ i < attemptLimit, attempts i = .answered
  · obtain ⟨hn, hanswer⟩ := Nat.find_spec hanswered
    refine iff_of_true (disposedOnce_of_answered hn hanswer fun i hi hi' => ?_) (.inl hanswered)
    exact Nat.find_min hanswered hi ⟨by omega, hi'⟩
  · rw [or_iff_right hanswered]
    exact disposedOnce_timeout_iff fun i hi hi' => hanswered ⟨i, hi, hi'⟩

/-- No ping can be sent: the connection of the last attempt is closed twice. -/
theorem last_connection_closed_twice :
    ConnEvent.connected 52 ∈ (startBackendConnect fun _ => .pingFailed).1 ∧
      (startBackendConnect fun _ => .pingFailed).2 = none ∧
      (startBackendConnect fun _ => .pingFailed).1.count (.disconnected 52) = 2 := by
  rw [startBackendConnect_timeout (fun _ _ => by decide)]
  decide

end PlContainer
