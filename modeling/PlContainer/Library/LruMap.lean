import Mathlib.Data.Finset.Card
import PlContainer.Library.LruRecency

set_option autoImplicit false

/-! # Least-recently-used maps

What a bounded cache with least-recently-used replacement is for, without an array or a list of its
entries: the entry last put for each key, and the history of uses. A key is held as long as fewer than
`cap` other keys have been used since its own last use. `Specified` says in these terms what each
operation returns and frees, and `Represents` relates the map to the list of `LruCache`. -/

namespace LruCache

variable {α κ : Type}

/-! ## The map -/

structure LruMap (α κ : Type) where
  /-- the entry last put for each key -/
  entry : κ → Option α
  /-- the key of each use, an insertion or a lookup that found it, the last use first -/
  uses : List κ

inductive Op (α κ : Type) where
  | get (k : κ)
  | put (a : α)

/-- What an operation returns and what it frees. -/
structure Outcome (α : Type) where
  returned : Option α
  freed : Option α
deriving DecidableEq

variable [DecidableEq κ]

/-- The keys used since the last use of `k`. -/
def usedSince (k : κ) (uses : List κ) : Finset κ := (uses.takeWhile (fun x => x ≠ k)).toFinset

namespace LruMap

def empty : LruMap α κ := ⟨fun _ => none, []⟩

/-- The key was used, and fewer than `cap` other keys since then. -/
def Held (cap : ℕ) (m : LruMap α κ) (k : κ) : Prop :=
  k ∈ m.uses ∧ (usedSince k m.uses).card < cap

instance (cap : ℕ) (m : LruMap α κ) (k : κ) : Decidable (m.Held cap k) := instDecidableAnd

/-- The keys held. -/
def held (cap : ℕ) (m : LruMap α κ) : Finset κ := m.uses.toFinset.filter (m.Held cap)

/-- The key is held, and all others that are held have been used since its last use. -/
def LeastRecent (cap : ℕ) (m : LruMap α κ) (k : κ) : Prop :=
  m.Held cap k ∧ ∀ k', m.Held cap k' → k' ≠ k → k' ∈ usedSince k m.uses

/-- The map after a use of the key. -/
def use (k : κ) (m : LruMap α κ) : LruMap α κ := { m with uses := k :: m.uses }

/-- The map after an operation. -/
def next (key : α → κ) (cap : ℕ) (m : LruMap α κ) : Op α κ → LruMap α κ
  | .get k => if m.Held cap k then m.use k else m
  | .put a => ⟨fun k => if k = key a then some a else m.entry k, key a :: m.uses⟩

/-- **What an operation does.** A lookup returns the entry last put if its key is held, and frees
    nothing. An insertion frees the entry of a key that is held; for a new key it frees the least
    recently used entry if the map is full, and nothing otherwise. -/
def Specified (key : α → κ) (cap : ℕ) (m : LruMap α κ) : Op α κ → Outcome α → Prop
  | .get k, o => o.returned = (if m.Held cap k then m.entry k else none) ∧ o.freed = none
  | .put a, o =>
      o.returned = none ∧
      (m.Held cap (key a) → o.freed = m.entry (key a)) ∧
      (¬ m.Held cap (key a) → (m.held cap).card < cap → o.freed = none) ∧
      (¬ m.Held cap (key a) → ¬ (m.held cap).card < cap →
        ∃ k, m.LeastRecent cap k ∧ o.freed = m.entry k)

end LruMap

/-! ## The recency order of a history -/

/-- The keys of a history in the order of their last use. -/
def order : List κ → List κ
  | [] => []
  | k :: uses => touch k (order uses)

theorem nodup_order (uses : List κ) : (order uses).Nodup := by
  induction uses with
  | nil => exact List.nodup_nil
  | cons k uses ih => exact nodup_touch ih k

theorem mem_order {k : κ} (uses : List κ) : k ∈ order uses ↔ k ∈ uses := by
  induction uses with
  | nil => simp [order]
  | cons x uses ih =>
      by_cases hx : k = x
      · simp [order, touch, hx]
      · simp [order, touch, hx, List.mem_erase_of_ne hx, ih]

theorem takeWhile_erase {k x : κ} (hx : x ≠ k) (r : List κ) :
    (r.erase x).takeWhile (fun y => y ≠ k) = (r.takeWhile (fun y => y ≠ k)).erase x := by
  induction r with
  | nil => rfl
  | cons y r ih =>
      by_cases hyx : y = x
      · simp [hyx, hx]
      · by_cases hyk : y = k
        · rw [List.erase_cons_tail (by simpa using hyx)]
          simp [hyk]
        · simpa [hyx, hyk, List.erase_cons_tail] using ih

/-- The keys in front of `k` are those used since. -/
theorem toFinset_takeWhile_order (k : κ) (uses : List κ) :
    ((order uses).takeWhile (fun x => x ≠ k)).toFinset = usedSince k uses := by
  induction uses with
  | nil => rfl
  | cons x uses ih =>
      rw [usedSince] at ih ⊢
      by_cases hx : x = k
      · simp [order, touch, hx]
      · have hfront : (order (x :: uses)).takeWhile (fun y => y ≠ k)
            = x :: ((order uses).takeWhile (fun y => y ≠ k)).erase x := by
          rw [← takeWhile_erase hx]
          simp [order, touch, hx]
        rw [hfront]
        ext y
        have hy := Finset.ext_iff.1 ih y
        simp only [List.mem_toFinset] at hy
        by_cases hyx : y = x
        · simp [hyx, hx]
        · simpa [hyx, hx, List.mem_erase_of_ne hyx] using hy

theorem mem_take_iff {r : List κ} {k : κ} {n : ℕ} :
    k ∈ r.take n ↔ k ∈ r ∧ (r.takeWhile (fun x => x ≠ k)).length < n := by
  induction r generalizing n with
  | nil => simp
  | cons x r ih =>
      cases n with
      | zero => simp
      | succ n =>
          by_cases hx : x = k
          · simp [hx]
          · simp [hx, ih, Ne.symm hx]

theorem pairwise_takeWhile {r : List κ} (h : r.Nodup) :
    r.Pairwise fun a b => a ∈ r.takeWhile (fun x => x ≠ b) := by
  induction r with
  | nil => exact .nil
  | cons x r ih =>
      obtain ⟨hx, hr⟩ := List.nodup_cons.1 h
      refine List.pairwise_cons.2 ⟨fun b hb => ?_, (ih hr).imp_of_mem fun {a b} _ hb hab => ?_⟩
      · have hne : x ≠ b := fun heq => hx (heq ▸ hb)
        simp [hne]
      · have hne : x ≠ b := fun heq => hx (heq ▸ hb)
        simp only [List.takeWhile_cons, hne, ne_eq, not_false_eq_true, decide_true, if_true]
        exact List.mem_cons_of_mem _ hab

/-- The keys held are the first `cap` of the recency order. -/
theorem LruMap.held_iff (cap : ℕ) (m : LruMap α κ) (k : κ) :
    m.Held cap k ↔ k ∈ (order m.uses).take cap := by
  have hnodup := (nodup_order m.uses).sublist (List.takeWhile_sublist (fun x => decide (x ≠ k)))
  rw [LruMap.Held, mem_take_iff, mem_order, ← toFinset_takeWhile_order,
    List.toFinset_card_of_nodup hnodup]

/-! ## The list of the entries -/

/-- The list holds the entries of the keys held, in the order of their last use. -/
structure Represents (key : α → κ) (cap : ℕ) (l : List α) (m : LruMap α κ) : Prop where
  follows : Follows key cap l (order m.uses)
  entries : ∀ a ∈ l, m.entry (key a) = some a

namespace Represents

variable {key : α → κ} {cap : ℕ} {l : List α} {m : LruMap α κ}

theorem empty : Represents key cap [] (LruMap.empty : LruMap α κ) :=
  ⟨.nil, fun _ h => absurd h List.not_mem_nil⟩

theorem held_iff (h : Represents key cap l m) (k : κ) : m.Held cap k ↔ ∃ a ∈ l, key a = k := by
  rw [LruMap.held_iff, h.follows.mem_keys]

theorem card_held (h : Represents key cap l m) : (m.held cap).card = l.length := by
  have hheld : m.held cap = (l.map key).toFinset := by
    ext k
    rw [LruMap.held, Finset.mem_filter, h.held_iff, List.mem_toFinset, List.mem_toFinset,
      List.mem_map, and_iff_right_iff_imp, ← h.held_iff]
    exact And.left
  rw [hheld, List.toFinset_card_of_nodup h.follows.distinct, List.length_map]

/-- An entry in front of another one has been used since. -/
theorem pairwise (h : Represents key cap l m) :
    l.Pairwise fun a b => key a ∈ usedSince (key b) m.uses := by
  rw [← List.pairwise_map (f := key) (R := fun a b => a ∈ usedSince b m.uses), h.follows.keys]
  refine ((pairwise_takeWhile h.follows.nodup).imp fun {a b} hab => ?_).sublist
    (List.take_sublist cap _)
  rw [← toFinset_takeWhile_order, List.mem_toFinset]
  exact hab

/-- The entry in the last place is the least recently used one. -/
theorem leastRecent_last (h : Represents key cap l m) {a : α} (ha : l.getLast? = some a) :
    m.LeastRecent cap (key a) := by
  obtain ⟨init, rfl⟩ := List.getLast?_eq_some_iff.1 ha
  refine ⟨(h.held_iff _).2 ⟨a, by simp, rfl⟩, fun k hk hne => ?_⟩
  obtain ⟨b, hb, rfl⟩ := (h.held_iff k).1 hk
  have hb' : b ∈ init := by
    rcases List.mem_append.1 hb with hb | hb
    · exact hb
    · exact absurd (congrArg key (List.mem_singleton.1 hb)) hne
  exact (List.pairwise_append.1 h.pairwise).2.2 b hb' a (List.mem_singleton_self a)

/-! ## The operations -/

theorem specified_get (h : Represents key cap l m) (k : κ) :
    m.Specified key cap (.get k) ⟨(LruCache.get key k l).1, none⟩ := by
  refine ⟨?_, rfl⟩
  cases hget : (LruCache.get key k l).1 with
  | none =>
      rw [if_neg]
      rw [h.held_iff]
      rintro ⟨a, ha, hkey⟩
      exact (get_eq_none hget).2 a ha hkey
  | some a =>
      obtain ⟨-, ha, rfl⟩ := get_eq_some hget
      rw [if_pos ((h.held_iff _).2 ⟨a, ha, rfl⟩), h.entries a ha]

theorem get (h : Represents key cap l m) (k : κ) :
    Represents key cap (LruCache.get key k l).2 (m.next key cap (.get k)) := by
  have hfollows := h.follows.get k
  rw [touchHeld] at hfollows
  rw [LruMap.next]
  split
  next hheld =>
    rw [if_pos ((LruMap.held_iff cap m k).1 hheld)] at hfollows
    exact ⟨hfollows, fun a ha => h.entries a (mem_get.1 ha)⟩
  next hheld =>
    rw [if_neg (fun hk => hheld ((LruMap.held_iff cap m k).2 hk))] at hfollows
    exact ⟨hfollows, fun a ha => h.entries a (mem_get.1 ha)⟩

theorem specified_put (h : Represents key cap l m) (hcap : 0 < cap) (a : α) :
    m.Specified key cap (.put a) ⟨none, dropped key cap a l⟩ := by
  refine ⟨rfl, fun hheld => ?_, fun hnew hroom => ?_, fun hnew hfull => ?_⟩
  · obtain ⟨x, hx, hkey⟩ := (h.held_iff _).1 hheld
    rw [← hkey, h.entries x hx]
    exact dropped_of_key_eq h.follows.distinct hx hkey
  · rw [h.card_held] at hroom
    rw [dropped_of_absent fun x hx hkey => hnew ((h.held_iff _).2 ⟨x, hx, hkey⟩)]
    exact List.getElem?_eq_none (by omega)
  · rw [h.card_held] at hfull
    have hlen : l.length = cap := Nat.le_antisymm h.follows.length_le (Nat.le_of_not_lt hfull)
    have hlast : l[cap - 1]? = l.getLast? := by rw [List.getLast?_eq_getElem?, hlen]
    rw [dropped_of_absent fun x hx hkey => hnew ((h.held_iff _).2 ⟨x, hx, hkey⟩), hlast]
    obtain ⟨x, hx⟩ : ∃ x, l.getLast? = some x := by
      rw [← hlast]
      exact ⟨_, List.getElem?_eq_getElem (by omega)⟩
    exact ⟨key x, h.leastRecent_last hx, hx.trans (h.entries x (List.mem_of_getLast? hx)).symm⟩

theorem put (h : Represents key cap l m) (hcap : 0 < cap) (a : α) :
    Represents key cap (LruCache.put key cap a l) (m.next key cap (.put a)) := by
  refine ⟨h.follows.put hcap a, fun x hx => ?_⟩
  rcases mem_put h.follows.distinct hx with rfl | ⟨hmem, hne⟩
  · exact if_pos rfl
  · exact (if_neg hne).trans (h.entries x hmem)

end Represents

end LruCache
