import Mathlib.Data.List.Nodup

set_option autoImplicit false

/-! # Least-recently-used caches

A cache is the list of its entries, most recently used first. A lookup moves the entry it finds to
the front; an insertion replaces the entry with the same key, or pushes the new entry and drops the
last one when the cache is full. Keys stay distinct, and then the lemmas below say which entries a
lookup and an insertion leave. -/

namespace LruCache

variable {α κ : Type} [DecidableEq κ] (key : α → κ)

/-- Find the entry with the given key and move it to the front. -/
def get (k : κ) (l : List α) : Option α × List α :=
  match l.find? (fun a => key a = k) with
  | none => (none, l)
  | some a => (some a, a :: l.eraseP (fun b => key b = k))

/-- The entries that an insertion leaves behind the new one. -/
def others (cap : ℕ) (a : α) (l : List α) : List α :=
  match get key (key a) l with
  | (none, l') => l'.take (cap - 1)
  | (some _, l') => l'.tail

/-- Put an entry in front of a cache of `cap` entries. -/
def put (cap : ℕ) (a : α) (l : List α) : List α := a :: others key cap a l

/-- No two entries have the same key. -/
def Distinct (l : List α) : Prop := (l.map key).Nodup

variable {key}

theorem get_eq_none {k : κ} {l : List α} (h : (get key k l).1 = none) :
    (get key k l).2 = l ∧ ∀ a ∈ l, key a ≠ k := by
  unfold get at h ⊢
  cases hfind : l.find? (fun a => key a = k) with
  | none =>
      refine ⟨rfl, fun a ha hk => ?_⟩
      have hnone := List.find?_eq_none.1 hfind a ha
      simp [hk] at hnone
  | some a =>
      rw [hfind] at h
      cases h

theorem get_eq_some {k : κ} {l : List α} {a : α} (h : (get key k l).1 = some a) :
    (get key k l).2 = a :: l.eraseP (fun b => key b = k) ∧ a ∈ l ∧ key a = k := by
  unfold get at h ⊢
  cases hfind : l.find? (fun a => key a = k) with
  | none =>
      rw [hfind] at h
      cases h
  | some b =>
      rw [hfind] at h
      cases h
      have hkey := List.find?_some hfind
      exact ⟨rfl, List.mem_of_find?_eq_some hfind, by simpa using hkey⟩

/-- The entry found and the others are a rearrangement of the cache. -/
theorem perm_get (k : κ) (l : List α) : (get key k l).2.Perm l := by
  cases hget : (get key k l).1 with
  | none => rw [(get_eq_none hget).1]
  | some a =>
      obtain ⟨hsnd, _, _⟩ := get_eq_some hget
      rw [hsnd]
      have hfind : l.find? (fun b => key b = k) = some a := by
        unfold get at hget
        split at hget
        · cases hget
        · next hf => rw [hf]; exact hget
      obtain ⟨_, as, bs, rfl, has⟩ := List.find?_eq_some_iff_append.1 hfind
      rw [List.eraseP_append_right _ (by simpa using has), List.eraseP_cons_of_pos (by simp_all)]
      exact List.perm_middle.symm

theorem mem_get {k : κ} {l : List α} {x : α} : x ∈ (get key k l).2 ↔ x ∈ l :=
  (perm_get k l).mem_iff

theorem Distinct.get {l : List α} (h : Distinct key l) (k : κ) :
    Distinct key (get key k l).2 :=
  ((perm_get k l).map key).nodup_iff.2 h

/-- An insertion leaves only old entries, all with other keys. -/
theorem mem_others {cap : ℕ} {a x : α} {l : List α} (hl : Distinct key l)
    (hx : x ∈ others key cap a l) : x ∈ l ∧ key x ≠ key a := by
  unfold others at hx
  split at hx
  · next l' hget =>
      obtain ⟨hsnd, hother⟩ := get_eq_none (show (get key (key a) l).1 = none by rw [hget])
      rw [hget] at hsnd
      have hsame : l' = l := hsnd
      rw [hsame] at hx
      have hxl := List.mem_of_mem_take hx
      exact ⟨hxl, hother x hxl⟩
  · next b l' hget =>
      obtain ⟨hsnd, _, hkey⟩ := get_eq_some (show (get key (key a) l).1 = some b by rw [hget])
      have hd := hl.get (key a)
      rw [hget] at hsnd hd
      have hfront : l' = b :: l.eraseP (fun c => key c = key a) := hsnd
      -- the entry found is in front, and no other entry has its key
      rw [hfront] at hx hd
      rw [List.tail_cons] at hx
      rw [Distinct, List.map_cons, List.nodup_cons] at hd
      refine ⟨List.mem_of_mem_eraseP hx, fun hsame => hd.1 ?_⟩
      exact List.mem_map.2 ⟨x, hx, hsame.trans hkey.symm⟩

theorem Distinct.others {l : List α} (h : Distinct key l) (cap : ℕ) (a : α) :
    Distinct key (others key cap a l) := by
  have hd := h.get (key a)
  unfold LruCache.others
  split
  · next l' hget =>
      rw [hget] at hd
      exact hd.sublist ((List.take_sublist _ l').map key)
  · next b l' hget =>
      rw [hget] at hd
      exact hd.sublist ((List.tail_sublist l').map key)

theorem mem_put {cap : ℕ} {a x : α} {l : List α} (hl : Distinct key l)
    (hx : x ∈ put key cap a l) : x = a ∨ x ∈ l ∧ key x ≠ key a := by
  rcases List.mem_cons.1 hx with rfl | hx
  · exact .inl rfl
  · exact .inr (mem_others hl hx)

theorem Distinct.put {l : List α} (h : Distinct key l) (cap : ℕ) (a : α) :
    Distinct key (put key cap a l) := by
  rw [Distinct, LruCache.put, List.map_cons, List.nodup_cons]
  refine ⟨fun hmem => ?_, h.others cap a⟩
  obtain ⟨x, hx, hkey⟩ := List.mem_map.1 hmem
  exact (mem_others h hx).2 hkey

/-! ## Entries seen through a map that keeps their keys -/

section Map

variable {β : Type} {key' : β → κ} {f : β → α}

theorem get_map (hkey : ∀ b, key (f b) = key' b) (k : κ) (l : List β) :
    get key k (l.map f) = ((get key' k l).1.map f, (get key' k l).2.map f) := by
  have hpred : (fun a => decide (key a = k)) ∘ f = fun b => decide (key' b = k) := by
    funext b
    simp [hkey]
  rw [get, get, List.find?_map, List.eraseP_map, hpred]
  cases l.find? (fun b => key' b = k) <;> rfl

theorem put_map (hkey : ∀ b, key (f b) = key' b) (cap : ℕ) (b : β) (l : List β) :
    put key cap (f b) (l.map f) = (put key' cap b l).map f := by
  rw [put, put, others, others, hkey, get_map hkey]
  rcases get key' (key' b) l with ⟨_ | _, l'⟩
  · simp
  · simp

end Map

end LruCache
