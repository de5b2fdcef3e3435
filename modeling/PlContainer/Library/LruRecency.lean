import PlContainer.Library.LruCache

set_option autoImplicit false

/-! # What a least-recently-used cache holds

The keys in the order of their last use, without a bound, are the recency order of a cache. The cache
holds the first `cap` keys of it, whatever was looked up and inserted, and so the recency order tells
which entry an insertion gives up. -/

namespace LruCache

variable {α κ : Type} {key : α → κ} {cap : ℕ} {l : List α} {recent : List κ}

/-- The cache holds the keys that were used last. -/
structure Follows (key : α → κ) (cap : ℕ) (l : List α) (recent : List κ) : Prop where
  nodup : recent.Nodup
  keys : l.map key = recent.take cap

namespace Follows

theorem distinct (h : Follows key cap l recent) : Distinct key l := by
  rw [Distinct, h.keys]
  exact h.nodup.sublist (List.take_sublist _ _)

theorem length_le (h : Follows key cap l recent) : l.length ≤ cap := by
  rw [← List.length_map key, h.keys]
  exact List.length_take_le _ _

theorem mem_keys (h : Follows key cap l recent) {k : κ} :
    k ∈ recent.take cap ↔ ∃ x ∈ l, key x = k := by
  rw [← h.keys, List.mem_map]

theorem nil : Follows key cap ([] : List α) [] := ⟨List.nodup_nil, by simp⟩

end Follows

variable [DecidableEq κ]

/-- The recency order after a use of `k`. -/
def touch (k : κ) (recent : List κ) : List κ := k :: recent.erase k

/-- The recency order after a lookup of `k`, which uses it only if the cache holds it. -/
def touchHeld (cap : ℕ) (k : κ) (recent : List κ) : List κ :=
  if k ∈ recent.take cap then touch k recent else recent

theorem nodup_touch (h : recent.Nodup) (k : κ) : (touch k recent).Nodup :=
  List.nodup_cons.2 ⟨h.not_mem_erase, h.erase k⟩

theorem touch_touchHeld (cap : ℕ) (k : κ) (recent : List κ) :
    touch k (touchHeld cap k recent) = touch k recent := by
  rw [touchHeld]
  split
  · simp [touch]
  · rfl

theorem take_erase (k : κ) (ks : List κ) (n : ℕ) :
    (ks.erase k).take n = ((ks.take (n + 1)).erase k).take n := by
  induction ks generalizing n with
  | nil => rfl
  | cons x xs ih =>
      by_cases hx : x = k
      · simp [hx, List.take_take]
      · cases n with
        | zero => rfl
        | succ n => simp [hx, ih n]

theorem map_eraseP_key (k : κ) (l : List α) :
    (l.eraseP (fun b => key b = k)).map key = (l.map key).erase k := by
  induction l with
  | nil => rfl
  | cons b l ih =>
      by_cases hb : key b = k
      · simp [hb]
      · simp [hb, ih]

theorem ne_of_mem_eraseP (hl : Distinct key l) {k : κ} {x : α}
    (hx : x ∈ l.eraseP (fun b => key b = k)) : key x ≠ k := by
  rintro rfl
  have hkey := List.mem_map_of_mem (f := key) hx
  rw [map_eraseP_key] at hkey
  exact List.Nodup.not_mem_erase hl hkey

namespace Follows

/-- The keys once a key that the cache holds has moved to the front. -/
theorem take_touch_held (h : Follows key cap l recent) {k : κ} (hk : k ∈ recent.take cap) :
    k :: (l.map key).erase k = (touch k recent).take cap := by
  cases cap with
  | zero => simp at hk
  | succ n =>
      have hlen : ((recent.take (n + 1)).erase k).length ≤ n := by
        have hcap := List.length_take_le (n + 1) recent
        rw [List.length_erase_of_mem hk]
        omega
      rw [h.keys, touch, List.take_succ_cons, take_erase, List.take_of_length_le hlen]

/-- The keys once a new key has been pushed. -/
theorem take_touch_new (h : Follows key cap l recent) (hcap : 0 < cap) {k : κ}
    (hk : k ∉ recent.take cap) :
    k :: (l.map key).take (cap - 1) = (touch k recent).take cap := by
  obtain ⟨n, rfl⟩ := Nat.exists_eq_succ_of_ne_zero (Nat.ne_of_gt hcap)
  rw [h.keys, touch, List.take_succ_cons, take_erase, List.erase_of_not_mem hk]
  rfl

/-- A lookup moves the entry it finds to the front. -/
theorem get (h : Follows key cap l recent) (k : κ) :
    Follows key cap (get key k l).2 (touchHeld cap k recent) := by
  rw [touchHeld]
  cases hget : (LruCache.get key k l).1 with
  | none =>
      obtain ⟨hsame, hno⟩ := get_eq_none hget
      rw [hsame, if_neg]
      · exact h
      · rintro hk
        obtain ⟨x, hx, hkey⟩ := h.mem_keys.1 hk
        exact hno x hx hkey
  | some a =>
      obtain ⟨hfront, ha, hkey⟩ := get_eq_some hget
      have hk : k ∈ recent.take cap := h.mem_keys.2 ⟨a, ha, hkey⟩
      rw [hfront, if_pos hk]
      refine ⟨nodup_touch h.nodup k, ?_⟩
      rw [List.map_cons, map_eraseP_key, hkey, h.take_touch_held hk]

/-- An insertion uses the key of the new entry. -/
theorem put (h : Follows key cap l recent) (hcap : 0 < cap) (a : α) :
    Follows key cap (put key cap a l) (touch (key a) recent) := by
  refine ⟨nodup_touch h.nodup _, ?_⟩
  rw [LruCache.put, List.map_cons, others]
  split
  next l' hget =>
    obtain ⟨hsame, hno⟩ := get_eq_none (show (LruCache.get key (key a) l).1 = none by rw [hget])
    rw [hget] at hsame
    have hl : l' = l := hsame
    rw [hl, List.map_take, h.take_touch_new hcap]
    rintro hk
    obtain ⟨x, hx, hkey⟩ := h.mem_keys.1 hk
    exact hno x hx hkey
  next b l' hget =>
    obtain ⟨hfront, hb, hkey⟩ :=
      get_eq_some (show (LruCache.get key (key a) l).1 = some b by rw [hget])
    rw [hget] at hfront
    have hl : l' = b :: l.eraseP (fun c => key c = key a) := hfront
    rw [hl, List.tail_cons, map_eraseP_key, h.take_touch_held (h.mem_keys.2 ⟨b, hb, hkey⟩)]

/-- A key that the cache holds and that is looked up or inserted leaves all others in place. -/
theorem mem_touch_held (h : Follows key cap l recent) {k x : κ} (hk : k ∈ recent.take cap)
    (hx : x ∈ recent.take cap) : x ∈ (touch k recent).take cap := by
  rw [← h.take_touch_held hk, h.keys, List.mem_cons]
  by_cases heq : x = k
  · exact .inl heq
  · exact .inr ((List.mem_erase_of_ne heq).2 hx)

end Follows

/-! ## The entry given up -/

/-- The entry that an insertion gives up: the one with the same key, or the last one of a full
    cache. -/
def dropped (key : α → κ) (cap : ℕ) (a : α) (l : List α) : Option α :=
  match get key (key a) l with
  | (none, l') => l'[cap - 1]?
  | (some b, _) => some b

theorem mem_of_dropped {a x : α} (hx : dropped key cap a l = some x) : x ∈ l := by
  rw [dropped] at hx
  split at hx
  next l' hget =>
    obtain ⟨hsame, _⟩ := get_eq_none (show (get key (key a) l).1 = none by rw [hget])
    rw [hget] at hsame
    have hl : l' = l := hsame
    exact hl ▸ List.mem_of_getElem? hx
  next b l' hget =>
    cases hx
    exact (get_eq_some (show (get key (key a) l).1 = some x by rw [hget])).2.1

theorem dropped_of_key_eq (hl : Distinct key l) {a x : α} (hx : x ∈ l) (hkey : key x = key a) :
    dropped key cap a l = some x := by
  rcases hget : get key (key a) l with ⟨_ | b, l'⟩
  · obtain ⟨_, hno⟩ := get_eq_none (show (get key (key a) l).1 = none by rw [hget])
    exact absurd hkey (hno x hx)
  · obtain ⟨_, hb, hkey'⟩ := get_eq_some (show (get key (key a) l).1 = some b by rw [hget])
    rw [dropped, hget, List.inj_on_of_nodup_map hl hb hx (hkey'.trans hkey.symm)]

theorem dropped_of_absent {a : α} (h : ∀ x ∈ l, key x ≠ key a) :
    dropped key cap a l = l[cap - 1]? := by
  rcases hget : get key (key a) l with ⟨_ | b, l'⟩
  · obtain ⟨hsame, _⟩ := get_eq_none (show (get key (key a) l).1 = none by rw [hget])
    rw [hget] at hsame
    obtain rfl : l' = l := hsame
    rw [dropped, hget]
  · obtain ⟨_, hb, hkey⟩ := get_eq_some (show (get key (key a) l).1 = some b by rw [hget])
    exact absurd hkey (h b hb)

/-- An old entry stays behind the new one unless it is given up. -/
theorem mem_others_iff (hl : Distinct key l) (hlen : l.length ≤ cap) {a x : α} (hx : x ∈ l) :
    x ∈ others key cap a l ↔ dropped key cap a l ≠ some x := by
  have hnodup : l.Nodup := List.Nodup.of_map key hl
  rcases hget : get key (key a) l with ⟨_ | b, l'⟩
  · obtain ⟨hsame, _⟩ := get_eq_none (show (get key (key a) l).1 = none by rw [hget])
    rw [hget] at hsame
    obtain rfl : l' = l := hsame
    rw [others, dropped, hget]
    dsimp only
    -- the key is new: the entry in the last place is dropped, if all places are taken
    obtain ⟨i, hi, rfl⟩ := List.getElem_of_mem hx
    rw [List.mem_take_iff_getElem]
    constructor
    · rintro ⟨j, hj, heq⟩ hlast
      obtain ⟨hlt, hget'⟩ := List.getElem?_eq_some_iff.1 hlast
      have hji : j = i := (hnodup.getElem_inj_iff).1 heq
      have hli : cap - 1 = i := (hnodup.getElem_inj_iff).1 hget'
      omega
    · intro hne
      refine ⟨i, ?_, rfl⟩
      have hlast : i ≠ cap - 1 := by
        rintro rfl
        exact hne (List.getElem?_eq_getElem hi)
      omega
  · obtain ⟨hfront, hb, hkey⟩ :=
      get_eq_some (show (get key (key a) l).1 = some b by rw [hget])
    have hperm : (get key (key a) l).2.Perm l := perm_get _ _
    rw [hget] at hfront hperm
    obtain rfl : l' = b :: l.eraseP (fun c => key c = key a) := hfront
    -- the key is there: its old entry has come to the front, and is the one that is dropped
    have hnodup' := hperm.nodup_iff.2 hnodup
    have hmem := hperm.mem_iff.2 hx
    rw [others, dropped, hget]
    dsimp only
    rw [List.tail_cons]
    constructor
    · intro hin hsome
      cases hsome
      exact (List.nodup_cons.1 hnodup').1 hin
    · intro hne
      rcases List.mem_cons.1 hmem with rfl | hin
      · exact absurd rfl hne
      · exact hin

/-- Entries of other keys are given up exactly when they leave the first `cap` of the recency
    order. -/
theorem Follows.dropped_iff (h : Follows key cap l recent) (hcap : 0 < cap) {a x : α} (hx : x ∈ l)
    (hne : key x ≠ key a) :
    dropped key cap a l = some x ↔ key x ∉ (touch (key a) recent).take cap := by
  rw [← not_iff_not, not_not, ← ne_eq, ← mem_others_iff h.distinct h.length_le hx,
    (h.put hcap a).mem_keys]
  constructor
  · intro hin
    exact ⟨x, List.mem_cons_of_mem _ hin, rfl⟩
  · rintro ⟨y, hy, hkey⟩
    rcases List.mem_cons.1 hy with rfl | hy
    · exact absurd hkey.symm hne
    · obtain ⟨hyl, _⟩ := mem_others h.distinct hy
      have hsame : y = x := List.inj_on_of_nodup_map h.distinct hyl hx hkey
      exact hsame ▸ hy

end LruCache
