import PlContainer.FunctionCache.InUse
import PlContainer.Library.LruArray
import PlContainer.Library.LruMap

set_option autoImplicit false

/-! # The arrays of the function caches

`function_cache.c` and `pycache.c` keep their entries in a static array and in an allocated one, which
their first lookup sets up. The other modules work with the list of the entries; here are the cells
and the loops over them, for the two capacities. Both caches refine the same least-recently-used map,
over every sequence of lookups and insertions. -/

namespace PlContainer

open LruCache LruArray

variable {α κ : Type}

/-! ## The operations -/

/-- The cells of a cache. Before its first use there are none; a lookup starts with empty cells. -/
def openCells (cap : ℕ) (cache : Option (List (Option α))) : List (Option α) :=
  cache.getD (List.replicate cap none)

section

variable [DecidableEq κ] (key : α → κ) (cap : ℕ)

/-- The lookup of both caches. -/
def cacheGet (k : κ) (cache : Option (List (Option α))) : Option α × Option (List (Option α)) :=
  ((LruArray.get key cap k (openCells cap cache)).1,
    some (LruArray.get key cap k (openCells cap cache)).2)

/-- The insertion of both caches, with the entry that it frees. -/
def cachePut (a : α) (cache : Option (List (Option α))) : Option α × Option (List (Option α)) :=
  ((LruArray.put key cap a (openCells cap cache)).1,
    some (LruArray.put key cap a (openCells cap cache)).2)

end

def functionCacheGet (funcOid : Oid) (cache : Option (List (Option CachedProc))) :
    Option CachedProc × Option (List (Option CachedProc)) :=
  cacheGet CachedProc.funcOid plcFunctionCacheSize funcOid cache

def functionCachePut (func : CachedProc) (cache : Option (List (Option CachedProc))) :
    Option CachedProc × Option (List (Option CachedProc)) :=
  cachePut CachedProc.funcOid plcFunctionCacheSize func cache

def plcPyFunctionCacheGet (objectid : Oid) (cache : Option (List (Option PlcPyFunction))) :
    Option PlcPyFunction × Option (List (Option PlcPyFunction)) :=
  cacheGet PlcPyFunction.objectid plcPyFunctionCacheSize objectid cache

def plcPyFunctionCachePut (func : PlcPyFunction) (cache : Option (List (Option PlcPyFunction))) :
    Option PlcPyFunction × Option (List (Option PlcPyFunction)) :=
  cachePut PlcPyFunction.objectid plcPyFunctionCacheSize func cache

/-- One operation on the backend's cache. -/
def functionCacheExec (cache : Option (List (Option CachedProc))) :
    Op CachedProc Oid → Option (List (Option CachedProc)) × Outcome CachedProc
  | .get funcOid => ((functionCacheGet funcOid cache).2, ⟨(functionCacheGet funcOid cache).1, none⟩)
  | .put func => ((functionCachePut func cache).2, ⟨none, (functionCachePut func cache).1⟩)

/-- One operation on the client's cache. -/
def plcPyFunctionCacheExec (cache : Option (List (Option PlcPyFunction))) :
    Op PlcPyFunction Oid → Option (List (Option PlcPyFunction)) × Outcome PlcPyFunction
  | .get objectid =>
      ((plcPyFunctionCacheGet objectid cache).2, ⟨(plcPyFunctionCacheGet objectid cache).1, none⟩)
  | .put func => ((plcPyFunctionCachePut func cache).2, ⟨none, (plcPyFunctionCachePut func cache).1⟩)

/-! ## The map they refine -/

section

variable [DecidableEq κ] (key : α → κ) (cap : ℕ)

/-- The cells hold the entries of the map's keys, each key once, and each entry in front of those that
    were last used before it. -/
def CellsOf (cells : List (Option α)) (m : LruMap α κ) : Prop :=
  ∃ l, Holds cap cells l ∧ (l.map key).Nodup ∧ (∀ k, m.Held cap k ↔ ∃ a ∈ l, key a = k) ∧
    (∀ a ∈ l, m.entry (key a) = some a) ∧ l.Pairwise fun a b => key a ∈ usedSince (key b) m.uses

/-- Every operation does what the map specifies, and leaves the cells of the map. -/
def RefinesMap
    (exec : Option (List (Option α)) → Op α κ → Option (List (Option α)) × Outcome α) :
    Option (List (Option α)) → LruMap α κ → List (Op α κ) → Prop
  | cache, m, [] => CellsOf key cap (openCells cap cache) m
  | cache, m, op :: ops =>
      CellsOf key cap (openCells cap cache) m ∧ m.Specified key cap op (exec cache op).2 ∧
        RefinesMap exec (exec cache op).1 (m.next key cap op) ops

variable {key cap} {cache : Option (List (Option α))} {l : List α} {m : LruMap α κ}

theorem cellsOf_of_represents (hcells : Holds cap (openCells cap cache) l)
    (h : Represents key cap l m) : CellsOf key cap (openCells cap cache) m :=
  ⟨l, hcells, h.follows.distinct, h.held_iff, h.entries, h.pairwise⟩

/-- A cache whose operations are `cacheGet` and `cachePut` refines the map. -/
theorem refinesMap_of_ops (hcap : 0 < cap)
    {exec : Option (List (Option α)) → Op α κ → Option (List (Option α)) × Outcome α}
    (hget : ∀ cache k, exec cache (.get k)
      = ((cacheGet key cap k cache).2, ⟨(cacheGet key cap k cache).1, none⟩))
    (hput : ∀ cache a, exec cache (.put a)
      = ((cachePut key cap a cache).2, ⟨none, (cachePut key cap a cache).1⟩))
    (ops : List (Op α κ)) (hcells : Holds cap (openCells cap cache) l)
    (h : Represents key cap l m) : RefinesMap key cap exec cache m ops := by
  induction ops generalizing cache l m with
  | nil => exact cellsOf_of_represents hcells h
  | cons op ops ih =>
      refine ⟨cellsOf_of_represents hcells h, ?_⟩
      cases op with
      | get k =>
          obtain ⟨hfound, hcells'⟩ := hcells.get key k
          rw [hget, cacheGet, hfound]
          exact ⟨h.specified_get k, ih hcells' (h.get k)⟩
      | put a =>
          obtain ⟨hfreed, hcells'⟩ := hcells.put key hcap a
          rw [hput, cachePut, hfreed]
          exact ⟨h.specified_put hcap a, ih hcells' (h.put hcap a)⟩

end

/-- **Both function caches refine the least-recently-used map** from oids to entries, with five and
    with twenty entries: over every sequence of lookups and insertions each lookup returns the entry
    last put, unless as many other functions as the cache has entries were used since, each insertion
    frees the entry it replaces or the least recently used one of a full cache, and nothing else is
    freed; and the array holds each function once, in the order of the last use. -/
theorem function_caches_refine_lru_map :
    (∀ ops, RefinesMap CachedProc.funcOid plcFunctionCacheSize functionCacheExec none .empty ops) ∧
    ∀ ops, RefinesMap PlcPyFunction.objectid plcPyFunctionCacheSize plcPyFunctionCacheExec none .empty
      ops :=
  ⟨fun ops => refinesMap_of_ops (by decide) (fun _ _ => rfl) (fun _ _ => rfl) ops holds_empty .empty,
    fun ops => refinesMap_of_ops (by decide) (fun _ _ => rfl) (fun _ _ => rfl) ops holds_empty .empty⟩

end PlContainer
