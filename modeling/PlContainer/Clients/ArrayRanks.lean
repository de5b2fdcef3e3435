import PlContainer.Clients.Python.Arrays
import PlContainer.Clients.R.Conversions

set_option autoImplicit false

/-! # Ranks of arrays

Both clients find out the rank of an array from what the function returned, and store the dimensions in
local arrays of a fixed size: Python goes from a sequence to its first item as long as there is one, R
has an attribute. Neither compares the rank with the size of the arrays. In Python a list may contain
itself, so objects are identities here, with an interpreter that answers about them. -/

namespace PlContainer

/-! ## The shape scan of the Python client -/

/-- What the interpreter answers about sequences. Code of the objects may run and change its state. -/
structure Sequences (σ o : Type) where
  /-- `PySequence_Check`, and not `PyString_Check` -/
  check : σ → o → Bool
  /-- `PySequence_Length` -/
  length : σ → o → ℤ × σ
  /-- `PySequence_GetItem` for the first item; nothing for `NULL` -/
  first : σ → o → Option o × σ

/-- Where the loop of `plc_pyobject_as_array` stands. -/
inductive ScanPhase (σ o : Type) where
  | loop (s : σ) (obj : Option o)
  /-- -1 is returned, and an error is reported -/
  | refused
  | done

structure Scan (σ o : Type) where
  phase : ScanPhase σ o
  ndims : ℕ
  /-- the indices of `dims` and `stack` that were written -/
  written : List ℕ

section Scan

variable {σ o : Type} (seqs : Sequences σ o)

/-- The loop has been left. -/
def Scan.isOver (scan : Scan σ o) : Bool :=
  match scan.phase with
  | .loop _ _ => false
  | .refused => true
  | .done => true

/-- `int len = PySequence_Length(obj)` -/
def Sequences.len (s : σ) (obj : o) : ℤ := (BitVec.ofInt 32 (seqs.length s obj).1).toInt

/-- The first item, after the length was asked for. -/
def Sequences.next (s : σ) (obj : o) : Option o × σ := seqs.first (seqs.length s obj).2 obj

/-- One round of the loop. -/
def Sequences.round (scan : Scan σ o) : Scan σ o :=
  match scan.phase with
  | .loop s (some obj) =>
      if seqs.check s obj then
        if seqs.len s obj < 0 then { scan with phase := .refused }
        else
          let phase := if 0 < seqs.len s obj then .loop (seqs.next s obj).2 (seqs.next s obj).1 else .done
          ⟨phase, scan.ndims + 1, scan.written ++ [scan.ndims]⟩
      else { scan with phase := .done }
  | .loop _ none => { scan with phase := .done }
  | _ => scan

/-- The scan before its loop: an object that is no sequence is refused. -/
def Sequences.start (s : σ) (input : o) : Scan σ o :=
  ⟨if seqs.check s input then .loop s (some input) else .refused, 0, []⟩

/-- The object has at least this rank: it is a sequence, its first item is one, and so on. -/
def Sequences.HasRank : ℕ → σ → o → Prop
  | 0, _, _ => True
  | k + 1, s, obj =>
      seqs.check s obj = true ∧ 0 ≤ seqs.len s obj ∧
        (k = 0 ∨ 0 < seqs.len s obj ∧ ∃ item, (seqs.next s obj).1 = some item ∧
          Sequences.HasRank k (seqs.next s obj).2 item)

/-- From here on the scan writes only indices below a bound, and it ends. -/
def Sequences.Confined (bound : ℕ) (scan : Scan σ o) : Prop :=
  (∀ n, ∀ i ∈ (seqs.round^[n] scan).written, i < bound) ∧ ∃ n, (seqs.round^[n] scan).isOver = true

/-- The scan ends and writes only inside the local arrays, and an object of a higher rank is refused. -/
def Sequences.ScansInTables (s : σ) (input : o) : Prop :=
  seqs.Confined plcMaxArrayDims (seqs.start s input) ∧
    (seqs.HasRank (plcMaxArrayDims + 1) s input →
      ∃ n, (seqs.round^[n] (seqs.start s input)).phase = .refused)

/-- What a round does with an object. -/
theorem Sequences.round_loop (s : σ) (obj : o) (ndims : ℕ) (written : List ℕ) :
    (¬ seqs.HasRank 1 s obj ∧ ∃ phase, (phase = .refused ∨ phase = .done) ∧
      seqs.round ⟨.loop s (some obj), ndims, written⟩ = ⟨phase, ndims, written⟩) ∨
    (seqs.HasRank 1 s obj ∧
      seqs.round ⟨.loop s (some obj), ndims, written⟩ =
        ⟨if 0 < seqs.len s obj then .loop (seqs.next s obj).2 (seqs.next s obj).1 else .done,
          ndims + 1, written ++ [ndims]⟩) := by
  by_cases hcheck : seqs.check s obj = true
  · by_cases hlen : seqs.len s obj < 0
    · left
      simp [HasRank, round, hcheck, hlen]
    · right
      simp [HasRank, round, hcheck, hlen]
      omega
  · left
    simp [HasRank, round, hcheck]

theorem Sequences.confined_of_round {bound : ℕ} {scan : Scan σ o}
    (hwritten : ∀ i ∈ scan.written, i < bound) (h : seqs.Confined bound (seqs.round scan)) :
    seqs.Confined bound scan := by
  obtain ⟨hbelow, n, hover⟩ := h
  refine ⟨fun n i hi => ?_, n + 1, by rwa [Function.iterate_succ_apply]⟩
  cases n with
  | zero => exact hwritten i hi
  | succ n =>
    rw [Function.iterate_succ_apply] at hi
    exact hbelow n i hi

theorem Sequences.confined_of_isOver {bound : ℕ} {scan : Scan σ o}
    (hwritten : ∀ i ∈ scan.written, i < bound) (h : scan.phase = .refused ∨ scan.phase = .done) :
    seqs.Confined bound scan := by
  have hfixed (n : ℕ) : seqs.round^[n] scan = scan := by
    refine Function.iterate_fixed ?_ n
    rcases h with h | h <;> simp [round, h]
  refine ⟨fun n i hi => ?_, 0, ?_⟩
  · rw [hfixed] at hi
    exact hwritten i hi
  · rcases h with h | h <;> simp [Scan.isOver, h]

/-- A scan whose object has at most the rank `k` writes at most `k` indices more. -/
theorem Sequences.confined_of_not_hasRank {bound k : ℕ} {s : σ} {obj : o}
    (h : ¬ seqs.HasRank (k + 1) s obj) {ndims : ℕ} {written : List ℕ}
    (hwritten : ∀ i ∈ written, i < bound) (hroom : ndims + k ≤ bound) :
    seqs.Confined bound ⟨.loop s (some obj), ndims, written⟩ := by
  induction k generalizing s obj ndims written with
  | zero =>
    refine seqs.confined_of_round hwritten ?_
    obtain ⟨-, phase, hphase, hround⟩ | ⟨hrank, -⟩ := seqs.round_loop s obj ndims written
    · rw [hround]
      exact seqs.confined_of_isOver hwritten hphase
    · exact absurd hrank h
  | succ k ih =>
    refine seqs.confined_of_round hwritten ?_
    obtain ⟨-, phase, hphase, hround⟩ | ⟨hrank, hround⟩ := seqs.round_loop s obj ndims written
    · rw [hround]
      exact seqs.confined_of_isOver hwritten hphase
    rw [hround]
    have hwritten' : ∀ i ∈ written ++ [ndims], i < bound := by
      intro i hi
      rcases List.mem_append.1 hi with hi | hi
      · exact hwritten i hi
      · rw [List.mem_singleton.1 hi]
        omega
    by_cases hpos : 0 < seqs.len s obj
    · rw [if_pos hpos]
      cases hitem : (seqs.next s obj).1 with
      | none =>
        -- the loop ends in the next round, which has no object
        exact seqs.confined_of_round hwritten' (seqs.confined_of_isOver hwritten' (.inr rfl))
      | some item =>
        refine ih (fun hitemRank => h ?_) hwritten' (by omega)
        exact ⟨hrank.1, hrank.2.1, .inr ⟨hpos, item, hitem, hitemRank⟩⟩
    · rw [if_neg hpos]
      exact seqs.confined_of_isOver hwritten' (.inr rfl)

/-- An object of rank `k + 1` has the index `k` written. -/
theorem Sequences.written_of_hasRank {k : ℕ} {s : σ} {obj : o} (h : seqs.HasRank (k + 1) s obj)
    (ndims : ℕ) (written : List ℕ) :
    ∃ n, ndims + k ∈ (seqs.round^[n] ⟨.loop s (some obj), ndims, written⟩).written := by
  induction k generalizing s obj ndims written with
  | zero =>
    obtain ⟨hnot, -⟩ | ⟨-, hround⟩ := seqs.round_loop s obj ndims written
    · exact absurd h hnot
    · exact ⟨1, by rw [Function.iterate_one, hround]; simp⟩
  | succ k ih =>
    obtain ⟨hcheck, hlen, hzero | ⟨hpos, item, hitem, hrank⟩⟩ := h
    · omega
    obtain ⟨hnot, -⟩ | ⟨-, hround⟩ := seqs.round_loop s obj ndims written
    · exact absurd ⟨hcheck, hlen, .inl rfl⟩ hnot
    · obtain ⟨n, hn⟩ := ih hrank (ndims + 1) (written ++ [ndims])
      refine ⟨n + 1, ?_⟩
      rw [Function.iterate_succ_apply, hround, if_pos hpos, hitem]
      rwa [Nat.add_right_comm] at hn

theorem Sequences.scansInTables_iff (s : σ) (input : o) :
    seqs.ScansInTables s input ↔ ¬ seqs.HasRank (plcMaxArrayDims + 1) s input := by
  constructor
  · rintro ⟨⟨hbelow, -⟩, -⟩ hrank
    have hcheck : seqs.check s input = true := hrank.1
    obtain ⟨n, hn⟩ := seqs.written_of_hasRank hrank 0 []
    rw [start, if_pos hcheck] at hbelow
    have := hbelow n _ hn
    omega
  · intro hrank
    refine ⟨?_, fun h => absurd h hrank⟩
    have hnil : ∀ i ∈ ([] : List ℕ), i < plcMaxArrayDims := by simp
    by_cases hcheck : seqs.check s input = true
    · rw [start, if_pos hcheck]
      exact seqs.confined_of_not_hasRank hrank hnil (Nat.zero_add _).le
    · rw [start, if_neg hcheck]
      exact seqs.confined_of_isOver hnil (.inl rfl)

/-- In a list whose first item is the list itself the loop goes on for ever. -/
theorem Sequences.not_isOver_of_self {s : σ} {obj : o} (hcheck : seqs.check s obj = true)
    (hlen : 0 < seqs.len s obj) (hself : seqs.next s obj = (some obj, s)) (n : ℕ) :
    (seqs.round^[n] (seqs.start s obj)).isOver = false := by
  have hphase (n : ℕ) : (seqs.round^[n] (seqs.start s obj)).phase = .loop s (some obj) := by
    induction n with
    | zero => rw [Function.iterate_zero_apply, start, if_pos hcheck]
    | succ n ih =>
      rw [Function.iterate_succ_apply']
      simp [round, ih, hcheck, hself, hlen, hlen.not_gt]
  rw [Scan.isOver, hphase]

end Scan

/-! ## Trees of lists -/

/-- The interpreter for lists that are trees, as the other conversions see them. -/
def treeSequences (α : Type) : Sequences Unit (PyObj α) where
  check _
    | .list _ => true
    | _ => false
  length _
    | .list items => (items.length, ())
    | _ => (-1, ())
  first _
    | .list items => (items[0]?, ())
    | _ => (none, ())

/-- The rank of a tree is the number of lists that are stored before a length that is refused. -/
theorem hasRank_treeSequences {α : Type} (k : ℕ) (input : PyObj α) :
    (treeSequences α).HasRank k () input ↔ k ≤ (input.stack.takeWhile fun l => 0 ≤ l.1).length := by
  induction k generalizing input with
  | zero => exact iff_of_true trivial (Nat.zero_le _)
  | succ k ih =>
    cases input with
    | none => simp [Sequences.HasRank, treeSequences, PyObj.stack]
    | leaf a => simp [Sequences.HasRank, treeSequences, PyObj.stack]
    | list items =>
      have hlen : (treeSequences α).len () (.list items) = pyLength items := by
        simp [Sequences.len, treeSequences, pyLength]
      have hnext : (treeSequences α).next () (.list items) = (items[0]?, ()) := rfl
      rw [Sequences.HasRank, hlen, hnext, PyObj.stack]
      by_cases hnonneg : 0 ≤ pyLength items
      · rw [List.takeWhile_cons_of_pos (by simpa using hnonneg), List.length_cons,
          Nat.add_le_add_iff_right]
        by_cases hpos : 0 < pyLength items
        · cases items with
          | nil => simp [pyLength] at hpos
          | cons x xs =>
            rw [if_pos hpos, PyObj.stackBelow, ← ih x]
            have hzero : k = 0 → (treeSequences α).HasRank k () x := by
              rintro rfl
              trivial
            simpa [treeSequences, hnonneg, hpos] using hzero
        · simp [treeSequences, hnonneg, hpos]
      · simp [hnonneg]

/-- On trees the loop writes behind the local arrays where the conversion does. -/
theorem plcPyobjectAsArray_overflow_iff {α : Type} (input : PyObj α) :
    plcPyobjectAsArray input = .overflow ↔ ¬ (treeSequences α).ScansInTables () input := by
  rw [Sequences.scansInTables_iff, not_not, hasRank_treeSequences]
  cases input with
  | list items =>
    rw [plcPyobjectAsArray]
    split
    next hlt => exact iff_of_true rfl hlt
    next hle =>
      refine iff_of_false ?_ (by omega)
      split <;> simp
  | _ => simp [plcPyobjectAsArray, PyObj.stack]

/-! ## The dimensions in the R client -/

/-- Only indices inside the local array are written, and an object of a higher rank is refused. -/
def RObj.DimsInTable (input : RObj) : Prop :=
  (input.isVector || input.isMatrix) = true →
    (∀ i ∈ input.dimsWritten, i < plcMaxArrayDimsR) ∧
      (plcMaxArrayDimsR < input.rank → plcRObjectAsArray input = .ok none)

theorem RObj.dimsInTable_iff (input : RObj) :
    input.DimsInTable ↔ (input.isVector = true → input.rank ≤ plcMaxArrayDimsR) := by
  rw [DimsInTable, input.isVector_or_isMatrix, input.forall_dimsWritten_lt_iff]
  exact forall_congr' fun _ => ⟨fun h => h.1, fun h => ⟨h, fun hlt => absurd h hlt.not_ge⟩⟩

/-! ## Both clients -/

/-- The local arrays suffice exactly for Python objects of rank at most ten and for R vectors of rank at
    most two. -/
theorem array_ranks_in_tables_iff {σ o : Type} (seqs : Sequences σ o) (s : σ) (pyInput : o)
    (rInput : RObj) :
    seqs.ScansInTables s pyInput ∧ rInput.DimsInTable ↔
      ¬ seqs.HasRank (plcMaxArrayDims + 1) s pyInput ∧
        (rInput.isVector = true → rInput.rank ≤ plcMaxArrayDimsR) := by
  rw [seqs.scansInTables_iff, rInput.dimsInTable_iff]

/-- An interpreter with a list that holds itself and nothing else. -/
def selfList : Sequences Unit Unit := ⟨fun _ _ => true, fun _ _ => (1, ()), fun _ _ => (some (), ())⟩

/-- A list that holds itself is scanned for ever; a list of eleven levels and an R array of rank three
    are written behind the local arrays. -/
theorem array_ranks_outside_tables :
    (∀ n, (selfList.round^[n] (selfList.start () ())).isOver = false) ∧
    ¬ (treeSequences ℕ).ScansInTables () ((fun o => .list [o])^[11] (.leaf 0)) ∧
    ¬ RObj.DimsInTable (.vec (.integer [1, 2, 3, 4, 5, 6, 7, 8]) (some [2, 2, 2]) none) := by
  refine ⟨selfList.not_isOver_of_self rfl (by decide) rfl, ?_, ?_⟩
  · rw [← plcPyobjectAsArray_overflow_iff]
    rfl
  · rw [RObj.dimsInTable_iff]
    decide

end PlContainer
