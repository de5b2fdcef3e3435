import PlContainer.Calls.PrepareReply
import PlContainer.Library.CText

set_option autoImplicit false

/-! # The response of the Docker API

libcurl hands the body of a response to `plcCurlCallback` in pieces of any size. The callback collects
them in a block that it enlarges, and keeps a NUL behind them. -/

namespace PlContainer

/-- `plcCurlBuffer` -/
structure PlcCurlBuffer where
  data : List UInt8
  bufsize : ℕ
  size : ℕ

inductive CurlFault where
  /-- `repalloc` raises an error -/
  | allocSize
  | outOfBounds

def plcCurlBufferInit : PlcCurlBuffer := ⟨List.replicate 8192 0, 8192, 0⟩

/-- `plcCurlCallback`, for some bytes and what the memory of a new block contains. -/
def plcCurlCallback (mem : PlcCurlBuffer) (piece : List UInt8 × (ℕ → UInt8)) :
    Except CurlFault PlcCurlBuffer := do
  let needed := mem.size + piece.1.length + 1
  let mem ←
    if mem.bufsize < needed then
      if maxAllocSize < 3 * needed / 2 then throw .allocSize
      else pure ⟨CText.realloc piece.2 (3 * needed / 2) mem.data, 3 * needed / 2, mem.size⟩
    else pure mem
  if needed ≤ mem.data.length then
    pure ⟨Block.overwrite mem.data mem.size (piece.1 ++ [0]), mem.bufsize, mem.size + piece.1.length⟩
  else throw .outOfBounds

/-- The buffer holds the bytes and a NUL. -/
structure PlcCurlBuffer.Holds (mem : PlcCurlBuffer) (body : List UInt8) : Prop where
  size_eq : mem.size = body.length
  length_eq : mem.data.length = mem.bufsize
  start : ∃ rest, mem.data = body ++ 0 :: rest

theorem PlcCurlBuffer.Holds.callback {mem : PlcCurlBuffer} {body : List UInt8} (h : mem.Holds body)
    (piece : List UInt8 × (ℕ → UInt8)) :
    (∃ mem', plcCurlCallback mem piece = .ok mem' ∧ mem'.Holds (body ++ piece.1)) ∨
      (plcCurlCallback mem piece = .error .allocSize ∧
        maxAllocSize < 3 * ((body ++ piece.1).length + 1) / 2) := by
  obtain ⟨hsize, hlength, rest, hdata⟩ := h
  -- the bytes are written behind those of a block that has room for them
  have hwrite {data rest' : List UInt8} {bufsize : ℕ} (hstart : data = body ++ rest')
      (hlen : data.length = bufsize) (hroom : body.length + piece.1.length + 1 ≤ bufsize) :
      PlcCurlBuffer.Holds ⟨Block.overwrite data body.length (piece.1 ++ [0]), bufsize,
        body.length + piece.1.length⟩ (body ++ piece.1) := by
    refine ⟨by simp, ?_, ?_⟩
    · rw [Block.overwrite_length (by simp; omega), hlen]
    · exact ⟨rest'.drop (piece.1.length + 1), by simp [Block.overwrite, hstart]⟩
  unfold plcCurlCallback
  rw [hsize, List.length_append]
  by_cases hfull : mem.bufsize < body.length + piece.1.length + 1
  · by_cases hlimit : maxAllocSize < 3 * (body.length + piece.1.length + 1) / 2
    · exact .inr ⟨by simp [hfull, hlimit]; rfl, hlimit⟩
    · left
      obtain ⟨rest', hrest'⟩ := @CText.realloc_append piece.2 body (0 :: rest)
        (3 * (body.length + piece.1.length + 1) / 2) (by omega)
      simp only [if_pos hfull, if_neg hlimit, pure_bind, CText.length_realloc, hdata]
      exact ⟨_, if_pos (by omega), hwrite hrest' (CText.length_realloc ..) (by omega)⟩
  · left
    simp only [if_neg hfull, pure_bind, hlength]
    exact ⟨_, if_pos (by omega), hsize ▸ hwrite hdata hlength (by omega)⟩

/-- **The response is collected whole, in whatever pieces it comes.** The callback never writes outside
    its block, and in the end the block has the bytes of all pieces and a NUL; an error is raised only
    for a response that is too large. -/
theorem curl_response_whole (pieces : List (List UInt8 × (ℕ → UInt8))) :
    let body := (pieces.map Prod.fst).flatten
    (∃ mem, pieces.foldlM plcCurlCallback plcCurlBufferInit = .ok mem ∧ mem.Holds body) ∨
      (pieces.foldlM plcCurlCallback plcCurlBufferInit = .error .allocSize ∧
        maxAllocSize < 3 * (body.length + 1) / 2) := by
  have hrun (mem : PlcCurlBuffer) (before : List UInt8) (h : mem.Holds before) :
      (∃ mem', pieces.foldlM plcCurlCallback mem = .ok mem' ∧
          mem'.Holds (before ++ (pieces.map Prod.fst).flatten)) ∨
        (pieces.foldlM plcCurlCallback mem = .error .allocSize ∧
          maxAllocSize < 3 * ((before ++ (pieces.map Prod.fst).flatten).length + 1) / 2) := by
    induction pieces generalizing mem before with
    | nil => exact .inl ⟨mem, rfl, by simpa using h⟩
    | cons piece pieces ih =>
        rw [List.foldlM_cons, List.map_cons, List.flatten_cons, ← List.append_assoc]
        rcases h.callback piece with ⟨mem', hmem', h'⟩ | ⟨herror, hlimit⟩
        · rw [hmem']
          exact ih mem' _ h'
        · rw [herror]
          have hle := (List.prefix_append (before ++ piece.1) (pieces.map Prod.fst).flatten).length_le
          exact .inr ⟨rfl, by omega⟩
  exact hrun _ [] ⟨rfl, List.length_replicate .., List.replicate 8191 0, rfl⟩

end PlContainer
