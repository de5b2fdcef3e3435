import PlContainer.Common.Connectivity.Fifo
import PlContainer.Common.Messages
import PlContainer.Library.CText
import PlContainer.Library.Format

set_option autoImplicit false

/-! # The texts of the R client

`create_r_func` wraps the source of a function into an R function, in a block whose size it computes
first. It appends the names of the arguments with `strcat`, keeps the offset of the end in an `int`, and
prints the rest there with the size of the whole block as the limit. `parse_r_code` and `handle_call`
make an error message of a fixed text and the code, in a block that is made larger for it; the second
does so without a byte for the NUL. -/

namespace PlContainer

open CText Checked Format

/-! ## The request -/

/-- `plcMsgCallreq`, as far as the texts depend on it; an argument may have no name. -/
structure RTextRequest where
  name : Text
  src : Text
  args : List (Option Text)

/-- The blocks that are allocated for a call. -/
inductive RBlock where
  | func
  | parseError
  | executionError

/-- What a call meets: what the blocks contain before, and what R does. -/
structure RWorld where
  memory : RBlock → ℕ → UInt8
  /-- `status == PARSE_OK` -/
  parses : Bool
  /-- `last_R_error_msg`, if the code cannot be parsed -/
  parseErrorMsg : Option Text
  /-- `R_tryEval` sets no error -/
  evaluates : Bool
  /-- `last_R_error_msg`, if the call ends in an error -/
  executionErrorMsg : Option Text

/-- How the client stops by itself. -/
inductive RTextError where
  /-- the `assert` at the end of `create_r_func` -/
  | assertFails

/-! ## `create_r_func` -/

/-- `mlen` -/
def rFuncSize (req : RTextRequest) : ℕ :=
  let mlen := 5
  let mlen := req.args.foldl (fun mlen arg => arg.elim mlen fun name => mlen + (name.length + 4)) mlen
  mlen + (req.src.length + req.name.length + 40 + (Json.utf8 "gpdb.".toList).length)

/-- `"gpdb.%s <- function(args"` -/
def rFuncHead (name : CString) : CString :=
  sprintf [.lit "gpdb.", .arg "%s", .lit " <- function(args"] [name]

/-- `", "` -/
def argSeparator : Text := ⟨Json.utf8 ", ".toList, by decide⟩

/-- `") {%s}"` -/
def rFuncBody (src : CString) : CString := sprintf [.lit ") \x7b", .arg "%s", .lit "\x7d"] [src]

/-- The loop over the arguments, with the offset `plen`. -/
def catArgs : List (Option Text) → List UInt8 × ℤ → Except (ScanFault RTextError) (List UInt8 × ℤ)
  | [], out => pure out
  | none :: args, out => catArgs args out
  | some name :: args, (mrc, plen) => do
      let mrc ← strcat argSeparator.bytes mrc
      let plen := wrap32 (plen + 2)
      let mrc ← strcat name.bytes mrc
      catArgs args (mrc, wrap32 (plen + name.length))

/-- `snprintf(mrc + plen, mlen, …)` -/
def printAt (plen : ℤ) (mlen : ℕ) (text mrc : List UInt8) :
    Except (ScanFault RTextError) (List UInt8 × ℤ) :=
  if plen < 0 then .error .outOfBounds else Cursor.snprintf mlen text ⟨mrc, plen.toNat⟩

/-- `create_r_func` -/
def createRFunc (world : RWorld) (req : RTextRequest) : Except (ScanFault RTextError) (List UInt8) := do
  let mlen := rFuncSize req
  let mrc := (List.range mlen).map (world.memory .func)
  let out ← Cursor.snprintf mlen (rFuncHead req.name.bytes) ⟨mrc, 0⟩
  let (mrc, plen) ← catArgs req.args out
  let (mrc, plen) ← printAt plen mlen (rFuncBody req.src.bytes) mrc
  if 0 ≤ plen ∧ plen.toNat < mlen then pure mrc else throw (.raised .assertFails)

/-! ## The error messages -/

/-- A message and a text behind it, in a block with `extra` bytes more than the two have. -/
def appendToMessage (memory : ℕ → UInt8) (message : Text) (extra : ℕ) (code : List UInt8) :
    Except (ScanFault RTextError) (List UInt8) := do
  let errmsg := strdup message
  let m ← CText.strlen errmsg
  let n ← CText.strlen code
  let errmsg := realloc memory (m + n + extra) errmsg
  strcat (code.takeWhile (· ≠ 0)) errmsg

/-- The message of `parse_r_code`. -/
def parseErrorMessage (world : RWorld) (code : List UInt8) :
    Except (ScanFault RTextError) (List UInt8) :=
  match world.parseErrorMsg with
  | some msg => pure (strdup msg)
  | none =>
      appendToMessage (world.memory .parseError) ⟨Json.utf8 "Parse Error\n".toList, by decide⟩ 1 code

/-- The message of `handle_call`. -/
def executionErrorMessage (world : RWorld) (src : Text) : Except (ScanFault RTextError) (List UInt8) :=
  match world.executionErrorMsg with
  | some msg => pure (strdup msg)
  | none =>
      appendToMessage (world.memory .executionError) ⟨Json.utf8 "Error executing\n".toList, by decide⟩ 0
        (strdup src)

/-- The rest of `handle_call`: the message that is sent if there is an error. -/
def callErrorMessage (world : RWorld) (src : Text) (func : List UInt8) :
    Except (ScanFault RTextError) (Option (List UInt8)) :=
  if !world.parses then some <$> parseErrorMessage world func
  else if !world.evaluates then some <$> executionErrorMessage world src
  else pure none

/-- `handle_call`, as far as it writes texts. -/
def handleRCall (world : RWorld) (req : RTextRequest) :
    Except (ScanFault RTextError) (Option (List UInt8)) := do
  let func ← createRFunc world req
  callErrorMessage world req.src func

/-! ## The size of the block -/

/-- What is written for the arguments. -/
def catLength : List (Option Text) → ℕ
  | [] => 0
  | none :: args => catLength args
  | some name :: args => name.length + 2 + catLength args

theorem add_catLength_le_foldl (args : List (Option Text)) (mlen : ℕ) :
    mlen + catLength args ≤
      args.foldl (fun mlen arg => arg.elim mlen fun name => mlen + (name.length + 4)) mlen := by
  induction args generalizing mlen with
  | nil => exact Nat.le_refl _
  | cons arg args ih =>
      rw [List.foldl_cons]
      refine le_trans ?_ (ih _)
      cases arg with
      | none => exact Nat.le_refl _
      | some name =>
          rw [catLength, Option.elim_some]
          omega

theorem length_rFuncHead (name : CString) : (rFuncHead name).length = name.length + 22 := by
  have hstart : (Json.utf8 "gpdb.".toList).length = 5 := by decide
  have hend : (Json.utf8 " <- function(args".toList).length = 17 := by decide
  simp only [rFuncHead, sprintf, fill, List.length_append, List.length_nil, hstart, hend]
  omega

theorem length_rFuncBody (src : CString) : (rFuncBody src).length = src.length + 4 := by
  have hstart : (Json.utf8 ") \x7b".toList).length = 3 := by decide
  have hend : (Json.utf8 "\x7d".toList).length = 1 := by decide
  simp only [rFuncBody, sprintf, fill, List.length_append, List.length_nil, hstart, hend]
  omega

theorem nul_not_mem_rFuncHead (name : Text) : 0 ∉ rFuncHead name.bytes := by
  have hstart : 0 ∉ Json.utf8 "gpdb.".toList := by decide
  have hend : 0 ∉ Json.utf8 " <- function(args".toList := by decide
  simp only [rFuncHead, sprintf, fill, List.mem_append, hstart, hend, name.nulFree, List.not_mem_nil,
    or_self, not_false_eq_true]

/-- The parts of the function and its NUL fit into the block. -/
theorem parts_lt_rFuncSize (req : RTextRequest) :
    (rFuncHead req.name.bytes).length + catLength req.args + (rFuncBody req.src.bytes).length
      < rFuncSize req := by
  have hargs := add_catLength_le_foldl req.args 5
  have hname : req.name.length = req.name.bytes.length := rfl
  have hsrc : req.src.length = req.src.bytes.length := rfl
  have hgpdb : (Json.utf8 "gpdb.".toList).length = 5 := by decide
  rw [length_rFuncHead, length_rFuncBody, rFuncSize, hgpdb]
  omega

/-! ## The offset -/

/-- The offset behind the arguments, as the loop counts it. -/
def trackArgs : List (Option Text) → ℤ → ℤ
  | [], plen => plen
  | none :: args, plen => trackArgs args plen
  | some name :: args, plen => trackArgs args (wrap32 (wrap32 (plen + 2) + name.length))

/-- `plen` before the last `snprintf`. -/
def trackedOffset (req : RTextRequest) : ℤ :=
  trackArgs req.args (printedLength (rFuncHead req.name.bytes))

/-- An `int` that wraps around is smaller than the sum. -/
theorem wrap32_le {x : ℤ} (h : -2147483648 ≤ x) : -2147483648 ≤ wrap32 x ∧ wrap32 x ≤ x := by
  rw [wrap32, Int.bmod_def]
  split <;> omega

theorem trackArgs_le (args : List (Option Text)) {plen : ℤ} (h : -2147483648 ≤ plen) :
    trackArgs args plen ≤ plen + catLength args := by
  induction args generalizing plen with
  | nil => exact le_of_eq (Int.add_zero plen).symm
  | cons arg args ih =>
      cases arg with
      | none => exact ih h
      | some name =>
          obtain ⟨hlo, hle⟩ := wrap32_le (x := plen + 2) (by omega)
          obtain ⟨hlo', hle'⟩ := wrap32_le (x := wrap32 (plen + 2) + name.length) (by omega)
          have hrest := ih hlo'
          rw [trackArgs, catLength]
          omega

theorem trackedOffset_le (req : RTextRequest) :
    trackedOffset req ≤ (rFuncHead req.name.bytes).length + catLength req.args := by
  have hprinted : -1 ≤ printedLength (rFuncHead req.name.bytes) ∧
      printedLength (rFuncHead req.name.bytes) ≤ (rFuncHead req.name.bytes).length := by
    rw [printedLength]
    split <;> omega
  have htrack := trackArgs_le req.args
    (show -2147483648 ≤ printedLength (rFuncHead req.name.bytes) by omega)
  rw [trackedOffset]
  omega

/-- Below 2 GB nothing wraps. -/
theorem trackArgs_eq (args : List (Option Text)) {plen : ℤ} (hlo : 0 ≤ plen)
    (hhi : plen + catLength args < 2 ^ 31) : trackArgs args plen = plen + catLength args := by
  induction args generalizing plen with
  | nil => exact (Int.add_zero plen).symm
  | cons arg args ih =>
      cases arg with
      | none => exact ih hlo hhi
      | some name =>
          rw [catLength] at hhi ⊢
          have hcomma : wrap32 (plen + 2) = plen + 2 := wrap32_of_lt (by omega) (by omega)
          have hname : wrap32 (plen + 2 + name.length) = plen + 2 + name.length :=
            wrap32_of_lt (by omega) (by omega)
          rw [trackArgs, hcomma, hname, ih (by omega) (by omega)]
          omega

theorem trackedOffset_nonneg {req : RTextRequest}
    (h : (rFuncHead req.name.bytes).length + catLength req.args ≤ intMax) : 0 ≤ trackedOffset req := by
  rw [intMax] at h
  rw [trackedOffset, printedLength, if_pos (by rw [intMax]; omega),
    trackArgs_eq req.args (by omega) (by omega)]
  omega

/-! ## `create_r_func` writes inside its block -/

/-- The loop appends to the string in the block, and counts. -/
theorem catArgs_eq (args : List (Option Text)) {text mrc : List UInt8} (h : HoldsText text mrc)
    (hroom : text.length + catLength args < mrc.length) (plen : ℤ) :
    ∃ mrc', catArgs args (mrc, plen) = .ok (mrc', trackArgs args plen) ∧
      mrc'.length = mrc.length := by
  induction args generalizing text mrc plen with
  | nil => exact ⟨mrc, rfl, rfl⟩
  | cons arg args ih =>
      cases arg with
      | none => exact ih h hroom plen
      | some name =>
          rw [catLength] at hroom
          have hcomma : argSeparator.length = 2 := by decide
          have hname : name.length = name.bytes.length := rfl
          obtain ⟨mrc₁, hcat₁, h₁, hlen₁⟩ := h.strcat (ε := RTextError) (t := argSeparator) (by omega)
          have htext₁ : (text ++ argSeparator.bytes).length = text.length + 2 := List.length_append
          obtain ⟨mrc₂, hcat₂, h₂, hlen₂⟩ := h₁.strcat (ε := RTextError) (t := name) (by omega)
          have htext₂ : (text ++ argSeparator.bytes ++ name.bytes).length
              = text.length + 2 + name.length := by rw [List.length_append, htext₁, hname]
          obtain ⟨mrc', hrest, hlen⟩ := ih h₂ (by omega) (wrap32 (wrap32 (plen + 2) + name.length))
          refine ⟨mrc', ?_, by omega⟩
          rw [catArgs, hcat₁, ok_bind, hcat₂, ok_bind, hrest, trackArgs]

/-- Up to the last `snprintf` everything is written inside the block. -/
theorem createRFunc_eq (world : RWorld) (req : RTextRequest) :
    ∃ mrc : List UInt8, mrc.length = rFuncSize req ∧ createRFunc world req =
      (printAt (trackedOffset req) (rFuncSize req) (rFuncBody req.src.bytes) mrc >>= fun out =>
        if 0 ≤ out.2 ∧ out.2.toNat < rFuncSize req then pure out.1
        else throw (.raised .assertFails)) := by
  have hsize := parts_lt_rFuncSize req
  have hlength : ((List.range (rFuncSize req)).map (world.memory .func)).length = rFuncSize req := by
    rw [List.length_map, List.length_range]
  generalize hmrc : (List.range (rFuncSize req)).map (world.memory .func) = mrc at hlength
  have hprint : (Cursor.snprintf (rFuncSize req) (rFuncHead req.name.bytes) ⟨mrc, 0⟩ :
      Except (ScanFault RTextError) _) = .ok (Block.overwrite mrc 0 (rFuncHead req.name.bytes ++ [0]),
        printedLength (rFuncHead req.name.bytes)) :=
    Cursor.snprintf_eq_ok (by omega) (by dsimp only; omega)
  have hholds : HoldsText (rFuncHead req.name.bytes)
      (Block.overwrite mrc 0 (rFuncHead req.name.bytes ++ [0])) := by
    refine ⟨nul_not_mem_rFuncHead req.name, mrc.drop ((rFuncHead req.name.bytes).length + 1), ?_⟩
    simp [Block.overwrite]
  have hlength' : (Block.overwrite mrc 0 (rFuncHead req.name.bytes ++ [0])).length = mrc.length :=
    Block.overwrite_length (by rw [List.length_append, List.length_singleton, hlength]; omega)
  obtain ⟨mrc', hcat, hlen⟩ := catArgs_eq req.args hholds (by omega)
    (printedLength (rFuncHead req.name.bytes))
  refine ⟨mrc', by omega, ?_⟩
  rw [createRFunc, hmrc, hprint, ok_bind, hcat]
  rfl

/-- A negative offset is before the block. -/
theorem createRFunc_outOfBounds (world : RWorld) {req : RTextRequest} (h : trackedOffset req < 0) :
    createRFunc world req = .error .outOfBounds := by
  obtain ⟨mrc, -, hfunc⟩ := createRFunc_eq world req
  rw [hfunc, printAt, if_pos h]
  rfl

/-- The rest of the text and its NUL are inside the block, although the limit is beyond it. -/
theorem createRFunc_inside (world : RWorld) {req : RTextRequest} (h : 0 ≤ trackedOffset req) :
    ∃ mrc : List UInt8, 0 ∈ mrc ∧ createRFunc world req =
      if (rFuncBody req.src.bytes).length ≤ intMax then .ok mrc
      else .error (.raised .assertFails) := by
  obtain ⟨mrc, hlength, hfunc⟩ := createRFunc_eq world req
  have hsize := parts_lt_rFuncSize req
  have hoffset := trackedOffset_le req
  have hprint : (Cursor.snprintf (rFuncSize req) (rFuncBody req.src.bytes)
      ⟨mrc, (trackedOffset req).toNat⟩ : Except (ScanFault RTextError) _) =
      .ok (Block.overwrite mrc (trackedOffset req).toNat (rFuncBody req.src.bytes ++ [0]),
        printedLength (rFuncBody req.src.bytes)) :=
    Cursor.snprintf_eq_ok (by omega) (by dsimp only; omega)
  refine ⟨Block.overwrite mrc (trackedOffset req).toNat (rFuncBody req.src.bytes ++ [0]),
    by simp [Block.overwrite], ?_⟩
  rw [hfunc, printAt, if_neg (not_lt.2 h), hprint, ok_bind]
  dsimp only
  rw [printedLength]
  -- the `assert` looks at what the last `snprintf` has returned
  split
  · rw [if_pos ⟨by omega, by omega⟩]
    rfl
  · rw [if_neg (by omega)]
    rfl

/-! ## The error messages -/

theorem appendToMessage_inside (memory : ℕ → UInt8) (message : Text) {code : List UInt8}
    (h : 0 ∈ code) : ∃ errmsg, appendToMessage memory message 1 code = .ok errmsg := by
  have hcode := holdsText_of_mem h
  generalize htext : code.takeWhile (· ≠ 0) = text at hcode
  have hmessage := (holdsText_strdup message).realloc memory
    (show message.bytes.length < message.bytes.length + text.length + 1 by omega)
  obtain ⟨errmsg, hcat, -⟩ := hmessage.strcat (ε := RTextError) (t := ⟨text, hcode.nulFree⟩) (by
    rw [length_realloc]
    exact Nat.lt_succ_self _)
  refine ⟨errmsg, ?_⟩
  rw [appendToMessage]
  dsimp only
  rw [(holdsText_strdup message).strlen, ok_bind, hcode.strlen, ok_bind, htext, hcat]

/-- Without a byte for it the NUL is written behind the block. If the text is empty, the NUL of the
    message is lost before. -/
theorem appendToMessage_outOfBounds (memory : ℕ → UInt8) (message text : Text) :
    appendToMessage memory message 0 (strdup text) = .error .outOfBounds := by
  have htext := holdsText_strdup text
  rw [appendToMessage]
  dsimp only
  rw [(holdsText_strdup message).strlen, ok_bind, htext.strlen, ok_bind, htext.takeWhile, Nat.add_zero]
  by_cases hempty : text.bytes.length = 0
  · rw [hempty, Nat.add_zero, strcat, (holdsText_strdup message).realloc_short]
    rfl
  · have hmessage := (holdsText_strdup message).realloc memory
      (show message.bytes.length < message.bytes.length + text.bytes.length by omega)
    refine hmessage.strcat_outOfBounds ?_
    rw [length_realloc]
    exact Nat.le_refl _

theorem parseErrorMessage_inside (world : RWorld) {code : List UInt8} (h : 0 ∈ code) :
    ∃ errmsg, parseErrorMessage world code = .ok errmsg := by
  rw [parseErrorMessage]
  split
  · exact ⟨_, rfl⟩
  · exact appendToMessage_inside _ _ h

theorem executionErrorMessage_inside {world : RWorld} (h : world.executionErrorMsg ≠ none)
    (src : Text) : ∃ errmsg, executionErrorMessage world src = .ok errmsg := by
  obtain ⟨msg, hmsg⟩ := Option.ne_none_iff_exists'.1 h
  rw [executionErrorMessage, hmsg]
  exact ⟨_, rfl⟩

theorem executionErrorMessage_outOfBounds {world : RWorld} (h : world.executionErrorMsg = none)
    (src : Text) : executionErrorMessage world src = .error .outOfBounds := by
  rw [executionErrorMessage, h]
  exact appendToMessage_outOfBounds _ _ _

theorem callErrorMessage_inside_iff (world : RWorld) (src : Text) {func : List UInt8} (h : 0 ∈ func) :
    StaysInside (callErrorMessage world src func) ↔
      ¬ (world.parses = true ∧ world.evaluates = false ∧ world.executionErrorMsg = none) := by
  rw [callErrorMessage]
  cases world.parses with
  | false =>
      obtain ⟨errmsg, hmsg⟩ := parseErrorMessage_inside world h
      rw [if_pos (by decide), hmsg]
      exact iff_of_true (by rintro ⟨⟩) (by rintro ⟨⟨⟩, -⟩)
  | true =>
      rw [if_neg (by decide)]
      cases world.evaluates with
      | true => exact iff_of_true (by rintro ⟨⟩) (by rintro ⟨-, ⟨⟩, -⟩)
      | false =>
          rw [if_pos (by decide)]
          by_cases hnone : world.executionErrorMsg = none
          · rw [executionErrorMessage_outOfBounds hnone]
            exact iff_of_false (fun hinside => hinside rfl) fun hnot => hnot ⟨rfl, rfl, hnone⟩
          · obtain ⟨errmsg, hmsg⟩ := executionErrorMessage_inside hnone src
            rw [hmsg]
            exact iff_of_true (by rintro ⟨⟩) fun hall => hnone hall.2.2

/-! ## Calls -/

/-- **Where the texts are written.** All accesses of a call are inside the blocks exactly if the offset
    that `create_r_func` keeps is not negative, which it never is below 2 GB, and the call does not end
    in an error of R for which R has left no message. The message is not made for a source so long that
    the `assert` of `create_r_func` stops the client. -/
theorem r_texts_inside_iff (world : RWorld) (req : RTextRequest) :
    StaysInside (handleRCall world req) ↔
      0 ≤ trackedOffset req ∧
      ((rFuncBody req.src.bytes).length ≤ intMax →
        ¬ (world.parses = true ∧ world.evaluates = false ∧ world.executionErrorMsg = none)) := by
  by_cases hoffset : 0 ≤ trackedOffset req
  · rw [and_iff_right hoffset]
    obtain ⟨mrc, hmem, hfunc⟩ := createRFunc_inside world hoffset
    rw [handleRCall, hfunc]
    by_cases hint : (rFuncBody req.src.bytes).length ≤ intMax
    · rw [if_pos hint, ok_bind, callErrorMessage_inside_iff world req.src hmem]
      exact ⟨fun hmessage _ => hmessage, fun hmessage => hmessage hint⟩
    · rw [if_neg hint]
      exact iff_of_true (by rintro ⟨⟩) fun hle => absurd hle hint
  · refine iff_of_false (fun hinside => hinside ?_) fun h => hoffset h.1
    rw [handleRCall, createRFunc_outOfBounds world (not_le.1 hoffset)]
    rfl

/-- A function `f` without arguments that clears the handler for errors and then stops. -/
def stoppingRequest : RTextRequest where
  name := ⟨Json.utf8 "f".toList, by decide⟩
  src := ⟨Json.utf8 "options(error = NULL); stop(1)".toList, by decide⟩
  args := []

/-- R leaves no message. -/
def silentWorld : RWorld where
  memory _ _ := 0
  parses := true
  parseErrorMsg := none
  evaluates := false
  executionErrorMsg := none

theorem r_texts_outside : ¬ StaysInside (handleRCall silentWorld stoppingRequest) := by
  have hoffset : 0 ≤ trackedOffset stoppingRequest := trackedOffset_nonneg (by decide)
  obtain ⟨mrc, hmem, hfunc⟩ := createRFunc_inside silentWorld hoffset
  rw [handleRCall, hfunc, if_pos (by decide), ok_bind, callErrorMessage_inside_iff _ _ hmem]
  exact not_not.2 ⟨rfl, rfl, rfl⟩

end PlContainer
