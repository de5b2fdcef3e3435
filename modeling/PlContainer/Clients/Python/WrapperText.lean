import PlContainer.Common.Messages
import PlContainer.Library.CText
import PlContainer.Library.Format

set_option autoImplicit false

/-! # The text of the Python function

`create_python_func` wraps the source of a function into a `def` statement. It computes the size of its
block first, prints the head of the statement, and copies the source character by character with
another text for each line ending. The writes are checked against the block here; whether the text
fits is looked at by the function only when it has been written. -/

namespace PlContainer

open CText Checked Format

/-! ## The request -/

/-- A name that comes out of a value of the server: shorter than 1 GB. -/
structure ServerName extends Text where
  short : bytes.length < 2 ^ 30

/-- `plcMsgCallreq`, as far as the text depends on it; an argument may have no name. -/
structure WrapperRequest where
  name : ServerName
  src : Text
  args : List (Option ServerName)

/-- The calls of `raise_execution_error`. -/
inductive WrapperError where
  | nameTooLong
  | bodyTooLong

def WrapperError.message : WrapperError → String
  | .nameTooLong => "Function name is too long and not fitting the predefined buffer size"
  | .bodyTooLong => "Function body is too long and not fitting the predefined buffer size"

/-! ## The function -/

/-- `sizeof` of a string literal. -/
def sizeofLiteral (s : String) : ℕ := (Json.utf8 s.toList).length + 1

/-- `mlen` -/
def wrapperSize (req : WrapperRequest) : ℕ :=
  let mlen := sizeofLiteral "def " + req.name.length + sizeofLiteral "():\n\t" + req.src.length * 2
  let mlen := mlen + sizeofLiteral "\n\n"
  let mlen := mlen + req.args.length
  let mlen := mlen + sizeofLiteral "args"
  let mlen := req.args.foldl (fun mlen arg => arg.elim mlen fun name => mlen + name.length) mlen
  mlen + 1

/-- `"def %s(args"` -/
def defText (name : CString) : CString := sprintf [.lit "def ", .arg "%s", .lit "(args"] [name]

/-- `",%s"` -/
def argText (name : CString) : CString := sprintf [.lit ",", .arg "%s"] [name]

/-- `"):\n\t"` -/
def bodyStart : CString := sprintf [.lit "):\n\t"] []

/-- The loop over the arguments. -/
def printArgs (mlen : ℕ) : List (Option ServerName) → Cursor → Except (ScanFault WrapperError) Cursor
  | [], out => pure out
  | none :: args, out => printArgs mlen args out
  | some name :: args, out => do
      let out ← out.print mlen (argText name.bytes)
      printArgs mlen args out

/-- `*sp == '\r' && *(sp + 1) == '\n'` -/
def atReturnNewline (src : Text) (sp : ℕ) : Except (ScanFault WrapperError) Bool := do
  let c ← src.read sp
  if c = '\r'.toUInt8 then do
    let d ← src.read (sp + 1)
    pure (d = '\n'.toUInt8)
  else pure false

/-- What is written for a character. -/
def putChar (c : UInt8) (out : Cursor) : Except (ScanFault WrapperError) Cursor :=
  if c = '\n'.toUInt8 ∨ c = '\r'.toUInt8 then do
    let out ← out.put '\n'.toUInt8
    out.put '\t'.toUInt8
  else out.put c

/-- The loop over the source; the NUL is the byte at its length. -/
def copySource (src : Text) (sp : ℕ) (out : Cursor) : Except (ScanFault WrapperError) Cursor :=
  if sp < src.length then do
    let pair ← atReturnNewline src sp
    let c ← src.read (sp + pair.toNat)
    let out ← putChar c out
    copySource src (sp + pair.toNat + 1) out
  else do
    let _ ← src.read sp
    pure out
termination_by src.length - sp

/-- The block behind the head of the statement. -/
def finishFunc (mlen : ℕ) (req : WrapperRequest) (out : Cursor) :
    Except (ScanFault WrapperError) Cursor := do
  let out ← printArgs mlen req.args out
  let out ← out.print mlen bodyStart
  let out ← copySource req.src 0 out
  let out ← out.put '\n'.toUInt8
  let out ← out.put '\n'.toUInt8
  out.put 0

/-- `create_python_func`; `memory` is what the block contains before. -/
def createPythonFunc (memory : ℕ → UInt8) (req : WrapperRequest) :
    Except (ScanFault WrapperError) (List UInt8) := do
  let mlen := wrapperSize req
  let mrc := (List.range mlen).map memory
  let (block, plen) ← Cursor.snprintf mlen (defText req.name.bytes) ⟨mrc, 0⟩
  if plen < 0 ∨ plen.toNat > mlen then throw (.raised .nameTooLong)
  else do
    let out ← finishFunc mlen req ⟨block, plen.toNat⟩
    if out.pos > mlen then throw (.raised .bodyTooLong) else pure out.block

/-- The string at the start of a block. -/
def cString (block : List UInt8) : CString := block.takeWhile (· ≠ 0)

/-! ## The text -/

/-- The source with its line endings replaced, which are scanned from the left as `\r\n` if possible
    and else as `\n` or `\r`. -/
def replaceLineEndings : CString → CString
  | [] => []
  | [c] => if c = '\n'.toUInt8 ∨ c = '\r'.toUInt8 then ['\n'.toUInt8, '\t'.toUInt8] else [c]
  | c :: d :: s =>
      if c = '\r'.toUInt8 ∧ d = '\n'.toUInt8 then
        '\n'.toUInt8 :: '\t'.toUInt8 :: replaceLineEndings s
      else if c = '\n'.toUInt8 ∨ c = '\r'.toUInt8 then
        '\n'.toUInt8 :: '\t'.toUInt8 :: replaceLineEndings (d :: s)
      else c :: replaceLineEndings (d :: s)

/-- The names of the arguments that have one. -/
def argNames (args : List (Option ServerName)) : List CString :=
  args.reduceOption.map fun name => name.bytes

/-- The text that the function is to have. -/
def wrapperText (req : WrapperRequest) : CString :=
  Json.utf8 "def ".toList ++ req.name.bytes ++ Json.utf8 "(args".toList ++
    (argNames req.args).flatMap (fun name => Json.utf8 ",".toList ++ name) ++
    Json.utf8 "):\n\t".toList ++ replaceLineEndings req.src.bytes ++ Json.utf8 "\n\n".toList

/-! ## The size of the block -/

theorem argNames_none (args : List (Option ServerName)) : argNames (none :: args) = argNames args := rfl

theorem argNames_some (name : ServerName) (args : List (Option ServerName)) :
    argNames (some name :: args) = name.bytes :: argNames args := rfl

theorem foldl_argument_length (args : List (Option ServerName)) (mlen : ℕ) :
    args.foldl (fun mlen arg => arg.elim mlen fun name => mlen + name.length) mlen =
      mlen + ((argNames args).map List.length).sum := by
  induction args generalizing mlen with
  | nil => rfl
  | cons arg args ih =>
      rw [List.foldl_cons, ih]
      cases arg with
      | none => rfl
      | some name =>
          rw [argNames_some, List.map_cons, List.sum_cons, ← Nat.add_assoc]
          rfl

theorem wrapperSize_eq (req : WrapperRequest) :
    wrapperSize req = req.name.bytes.length + 2 * req.src.bytes.length + req.args.length +
      ((argNames req.args).map List.length).sum + 20 := by
  have hdef : sizeofLiteral "def " = 5 := by decide
  have hbody : sizeofLiteral "():\n\t" = 6 := by decide
  have hend : sizeofLiteral "\n\n" = 3 := by decide
  have hargs : sizeofLiteral "args" = 5 := by decide
  rw [wrapperSize, hdef, hbody, hend, hargs, foldl_argument_length, Text.length, Text.length]
  omega

/-- The arguments as they are printed. -/
def argsText (args : List (Option ServerName)) : CString :=
  (argNames args).flatMap fun name => Json.utf8 ",".toList ++ name

theorem argsText_cons_none (args : List (Option ServerName)) :
    argsText (none :: args) = argsText args := rfl

theorem argText_eq (name : CString) : argText name = Json.utf8 ",".toList ++ name := by
  rw [argText, sprintf, fill, fill, fill, List.append_nil]

theorem argsText_cons_some (name : ServerName) (args : List (Option ServerName)) :
    argsText (some name :: args) = argText name.bytes ++ argsText args := by
  rw [argsText, argNames_some, List.flatMap_cons, argText_eq, argsText]

theorem length_argText (name : CString) : (argText name).length = name.length + 1 := by
  have hcomma : (Json.utf8 ",".toList).length = 1 := by decide
  rw [argText_eq, List.length_append, hcomma, Nat.add_comm]

/-- The commas are counted with the arguments that have no name, too. -/
theorem length_argsText_le (args : List (Option ServerName)) :
    (argsText args).length ≤ args.length + ((argNames args).map List.length).sum := by
  induction args with
  | nil => exact Nat.le_refl _
  | cons arg args ih =>
      cases arg with
      | none =>
          rw [argsText_cons_none, argNames_none, List.length_cons]
          omega
      | some name =>
          rw [argsText_cons_some, argNames_some, List.length_append, length_argText, List.length_cons,
            List.map_cons, List.sum_cons]
          omega

/-- What is written for one character of the source. -/
def charText (c : UInt8) : CString :=
  if c = '\n'.toUInt8 ∨ c = '\r'.toUInt8 then ['\n'.toUInt8, '\t'.toUInt8] else [c]

/-- The scan of a source takes a `\r\n` or one character at a time. -/
@[elab_as_elim]
theorem lineScan_induction {P : CString → Prop} (nil : P [])
    (pair : ∀ s, P s → P ('\r'.toUInt8 :: '\n'.toUInt8 :: s))
    (char : ∀ c s, ¬ (c = '\r'.toUInt8 ∧ s.head? = some '\n'.toUInt8) → P s → P (c :: s))
    (s : CString) : P s := by
  induction hn : s.length using Nat.strongRecOn generalizing s with
  | ind n ih =>
      cases s with
      | nil => exact nil
      | cons c s =>
          rw [List.length_cons] at hn
          by_cases hpair : c = '\r'.toUInt8 ∧ s.head? = some '\n'.toUInt8
          · obtain ⟨rfl, hhead⟩ := hpair
            obtain ⟨s, rfl⟩ := List.head?_eq_some_iff.1 hhead
            rw [List.length_cons] at hn
            exact pair s (ih s.length (by omega) s rfl)
          · exact char c s hpair (ih s.length (by omega) s rfl)

theorem replaceLineEndings_pair (s : CString) :
    replaceLineEndings ('\r'.toUInt8 :: '\n'.toUInt8 :: s) =
      charText '\n'.toUInt8 ++ replaceLineEndings s := by
  have hnewline : charText '\n'.toUInt8 = ['\n'.toUInt8, '\t'.toUInt8] := by decide
  rw [replaceLineEndings, if_pos ⟨rfl, rfl⟩, hnewline]
  rfl

theorem replaceLineEndings_char {c : UInt8} {s : CString}
    (h : ¬ (c = '\r'.toUInt8 ∧ s.head? = some '\n'.toUInt8)) :
    replaceLineEndings (c :: s) = charText c ++ replaceLineEndings s := by
  rw [charText]
  cases s with
  | nil => simp [replaceLineEndings]
  | cons d s =>
      have hpair : ¬ (c = '\r'.toUInt8 ∧ d = '\n'.toUInt8) :=
        fun hpair => h ⟨hpair.1, congrArg some hpair.2⟩
      rw [replaceLineEndings, if_neg hpair]
      split <;> rfl

theorem length_charText_le (c : UInt8) : (charText c).length ≤ 2 := by
  rw [charText]
  split
  · exact Nat.le_refl 2
  · exact Nat.le_succ 1

theorem length_replaceLineEndings_le (s : CString) :
    (replaceLineEndings s).length ≤ 2 * s.length := by
  induction s using lineScan_induction with
  | nil => exact Nat.le_refl _
  | pair s ih =>
      have hchar := length_charText_le '\n'.toUInt8
      rw [replaceLineEndings_pair, List.length_append, List.length_cons, List.length_cons]
      omega
  | char c s hc ih =>
      have hchar := length_charText_le c
      rw [replaceLineEndings_char hc, List.length_append, List.length_cons]
      omega

/-! ## What is written -/

theorem printArgs_writes {mlen : ℕ} {text : CString} {out : Cursor} {args : List (Option ServerName)}
    (h : out.Wrote mlen text) (hroom : text.length + (argsText args).length < mlen) :
    Cursor.Writes mlen (text ++ argsText args) (printArgs mlen args out) := by
  induction args generalizing text out with
  | nil => exact ⟨out, rfl, by rwa [show argsText [] = [] from rfl, List.append_nil]⟩
  | cons arg args ih =>
      cases arg with
      | none => exact ih h hroom
      | some name =>
          rw [argsText_cons_some, List.length_append] at hroom
          rw [argsText_cons_some, ← List.append_assoc, printArgs]
          have hint : (argText name.bytes).length ≤ intMax := by
            have := name.short
            rw [length_argText, intMax]
            omega
          refine (h.print (by omega) hint).bind fun out hout => ih hout ?_
          rw [List.length_append]
          omega

theorem putChar_writes {mlen : ℕ} {text : CString} {out : Cursor} (h : out.Wrote mlen text) (c : UInt8)
    (hroom : text.length + (charText c).length ≤ mlen) :
    Cursor.Writes mlen (text ++ charText c) (putChar c out) := by
  rw [charText] at hroom ⊢
  rw [putChar]
  split
  · next hc =>
      rw [if_pos hc] at hroom
      have hlen : text.length + 2 ≤ mlen := hroom
      rw [List.append_cons]
      refine (h.put (by omega) _).bind fun out hout => hout.put ?_ _
      rw [List.length_append, List.length_singleton]
      omega
  · next hc =>
      rw [if_neg hc] at hroom
      exact h.put hroom c

theorem atReturnNewline_eq {src : Text} {sp : ℕ} {c : UInt8} {rest : CString}
    (h : src.At sp (c :: rest)) :
    atReturnNewline src sp = .ok (decide (c = '\r'.toUInt8 ∧ rest.head? = some '\n'.toUInt8)) := by
  rw [atReturnNewline, h.read_eq, ok_bind, List.headD_cons]
  by_cases hc : c = '\r'.toUInt8
  · rw [if_pos hc, h.tail.read_eq, ok_bind]
    -- Behind the last character stands the NUL, which is no newline.
    have hnul : (0 : UInt8) ≠ '\n'.toUInt8 := by decide
    cases rest with
    | nil => simp [hc, hnul]; rfl
    | cons d rest => simp [hc]; rfl
  · rw [if_neg hc]
    simp [hc]; rfl

/-- One round of the loop writes a character, and leaves the rest of the source. -/
theorem copySource_round {src : Text} {mlen sp : ℕ} {text rest rest' : CString} {c d : UInt8}
    {pair : Bool} {out : Cursor} (hsrc : src.At sp (c :: rest))
    (hpair : atReturnNewline src sp = .ok pair) (hnext : src.At (sp + pair.toNat) (d :: rest'))
    (h : out.Wrote mlen text) (hroom : text.length + (charText d ++ replaceLineEndings rest').length ≤ mlen)
    (hrest : ∀ out, out.Wrote mlen (text ++ charText d) → Cursor.Writes mlen
      (text ++ charText d ++ replaceLineEndings rest') (copySource src (sp + pair.toNat + 1) out)) :
    Cursor.Writes mlen (text ++ (charText d ++ replaceLineEndings rest')) (copySource src sp out) := by
  have hsp : sp < src.length := by
    rw [← hsrc.length_eq, List.length_cons]
    omega
  rw [List.length_append] at hroom
  rw [copySource, if_pos hsp, hpair, ok_bind, hnext.read_eq, ok_bind, List.headD_cons,
    ← List.append_assoc]
  exact (putChar_writes h d (by omega)).bind hrest

theorem copySource_writes {src : Text} {mlen sp : ℕ} {text rest : CString} {out : Cursor}
    (hsrc : src.At sp rest) (h : out.Wrote mlen text)
    (hroom : text.length + (replaceLineEndings rest).length ≤ mlen) :
    Cursor.Writes mlen (text ++ replaceLineEndings rest) (copySource src sp out) := by
  induction rest using lineScan_induction generalizing sp text out with
  | nil =>
      have hsp : ¬ sp < src.length := by
        rw [hsrc.eq_nil_iff.1 rfl]
        exact Nat.lt_irrefl _
      rw [copySource, if_neg hsp, hsrc.read_eq, ok_bind, replaceLineEndings, List.append_nil]
      exact ⟨out, rfl, h⟩
  | pair rest ih =>
      have hround := atReturnNewline_eq hsrc
      rw [decide_eq_true ⟨rfl, rfl⟩] at hround
      rw [replaceLineEndings_pair] at hroom ⊢
      refine copySource_round hsrc hround hsrc.tail h hroom fun out hout => ih hsrc.tail.tail hout ?_
      rwa [List.length_append, Nat.add_assoc, ← List.length_append]
  | char c rest hc ih =>
      have hround := atReturnNewline_eq hsrc
      rw [decide_eq_false hc] at hround
      rw [replaceLineEndings_char hc] at hroom ⊢
      refine copySource_round hsrc hround hsrc h hroom fun out hout => ih hsrc.tail hout ?_
      rwa [List.length_append, Nat.add_assoc, ← List.length_append]

/-- The part of the text behind the arguments' list. -/
def bodyText (req : WrapperRequest) : CString :=
  argsText req.args ++ bodyStart ++ replaceLineEndings req.src.bytes ++ Json.utf8 "\n\n".toList

theorem finishFunc_writes {mlen : ℕ} {text : CString} {out : Cursor} (req : WrapperRequest)
    (h : out.Wrote mlen text) (hroom : text.length + (bodyText req).length < mlen) :
    Cursor.Writes mlen (text ++ bodyText req ++ [0]) (finishFunc mlen req out) := by
  have hend : Json.utf8 "\n\n".toList = ['\n'.toUInt8] ++ ['\n'.toUInt8] := by decide
  have htext : text ++ bodyText req ++ [0] = text ++ argsText req.args ++ bodyStart ++
      replaceLineEndings req.src.bytes ++ ['\n'.toUInt8] ++ ['\n'.toUInt8] ++ [0] := by
    rw [bodyText, hend]
    simp only [List.append_assoc]
  have hstart : bodyStart.length ≤ intMax := by decide
  rw [bodyText, hend] at hroom
  simp only [List.length_append, List.length_singleton] at hroom
  rw [htext, finishFunc]
  refine (printArgs_writes h (by omega)).bind fun out h => ?_
  refine (h.print (by simp only [List.length_append]; omega) hstart).bind fun out h => ?_
  refine (copySource_writes req.src.at_zero h (by simp only [List.length_append]; omega)).bind
    fun out h => ?_
  refine (h.put (by simp only [List.length_append]; omega) _).bind fun out h => ?_
  refine (h.put (by simp only [List.length_append, List.length_singleton]; omega) _).bind
    fun out h => ?_
  exact h.put (by simp only [List.length_append, List.length_singleton]; omega) 0

theorem defText_eq (name : CString) :
    defText name = Json.utf8 "def ".toList ++ name ++ Json.utf8 "(args".toList := by
  rw [defText, sprintf, fill, fill, fill, fill, List.append_nil, List.append_assoc]

theorem wrapperText_eq (req : WrapperRequest) :
    wrapperText req = defText req.name.bytes ++ bodyText req := by
  rw [wrapperText, defText_eq, bodyText, argsText, bodyStart, sprintf, fill, fill, List.append_nil]
  simp only [List.append_assoc]

/-- The text and its NUL fit into the block. -/
theorem length_wrapperText_lt (req : WrapperRequest) :
    (wrapperText req).length < wrapperSize req := by
  have hdef : (Json.utf8 "def ".toList).length = 4 := by decide
  have hargs : (Json.utf8 "(args".toList).length = 5 := by decide
  have hstart : bodyStart.length = 4 := by decide
  have hend : (Json.utf8 "\n\n".toList).length = 2 := by decide
  have hargsText := length_argsText_le req.args
  have hsrc := length_replaceLineEndings_le req.src.bytes
  rw [wrapperText_eq, defText_eq, bodyText, wrapperSize_eq]
  simp only [List.length_append, hdef, hargs, hstart, hend]
  omega

theorem nul_not_mem_charText {c : UInt8} (hc : c ≠ 0) : 0 ∉ charText c := by
  rw [charText]
  split
  · decide
  · exact fun hmem => hc (List.mem_singleton.1 hmem).symm

theorem nul_not_mem_replaceLineEndings {s : CString} (h : 0 ∉ s) : 0 ∉ replaceLineEndings s := by
  induction s using lineScan_induction with
  | nil => exact h
  | pair s ih =>
      rw [replaceLineEndings_pair]
      simp only [List.mem_cons, not_or] at h
      exact List.not_mem_append (nul_not_mem_charText (by decide)) (ih h.2.2)
  | char c s hc ih =>
      rw [replaceLineEndings_char hc]
      rw [List.mem_cons, not_or] at h
      exact List.not_mem_append (nul_not_mem_charText (Ne.symm h.1)) (ih h.2)

theorem nul_not_mem_argsText (args : List (Option ServerName)) : 0 ∉ argsText args := by
  rw [argsText, argNames]
  intro hmem
  obtain ⟨text, htext, hmem⟩ := List.mem_flatMap.1 hmem
  obtain ⟨name, -, rfl⟩ := List.mem_map.1 htext
  exact List.not_mem_append (by decide) name.nulFree hmem

theorem nul_not_mem_wrapperText (req : WrapperRequest) : 0 ∉ wrapperText req := by
  rw [wrapperText_eq, defText_eq, bodyText]
  have hdef : 0 ∉ Json.utf8 "def ".toList := by decide
  have hargs : 0 ∉ Json.utf8 "(args".toList := by decide
  have hstart : 0 ∉ bodyStart := by decide
  have hend : 0 ∉ Json.utf8 "\n\n".toList := by decide
  have hsrc := nul_not_mem_replaceLineEndings req.src.nulFree
  simp only [List.mem_append, not_or]
  exact ⟨⟨⟨hdef, req.name.nulFree⟩, hargs⟩, ⟨⟨nul_not_mem_argsText _, hstart⟩, hsrc⟩, hend⟩

theorem cString_of_wrote {size : ℕ} {text : CString} {out : Cursor} (h : out.Wrote size (text ++ [0]))
    (htext : 0 ∉ text) : cString out.block = text := by
  have hstart : out.block = text ++ 0 :: out.block.drop (text ++ [0]).length := by
    have hslice := h.start
    rw [Block.slice, List.drop_zero] at hslice
    conv_lhs => rw [← List.take_append_drop (text ++ [0]).length out.block, hslice, List.append_assoc]
    rfl
  have hne : ∀ c ∈ text, decide (c ≠ 0) = true := fun c hc =>
    decide_eq_true fun h0 => htext (h0 ▸ hc)
  rw [hstart, cString, List.takeWhile_append_of_pos hne, List.takeWhile_cons_of_neg (by decide),
    List.append_nil]

/-- The text is written inside the block whatever the names and the source are; neither of the two
    errors is raised. -/
theorem createPythonFunc_text (memory : ℕ → UInt8) (req : WrapperRequest) :
    ∃ block, createPythonFunc memory req = .ok block ∧ block.length = wrapperSize req ∧
      cString block = wrapperText req := by
  have hfit := length_wrapperText_lt req
  rw [wrapperText_eq, List.length_append] at hfit
  have hblock : Cursor.Wrote (wrapperSize req) [] ⟨(List.range (wrapperSize req)).map memory, 0⟩ :=
    Cursor.wrote_nil (by rw [List.length_map, List.length_range])
  have hint : (defText req.name.bytes).length ≤ intMax := by
    have hname := req.name.short
    have hdef : (Json.utf8 "def ".toList).length = 4 := by decide
    have hargs : (Json.utf8 "(args".toList).length = 5 := by decide
    rw [defText_eq, List.length_append, List.length_append, hdef, hargs, intMax]
    omega
  have hhead : Cursor.Wrote (wrapperSize req) (defText req.name.bytes)
      ⟨Block.overwrite ((List.range (wrapperSize req)).map memory) 0 (defText req.name.bytes ++ [0]),
        (defText req.name.bytes).length⟩ :=
    hblock.overwrite (defText req.name.bytes) [0]
      (by simp only [List.length_append, List.length_nil, List.length_singleton]; omega)
      (Nat.zero_add _).symm
  obtain ⟨out, hout, hwrote⟩ := finishFunc_writes req hhead hfit
  refine ⟨out.block, ?_, hwrote.length_block, ?_⟩
  · have hplen : ¬ (printedLength (defText req.name.bytes) < 0 ∨
        (printedLength (defText req.name.bytes)).toNat > wrapperSize req) := by
      rw [printedLength, if_pos hint]
      omega
    have hpos : ¬ out.pos > wrapperSize req := by
      rw [hwrote.pos_eq]
      simp only [List.length_append, List.length_singleton]
      omega
    rw [createPythonFunc,
      Cursor.snprintf_eq_ok (by omega) (by rw [hblock.length_block]; dsimp only; omega), ok_bind]
    dsimp only
    rw [if_neg hplen, printedLength, if_pos hint, Int.toNat_natCast, hout, ok_bind, if_neg hpos]
    rfl
  · rw [wrapperText_eq]
    exact cString_of_wrote hwrote (by rw [← wrapperText_eq]; exact nul_not_mem_wrapperText req)

end PlContainer
