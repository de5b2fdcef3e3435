import PlContainer.Config.Loader
import PlContainer.Library.CText
import PlContainer.Library.Format

set_option autoImplicit false

/-! # The runtime of a function

The source of a function starts with a line that names its runtime. `parse_container_meta` finds the
name with a sequence of loops over the source. What they do is first described on suffixes of the
source (`declaredId`) and then compared with the grammar of the line (`Declares`). A source is a text
value of the server, shorter than 1 GB, so its offsets are exact in an `int` and are numbers here. -/

namespace PlContainer

open CText Checked

/-! ## The scanner -/

/-- `isspace`, in the C locale -/
def isspaceByte (c : UInt8) : Bool := c ∈ [32, 9, 10, 11, 12, 13]

/-- `isblank`, in the C locale -/
def isblank (c : UInt8) : Bool := c ∈ [32, 9]

/-- `'\n'` or `'\r'` -/
def isEol (c : UInt8) : Bool := c ∈ [10, 13]

/-- The errors of `parse_container_meta`; the first three show the offset, the length of the source and
    the byte at the offset. -/
inductive MetaError where
  | noHash (first len : ℕ) (c : UInt8)
  | notContainer (first len : ℕ) (c : UInt8)
  | noColon (first len : ℕ) (c : UInt8)
  | idIsEmpty
  | noCarriageReturn
  | idCannotBeEmpty
  | idTooLong
  | illegalCharacter (runtimeId : CString)

open Format in
/-- The message of an error that shows a position; a `char` is signed. -/
def positionMessage (reason : String) (first len : ℕ) (c : UInt8) : CString :=
  sprintf [.lit "Runtime declaration format should be '#container: runtime_id': (", .lit reason,
      .lit "): ", .arg "%d", .lit " ", .arg "%d", .lit " ", .arg "%d"]
    [Json.utf8 (decimal first), Json.utf8 (decimal len), Json.utf8 (decimal c.toInt8.toInt)]

open Format in
/-- The message of an error. -/
def MetaError.message : MetaError → CString
  | .noHash first len c => positionMessage "No '#' is found" first len c
  | .notContainer first len c => positionMessage "Not 'container'" first len c
  | .noColon first len c => positionMessage "No ':' is found after 'container'" first len c
  | .idIsEmpty => sprintf [.lit "Runtime declaration format should be '#container: runtime_id': ",
      .lit "(runtime id is empty)"] []
  | .noCarriageReturn => sprintf [.lit "Runtime declaration format should be ",
      .lit "'#container: runtime_id': (no carriage return in code)"] []
  | .idCannotBeEmpty => sprintf [.lit "Runtime id cannot be empty"] []
  | .idTooLong => sprintf [.lit "Runtime id should not be longer than 63 bytes."] []
  | .illegalCharacter runtimeId => sprintf [.lit "Container id '", .arg "%s",
      .lit "' contains illegal character for container."] [runtimeId]

/-- The loop of `check_runtime_id` from the `i`-th character on. -/
def checkRuntimeIdFrom (i : ℕ) : CString → ℤ
  | [] => if i ≠ 0 then 0 else -1
  | d :: id =>
      if d = '_'.toUInt8 ∨ d = '-'.toUInt8 ∨ d = '.'.toUInt8 then
        if i = 0 then -1 else checkRuntimeIdFrom (i + 1) id
      else if '0'.toUInt8 ≤ d ∧ d ≤ '9'.toUInt8 then checkRuntimeIdFrom (i + 1) id
      else if 'a'.toUInt8 ≤ d ∧ d ≤ 'z'.toUInt8 then checkRuntimeIdFrom (i + 1) id
      else if 'A'.toUInt8 ≤ d ∧ d ≤ 'Z'.toUInt8 then checkRuntimeIdFrom (i + 1) id
      else if d = '.'.toUInt8 ∨ d = '_'.toUInt8 ∨ d = '-'.toUInt8 then checkRuntimeIdFrom (i + 1) id
      else -1

/-- `check_runtime_id` -/
def checkRuntimeId (id : CString) : ℤ := checkRuntimeIdFrom 0 id

/-- Whether a text stands at an offset; at the end of the source the comparison is not made. -/
def foundAt (source : Text) (text : CString) (first : ℕ) : Except (ScanFault MetaError) Bool :=
  if first = source.length then pure false else source.matchesAt first text

/-- Skip some bytes and expect a text: the offset behind it. -/
def expectText (source : Text) (skip : UInt8 → Bool) (text : CString)
    (error : ℕ → ℕ → UInt8 → MetaError) (first : ℕ) : Except (ScanFault MetaError) ℕ := do
  let first ← source.skipWhile skip first
  let found ← foundAt source text first
  if found then pure (first + text.length)
  else do
    let c ← source.read first
    throw (.raised (error first source.length c))

/-- The checks of an id that was found between two offsets. -/
def checkedId (source : Text) (first length : ℕ) : Except (ScanFault MetaError) CString :=
  if length = 0 then throw (.raised .idCannotBeEmpty)
  else if length + 1 > runtimeIdMaxLength then throw (.raised .idTooLong)
  else do
    let runtimeId ← source.copy first length
    if checkRuntimeId runtimeId = -1 then throw (.raised (.illegalCharacter runtimeId))
    else pure runtimeId

/-- The part of `parse_container_meta` behind the colon. -/
def readRuntimeId (source : Text) (first : ℕ) : Except (ScanFault MetaError) CString := do
  let first ← source.skipWhile isblank first
  if first = source.length then throw (.raised .idIsEmpty)
  else do
    let last ← source.skipWhile (fun c => !isEol c) first
    if last = source.length then throw (.raised .noCarriageReturn)
    else do
      let length ← source.trimBack isblank first (last - first)
      checkedId source first length

/-- The word before the colon. -/
def containerWord : CString := Json.utf8 "container".toList

/-- `parse_container_meta` -/
def parseContainerMeta (source : Text) : Except (ScanFault MetaError) CString := do
  let first ← expectText source isspaceByte ['#'.toUInt8] .noHash 0
  let first ← expectText source isblank containerWord .notContainer first
  let first ← expectText source isblank [':'.toUInt8] .noColon first
  readRuntimeId source first

/-! ## The scanner on suffixes -/

/-- What follows a text behind some skipped bytes. -/
def afterText (skip : UInt8 → Bool) (text rest : CString) : Option CString :=
  if text.isPrefixOf (rest.dropWhile skip) then some ((rest.dropWhile skip).drop text.length) else none

/-- The first line without the blanks at its ends. -/
def trimmedLine (rest : CString) : CString :=
  ((rest.dropWhile isblank).takeWhile fun c => !isEol c).rdropWhile isblank

/-- The id at the start of a text. -/
def idOfLine (rest : CString) : Option CString :=
  if (rest.dropWhile isblank).dropWhile (fun c => !isEol c) ≠ [] ∧
      (trimmedLine rest).length < runtimeIdMaxLength ∧ checkRuntimeId (trimmedLine rest) ≠ -1 then
    some (trimmedLine rest)
  else none

/-- The id that a source declares. -/
def declaredId (source : CString) : Option CString :=
  (afterText isspaceByte ['#'.toUInt8] source).bind fun rest =>
    (afterText isblank containerWord rest).bind fun rest =>
      (afterText isblank [':'.toUInt8] rest).bind idOfLine

theorem foundAt_eq {source : Text} {text : CString} {first : ℕ} {rest : CString} (htext : 0 ∉ text)
    (hne : text ≠ []) (h : source.At first rest) :
    foundAt source text first = .ok (text.isPrefixOf rest) := by
  rw [foundAt, h.matchesAt_eq htext]
  split
  · next hend =>
      rw [h.eq_nil_iff.2 hend]
      cases text with
      | nil => exact absurd rfl hne
      | cons c text => rfl
  · rfl

theorem expectText_scans {source : Text} {skip : UInt8 → Bool} {text : CString}
    {error : ℕ → ℕ → UInt8 → MetaError} {first : ℕ} {rest : CString} (htext : 0 ∉ text)
    (hne : text ≠ []) (h : source.At first rest) :
    Scans source.At (expectText source skip text error first) (afterText skip text rest) := by
  have hskip := h.dropWhile (p := skip)
  rw [expectText, h.skipWhile_eq, ok_bind, foundAt_eq htext hne hskip, ok_bind, afterText]
  cases hpre : text.isPrefixOf (rest.dropWhile skip) with
  | false =>
      rw [if_neg Bool.false_ne_true, if_neg Bool.false_ne_true, hskip.read_eq, ok_bind]
      exact .raise _
  | true =>
      obtain ⟨after, hafter⟩ := List.isPrefixOf_iff_prefix.1 hpre
      rw [if_pos rfl, if_pos rfl, ← hafter, List.drop_left]
      rw [← hafter] at hskip
      exact .ok hskip.append

/-- The checks pass for an id that is short enough and has no other characters; an empty one fails
    them all. -/
theorem checkedId_scans {source : Text} {first : ℕ} {id rest : CString}
    (h : source.At first (id ++ rest)) :
    Scans Eq (checkedId source first id.length)
      (if id.length < runtimeIdMaxLength ∧ checkRuntimeId id ≠ -1 then some id else none) := by
  rw [checkedId]
  by_cases hempty : id.length = 0
  · have hid : id = [] := List.length_eq_zero_iff.1 hempty
    rw [if_pos hempty, if_neg (fun hid' => hid'.2 (by rw [hid]; rfl))]
    exact .raise _
  rw [if_neg hempty]
  by_cases hlong : id.length + 1 > runtimeIdMaxLength
  · rw [if_pos hlong, if_neg (by omega)]
    exact .raise _
  rw [if_neg hlong, h.copy_eq, ok_bind]
  by_cases hchars : checkRuntimeId id = -1
  · rw [if_pos hchars, if_neg (fun hid => hid.2 hchars)]
    exact .raise _
  · rw [if_neg hchars, if_pos ⟨by omega, hchars⟩]
    exact .ok rfl

theorem readRuntimeId_scans {source : Text} {first : ℕ} {rest : CString} (h : source.At first rest) :
    Scans Eq (readRuntimeId source first) (idOfLine rest) := by
  have hskip := h.dropWhile (p := isblank)
  have hline := hskip.dropWhile (p := fun c => !isEol c)
  rw [readRuntimeId, h.skipWhile_eq, ok_bind, hskip.skipWhile_eq, idOfLine]
  by_cases hend : rest.dropWhile isblank = []
  · rw [if_pos (hskip.eq_nil_iff.1 hend), hend, if_neg (fun hid => hid.1 rfl)]
    exact .raise _
  rw [if_neg (fun hlen => hend (hskip.eq_nil_iff.2 hlen)), ok_bind]
  by_cases heol : (rest.dropWhile isblank).dropWhile (fun c => !isEol c) = []
  · rw [if_pos (hline.eq_nil_iff.1 heol), if_neg (fun hid => hid.1 heol)]
    exact .raise _
  rw [if_neg (fun hlen => heol (hline.eq_nil_iff.2 hlen)), Nat.add_sub_cancel_left]
  rw [← (rest.dropWhile isblank).takeWhile_append_dropWhile (p := fun c => !isEol c)] at hskip
  rw [hskip.trimBack_eq, ok_bind, ← trimmedLine]
  have hid : source.At (first + (rest.takeWhile isblank).length) (trimmedLine rest ++
      (((rest.dropWhile isblank).takeWhile fun c => !isEol c).rtakeWhile isblank ++
        (rest.dropWhile isblank).dropWhile fun c => !isEol c)) := by
    rwa [trimmedLine, ← List.append_assoc, List.rdropWhile_append_rtakeWhile]
  simpa [heol] using checkedId_scans hid

theorem parseContainerMeta_scans (source : Text) :
    Scans Eq (parseContainerMeta source) (declaredId source.bytes) := by
  refine (expectText_scans (by decide) (by decide) source.at_zero).bind fun _ _ h => ?_
  refine (expectText_scans (by decide) (by decide) h).bind fun _ _ h => ?_
  exact (expectText_scans (by decide) (by decide) h).bind fun _ _ h => readRuntimeId_scans h

/-! ## The grammar of the declaration -/

/-- The letters and digits of the C locale. -/
def IsLetterOrDigit (c : UInt8) : Prop :=
  ('0'.toUInt8 ≤ c ∧ c ≤ '9'.toUInt8) ∨ ('a'.toUInt8 ≤ c ∧ c ≤ 'z'.toUInt8) ∨
    ('A'.toUInt8 ≤ c ∧ c ≤ 'Z'.toUInt8)

/-- The other characters of an id. -/
def IsMark (c : UInt8) : Prop := c = '_'.toUInt8 ∨ c = '.'.toUInt8 ∨ c = '-'.toUInt8

instance (c : UInt8) : Decidable (IsLetterOrDigit c) := inferInstanceAs (Decidable (_ ∨ _))

instance (c : UInt8) : Decidable (IsMark c) := inferInstanceAs (Decidable (_ ∨ _))

/-- The characters of an id: a letter or digit, and then letters, digits and marks. -/
def IsIdText : CString → Prop
  | [] => False
  | c :: id => IsLetterOrDigit c ∧ ∀ d ∈ id, IsLetterOrDigit d ∨ IsMark d

/-- An id with at most 63 characters. -/
structure IsRuntimeId (id : CString) : Prop where
  chars : IsIdText id
  length_le : id.length ≤ 63

/-- The source declares the runtime `id`: spaces, a hash, the word, a colon and the id, with blanks
    between them and up to the end of the line. -/
def Declares (source id : CString) : Prop :=
  ∃ spaces blanks₁ blanks₂ blanks₃ blanks₄ eol rest,
    source = spaces ++ '#'.toUInt8 :: (blanks₁ ++ (containerWord ++ (blanks₂ ++ ':'.toUInt8 ::
      (blanks₃ ++ (id ++ (blanks₄ ++ eol :: rest)))))) ∧
    (∀ c ∈ spaces, isspaceByte c) ∧ (∀ c ∈ blanks₁, isblank c) ∧ (∀ c ∈ blanks₂, isblank c) ∧
    (∀ c ∈ blanks₃, isblank c) ∧ (∀ c ∈ blanks₄, isblank c) ∧ IsRuntimeId id ∧
    (eol = '\r'.toUInt8 ∨ eol = '\n'.toUInt8)

theorem not_isLetterOrDigit_of_isMark {c : UInt8} (h : IsMark c) : ¬ IsLetterOrDigit c := by
  obtain rfl | rfl | rfl := h <;> decide

/-- One round of the loop; the second test for a mark is never reached with one. -/
theorem checkRuntimeIdFrom_cons (i : ℕ) (d : UInt8) (id : CString) :
    checkRuntimeIdFrom i (d :: id) =
      if IsLetterOrDigit d ∨ (i ≠ 0 ∧ IsMark d) then checkRuntimeIdFrom (i + 1) id else -1 := by
  rw [checkRuntimeIdFrom]
  by_cases hmark : IsMark d
  · have hletter := not_isLetterOrDigit_of_isMark hmark
    rw [if_pos (by unfold IsMark at hmark; tauto)]
    by_cases hi : i = 0
    · rw [if_pos hi, if_neg (by tauto)]
    · rw [if_neg hi, if_pos (.inr ⟨hi, hmark⟩)]
  · rw [if_neg (by unfold IsMark at hmark; tauto)]
    by_cases hletter : IsLetterOrDigit d
    · rw [if_pos (show IsLetterOrDigit d ∨ (i ≠ 0 ∧ IsMark d) from .inl hletter)]
      obtain h | h | h := hletter
      · rw [if_pos h]
      · rw [if_pos h, ite_self]
      · rw [if_pos h, ite_self, ite_self]
    · rw [if_neg (show ¬ (IsLetterOrDigit d ∨ (i ≠ 0 ∧ IsMark d)) by tauto)]
      unfold IsLetterOrDigit at hletter
      unfold IsMark at hmark
      rw [if_neg (by tauto), if_neg (by tauto), if_neg (by tauto), if_neg (by tauto)]

theorem checkRuntimeIdFrom_succ (i : ℕ) (id : CString) :
    checkRuntimeIdFrom (i + 1) id ≠ -1 ↔ ∀ d ∈ id, IsLetterOrDigit d ∨ IsMark d := by
  induction id generalizing i with
  | nil => simp [checkRuntimeIdFrom]
  | cons d id ih =>
      rw [checkRuntimeIdFrom_cons, List.forall_mem_cons, ← ih (i + 1)]
      by_cases hd : IsLetterOrDigit d ∨ IsMark d <;> simp [hd]

theorem checkRuntimeId_iff (id : CString) : checkRuntimeId id ≠ -1 ↔ IsIdText id := by
  cases id with
  | nil => exact iff_of_false (fun h => h rfl) id
  | cons c id =>
      rw [checkRuntimeId, checkRuntimeIdFrom_cons, IsIdText, ← checkRuntimeIdFrom_succ 0]
      by_cases hc : IsLetterOrDigit c <;> simp [hc]

/-- A text is found behind skipped bytes, if it does not start with one of them itself. -/
theorem afterText_eq_some_iff (skip : UInt8 → Bool) (text : CString) {rest after : CString} {c : UInt8}
    (hc : text.head? = some c) (hskip : skip c = false) :
    afterText skip text rest = some after ↔
      ∃ run, (∀ c ∈ run, skip c) ∧ rest = run ++ (text ++ after) := by
  rw [afterText]
  constructor
  · intro h
    split at h
    · next hpre =>
        obtain ⟨found, hfound⟩ := List.isPrefixOf_iff_prefix.1 hpre
        rw [← hfound, List.drop_left, Option.some.injEq] at h
        refine ⟨rest.takeWhile skip, fun c hc => List.mem_takeWhile_imp hc, ?_⟩
        rw [← h, hfound, List.takeWhile_append_dropWhile]
    · cases h
  · rintro ⟨run, hrun, rfl⟩
    obtain ⟨text, rfl⟩ := List.head?_eq_some_iff.1 hc
    have hdrop : (run ++ (c :: text ++ after)).dropWhile skip = c :: text ++ after := by
      rw [List.dropWhile_append_of_pos hrun, List.cons_append,
        List.dropWhile_cons_of_neg (by simp [hskip])]
    rw [hdrop, List.drop_left, if_pos (List.isPrefixOf_iff_prefix.2 (List.prefix_append _ _))]

theorem isEol_iff (c : UInt8) : isEol c ↔ c = '\r'.toUInt8 ∨ c = '\n'.toUInt8 := by
  have hr : '\r'.toUInt8 = 13 := by decide
  have hn : '\n'.toUInt8 = 10 := by decide
  simp [isEol, hr, hn, or_comm]

/-- A character of an id is neither a blank nor the end of a line. -/
theorem idChar_ne {c d : UInt8} (h : IsLetterOrDigit c ∨ IsMark c) (hd : d ∈ [32, 9, 10, 13]) :
    c ≠ d := by
  rintro rfl
  obtain rfl | rfl | rfl | rfl : c = 32 ∨ c = 9 ∨ c = 10 ∨ c = 13 := by simpa using hd
  all_goals
    revert h
    decide

theorem isblank_of_idChar {c : UInt8} (h : IsLetterOrDigit c ∨ IsMark c) : isblank c = false := by
  simp [isblank, idChar_ne h]

theorem isEol_of_idChar {c : UInt8} (h : IsLetterOrDigit c ∨ IsMark c) : isEol c = false := by
  simp [isEol, idChar_ne h]

theorem isEol_of_isblank {c : UInt8} (h : isblank c) : isEol c = false := by
  obtain rfl | rfl : c = 32 ∨ c = 9 := by simpa [isblank] using h
  all_goals decide

theorem IsIdText.idChar {id : CString} (h : IsIdText id) : ∀ c ∈ id, IsLetterOrDigit c ∨ IsMark c := by
  cases id with
  | nil => exact List.forall_mem_nil _
  | cons c id => exact List.forall_mem_cons.2 ⟨.inl h.1, h.2⟩

theorem IsIdText.ne_nil {id : CString} (h : IsIdText id) : id ≠ [] := by
  rintro rfl
  exact h

/-- The line is found by its end, and trimmed to the id. -/
theorem line_of_declared {blanks₃ blanks₄ id : CString} {eol : UInt8} (rest : CString)
    (h₃ : ∀ c ∈ blanks₃, isblank c) (h₄ : ∀ c ∈ blanks₄, isblank c) (hid : IsIdText id)
    (heol : isEol eol) :
    (blanks₃ ++ (id ++ (blanks₄ ++ eol :: rest))).dropWhile isblank = id ++ (blanks₄ ++ eol :: rest) ∧
      (id ++ (blanks₄ ++ eol :: rest)).takeWhile (fun c => !isEol c) = id ++ blanks₄ ∧
      (id ++ (blanks₄ ++ eol :: rest)).dropWhile (fun c => !isEol c) = eol :: rest ∧
      (id ++ blanks₄).rdropWhile isblank = id := by
  have hline : ∀ c ∈ id ++ blanks₄, (!isEol c) = true := by
    intro c hc
    rw [Bool.not_eq_true']
    obtain hc | hc := List.mem_append.1 hc
    · exact isEol_of_idChar (hid.idChar c hc)
    · exact isEol_of_isblank (h₄ c hc)
  refine ⟨?_, ?_, ?_, ?_⟩
  · rw [List.dropWhile_append_of_pos h₃]
    obtain ⟨c, cs, rfl⟩ := List.exists_cons_of_ne_nil hid.ne_nil
    have hc := isblank_of_idChar (hid.idChar c (List.mem_cons_self ..))
    rw [List.cons_append, List.dropWhile_cons_of_neg (by rw [hc]; exact Bool.false_ne_true)]
  · rw [← List.append_assoc, List.takeWhile_append_of_pos hline,
      List.takeWhile_cons_of_neg (by rw [heol]; exact Bool.false_ne_true), List.append_nil]
  · rw [← List.append_assoc, List.dropWhile_append_of_pos hline,
      List.dropWhile_cons_of_neg (by rw [heol]; exact Bool.false_ne_true)]
  · rw [List.rdropWhile, List.reverse_append,
      List.dropWhile_append_of_pos fun c hc => h₄ c (List.mem_reverse.1 hc), ← List.rdropWhile,
      List.rdropWhile_eq_self_iff]
    intro hne
    rw [isblank_of_idChar (hid.idChar _ (List.getLast_mem hne))]
    exact Bool.false_ne_true

theorem idOfLine_eq_some_iff {rest id : CString} :
    idOfLine rest = some id ↔
      ∃ blanks₃ blanks₄ eol after, rest = blanks₃ ++ (id ++ (blanks₄ ++ eol :: after)) ∧
        (∀ c ∈ blanks₃, isblank c) ∧ (∀ c ∈ blanks₄, isblank c) ∧ IsRuntimeId id ∧ isEol eol := by
  rw [idOfLine]
  constructor
  · intro h
    split at h
    · next hline =>
        obtain ⟨heol, hlen, hchars⟩ := hline
        rw [Option.some.injEq] at h
        obtain ⟨eol, after, hafter⟩ := List.exists_cons_of_ne_nil heol
        refine ⟨rest.takeWhile isblank,
          ((rest.dropWhile isblank).takeWhile fun c => !isEol c).rtakeWhile isblank, eol, after, ?_,
          fun c hc => List.mem_takeWhile_imp hc, fun c hc => List.mem_rtakeWhile_imp hc, ?_, ?_⟩
        · rw [← h, trimmedLine, ← List.append_assoc (List.rdropWhile _ _),
            List.rdropWhile_append_rtakeWhile, ← hafter, List.takeWhile_append_dropWhile,
            List.takeWhile_append_dropWhile]
        · rw [← h]
          exact ⟨(checkRuntimeId_iff _).1 hchars, Nat.le_of_lt_succ hlen⟩
        · have hstop := List.head_dropWhile_not (fun c => !isEol c) heol
          simpa [hafter] using hstop
    · cases h
  · rintro ⟨blanks₃, blanks₄, eol, after, rfl, h₃, h₄, hid, heol⟩
    obtain ⟨hstart, hline, hend, htrim⟩ := line_of_declared after h₃ h₄ hid.chars heol
    rw [trimmedLine, hstart, hline, hend, htrim,
      if_pos ⟨List.cons_ne_nil _ _, Nat.lt_succ_of_le hid.length_le,
        (checkRuntimeId_iff id).2 hid.chars⟩]

theorem declaredId_eq_some_iff {source id : CString} :
    declaredId source = some id ↔ Declares source id := by
  rw [declaredId, Declares]
  simp only [Option.bind_eq_some_iff, idOfLine_eq_some_iff, isEol_iff,
    afterText_eq_some_iff isspaceByte ['#'.toUInt8] rfl (by decide),
    afterText_eq_some_iff isblank containerWord rfl (by decide),
    afterText_eq_some_iff isblank [':'.toUInt8] rfl (by decide)]
  constructor
  · rintro ⟨_, ⟨spaces, hs, rfl⟩, _, ⟨blanks₁, h₁, rfl⟩, _, ⟨blanks₂, h₂, rfl⟩, blanks₃, blanks₄, eol,
      rest, rfl, h₃, h₄, hid, heol⟩
    exact ⟨spaces, blanks₁, blanks₂, blanks₃, blanks₄, eol, rest, rfl, hs, h₁, h₂, h₃, h₄, hid, heol⟩
  · rintro ⟨spaces, blanks₁, blanks₂, blanks₃, blanks₄, eol, rest, rfl, hs, h₁, h₂, h₃, h₄, hid, heol⟩
    exact ⟨_, ⟨spaces, hs, rfl⟩, _, ⟨blanks₁, h₁, rfl⟩, _, ⟨blanks₂, h₂, rfl⟩, blanks₃, blanks₄, eol,
      rest, rfl, h₃, h₄, hid, heol⟩

/-- The scanner returns the id that the source declares, raises an error if it declares none, and
    reads nothing behind the NUL. -/
theorem parseContainerMeta_grammar (source : Text) :
    (∀ id, parseContainerMeta source = .ok id ↔ Declares source.bytes id) ∧
      ((∃ e, parseContainerMeta source = .error (.raised e)) ↔ ∀ id, ¬ Declares source.bytes id) ∧
      parseContainerMeta source ≠ .error .outOfBounds := by
  have hscan := parseContainerMeta_scans source
  refine ⟨fun id => hscan.eq_ok_iff.trans declaredId_eq_some_iff, ?_, hscan.ne_outOfBounds⟩
  rw [hscan.raises_iff, Option.eq_none_iff_forall_ne_some]
  exact forall_congr' fun id => not_congr declaredId_eq_some_iff

end PlContainer
