import PlContainer.Library.Block
import PlContainer.Library.Checked
import Mathlib.Algebra.Group.Nat.Defs
import Mathlib.Data.List.DropRight

set_option autoImplicit false

/-! # Scanning and writing NUL-terminated texts

A C string is a block of bytes with no NUL before its last one. A scanner keeps an offset into it and
reads one byte at a time; a read past the NUL is a fault of its own kind. Each scanner is described by
the suffix that starts at its offset (`Text.At`): skipping is `dropWhile`, comparing is a test for an
initial part, trimming from the right is `rdropWhile`. `Scans` relates a scanner that may raise errors
to a partial function on suffixes, and says that it never faults.

A text is written through a pointer into a block of a fixed size (`Cursor`), where a write behind the
block is a fault. `Writes` says what the block starts with after a computation that never faults. -/

namespace CText

open Checked

/-- How a computation ends without a result: with an access outside its text or block, or with an error
    that it raises. -/
inductive ScanFault (ε : Type) where
  | outOfBounds
  | raised (e : ε)

/-- The bytes before the terminating NUL. -/
structure Text where
  bytes : List UInt8
  nulFree : 0 ∉ bytes

namespace Text

variable {ε : Type} (t : Text) (p : UInt8 → Bool)

/-- `strlen`. -/
def length : ℕ := t.bytes.length

/-- The byte at an offset; the NUL is the last one that can be read. -/
def read (i : ℕ) : Except (ScanFault ε) UInt8 :=
  if i < t.length then .ok (t.bytes.getD i 0) else if i = t.length then .ok 0 else .error .outOfBounds

/-- `while (i < len && p(s[i])) i++`. -/
def skipWhile (i : ℕ) : Except (ScanFault ε) ℕ :=
  if i < t.length then do
    let c ← t.read i
    if p c then skipWhile (i + 1) else pure i
  else pure i
termination_by t.length - i

/-- `strncmp(&s[i], text, strlen(text)) == 0`: the comparison ends at the first difference. -/
def matchesAt (i : ℕ) : List UInt8 → Except (ScanFault ε) Bool
  | [] => pure true
  | d :: ds => do
      let c ← t.read i
      if c = d then matchesAt (i + 1) ds else pure false

/-- `while (last >= first && p(s[last])) last--`, where `last` is `first + n - 1`: how many bytes are
    left. -/
def trimBack (first : ℕ) : ℕ → Except (ScanFault ε) ℕ
  | 0 => pure 0
  | n + 1 => do
      let c ← t.read (first + n)
      if p c then trimBack first n else pure (n + 1)

/-- `memcpy` of `n` bytes from an offset on. -/
def copy (i : ℕ) : ℕ → Except (ScanFault ε) (List UInt8)
  | 0 => pure []
  | n + 1 => do
      let c ← t.read i
      let cs ← copy (i + 1) n
      pure (c :: cs)

/-! ## Suffixes -/

/-- The bytes from an offset inside the text on. -/
def At (i : ℕ) (rest : List UInt8) : Prop := i ≤ t.length ∧ t.bytes.drop i = rest

variable {t p} {i : ℕ} {rest : List UInt8}

theorem at_zero (t : Text) : t.At 0 t.bytes := ⟨Nat.zero_le _, rfl⟩

theorem At.length_eq (h : t.At i rest) : i + rest.length = t.length := by
  obtain ⟨hi, rfl⟩ := h
  rw [List.length_drop]
  exact Nat.add_sub_of_le hi

theorem At.eq_nil_iff (h : t.At i rest) : rest = [] ↔ i = t.length := by
  rw [← List.length_eq_zero_iff, ← h.length_eq]
  omega

theorem At.append {l : List UInt8} (h : t.At i (l ++ rest)) : t.At (i + l.length) rest := by
  refine ⟨?_, ?_⟩
  · rw [← h.length_eq, List.length_append]
    omega
  · rw [← List.drop_drop, h.2, List.drop_left]

theorem At.tail {c : UInt8} (h : t.At i (c :: rest)) : t.At (i + 1) rest :=
  At.append (l := [c]) h

theorem At.dropWhile (h : t.At i rest) :
    t.At (i + (rest.takeWhile p).length) (rest.dropWhile p) :=
  At.append (by rwa [List.takeWhile_append_dropWhile])

/-- A read at the start of a suffix gives its first byte, the NUL if there is none. -/
theorem At.read_eq (h : t.At i rest) : t.read i = (.ok (rest.headD 0) : Except (ScanFault ε) _) := by
  cases rest with
  | nil => rw [read, h.eq_nil_iff.1 rfl, if_neg (Nat.lt_irrefl _), if_pos rfl, List.headD_nil]
  | cons c rest =>
      have hi : i < t.length := by
        rw [← h.length_eq, List.length_cons]
        omega
      rw [read, if_pos hi, List.headD_cons, List.getD_eq_getElem?_getD, ← List.head?_drop, h.2]
      rfl

/-! ## What the scanners find -/

theorem At.skipWhile_eq (h : t.At i rest) :
    t.skipWhile p i = (.ok (i + (rest.takeWhile p).length) : Except (ScanFault ε) _) := by
  induction rest generalizing i with
  | nil =>
      rw [skipWhile, if_neg (by rw [h.eq_nil_iff.1 rfl]; exact Nat.lt_irrefl _)]
      rfl
  | cons c rest ih =>
      have hi : i < t.length := by
        rw [← h.length_eq, List.length_cons]
        omega
      rw [skipWhile, if_pos hi, h.read_eq, ok_bind, List.headD_cons, List.takeWhile_cons]
      split
      · rw [ih h.tail, List.length_cons]
        congr 1
        omega
      · rfl

theorem At.matchesAt_eq {text : List UInt8} (h : t.At i rest) (htext : 0 ∉ text) :
    t.matchesAt i text = (.ok (text.isPrefixOf rest) : Except (ScanFault ε) _) := by
  induction text generalizing i rest with
  | nil => rfl
  | cons d text ih =>
      rw [List.mem_cons, not_or] at htext
      obtain ⟨hd, htext⟩ := htext
      rw [matchesAt, h.read_eq, ok_bind]
      cases rest with
      | nil =>
          rw [List.headD_nil, if_neg hd]
          rfl
      | cons c rest =>
          rw [List.headD_cons, List.isPrefixOf_cons_cons]
          by_cases hc : c = d
          · rw [if_pos hc, ih h.tail htext, hc, beq_self_eq_true, Bool.true_and]
          · rw [if_neg hc, beq_false_of_ne (Ne.symm hc), Bool.false_and]
            rfl

theorem At.trimBack_eq {l : List UInt8} (h : t.At i (l ++ rest)) :
    t.trimBack p i l.length = (.ok (l.rdropWhile p).length : Except (ScanFault ε) _) := by
  induction l using List.reverseRecOn generalizing rest with
  | nil => rfl
  | append_singleton l c ih =>
      rw [List.append_assoc] at h
      rw [List.length_append, List.length_singleton, trimBack, h.append.read_eq, ok_bind,
        List.cons_append, List.headD_cons]
      by_cases hc : p c
      · rw [if_pos hc, ih h, List.rdropWhile_concat_pos p l c hc]
      · rw [if_neg hc, List.rdropWhile_concat_neg p l c hc, List.length_append,
          List.length_singleton]
        rfl

theorem At.copy_eq {l : List UInt8} (h : t.At i (l ++ rest)) :
    t.copy i l.length = (.ok l : Except (ScanFault ε) _) := by
  induction l generalizing i with
  | nil => rfl
  | cons c l ih =>
      rw [List.cons_append] at h
      rw [List.length_cons, copy, h.read_eq, ok_bind, ih h.tail, ok_bind, List.headD_cons]
      rfl

end Text

/-! ## Scanners that raise errors -/

section Scans

variable {ε α β γ δ : Type}

/-- The scanner `x` returns a value related to what is there, and raises an error if nothing is. -/
def Scans (R : α → β → Prop) (x : Except (ScanFault ε) α) (o : Option β) : Prop :=
  (∃ a b, x = .ok a ∧ o = some b ∧ R a b) ∨ (o = none ∧ ∃ e, x = .error (.raised e))

theorem Scans.ok {R : α → β → Prop} {a : α} {b : β} (h : R a b) :
    Scans R (.ok a : Except (ScanFault ε) α) (some b) := .inl ⟨a, b, rfl, rfl, h⟩

theorem Scans.raise {R : α → β → Prop} (e : ε) : Scans R (.error (.raised e)) none :=
  .inr ⟨rfl, e, rfl⟩

/-- Two scanners after each other. -/
theorem Scans.bind {R : α → β → Prop} {S : γ → δ → Prop} {x : Except (ScanFault ε) α} {o : Option β}
    {f : α → Except (ScanFault ε) γ} {g : β → Option δ} (h : Scans R x o)
    (hf : ∀ a b, R a b → Scans S (f a) (g b)) : Scans S (x >>= f) (o.bind g) := by
  obtain ⟨a, b, rfl, rfl, hab⟩ | ⟨rfl, e, rfl⟩ := h
  · exact hf a b hab
  · exact .raise e

theorem Scans.eq_ok_iff {x : Except (ScanFault ε) α} {o : Option α} (h : Scans Eq x o) {a : α} :
    x = .ok a ↔ o = some a := by
  obtain ⟨_, b, rfl, rfl, rfl⟩ | ⟨rfl, e, rfl⟩ := h
  · rw [Except.ok.injEq, Option.some.injEq]
  · exact iff_of_false (by rintro ⟨⟩) (by rintro ⟨⟩)

theorem Scans.raises_iff {R : α → β → Prop} {x : Except (ScanFault ε) α} {o : Option β}
    (h : Scans R x o) : (∃ e, x = .error (.raised e)) ↔ o = none := by
  obtain ⟨_, b, rfl, rfl, -⟩ | ⟨rfl, e, rfl⟩ := h
  · exact iff_of_false (by rintro ⟨e, ⟨⟩⟩) (by rintro ⟨⟩)
  · exact iff_of_true ⟨e, rfl⟩ rfl

theorem Scans.ne_outOfBounds {R : α → β → Prop} {x : Except (ScanFault ε) α} {o : Option β}
    (h : Scans R x o) : x ≠ .error .outOfBounds := by
  obtain ⟨_, b, rfl, -, -⟩ | ⟨-, e, rfl⟩ := h <;> rintro ⟨⟩

end Scans

/-! ## Writing into a block -/

/-- A block of memory and an offset into it, which may also be behind its end. -/
structure Cursor where
  block : List UInt8
  pos : ℕ

/-- `INT_MAX` -/
def intMax : ℕ := 2 ^ 31 - 1

/-- What `snprintf` returns for a text: its length, if this is an `int`. -/
def printedLength (text : List UInt8) : ℤ := if text.length ≤ intMax then text.length else -1

namespace Cursor

variable {ε : Type}

/-- `*p++ = c` -/
def put (c : UInt8) (out : Cursor) : Except (ScanFault ε) Cursor :=
  if out.pos < out.block.length then .ok ⟨Block.overwrite out.block out.pos [c], out.pos + 1⟩
  else .error .outOfBounds

/-- What `snprintf` writes for a text into `size` bytes. -/
def printed (size : ℕ) (text : List UInt8) : List UInt8 :=
  if size = 0 then [] else text.take (size - 1) ++ [0]

/-- `snprintf(p, size, …)`, where the text is what is printed: the block and the value returned. -/
def snprintf (size : ℕ) (text : List UInt8) (out : Cursor) :
    Except (ScanFault ε) (List UInt8 × ℤ) :=
  if out.pos + (printed size text).length ≤ out.block.length then
    .ok (Block.overwrite out.block out.pos (printed size text), printedLength text)
  else .error .outOfBounds

/-- `p += snprintf(p, size - (p - block), …)`. The difference of sizes wraps around. -/
def print (size : ℕ) (text : List UInt8) (out : Cursor) : Except (ScanFault ε) Cursor := do
  let room := if out.pos ≤ size then size - out.pos else size + 2 ^ 64 - out.pos
  let (block, plen) ← out.snprintf room text
  pure ⟨block, (out.pos + plen).toNat⟩

/-- The block has `size` bytes, the text stands at its start and the offset is behind it. -/
structure Wrote (size : ℕ) (text : List UInt8) (out : Cursor) : Prop where
  length_block : out.block.length = size
  pos_eq : out.pos = text.length
  start : Block.slice out.block 0 text.length = text

/-- A computation that ends with the text written. -/
def Writes (size : ℕ) (text : List UInt8) (x : Except (ScanFault ε) Cursor) : Prop :=
  ∃ out, x = .ok out ∧ Wrote size text out

variable {size : ℕ} {text : List UInt8} {out : Cursor}

theorem Writes.bind {text' : List UInt8} {x : Except (ScanFault ε) Cursor}
    {f : Cursor → Except (ScanFault ε) Cursor} (h : Writes size text x)
    (hf : ∀ out, Wrote size text out → Writes size text' (f out)) : Writes size text' (x >>= f) := by
  obtain ⟨out, rfl, hout⟩ := h
  exact hf out hout

theorem wrote_nil {block : List UInt8} (h : block.length = size) : Wrote size [] ⟨block, 0⟩ :=
  ⟨h, rfl, Block.slice_zero ..⟩

/-- Bytes stored at the offset, of which the first ones count. -/
theorem Wrote.overwrite (h : Wrote size text out) (bs rest : List UInt8)
    (hroom : text.length + (bs ++ rest).length ≤ size) {pos : ℕ} (hpos : pos = out.pos + bs.length) :
    Wrote size (text ++ bs) ⟨Block.overwrite out.block out.pos (bs ++ rest), pos⟩ := by
  have hlen : out.pos + (bs ++ rest).length ≤ out.block.length := by
    rw [h.pos_eq, h.length_block]
    exact hroom
  refine ⟨?_, ?_, ?_⟩
  · rw [Block.overwrite_length hlen, h.length_block]
  · rw [hpos, h.pos_eq, List.length_append]
  · have hall : Block.slice (Block.overwrite out.block (0 + text.length) (bs ++ rest)) 0
        (text.length + (bs ++ rest).length) = Block.slice out.block 0 text.length ++ (bs ++ rest) :=
      Block.slice_overwrite_append (by rw [Nat.zero_add, h.length_block]; omega)
    have hcut := congrArg (List.take (text.length + bs.length)) hall
    rw [Block.take_slice _ _ (by rw [List.length_append]; omega), h.start, Nat.zero_add,
      ← List.append_assoc, ← List.length_append, List.take_left] at hcut
    rw [h.pos_eq, hcut]

theorem Wrote.put (h : Wrote size text out) (hroom : text.length < size) (c : UInt8) :
    Writes size (text ++ [c]) (out.put c : Except (ScanFault ε) Cursor) := by
  refine ⟨_, if_pos ?_, h.overwrite [c] [] ?_ rfl⟩
  · rw [h.pos_eq, h.length_block]
    exact hroom
  · rw [List.append_nil, List.length_singleton]
    exact hroom

/-- With room for the text and the NUL, all of it is printed. The limit may be larger than the
    block. -/
theorem snprintf_eq_ok {printed : List UInt8} {room : ℕ} (hroom : printed.length < room)
    (hsize : out.pos + printed.length < out.block.length) :
    (out.snprintf room printed : Except (ScanFault ε) _) =
      .ok (Block.overwrite out.block out.pos (printed ++ [0]), printedLength printed) := by
  have hprinted : Cursor.printed room printed = printed ++ [0] := by
    rw [Cursor.printed, if_neg (by omega), List.take_of_length_le (by omega)]
  rw [Cursor.snprintf, hprinted, if_pos]
  rw [List.length_append, List.length_singleton]
  exact hsize

theorem Wrote.print (h : Wrote size text out) {printed : List UInt8}
    (hroom : text.length + printed.length < size) (hint : printed.length ≤ intMax) :
    Writes size (text ++ printed) (out.print size printed : Except (ScanFault ε) Cursor) := by
  have hpos : out.pos ≤ size := by
    rw [h.pos_eq]
    omega
  rw [Cursor.print, if_pos hpos]
  rw [snprintf_eq_ok (by rw [h.pos_eq]; omega) (by rw [h.pos_eq, h.length_block]; omega)]
  refine ⟨_, rfl, h.overwrite printed [0] ?_ ?_⟩
  · rw [List.length_append, List.length_singleton]
    omega
  · rw [printedLength, if_pos hint]
    omega

end Cursor

/-! ## Strings in blocks

`strlen` and `strcat` look for the NUL of the string at the start of a block. -/

section Strings

variable {ε : Type}

/-- No access is outside the text or block. -/
def StaysInside {α : Type} (x : Except (ScanFault ε) α) : Prop := x ≠ .error .outOfBounds

/-- `strlen`, where the NUL has to be inside the block. -/
def strlen (block : List UInt8) : Except (ScanFault ε) ℕ :=
  if 0 ∈ block then .ok (block.takeWhile (· ≠ 0)).length else .error .outOfBounds

/-- `strcat`: the text and a NUL are written over the NUL of the string in the block. -/
def strcat (text block : List UInt8) : Except (ScanFault ε) (List UInt8) := do
  let n ← strlen block
  if n + (text.length + 1) ≤ block.length then .ok (Block.overwrite block n (text ++ [0]))
  else .error .outOfBounds

/-- `strdup` -/
def strdup (t : Text) : List UInt8 := t.bytes ++ [0]

/-- `realloc`; what is new in the block is what the memory contains. -/
def realloc (memory : ℕ → UInt8) (size : ℕ) (block : List UInt8) : List UInt8 :=
  (List.range size).map fun i => block.getD i (memory i)

/-- The string at the start of the block. -/
structure HoldsText (text block : List UInt8) : Prop where
  nulFree : 0 ∉ text
  start : ∃ rest, block = text ++ 0 :: rest

variable {text block : List UInt8}

theorem holdsText_strdup (t : Text) : HoldsText t.bytes (strdup t) := ⟨t.nulFree, [], rfl⟩

theorem holdsText_of_mem (h : 0 ∈ block) : HoldsText (block.takeWhile (· ≠ 0)) block := by
  induction block with
  | nil => simp at h
  | cons c block ih =>
      by_cases hc : c = 0
      · rw [hc, List.takeWhile_cons_of_neg (by simp)]
        exact ⟨List.not_mem_nil, block, rfl⟩
      · obtain ⟨hfree, rest, hrest⟩ := ih ((List.mem_cons.1 h).resolve_left (Ne.symm hc))
        rw [List.takeWhile_cons_of_pos (by simpa using hc)]
        refine ⟨?_, rest, congrArg (c :: ·) hrest⟩
        rw [List.mem_cons]
        exact fun hmem => hmem.elim (Ne.symm hc) hfree

theorem HoldsText.takeWhile (h : HoldsText text block) : block.takeWhile (· ≠ 0) = text := by
  obtain ⟨rest, rfl⟩ := h.start
  rw [List.takeWhile_append_of_pos fun c hc => ?_, List.takeWhile_cons_of_neg (by simp),
    List.append_nil]
  exact decide_eq_true fun hzero => h.nulFree (hzero ▸ hc)

theorem HoldsText.strlen (h : HoldsText text block) :
    (CText.strlen block : Except (ScanFault ε) ℕ) = .ok text.length := by
  obtain ⟨rest, hrest⟩ := h.start
  rw [CText.strlen, if_pos (by simp [hrest]), h.takeWhile]

theorem HoldsText.strcat (h : HoldsText text block) {t : Text}
    (hroom : text.length + t.length < block.length) :
    ∃ block', (CText.strcat t.bytes block : Except (ScanFault ε) _) = .ok block' ∧
      HoldsText (text ++ t.bytes) block' ∧ block'.length = block.length := by
  have hfit : text.length + (t.bytes ++ [0]).length ≤ block.length := by
    rw [List.length_append, List.length_singleton]
    exact hroom
  refine ⟨_, ?_, ⟨?_, ?_⟩, Block.overwrite_length hfit⟩
  · rw [List.length_append, List.length_singleton] at hfit
    rw [CText.strcat, h.strlen, ok_bind, if_pos hfit]
  · rw [List.mem_append]
    exact fun hmem => hmem.elim h.nulFree t.nulFree
  · obtain ⟨rest, rfl⟩ := h.start
    refine ⟨rest.drop t.bytes.length, ?_⟩
    rw [Block.overwrite, List.take_left]
    simp

/-- Without room for the text and the NUL, `strcat` writes behind the block. -/
theorem HoldsText.strcat_outOfBounds (h : HoldsText text block) {t : Text}
    (hroom : block.length ≤ text.length + t.length) :
    (CText.strcat t.bytes block : Except (ScanFault ε) _) = .error .outOfBounds := by
  rw [CText.strcat, h.strlen, ok_bind, if_neg]
  have hlength : t.bytes.length = t.length := rfl
  omega

theorem length_realloc (memory : ℕ → UInt8) (size : ℕ) (block : List UInt8) :
    (realloc memory size block).length = size := by
  rw [realloc, List.length_map, List.length_range]

/-- A new block that is large enough has the bytes of the old one. -/
theorem realloc_append (memory : ℕ → UInt8) {start : List UInt8} (rest : List UInt8) {size : ℕ}
    (h : start.length ≤ size) :
    ∃ rest', realloc memory size (start ++ rest) = start ++ rest' := by
  refine ⟨(realloc memory size (start ++ rest)).drop start.length, ?_⟩
  conv_lhs => rw [← List.take_append_drop start.length (realloc memory size (start ++ rest))]
  congr 1
  refine List.ext_getElem (by rw [List.length_take, length_realloc]; omega) fun i hi hi' => ?_
  simp [realloc, List.getElem?_append_left hi', List.getElem?_eq_getElem hi']

theorem HoldsText.realloc (h : HoldsText text block) (memory : ℕ → UInt8) {size : ℕ}
    (hsize : text.length < size) : HoldsText text (CText.realloc memory size block) := by
  obtain ⟨rest, rfl⟩ := h.start
  have hstart : (text ++ [0]).length ≤ size := by
    rw [List.length_append, List.length_singleton]
    exact hsize
  obtain ⟨rest', hrest'⟩ := realloc_append memory rest hstart
  refine ⟨h.nulFree, rest', ?_⟩
  simpa using hrest'

/-- Without its NUL there is no string in the block. -/
theorem HoldsText.realloc_short (h : HoldsText text block) (memory : ℕ → UInt8) :
    (CText.strlen (CText.realloc memory text.length block) : Except (ScanFault ε) ℕ) =
      .error .outOfBounds := by
  obtain ⟨rest, rfl⟩ := h.start
  obtain ⟨rest', hrest'⟩ := realloc_append memory (0 :: rest) (Nat.le_refl text.length)
  have hnil : rest' = [] := by
    have hlength := congrArg List.length hrest'
    rw [length_realloc, List.length_append] at hlength
    exact List.eq_nil_of_length_eq_zero (by omega)
  rw [hrest', hnil, List.append_nil, CText.strlen, if_neg h.nulFree]

end Strings

end CText
