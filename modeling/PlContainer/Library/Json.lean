import Mathlib.Data.List.Basic
import Mathlib.Data.Nat.Digits.Defs

set_option autoImplicit false

/-! # JSON texts

What a JSON text says, for proofs about texts that are pasted together. The grammar works on tokens, so
it is given by the tokens of a value, which determine it (`Value.tokens_inj`). The tokens of a text are
found by an automaton that reads one character after the other: what it does with a text is made of what
it does with the parts (`lex_append`), whatever the borders of the parts are. -/

namespace Json

/-! ## Values -/

/-- A value. Numbers and the names `true`, `false` and `null` are kept as they are written, and the
    members of an object in the order of the text. -/
inductive Value where
  | lit (w : List Char)
  | str (s : List Char)
  | arr (elems : List Value)
  | obj (members : List (List Char × Value))

inductive Token where
  | punct (c : Char)
  | str (s : List Char)
  | lit (w : List Char)
deriving DecidableEq, Repr

mutual

def Value.tokens : Value → List Token
  | .lit w => [.lit w]
  | .str s => [.str s]
  | .arr elems => .punct '[' :: (elemTokens elems ++ [.punct ']'])
  | .obj members => .punct '{' :: (memberTokens members ++ [.punct '}'])

def elemTokens : List Value → List Token
  | [] => []
  | v :: vs => v.tokens ++ moreElems vs

/-- The elements after the first. -/
def moreElems : List Value → List Token
  | [] => []
  | v :: vs => .punct ',' :: (v.tokens ++ moreElems vs)

def memberTokens : List (List Char × Value) → List Token
  | [] => []
  | (key, v) :: ms => .str key :: .punct ':' :: (v.tokens ++ moreMembers ms)

/-- The members after the first. -/
def moreMembers : List (List Char × Value) → List Token
  | [] => []
  | (key, v) :: ms => .punct ',' :: .str key :: .punct ':' :: (v.tokens ++ moreMembers ms)

end

mutual

/-- The keys in a value, each with the keys that lead to it. -/
def Value.keyPaths : Value → List (List (List Char))
  | .lit _ | .str _ => []
  | .arr elems => elemPaths elems
  | .obj members => memberPaths members

def elemPaths : List Value → List (List (List Char))
  | [] => []
  | v :: vs => v.keyPaths ++ elemPaths vs

def memberPaths : List (List Char × Value) → List (List (List Char))
  | [] => []
  | (key, v) :: ms => [key] :: (v.keyPaths.map (key :: ·) ++ memberPaths ms)

end

theorem elemPaths_strings (ws : List (List Char)) : elemPaths (ws.map .str) = [] := by
  induction ws with
  | nil => rfl
  | cons w ws ih => rw [List.map_cons, elemPaths, ih, Value.keyPaths, List.append_nil]

theorem memberPaths_append (ms ms' : List (List Char × Value)) :
    memberPaths (ms ++ ms') = memberPaths ms ++ memberPaths ms' := by
  induction ms with
  | nil => rfl
  | cons m ms ih => simp [memberPaths, ih]

/-- The members with a comma behind each. -/
def commaMembers (ms : List (List Char × Value)) : List Token :=
  ms.flatMap fun m => .str m.1 :: .punct ':' :: (m.2.tokens ++ [.punct ','])

theorem moreMembers_append (ms ms' : List (List Char × Value)) :
    moreMembers (ms ++ ms') = moreMembers ms ++ moreMembers ms' := by
  induction ms with
  | nil => rfl
  | cons m ms ih => simp [moreMembers, ih]

/-- The commas may be counted behind the members instead of before them. -/
theorem moreMembers_comma (ms : List (List Char × Value)) (ts : List Token) :
    moreMembers ms ++ .punct ',' :: ts = .punct ',' :: (commaMembers ms ++ ts) := by
  induction ms generalizing ts with
  | nil => rfl
  | cons m ms ih => simp [moreMembers, commaMembers, ih]

/-- The token that a list of elements or members ends with does not begin a value. -/
theorem Value.tokens_ne_close (v : Value) (r r' : List Token) {c : Char} (hc : c = ']' ∨ c = '}') :
    v.tokens ++ r ≠ .punct c :: r' := by
  rcases hc with rfl | rfl <;> cases v <;> simp [Value.tokens]

mutual

/-- The tokens of a value determine it, whatever follows. -/
theorem Value.tokens_inj (v v' : Value) (r r' : List Token) (h : v.tokens ++ r = v'.tokens ++ r') :
    v = v' ∧ r = r' := by
  match v, v' with
  | .lit w, .lit w' => simpa [Value.tokens] using h
  | .str s, .str s' => simpa [Value.tokens] using h
  | .arr elems, .arr elems' =>
      obtain ⟨rfl, rfl⟩ := elemTokens_inj elems elems' r r' (by simpa [Value.tokens] using h)
      exact ⟨rfl, rfl⟩
  | .obj members, .obj members' =>
      obtain ⟨rfl, rfl⟩ := memberTokens_inj members members' r r' (by simpa [Value.tokens] using h)
      exact ⟨rfl, rfl⟩
  | .lit _, .str _ | .lit _, .arr _ | .lit _, .obj _ | .str _, .lit _ | .str _, .arr _
  | .str _, .obj _ | .arr _, .lit _ | .arr _, .str _ | .arr _, .obj _ | .obj _, .lit _
  | .obj _, .str _ | .obj _, .arr _ => simp [Value.tokens] at h

theorem elemTokens_inj (vs vs' : List Value) (r r' : List Token)
    (h : elemTokens vs ++ .punct ']' :: r = elemTokens vs' ++ .punct ']' :: r') :
    vs = vs' ∧ r = r' := by
  match vs, vs' with
  | [], [] => simpa [elemTokens] using h
  | [], v' :: vs' =>
      rw [elemTokens, elemTokens, List.append_assoc] at h
      exact absurd h.symm (v'.tokens_ne_close _ _ (.inl rfl))
  | v :: vs, [] =>
      rw [elemTokens, elemTokens, List.append_assoc] at h
      exact absurd h (v.tokens_ne_close _ _ (.inl rfl))
  | v :: vs, v' :: vs' =>
      rw [elemTokens, elemTokens, List.append_assoc, List.append_assoc] at h
      obtain ⟨rfl, hmore⟩ := Value.tokens_inj v v' _ _ h
      obtain ⟨rfl, rfl⟩ := moreElems_inj vs vs' r r' hmore
      exact ⟨rfl, rfl⟩

theorem moreElems_inj (vs vs' : List Value) (r r' : List Token)
    (h : moreElems vs ++ .punct ']' :: r = moreElems vs' ++ .punct ']' :: r') :
    vs = vs' ∧ r = r' := by
  match vs, vs' with
  | [], [] => simpa [moreElems] using h
  | [], v' :: vs' => simp [moreElems] at h
  | v :: vs, [] => simp [moreElems] at h
  | v :: vs, v' :: vs' =>
      simp only [moreElems, List.cons_append, List.append_assoc, List.cons.injEq, true_and] at h
      obtain ⟨rfl, hmore⟩ := Value.tokens_inj v v' _ _ h
      obtain ⟨rfl, rfl⟩ := moreElems_inj vs vs' r r' hmore
      exact ⟨rfl, rfl⟩

theorem memberTokens_inj (ms ms' : List (List Char × Value)) (r r' : List Token)
    (h : memberTokens ms ++ .punct '}' :: r = memberTokens ms' ++ .punct '}' :: r') :
    ms = ms' ∧ r = r' := by
  match ms, ms' with
  | [], [] => simpa [memberTokens] using h
  | [], (_, _) :: _ => simp [memberTokens] at h
  | (_, _) :: _, [] => simp [memberTokens] at h
  | (key, v) :: ms, (key', v') :: ms' =>
      simp only [memberTokens, List.cons_append, List.append_assoc, List.cons.injEq, Token.str.injEq,
        true_and] at h
      obtain ⟨rfl, h⟩ := h
      obtain ⟨rfl, hmore⟩ := Value.tokens_inj v v' _ _ h
      obtain ⟨rfl, rfl⟩ := moreMembers_inj ms ms' r r' hmore
      exact ⟨rfl, rfl⟩

theorem moreMembers_inj (ms ms' : List (List Char × Value)) (r r' : List Token)
    (h : moreMembers ms ++ .punct '}' :: r = moreMembers ms' ++ .punct '}' :: r') :
    ms = ms' ∧ r = r' := by
  match ms, ms' with
  | [], [] => simpa [moreMembers] using h
  | [], (_, _) :: _ => simp [moreMembers] at h
  | (_, _) :: _, [] => simp [moreMembers] at h
  | (key, v) :: ms, (key', v') :: ms' =>
      simp only [moreMembers, List.cons_append, List.append_assoc, List.cons.injEq, Token.str.injEq,
        true_and] at h
      obtain ⟨rfl, h⟩ := h
      obtain ⟨rfl, hmore⟩ := Value.tokens_inj v v' _ _ h
      obtain ⟨rfl, rfl⟩ := moreMembers_inj ms ms' r r' hmore
      exact ⟨rfl, rfl⟩

end

/-! ## Words -/

/-- The characters of numbers and names. -/
def isWordChar (c : Char) : Bool := c.isAlphanum || c ∈ ['-', '+', '.']

/-- The part of a number from its exponent on. -/
def isExponent : List Char → Bool
  | [] => true
  | e :: w =>
      let digits := match w with
        | '-' :: w | '+' :: w => w
        | w => w
      (e = 'e' || e = 'E') && !digits.isEmpty && digits.all Char.isDigit

/-- The part of a number from its decimal point on. -/
def isFraction : List Char → Bool
  | '.' :: w => !(w.takeWhile Char.isDigit).isEmpty && isExponent (w.dropWhile Char.isDigit)
  | w => isExponent w

/-- A number without its sign. -/
def isUnsigned (w : List Char) : Bool :=
  let digits := w.takeWhile Char.isDigit
  (digits = ['0'] || (!digits.isEmpty && digits.head? ≠ some '0'))
    && isFraction (w.dropWhile Char.isDigit)

def isNumber : List Char → Bool
  | '-' :: w => isUnsigned w
  | w => isUnsigned w

def isLit (w : List Char) : Bool :=
  w = "true".toList || w = "false".toList || w = "null".toList || isNumber w

/-! ## Tokens of a text -/

/-- Where the automaton is: between tokens, in a word, or in a string with the text decoded so far, there
    possibly in an escape sequence. -/
inductive State where
  | between
  | word (w : List Char)
  | string (s : List Char)
  | escape (s : List Char)
  /-- in the digits after `\u`; `high` is the first half of a surrogate pair -/
  | hex (s : List Char) (high : Option ℕ) (digits : List Char)
  /-- between the two halves of a surrogate pair -/
  | surrogate (s : List Char) (high : ℕ)
  | surrogateEscape (s : List Char) (high : ℕ)
deriving DecidableEq, Repr

/-- The characters that stand for themselves in a string. -/
def isPlain (c : Char) : Bool := 0x20 ≤ c.toNat && c ≠ '"' && c ≠ '\\'

/-- The escapes of one character. -/
def unescape (c : Char) : Option Char :=
  if c = '"' ∨ c = '\\' ∨ c = '/' then some c
  else if c = 'b' then some '\x08'
  else if c = 'f' then some '\x0c'
  else if c = 'n' then some '\n'
  else if c = 'r' then some '\r'
  else if c = 't' then some '\t'
  else none

def hexDigit (c : Char) : Option ℕ :=
  if c.isDigit then some (c.toNat - '0'.toNat)
  else if 'a' ≤ c ∧ c ≤ 'f' then some (c.toNat - 'a'.toNat + 10)
  else if 'A' ≤ c ∧ c ≤ 'F' then some (c.toNat - 'A'.toNat + 10)
  else none

def ofHex (digits : List Char) : ℕ := digits.foldl (fun n c => 16 * n + (hexDigit c).getD 0) 0

/-- The state after the fourth digit. -/
def closeHex (s : List Char) (high : Option ℕ) (n : ℕ) : Option State :=
  let isHigh : Bool := 0xd800 ≤ n && n < 0xdc00
  let isLow : Bool := 0xdc00 ≤ n && n < 0xe000
  match high with
  | none =>
      if isHigh then some (.surrogate s n)
      else if isLow then none
      else some (.string (s ++ [Char.ofNat n]))
  | some high =>
      if isLow then
        some (.string (s ++ [Char.ofNat (0x10000 + (high - 0xd800) * 0x400 + (n - 0xdc00))]))
      else none

/-- A character between tokens. -/
def stepBetween (c : Char) : List Token × Option State :=
  if c ∈ [' ', '\t', '\n', '\r'] then ([], some .between)
  else if c ∈ ['{', '}', '[', ']', ':', ','] then ([.punct c], some .between)
  else if c = '"' then ([], some (.string []))
  else if isWordChar c then ([], some (.word [c]))
  else ([], none)

/-- One character: the tokens that it completes, and the next state; `none` is an error. -/
def step : State → Char → List Token × Option State
  | .between, c => stepBetween c
  | .word w, c =>
      if isWordChar c then ([], some (.word (w ++ [c])))
      else if isLit w then (.lit w :: (stepBetween c).1, (stepBetween c).2)
      else ([], none)
  | .string s, c =>
      if c = '"' then ([.str s], some .between)
      else if c = '\\' then ([], some (.escape s))
      else if isPlain c then ([], some (.string (s ++ [c])))
      else ([], none)
  | .escape s, c =>
      if c = 'u' then ([], some (.hex s none []))
      else ([], (unescape c).map fun d => .string (s ++ [d]))
  | .hex s high digits, c =>
      if (hexDigit c).isNone then ([], none)
      else if digits.length < 3 then ([], some (.hex s high (digits ++ [c])))
      else ([], closeHex s high (ofHex (digits ++ [c])))
  | .surrogate s high, c => ([], if c = '\\' then some (.surrogateEscape s high) else none)
  | .surrogateEscape s high, c => ([], if c = 'u' then some (.hex s (some high) []) else none)

/-- The tokens of a text up to the first error, and the state at its end. -/
def lex : State → List Char → List Token × Option State
  | q, [] => ([], some q)
  | q, c :: cs =>
      match step q c with
      | (ts, none) => (ts, none)
      | (ts, some q') => (ts ++ (lex q' cs).1, (lex q' cs).2)

theorem lex_append (q : State) (a b : List Char) :
    lex q (a ++ b) =
      match lex q a with
      | (ts, none) => (ts, none)
      | (ts, some q') => (ts ++ (lex q' b).1, (lex q' b).2) := by
  induction a generalizing q with
  | nil => simp [lex]
  | cons c a ih =>
      rw [List.cons_append, lex, lex]
      rcases step q c with ⟨ts, _ | q'⟩
      · rfl
      · simp only [ih q']
        rcases lex q' a with ⟨ts', _ | q''⟩
        · rfl
        · simp

/-- The tokens of a whole text. -/
def tokenize (text : List Char) : Option (List Token) :=
  match lex .between text with
  | (ts, some .between) => some ts
  | (ts, some (.word w)) => if isLit w then some (ts ++ [.lit w]) else none
  | _ => none

/-- The UTF-8 encoding of a text. -/
def utf8 (text : List Char) : List UInt8 := text.flatMap String.utf8EncodeChar

/-- The bytes are a JSON text for the value. -/
def Denotes (bytes : List UInt8) (v : Value) : Prop :=
  ∃ text, utf8 text = bytes ∧ tokenize text = some v.tokens

/-! ## The encoding -/

/-- The bytes of a string are as many as it says. -/
theorem length_utf8_toList (s : String) : (utf8 s.toList).length = s.utf8ByteSize := by
  have hsize : s.toList.utf8Encode.size = s.utf8ByteSize := by
    rw [String.utf8Encode_toList]
    rfl
  rw [← hsize, List.utf8Encode, List.size_toByteArray]
  rfl

theorem utf8_append (a b : List Char) : utf8 (a ++ b) = utf8 a ++ utf8 b := List.flatMap_append

theorem utf8EncodeChar_append_inj {c d : Char} {a b : List UInt8}
    (h : String.utf8EncodeChar c ++ a = String.utf8EncodeChar d ++ b) : c = d := by
  have hc := ByteArray.utf8DecodeChar?_utf8EncodeChar_append (c := c) (b := a.toByteArray)
  have hd := ByteArray.utf8DecodeChar?_utf8EncodeChar_append (c := d) (b := b.toByteArray)
  rw [← List.toByteArray_append, h, List.toByteArray_append, hd] at hc
  exact (Option.some.inj hc).symm

/-- A text whose encoding begins with that of another begins with the other. -/
theorem utf8_prefix {a b : List Char} {r : List UInt8} (h : utf8 a ++ r = utf8 b) :
    ∃ c, b = a ++ c ∧ utf8 c = r := by
  induction a generalizing b with
  | nil => exact ⟨b, rfl, h.symm⟩
  | cons x a ih =>
      cases b with
      | nil =>
          have hempty := List.append_eq_nil_iff.1 (List.append_eq_nil_iff.1 h).1
          exact absurd hempty.1 String.utf8EncodeChar_ne_nil
      | cons y b =>
          rw [utf8, utf8, List.flatMap_cons, List.flatMap_cons, List.append_assoc] at h
          obtain rfl := utf8EncodeChar_append_inj h
          obtain ⟨c, rfl, hc⟩ := ih (List.append_cancel_left h)
          exact ⟨c, rfl, hc⟩

theorem utf8_injective {a b : List Char} (h : utf8 a = utf8 b) : a = b := by
  obtain ⟨c, rfl, hc⟩ := utf8_prefix ((List.append_nil _).trans h)
  cases c with
  | nil => exact (List.append_nil a).symm
  | cons x c => exact absurd (List.append_eq_nil_iff.1 hc).1 String.utf8EncodeChar_ne_nil

/-- A text says one thing. -/
theorem Denotes.unique {bytes : List UInt8} {v v' : Value} (h : Denotes bytes v)
    (h' : Denotes bytes v') : v = v' := by
  obtain ⟨text, rfl, htext⟩ := h
  obtain ⟨text', hbytes, htext'⟩ := h'
  obtain rfl := utf8_injective hbytes
  rw [htext, Option.some.injEq] at htext'
  exact (Value.tokens_inj v v' [] [] (by rw [htext'])).1

end Json
