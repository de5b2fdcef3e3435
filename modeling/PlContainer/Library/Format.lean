import PlContainer.Library.Json

set_option autoImplicit false

/-! # Format strings

What `snprintf` prints. A format string is given by its parts, and the arguments by the texts that they
are converted to. -/

namespace Format

/-- A part of a format string: a text, or the conversion of an argument. -/
inductive Part where
  | lit (text : String)
  | arg (spec : String)

/-- The format string with its arguments; `enc` says how its own texts are written. -/
def fill {β : Type} (enc : List Char → List β) : List Part → List (List β) → List β
  | [], _ => []
  | .lit text :: format, args => enc text.toList ++ fill enc format args
  | .arg _ :: format, arg :: args => arg ++ fill enc format args
  | .arg _ :: _, [] => []

/-- The text that is printed for texts. -/
def text (format : List Part) (args : List (List Char)) : List Char := fill id format args

/-- The bytes that are printed if there is room for them. -/
def sprintf (format : List Part) (args : List (List UInt8)) : List UInt8 := fill Json.utf8 format args

/-- What is printed into a buffer of `size` bytes, without the closing NUL. -/
def snprintf (size : ℕ) (format : List Part) (args : List (List UInt8)) : List UInt8 :=
  (sprintf format args).take (size - 1)

/-- The length of the format string itself. -/
def formatLength (format : List Part) : ℕ :=
  (format.map fun
    | .lit text => (Json.utf8 text.toList).length
    | .arg spec => (Json.utf8 spec.toList).length).sum

theorem formatLength_eq (format : List Part) :
    formatLength format = (format.map fun
      | .lit text => text.utf8ByteSize
      | .arg spec => spec.utf8ByteSize).sum := by
  rw [formatLength]
  refine congrArg List.sum (List.map_congr_left fun part _ => ?_)
  cases part with
  | lit text => exact Json.length_utf8_toList text
  | arg spec => exact Json.length_utf8_toList spec

/-- The bytes printed for texts are those of a text. -/
theorem sprintf_utf8 (format : List Part) (args : List (List Char)) :
    sprintf format (args.map Json.utf8) = Json.utf8 (text format args) := by
  rw [sprintf, text]
  induction format generalizing args with
  | nil => rfl
  | cons part format ih =>
      rcases part with lit | spec
      · rw [fill, fill, ih, Json.utf8_append, id]
      · rcases args with _ | ⟨arg, args⟩
        · rfl
        · rw [List.map_cons, fill, fill, ih, Json.utf8_append]

/-! ## Lengths -/

/-- The conversions of a format string. -/
def conversions (format : List Part) : List String :=
  format.filterMap fun
    | .lit _ => none
    | .arg spec => some spec

/-- The arguments take the place of their conversions. -/
theorem length_sprintf {format : List Part} (args : List (List UInt8))
    (h : args.length = (conversions format).length) :
    (sprintf format args).length + ((conversions format).map String.utf8ByteSize).sum =
      formatLength format + (args.map List.length).sum := by
  rw [sprintf, formatLength_eq]
  induction format generalizing args with
  | nil =>
      obtain rfl := List.eq_nil_of_length_eq_zero h
      rfl
  | cons part format ih =>
      rcases part with lit | spec
      · have hrest := ih args h
        simp only [conversions, List.filterMap_cons, fill, List.length_append, List.map_cons,
          List.sum_cons, Json.length_utf8_toList] at hrest ⊢
        omega
      · rcases args with _ | ⟨arg, args⟩
        · simp [conversions] at h
        · have hrest := ih args (by simpa [conversions] using h)
          simp only [conversions, List.filterMap_cons, fill, List.length_append, List.map_cons,
            List.sum_cons] at hrest ⊢
          omega

/-! ## Numbers -/

/-- An integer in decimal notation. -/
def decimal : ℤ → List Char
  | .ofNat n => Nat.toDigits 10 n
  | .negSucc n => '-' :: Nat.toDigits 10 (n + 1)

theorem isDigit_toDigits {n : ℕ} {c : Char} (hc : c ∈ Nat.toDigits 10 n) : c.isDigit = true :=
  Nat.isDigit_of_mem_toDigits (by decide) (by decide) hc

/-- There is no leading zero. -/
theorem toDigits_head {n : ℕ} (hn : 0 < n) : (Nat.toDigits 10 n).head? ≠ some '0' := by
  induction n using Nat.strongRecOn with
  | ind n ih =>
      by_cases hlt : n < 10
      · rw [Nat.toDigits_of_lt_base hlt]
        have hdigit : ∀ d < 10, 0 < d → some d.digitChar ≠ some '0' := by decide
        exact hdigit n hlt hn
      · rw [Nat.toDigits_of_base_le (by decide) (by omega),
          List.head?_append_of_ne_nil _ Nat.toDigits_ne_nil]
        exact ih (n / 10) (by omega) (by omega)

theorem mem_decimal {n : ℤ} {c : Char} (hc : c ∈ decimal n) : c = '-' ∨ c.isDigit = true := by
  cases n with
  | ofNat n => exact .inr (isDigit_toDigits hc)
  | negSucc n => exact (List.mem_cons.1 hc).imp_right isDigit_toDigits

/-- A digit and the sign are one byte each. -/
theorem length_utf8_decimal (n : ℤ) : (Json.utf8 (decimal n)).length = (decimal n).length := by
  have hone : ∀ c ∈ decimal n, (String.utf8EncodeChar c).length = 1 := by
    intro c hc
    rw [String.length_utf8EncodeChar, Char.utf8Size_eq_one_iff]
    rcases mem_decimal hc with rfl | hdigit
    · decide
    · simp only [Char.isDigit, Bool.and_eq_true, decide_eq_true_eq] at hdigit
      exact UInt32.le_trans hdigit.2 (by decide)
  rw [Json.utf8, List.length_flatMap, List.map_congr_left hone]
  simp

theorem length_decimal_le {n : ℤ} {k : ℕ} (hk : 0 < k) (h : n.natAbs < 10 ^ k) :
    (Json.utf8 (decimal n)).length ≤ k + 1 := by
  rw [length_utf8_decimal]
  cases n with
  | ofNat n => exact ((Nat.length_toDigits_le_iff (by decide) hk).2 h).trans (Nat.le_succ k)
  | negSucc n => exact Nat.succ_le_succ ((Nat.length_toDigits_le_iff (by decide) hk).2 h)

theorem decimal_ne_nil (n : ℤ) : decimal n ≠ [] := by
  cases n with
  | ofNat n => exact Nat.toDigits_ne_nil
  | negSucc n => exact List.cons_ne_nil _ _

end Format
