import Mathlib.Data.List.TakeWhile
import PlContainer.Library.Format

set_option autoImplicit false

/-! # JSON texts from templates

A template is a JSON text with holes, into which strings and words are pasted as they are. The strings
come out of the text as they went in exactly if all their characters stand for themselves. For the
converse it takes a border behind each string that no string can run over: a line break, or a last
character that cannot escape the closing quote. -/

namespace Json

open Format

/-! ## Inside a string -/

/-- The text decoded so far, in a string. -/
def State.decoded : State → Option (List Char)
  | .between | .word _ => none
  | .string s | .escape s | .hex s _ _ | .surrogate s _ | .surrogateEscape s _ => some s

/-- A step in a string that does not close it: it decodes at most one character, it is not over a line
    break, and it is over a quote only if that is escaped. -/
structure StaysIn (q : State) (s : List Char) (c : Char) (q' : State) : Prop where
  step_eq : step q c = ([], some q')
  decoded : ∃ s', q'.decoded = some s' ∧ s'.length ≤ s.length + 1
  ne_newline : c ≠ '\n'
  of_quote : c = '"' → q = .escape s
  of_escape : ∀ t, q' = .escape t → c = '\\'

theorem ne_of_hexDigit {c : Char} (h : ¬ (hexDigit c).isNone = true) : c ≠ '\n' ∧ c ≠ '"' := by
  constructor
  · rintro rfl
    exact h rfl
  · rintro rfl
    exact h rfl

theorem decoded_closeHex {s : List Char} {high : Option ℕ} {n : ℕ} {q : State}
    (h : closeHex s high n = some q) :
    (∃ s', q.decoded = some s' ∧ s'.length ≤ s.length + 1) ∧ ∀ t, q ≠ .escape t := by
  cases high with
  | none =>
      rw [closeHex] at h
      split at h
      · cases h
        exact ⟨⟨s, rfl, by omega⟩, nofun⟩
      · split at h
        · cases h
        · cases h
          exact ⟨⟨_, rfl, by simp⟩, nofun⟩
  | some high =>
      rw [closeHex] at h
      split at h
      · cases h
        exact ⟨⟨_, rfl, by simp⟩, nofun⟩
      · cases h

theorem step_in_string {q : State} {s : List Char} (hq : q.decoded = some s) (c : Char) :
    (q = .string s ∧ c = '"' ∧ step q c = ([.str s], some .between)) ∨ step q c = ([], none) ∨
      ∃ q', StaysIn q s c q' := by
  cases q with
  | between => cases hq
  | word w => cases hq
  | string t =>
      obtain rfl := Option.some.inj hq
      rw [step]
      split
      next h => exact .inl ⟨rfl, h, rfl⟩
      next h =>
        split
        next h' =>
          exact .inr (.inr ⟨.escape t, by rw [step, if_neg h, if_pos h'], ⟨t, rfl, by omega⟩,
            by rw [h']; decide, fun hc => absurd hc h, fun _ _ => h'⟩)
        next h' =>
          split
          next hplain =>
            refine .inr (.inr ⟨.string (t ++ [c]), by rw [step, if_neg h, if_neg h', if_pos hplain],
              ⟨_, rfl, by simp⟩, ?_, fun hc => absurd hc h, nofun⟩)
            rintro rfl
            cases hplain
          next => exact .inr (.inl rfl)
  | escape t =>
      obtain rfl := Option.some.inj hq
      rw [step]
      split
      next h =>
        exact .inr (.inr ⟨.hex t none [], by rw [step, if_pos h], ⟨t, rfl, by omega⟩,
          by rw [h]; decide, fun _ => rfl, nofun⟩)
      next h =>
        cases hd : unescape c with
        | none => exact .inr (.inl rfl)
        | some d =>
            refine .inr (.inr ⟨.string (t ++ [d]), by rw [step, if_neg h, hd]; rfl, ⟨_, rfl, by simp⟩,
              ?_, fun _ => rfl, nofun⟩)
            rintro rfl
            cases hd
  | hex t high digits =>
      obtain rfl := Option.some.inj hq
      rw [step]
      split
      next => exact .inr (.inl rfl)
      next hdigit =>
        obtain ⟨hnewline, hquote⟩ := ne_of_hexDigit hdigit
        split
        next hlen =>
          exact .inr (.inr ⟨.hex t high (digits ++ [c]), by rw [step, if_neg hdigit, if_pos hlen],
            ⟨t, rfl, by omega⟩, hnewline, fun hc => absurd hc hquote, nofun⟩)
        next hlen =>
          cases hclose : closeHex t high (ofHex (digits ++ [c])) with
          | none => exact .inr (.inl rfl)
          | some q' =>
              obtain ⟨hdecoded, hescape⟩ := decoded_closeHex hclose
              exact .inr (.inr ⟨q', by rw [step, if_neg hdigit, if_neg hlen, hclose], hdecoded, hnewline,
                fun hc => absurd hc hquote, fun s hs => absurd hs (hescape s)⟩)
  | surrogate t high =>
      obtain rfl := Option.some.inj hq
      rw [step]
      split
      next h =>
        exact .inr (.inr ⟨.surrogateEscape t high, by rw [step, if_pos h], ⟨t, rfl, by omega⟩,
          by rw [h]; decide, fun hc => absurd (h.symm.trans hc) (by decide), nofun⟩)
      next => exact .inr (.inl rfl)
  | surrogateEscape t high =>
      obtain rfl := Option.some.inj hq
      rw [step]
      split
      next h =>
        exact .inr (.inr ⟨.hex t (some high) [], by rw [step, if_pos h], ⟨t, rfl, by omega⟩,
          by rw [h]; decide, fun hc => absurd (h.symm.trans hc) (by decide), nofun⟩)
      next => exact .inr (.inl rfl)

theorem StaysIn.lex_cons {q q' : State} {s : List Char} {c : Char} (h : StaysIn q s c q')
    (x : List Char) : lex q (c :: x) = lex q' x := by
  rw [lex, h.step_eq]
  rfl

/-- If the first token that comes out of a string is the string, the text consists of what has been
    read for it, its closing quote and the rest. -/
theorem first_token_of_string {q : State} {s : List Char} (hq : q.decoded = some s) {x d : List Char}
    {ts : List Token} (h : (lex q x).1 = .str d :: ts) :
    ∃ raw rest, x = raw ++ '"' :: rest ∧ lex q raw = ([], some (.string d)) ∧
      d.length ≤ s.length + raw.length ∧ (lex .between rest).1 = ts := by
  induction x generalizing q s with
  | nil => cases h
  | cons c x ih =>
      rcases step_in_string hq c with ⟨rfl, rfl, hstep⟩ | hstep | ⟨q', hstays⟩
      · rw [lex, hstep] at h
        obtain ⟨hd, hts⟩ := List.cons.inj h
        obtain rfl := Token.str.inj hd
        exact ⟨[], x, rfl, rfl, by simp, hts⟩
      · rw [lex, hstep] at h
        cases h
      · rw [hstays.lex_cons] at h
        obtain ⟨s', hs', hlen⟩ := hstays.decoded
        obtain ⟨raw, rest, rfl, hraw, hle, hrest⟩ := ih hs' h
        refine ⟨c :: raw, rest, rfl, (hstays.lex_cons raw).trans hraw, ?_, hrest⟩
        rw [List.length_cons]
        omega

/-- A string that is not closed does not go over a line break, and where it is in an escape it has just
    read a backslash. -/
theorem lex_in_string {q q' : State} {s : List Char} (hq : q.decoded = some s) {x : List Char}
    (h : lex q x = ([], some q')) :
    '\n' ∉ x ∧ (∃ s', q'.decoded = some s') ∧ ∀ t, q' = .escape t → x = [] ∨ x.getLast? = some '\\' := by
  induction x generalizing q s with
  | nil =>
      cases h
      exact ⟨by simp, ⟨s, hq⟩, fun _ _ => .inl rfl⟩
  | cons c x ih =>
      rcases step_in_string hq c with ⟨rfl, rfl, hstep⟩ | hstep | ⟨q₁, hstays⟩
      · rw [lex, hstep] at h
        cases h
      · rw [lex, hstep] at h
        cases h
      · rw [hstays.lex_cons] at h
        obtain ⟨s', hs', -⟩ := hstays.decoded
        obtain ⟨hx, hdecoded, hlast⟩ := ih hs' h
        rw [List.mem_cons, not_or]
        refine ⟨⟨hstays.ne_newline.symm, hx⟩, hdecoded, fun t ht => .inr ?_⟩
        rcases x with _ | ⟨c', x⟩
        · cases h
          rw [hstays.of_escape t ht]
          rfl
        · rw [List.getLast?_cons_cons]
          exact (hlast t ht).resolve_left (by simp)

/-! ## Outside strings -/

theorem stepBetween_of_ne_quote {c : Char} (hc : c ≠ '"') :
    stepBetween c = ([.punct c], some .between) ∨
      (stepBetween c).1 = [] ∧ ∀ q, (stepBetween c).2 = some q → q.decoded = none := by
  rw [stepBetween]
  split
  · exact .inr ⟨rfl, fun q hq => by rw [← Option.some.inj hq]; rfl⟩
  · split
    · exact .inl rfl
    · split
      · exact .inr ⟨rfl, fun q hq => by rw [← Option.some.inj hq]; rfl⟩
      · exact .inr ⟨rfl, nofun⟩

/-- Outside a string a character other than a quote completes a token that is no string, or none. -/
theorem step_outside {q : State} (hq : q.decoded = none) {c : Char} (hc : c ≠ '"') :
    (∃ t ts, (step q c).1 = t :: ts ∧ ∀ s, t ≠ .str s) ∨
      (step q c).1 = [] ∧ ∀ q', (step q c).2 = some q' → q'.decoded = none := by
  cases q with
  | between =>
      rw [step]
      rcases stepBetween_of_ne_quote hc with hpunct | hnone
      · exact .inl ⟨.punct c, [], by rw [hpunct], nofun⟩
      · exact .inr hnone
  | word w =>
      rw [step]
      split
      · exact .inr ⟨rfl, fun q' hq' => by rw [← Option.some.inj hq']; rfl⟩
      · split
        · exact .inl ⟨.lit w, _, rfl, nofun⟩
        · exact .inr ⟨rfl, nofun⟩
  | string | escape | hex | surrogate | surrogateEscape => cases hq

theorem fst_lex_cons (q : State) (c : Char) (x : List Char) :
    (lex q (c :: x)).1 = (step q c).1 ++ (step q c).2.elim [] fun q' => (lex q' x).1 := by
  rw [lex]
  rcases step q c with ⟨ts, _ | q'⟩
  · exact (List.append_nil ts).symm
  · rfl

/-- A comma completes a token or is an error. -/
theorem step_comma {q : State} (hq : q.decoded = none) (h : (step q ',').1 = []) :
    (step q ',').2 = none := by
  cases q with
  | between => cases h
  | word w =>
      rw [step, if_neg (by decide)] at h ⊢
      split at h
      · cases h
      next hlit => rw [if_neg hlit]
  | string | escape | hex | surrogate | surrogateEscape => cases hq

/-- A text without a quote and a comma behind it does not give a string first. -/
theorem first_token_of_quoteless {q : State} (hq : q.decoded = none) {x : List Char} (hx : '"' ∉ x)
    (rest s : List Char) (ts : List Token) : (lex q (x ++ ',' :: rest)).1 ≠ .str s :: ts := by
  induction x generalizing q with
  | nil =>
      rw [List.nil_append, fst_lex_cons]
      obtain ⟨t, ts', htokens, ht⟩ | ⟨hnone, -⟩ := step_outside hq (by decide : ',' ≠ '"')
      · rw [htokens]
        intro h
        exact ht s (List.cons.inj h).1
      · rw [hnone, step_comma hq hnone]
        exact nofun
  | cons d x ih =>
      rw [List.mem_cons, not_or] at hx
      rw [List.cons_append, fst_lex_cons]
      obtain ⟨t, ts', htokens, ht⟩ | ⟨hnone, hnext⟩ := step_outside hq (Ne.symm hx.1)
      · rw [htokens]
        intro h
        exact ht s (List.cons.inj h).1
      · rw [hnone, List.nil_append]
        cases hstate : (step q d).2 with
        | none => exact nofun
        | some q' => exact ih (hnext q' hstate) hx.2

/-! ## Pasted strings -/

/-- There is a line break before the next quote. -/
def breaksLine : List Char → Bool
  | [] => false
  | c :: cs => c = '\n' || (c ≠ '"' && breaksLine cs)

theorem newline_mem_of_breaksLine {x y : List Char} (h : breaksLine (x ++ '"' :: y) = true) :
    '\n' ∈ x := by
  induction x with
  | nil => simp [breaksLine] at h
  | cons c x ih =>
      simp only [List.cons_append, breaksLine, Bool.or_eq_true, decide_eq_true_eq, Bool.and_eq_true] at h
      rcases h with rfl | ⟨-, h⟩
      · simp
      · exact List.mem_cons_of_mem _ (ih h)

/-- The string cannot run over the quote that is to close it, without an error behind it. -/
def Bordered (w rest : List Char) : Prop := w.getLast? ≠ some '\\' ∨ breaksLine rest = true

/-- All characters stand for themselves. -/
def Plain (w : List Char) : Prop := ∀ c ∈ w, isPlain c = true

theorem lex_plain (s : List Char) {w : List Char} (hw : Plain w) (rest : List Char) :
    lex (.string s) (w ++ '"' :: rest) =
      (.str (s ++ w) :: (lex .between rest).1, (lex .between rest).2) := by
  induction w generalizing s with
  | nil => simp [lex, step]
  | cons c w ih =>
      rw [Plain, List.forall_mem_cons] at hw
      have hc := hw.1
      simp only [isPlain, Bool.and_eq_true, decide_eq_true_eq, ne_eq] at hc
      have hstep : step (.string s) c = ([], some (.string (s ++ [c]))) := by
        rw [step, if_neg hc.1.2, if_neg hc.2, if_pos hw.1]
      rw [List.cons_append, lex, hstep]
      simp [ih (s ++ [c]) hw.2]

/-- A backslash in a string is not a backslash in what comes out of it, unless the string is too long. -/
theorem not_escaped {s w rest : List Char} {ts : List Token} (hborder : Bordered ('\\' :: w) rest) :
    (lex (.escape s) (w ++ '"' :: rest)).1 ≠ .str (s ++ '\\' :: w) :: ts := by
  intro h
  -- an escape is longer than what it stands for, so the text can only come out in full length
  -- if the string runs over the quote that is to close it
  obtain ⟨raw, rest', hx, hraw, hlen, -⟩ := first_token_of_string rfl h
  rw [List.length_append, List.length_cons] at hlen
  -- the string has been closed behind its quote
  obtain ⟨m, hm, hrest⟩ : ∃ m, raw = w ++ '"' :: m ∧ rest = m ++ '"' :: rest' := by
    rcases List.append_eq_append_iff.1 hx with ⟨m, hm, hm'⟩ | ⟨m, hm, hm'⟩
    · rcases m with _ | ⟨c, m⟩
      · rw [hm, List.append_nil] at hlen
        omega
      · obtain ⟨rfl, rfl⟩ := List.cons.inj hm'
        exact ⟨m, hm, rfl⟩
    · rw [hm, List.length_append] at hlen
      omega
  rw [hm, lex_append] at hraw
  rcases hfirst : lex (.escape s) w with ⟨ts', _ | q⟩
  · rw [hfirst] at hraw
    cases hraw
  · rw [hfirst] at hraw
    obtain ⟨hempty, hstate⟩ := Prod.ext_iff.1 hraw
    obtain ⟨rfl, htokens⟩ := List.append_eq_nil_iff.1 hempty
    have hquote : lex q ('"' :: m) = ([], some (.string (s ++ '\\' :: w))) := Prod.ext htokens hstate
    obtain ⟨-, ⟨s', hs'⟩, hlast⟩ := lex_in_string rfl hfirst
    rcases step_in_string hs' '"' with ⟨rfl, -, hstep⟩ | hstep | ⟨q', hstays⟩
    · rw [lex, hstep] at hquote
      cases hquote
    · rw [lex, hstep] at hquote
      cases hquote
    · rw [hstays.lex_cons] at hquote
      obtain ⟨s'', hs'', -⟩ := hstays.decoded
      -- the quote was escaped: by the last character of the text, and on to the next line
      rcases hborder with hborder | hborder
      · refine hborder ?_
        rcases hlast s' (hstays.of_quote rfl) with rfl | hlast
        · rfl
        · rcases w with _ | ⟨c, w⟩
          · cases hlast
          · rw [List.getLast?_cons_cons, hlast]
      · rw [hrest] at hborder
        exact (lex_in_string hs'' hquote).1 (newline_mem_of_breaksLine hborder)

/-- What comes out as it went in is plain. -/
theorem plain_of_lex {s w rest : List Char} {ts : List Token} (hborder : Bordered w rest)
    (h : (lex (.string s) (w ++ '"' :: rest)).1 = .str (s ++ w) :: ts) : Plain w := by
  induction w generalizing s with
  | nil => exact nofun
  | cons c w ih =>
      have hborder' : Bordered w rest := by
        refine hborder.imp_left fun hlast => ?_
        rcases w with _ | ⟨c', w⟩
        · simp
        · rwa [List.getLast?_cons_cons] at hlast
      rw [List.cons_append] at h
      by_cases hquote : c = '"'
      · subst hquote
        obtain ⟨hd, -⟩ := List.cons.inj h
        simpa using Token.str.inj hd
      · by_cases hescape : c = '\\'
        · subst hescape
          exact absurd h (not_escaped hborder)
        · by_cases hplain : isPlain c = true
          · have hstep : step (.string s) c = ([], some (.string (s ++ [c]))) := by
              rw [step, if_neg hquote, if_neg hescape, if_pos hplain]
            rw [lex, hstep] at h
            refine List.forall_mem_cons.2 ⟨hplain, ih (s := s ++ [c]) hborder' ?_⟩
            simpa using h
          · have hstep : step (.string s) c = ([], none) := by
              rw [step, if_neg hquote, if_neg hescape, if_neg hplain]
            rw [lex, hstep] at h
            cases h

/-! ## Templates -/

/-- A piece of a template: a fixed part of the text, a string in quotes, or a word. -/
inductive Piece where
  | fixed (text : List Char)
  | string (w : List Char)
  | word (w : List Char)

def Piece.render : Piece → List Char
  | .fixed text => text
  | .string w => '"' :: (w ++ ['"'])
  | .word w => w

/-- The tokens that the piece stands for. -/
def Piece.tokens : Piece → List Token
  | .fixed text => (lex .between text).1
  | .string w => [.str w]
  | .word w => [.lit w]

/-- What the strings of a piece have to meet. -/
def Piece.Plain : Piece → Prop
  | .string w => Json.Plain w
  | _ => True

theorem Piece.plain_fixed (text : List Char) : (Piece.fixed text).Plain := trivial

theorem Piece.plain_word (w : List Char) : (Piece.word w).Plain := trivial

theorem Piece.plain_string {w : List Char} : (Piece.string w).Plain ↔ Json.Plain w := Iff.rfl

/-- A number or a name. -/
def IsWord (w : List Char) : Prop := w ≠ [] ∧ w.all isWordChar = true ∧ isLit w = true

/-- A word ends before the text. -/
def endsWord : List Char → Bool
  | [] => false
  | c :: _ => !isWordChar c

/-- The piece fits into the text before `rest`: a fixed part is made of whole tokens, and strings and
    words have a border behind them. -/
def Piece.Fits (rest : List Char) : Piece → Prop
  | .fixed text => (lex .between text).2 = some .between
  | .string w => Bordered w rest
  | .word w => IsWord w ∧ endsWord rest = true

def render (pieces : List Piece) : List Char := pieces.flatMap Piece.render

def tokensOf (pieces : List Piece) : List Token := pieces.flatMap Piece.tokens

/-- Every piece fits, with `rest` behind the last. -/
def Fit (rest : List Char) : List Piece → Prop
  | [] => True
  | p :: ps => p.Fits (render ps ++ rest) ∧ Fit rest ps

theorem stepBetween_word {c : Char} (hc : isWordChar c = true) :
    stepBetween c = ([], some (.word [c])) := by
  have hnot (l : List Char) (hl : ∀ d ∈ l, isWordChar d = false) : c ∉ l := by
    intro hmem
    rw [hl c hmem] at hc
    cases hc
  have hspace : c ∉ [' ', '\t', '\n', '\r'] := by
    refine hnot _ ?_
    simp only [List.forall_mem_cons]
    exact ⟨rfl, rfl, rfl, rfl, nofun⟩
  have hpunct : c ∉ ['{', '}', '[', ']', ':', ','] := by
    refine hnot _ ?_
    simp only [List.forall_mem_cons]
    exact ⟨rfl, rfl, rfl, rfl, rfl, rfl, nofun⟩
  have hquote : c ≠ '"' := by
    rintro rfl
    cases hc
  rw [stepBetween, if_neg hspace, if_neg hpunct, if_neg hquote, if_pos hc]

theorem lex_word (u : List Char) {w : List Char} (hw : w.all isWordChar = true)
    (hlit : isLit (u ++ w) = true) {c : Char} (hc : isWordChar c = false) (x : List Char) :
    lex (.word u) (w ++ c :: x) =
      (.lit (u ++ w) :: (lex .between (c :: x)).1, (lex .between (c :: x)).2) := by
  induction w generalizing u with
  | nil =>
      rw [List.append_nil] at hlit ⊢
      rw [List.nil_append, lex, step, hc, if_neg (by simp), if_pos hlit, lex, step]
      rcases stepBetween c with ⟨ts, _ | q⟩
      · rfl
      · rfl
  | cons d w ih =>
      simp only [List.all_cons, Bool.and_eq_true] at hw
      have hstep : step (.word u) d = ([], some (.word (u ++ [d]))) := by rw [step, if_pos hw.1]
      have hrest := ih (u ++ [d]) hw.2 (by simpa using hlit)
      rw [List.cons_append, lex, hstep]
      simpa using hrest

/-- A piece that fits and is plain gives its tokens. -/
theorem Piece.lex_render {p : Piece} {rest : List Char} (hfits : p.Fits rest) (hplain : p.Plain) :
    lex .between (p.render ++ rest) =
      (p.tokens ++ (lex .between rest).1, (lex .between rest).2) := by
  cases p with
  | fixed text =>
      rw [render, lex_append, tokens]
      rw [Fits] at hfits
      rcases hlex : lex .between text with ⟨ts, q⟩
      rw [hlex] at hfits
      obtain rfl : q = some .between := hfits
      rfl
  | string w =>
      have hplain' := lex_plain [] hplain rest
      rw [render, List.cons_append, List.append_assoc, List.singleton_append, lex]
      exact hplain'
  | word w =>
      obtain ⟨⟨hne, hall, hlit⟩, hrest⟩ := hfits
      rcases w with _ | ⟨d, w⟩
      · exact absurd rfl hne
      rcases rest with _ | ⟨c, x⟩
      · cases hrest
      · simp only [List.all_cons, Bool.and_eq_true] at hall
        have hword := lex_word [d] hall.2 hlit (by simpa [endsWord] using hrest) x
        rw [render, List.cons_append, lex, step, stepBetween_word hall.1]
        exact hword

theorem render_cons (p : Piece) (ps : List Piece) : render (p :: ps) = p.render ++ render ps := rfl

theorem tokensOf_cons (p : Piece) (ps : List Piece) : tokensOf (p :: ps) = p.tokens ++ tokensOf ps := rfl

theorem render_append (ps qs : List Piece) : render (ps ++ qs) = render ps ++ render qs :=
  List.flatMap_append

theorem tokensOf_append (ps qs : List Piece) : tokensOf (ps ++ qs) = tokensOf ps ++ tokensOf qs :=
  List.flatMap_append

theorem fit_append {ps qs : List Piece} {rest : List Char} :
    Fit rest (ps ++ qs) ↔ Fit (render qs ++ rest) ps ∧ Fit rest qs := by
  induction ps with
  | nil => simp [Fit]
  | cons p ps ih =>
      rw [List.cons_append, Fit, Fit, ih, render_append, List.append_assoc, and_assoc]

theorem breaksLine_append {t : List Char} (h : breaksLine t = true) (x : List Char) :
    breaksLine (t ++ x) = true := by
  induction t with
  | nil => cases h
  | cons c t ih =>
      simp only [List.cons_append, breaksLine, Bool.or_eq_true, Bool.and_eq_true] at h ⊢
      exact h.imp_right fun hrest => ⟨hrest.1, ih hrest.2⟩

theorem endsWord_append {t : List Char} (h : endsWord t = true) (x : List Char) :
    endsWord (t ++ x) = true := by
  rcases t with _ | ⟨c, t⟩
  · cases h
  · exact h

theorem plain_append {u w : List Char} : Plain (u ++ w) ↔ Plain u ∧ Plain w :=
  List.forall_mem_append

theorem Plain.bordered {w : List Char} (hw : Plain w) (rest : List Char) : Bordered w rest := by
  refine .inl fun hlast => ?_
  have hescape := hw _ (List.mem_of_getLast? hlast)
  cases hescape

/-! How a template fits is seen from its front: -/

theorem fit_nil (rest : List Char) : Fit rest [] := trivial

theorem fit_fixed {t : List Char} (ht : (lex .between t).2 = some .between) {ps : List Piece}
    {rest : List Char} : Fit rest (.fixed t :: ps) ↔ Fit rest ps :=
  and_iff_right ht

theorem fit_string_plain {w : List Char} (hw : Plain w) {ps : List Piece} {rest : List Char} :
    Fit rest (.string w :: ps) ↔ Fit rest ps :=
  and_iff_right (hw.bordered _)

theorem fit_string_fixed {w t : List Char} (ht : breaksLine t = true) {ps : List Piece}
    {rest : List Char} : Fit rest (.string w :: .fixed t :: ps) ↔ Fit rest (.fixed t :: ps) := by
  refine and_iff_right (.inr ?_)
  rw [render_cons, Piece.render, List.append_assoc]
  exact breaksLine_append ht _

theorem fit_word_fixed {w t : List Char} (hw : IsWord w) (ht : endsWord t = true) {ps : List Piece}
    {rest : List Char} : Fit rest (.word w :: .fixed t :: ps) ↔ Fit rest (.fixed t :: ps) := by
  refine and_iff_right ⟨hw, ?_⟩
  rw [render_cons, Piece.render, List.append_assoc]
  exact endsWord_append ht _

/-- **A template with plain strings gives the tokens of its pieces.** -/
theorem lex_render {pieces : List Piece} {rest : List Char} (hfit : Fit rest pieces)
    (hplain : ∀ p ∈ pieces, p.Plain) :
    lex .between (render pieces ++ rest) =
      (tokensOf pieces ++ (lex .between rest).1, (lex .between rest).2) := by
  induction pieces with
  | nil => rfl
  | cons p ps ih =>
      rw [List.forall_mem_cons] at hplain
      rw [render_cons, tokensOf_cons, List.append_assoc, List.append_assoc,
        p.lex_render hfit.1 hplain.1, ih hfit.2 hplain.2]

/-- **Only plain strings come out of a template as they went in.** -/
theorem plain_of_render {pieces : List Piece} {rest : List Char} (hfit : Fit rest pieces)
    {ts : List Token} (h : tokensOf pieces ++ ts <+: (lex .between (render pieces ++ rest)).1) :
    ∀ p ∈ pieces, p.Plain := by
  induction pieces with
  | nil => exact nofun
  | cons p ps ih =>
      rw [render_cons, tokensOf_cons, List.append_assoc, List.append_assoc] at h
      have hfirst : p.Plain := by
        cases p with
        | fixed text => trivial
        | word w => trivial
        | string w =>
            obtain ⟨ts', hts'⟩ := h
            -- the pieces before it have given their tokens, so this string is the next token
            rw [Piece.render, List.cons_append, List.append_assoc w] at hts'
            exact plain_of_lex (s := []) hfit.1 hts'.symm
      rw [p.lex_render hfit.1 hfirst, List.prefix_append_right_inj] at h
      exact List.forall_mem_cons.2 ⟨hfirst, ih hfit.2 h⟩

/-! ## Literals

A literal is looked at as the list of its characters, which is much cheaper than its `toList`. -/

theorem lex_lit {l : List Char} {r : List Token × Option State} (h : lex .between l = r) :
    lex .between (String.ofList l).toList = r := by
  rwa [String.toList_ofList]

theorem plain_lit {l : List Char} (h : l.all isPlain = true) : Plain (String.ofList l).toList := by
  rw [String.toList_ofList]
  exact List.all_eq_true.1 h

/-! ## Lists of strings -/

/-- The elements of an array of strings. -/
def strings : List (List Char) → List Piece
  | [] => []
  | [w] => [.string w]
  | w :: ws => .string w :: .fixed [','] :: strings ws

theorem render_strings (ws : List (List Char)) :
    render (strings ws) = [','].intercalate (ws.map fun w => (Piece.string w).render) := by
  fun_induction strings ws with
  | case1 => rfl
  | case2 w => simp [render, List.intercalate]
  | case3 w ws h ih =>
      rcases ws with _ | ⟨w', ws⟩
      · exact absurd rfl h
      · rw [render_cons, render_cons, ih]
        simp [List.intercalate, Piece.render]

theorem tokensOf_strings (ws : List (List Char)) :
    tokensOf (strings ws) = elemTokens (ws.map Value.str) := by
  fun_induction strings ws with
  | case1 => rfl
  | case2 w => rfl
  | case3 w ws h ih =>
      rcases ws with _ | ⟨w', ws⟩
      · exact absurd rfl h
      · rw [tokensOf_cons, tokensOf_cons, ih]
        rfl

theorem forall_plain_strings {ws : List (List Char)} :
    (∀ p ∈ strings ws, p.Plain) ↔ ∀ w ∈ ws, Plain w := by
  fun_induction strings ws with
  | case1 => simp
  | case2 w => rw [List.forall_mem_singleton, List.forall_mem_singleton, Piece.Plain]
  | case3 w ws h ih =>
      rw [List.forall_mem_cons, List.forall_mem_cons, ih, List.forall_mem_cons]
      exact ⟨fun hall => ⟨hall.1, hall.2.2⟩, fun hall => ⟨hall.1, trivial, hall.2⟩⟩

/-- Strings that do not end in a backslash fit anywhere. -/
theorem fit_strings {ws : List (List Char)} (hws : ∀ w ∈ ws, w.getLast? ≠ some '\\')
    (rest : List Char) : Fit rest (strings ws) := by
  fun_induction strings ws with
  | case1 => trivial
  | case2 w => exact ⟨.inl (hws w (by simp)), trivial⟩
  | case3 w ws h ih =>
      rw [List.forall_mem_cons] at hws
      exact ⟨.inl hws.1, rfl, ih hws.2⟩

/-! ## Numbers -/

theorem isUnsigned_toDigits (n : ℕ) : isUnsigned (Nat.toDigits 10 n) = true := by
  have htake : (Nat.toDigits 10 n).takeWhile Char.isDigit = Nat.toDigits 10 n :=
    List.takeWhile_eq_self_iff.2 fun _ => isDigit_toDigits
  have hdrop : (Nat.toDigits 10 n).dropWhile Char.isDigit = [] :=
    List.dropWhile_eq_nil_iff.2 fun _ => isDigit_toDigits
  rcases Nat.eq_zero_or_pos n with rfl | hn
  · rfl
  · simp only [isUnsigned, htake, hdrop]
    simp [toDigits_head hn, isFraction, isExponent]

theorem isNumber_decimal (n : ℤ) : isNumber (decimal n) = true := by
  cases n with
  | ofNat n =>
      rw [decimal, isNumber.eq_def]
      split
      · next w heq =>
          have hminus : '-' ∈ Nat.toDigits 10 n := by simp [heq]
          exact absurd (isDigit_toDigits hminus) (by decide)
      · exact isUnsigned_toDigits n
  | negSucc n => exact isUnsigned_toDigits (n + 1)

theorem isWord_decimal (n : ℤ) : IsWord (decimal n) := by
  refine ⟨decimal_ne_nil n, List.all_eq_true.2 fun d hd => ?_, ?_⟩
  · rcases mem_decimal hd with rfl | hdigit
    · rfl
    · simp [isWordChar, Char.isAlphanum, hdigit]
  · simp [isLit, isNumber_decimal]

theorem isPlain_of_isDigit {c : Char} (hc : c.isDigit = true) : isPlain c = true := by
  have hquote : c ≠ '"' := by
    rintro rfl
    cases hc
  have hescape : c ≠ '\\' := by
    rintro rfl
    cases hc
  have hle : 48 ≤ c.toNat := by
    simp only [Char.isDigit, Bool.and_eq_true, decide_eq_true_eq] at hc
    exact UInt32.le_iff_toNat_le.1 hc.1
  simp only [isPlain, Bool.and_eq_true, decide_eq_true_eq]
  exact ⟨⟨by omega, hquote⟩, hescape⟩

/-- A number stands for itself in a string. -/
theorem plain_decimal (n : ℤ) : Plain (decimal n) := by
  intro c hc
  rcases mem_decimal hc with rfl | hdigit
  · rfl
  · exact isPlain_of_isDigit hdigit

/-! ## Texts that are cut -/

/-- The end of an object on a line of its own gives a token, whatever came before. -/
theorem lex_close (q : State) : lex q ['}', '\n'] ≠ ([], some .between) := by
  intro h
  cases q with
  | word w =>
      rw [lex, step, if_neg (by decide)] at h
      by_cases hlit : isLit w = true
      · rw [if_pos hlit] at h
        cases h
      · rw [if_neg hlit] at h
        cases h
  | _ => cases h

/-- An end of a text that gives no token does not reach back to the end of the object. -/
theorem suffix_newline_of_silent {r c : List Char} (hsuffix : c <:+ r ++ ['}', '\n'])
    (hsilent : lex .between c = ([], some .between)) : c <:+ ['\n'] := by
  rcases Nat.lt_or_ge 1 c.length with hlong | hshort
  · obtain ⟨c', rfl⟩ := List.suffix_of_suffix_length_le (List.suffix_append r _) hsuffix hlong
    rw [lex_append] at hsilent
    rcases hlex : lex .between c' with ⟨ts, _ | q⟩
    · rw [hlex] at hsilent
      cases hsilent
    · rw [hlex] at hsilent
      simp only [Prod.mk.injEq, List.append_eq_nil_iff] at hsilent
      exact absurd (Prod.ext hsilent.1.2 hsilent.2) (lex_close q)
  · have hnewline : ['\n'] <:+ r ++ ['}', '\n'] := ⟨r ++ ['}'], by rw [List.append_assoc]; rfl⟩
    exact List.suffix_of_suffix_length_le hsuffix hnewline hshort

/-- What is left of a line break that is cut says nothing. -/
theorem take_newline (k : ℕ) :
    utf8 (['\n'].take k) = (utf8 ['\n']).take k ∧
      lex .between (['\n'].take k) = ([], some .between) := by
  rcases k with _ | k
  · exact ⟨rfl, rfl⟩
  · rw [List.take_of_length_le (by simp), List.take_of_length_le (Nat.le_add_left 1 k)]
    exact ⟨rfl, rfl⟩

theorem lex_of_tokenize {text : List Char} {ts : List Token} {c : Char}
    (h : tokenize text = some (ts ++ [.punct c])) :
    lex .between text = (ts ++ [.punct c], some .between) := by
  rw [tokenize] at h
  split at h
  · next ts' hlex => rw [hlex, Option.some.inj h]
  · split at h
    · cases (List.append_inj' (Option.some.inj h) rfl).2
    · cases h
  · cases h

/-- **An object pasted together, a line break behind it, and cut after `n` bytes, says what it should
    exactly if its strings are plain and at most the line break is cut off.** -/
theorem denotes_take_iff {pieces : List Piece} {members : List (List Char × Value)}
    (hfit : ∀ rest, Fit rest pieces) (htokens : tokensOf pieces = (Value.obj members).tokens)
    (hlast : ['}'] <:+ render pieces) (n : ℕ) :
    Denotes ((utf8 (render pieces ++ ['\n'])).take n) (.obj members) ↔
      (∀ p ∈ pieces, p.Plain) ∧ (utf8 (render pieces)).length ≤ n := by
  constructor
  · rintro ⟨text, htext, htokenize⟩
    rw [Value.tokens, ← List.cons_append] at htokenize
    have hlex := lex_of_tokenize htokenize
    rw [List.cons_append, ← Value.tokens] at hlex
    have htake := List.take_append_drop n (utf8 (render pieces ++ ['\n']))
    rw [← htext] at htake
    obtain ⟨c, hbody, hc⟩ := utf8_prefix htake
    have hsplit : lex .between (render pieces ++ ['\n']) =
        (tokensOf pieces ++ (lex .between c).1, (lex .between c).2) := by
      rw [hbody, lex_append, hlex, htokens]
    have hplain : ∀ p ∈ pieces, p.Plain := by
      have hprefix : tokensOf pieces ++ [] <+: (lex .between (render pieces ++ ['\n'])).1 := by
        rw [hsplit, List.append_nil]
        exact List.prefix_append _ _
      exact plain_of_render (hfit ['\n']) hprefix
    refine ⟨hplain, ?_⟩
    -- nothing is left to say behind the cut, so the end of the object is before it
    have hsilent : lex .between c = ([], some .between) := by
      rw [lex_render (hfit _) hplain] at hsplit
      simp only [Prod.mk.injEq, List.append_cancel_left_eq] at hsplit
      exact Prod.ext hsplit.1.symm hsplit.2.symm
    have hlength : (utf8 c).length = (utf8 (render pieces)).length + 1 - n := by
      rw [hc, List.length_drop, utf8_append, List.length_append]
      rfl
    obtain ⟨r, hr⟩ := hlast
    have hsuffix : c <:+ r ++ ['}', '\n'] := ⟨text, by rw [← hbody, ← hr, List.append_assoc]; rfl⟩
    obtain ⟨d, hd⟩ := suffix_newline_of_silent hsuffix hsilent
    have hone := congrArg (fun text => (utf8 text).length) hd
    simp only [utf8_append, List.length_append] at hone
    have hnewline : (utf8 ['\n']).length = 1 := rfl
    omega
  · rintro ⟨hplain, hn⟩
    obtain ⟨hbytes, hsilent⟩ := take_newline (n - (utf8 (render pieces)).length)
    refine ⟨render pieces ++ ['\n'].take (n - (utf8 (render pieces)).length), ?_, ?_⟩
    · rw [utf8_append, utf8_append, List.take_append, List.take_of_length_le hn, hbytes]
    · rw [tokenize, lex_render (hfit _) hplain, hsilent, htokens, List.append_nil]

end Json
