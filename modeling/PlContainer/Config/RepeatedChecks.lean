import PlContainer.Config.Privilege
import Mathlib.Logic.Function.Iterate

set_option autoImplicit false

/-! # The permission check, call after call

Every check of a runtime splits its stored list of roles in place, so the second check of a session
finds what the first one has left. A list that starts with a plain name is down to this name from then
on; one that starts with a quoted name loses its closing quote, and sooner or later it is malformed. -/

namespace PlContainer

open Checked

/-! ## Lower case -/

theorem toLower_cases (c : Char) :
    c.toLower = c ∨ 97 ≤ c.toLower.toNat ∧ c.toLower.toNat ≤ 122 := by
  unfold Char.toLower
  split
  next h =>
    right
    obtain ⟨hlow, hhigh⟩ := h
    rw [ge_iff_le, UInt32.le_iff_toNat_le] at hlow
    rw [UInt32.le_iff_toNat_le] at hhigh
    change 65 ≤ c.val.toNat at hlow
    change c.val.toNat ≤ 90 at hhigh
    change 97 ≤ (c.val + 32).toNat ∧ (c.val + 32).toNat ≤ 122
    have h32 : (32 : UInt32).toNat = 32 := rfl
    rw [UInt32.toNat_add]
    omega
  · exact .inl rfl

theorem toLower_toLower (c : Char) : c.toLower.toLower = c.toLower := by
  obtain h | ⟨h, -⟩ := toLower_cases c
  · rw [h, h]
  · have hnot : ¬ (c.toLower.val ≥ 'A'.val ∧ c.toLower.val ≤ 'Z'.val) := by
      rintro ⟨-, hhigh⟩
      rw [UInt32.le_iff_toNat_le] at hhigh
      change c.toLower.toNat ≤ 90 at hhigh
      omega
    exact dif_neg hnot

/-- A letter in lower case is neither a separator nor a quote. -/
theorem isNameChar_of_toNat {c : Char} (h : 97 ≤ c.toNat) : isNameChar c = true ∧ c ≠ '"' := by
  have hne : ∀ d : Char, d.toNat < 97 → c ≠ d := by
    rintro d hd rfl
    omega
  unfold isNameChar scannerIsspace
  refine ⟨?_, hne _ (by decide)⟩
  simp [hne ',' (by decide), hne ' ' (by decide), hne '\t' (by decide), hne '\n' (by decide),
    hne '\r' (by decide), hne '\x0c' (by decide)]

theorem isNameChar_toLower {c : Char} (h : isNameChar c = true) : isNameChar c.toLower = true := by
  obtain hsame | ⟨hlow, -⟩ := toLower_cases c
  · rwa [hsame]
  · exact (isNameChar_of_toNat hlow).1

theorem toLower_ne_quote {c : Char} (h : c ≠ '"') : c.toLower ≠ '"' := by
  obtain hsame | ⟨hlow, -⟩ := toLower_cases c
  · rwa [hsame]
  · exact (isNameChar_of_toNat hlow).2

/-! ## Cutting a name -/

theorem prefix_clipBytes (n : ℕ) (cs : List Char) : clipBytes n cs <+: cs := by
  induction cs generalizing n with
  | nil => exact List.prefix_rfl
  | cons c cs ih =>
      unfold clipBytes
      split
      · exact (List.prefix_cons_inj c).2 (ih _)
      · exact List.nil_prefix

theorem clipBytes_clipBytes (n : ℕ) (cs : List Char) : clipBytes n (clipBytes n cs) = clipBytes n cs := by
  induction cs generalizing n with
  | nil => rfl
  | cons c cs ih =>
      rw [clipBytes]
      split
      next h => rw [clipBytes, if_pos h, ih]
      · rfl

theorem length_truncateIdentifier_le (name : XmlText) :
    (truncateIdentifier name).length ≤ name.length :=
  (prefix_clipBytes 63 name).length_le

/-- A name as `SplitIdentifierString` leaves it in the text. -/
structure SettledName (name : XmlText) : Prop where
  ne_nil : name ≠ []
  chars : ∀ c ∈ name, isNameChar c = true
  noQuote : name.head? ≠ some '"'
  fixed : downcaseTruncateIdentifier name = name

theorem settledName_downcase {word : XmlText} (hne : word ≠ [])
    (hchars : ∀ c ∈ word, isNameChar c = true) (hquote : word.head? ≠ some '"') :
    SettledName (downcaseTruncateIdentifier word) := by
  obtain ⟨c, cs, rfl⟩ := List.exists_cons_of_ne_nil hne
  -- the first character always fits
  have hfirst : downcaseTruncateIdentifier (c :: cs) =
      c.toLower :: clipBytes (63 - c.toLower.utf8Size) (cs.map Char.toLower) := by
    rw [downcaseTruncateIdentifier, truncateIdentifier, List.map_cons, clipBytes, if_pos]
    have := Char.utf8Size_le_four c.toLower
    omega
  have hmem : ∀ d ∈ downcaseTruncateIdentifier (c :: cs), ∃ d' ∈ c :: cs, d = d'.toLower := by
    intro d hd
    obtain ⟨d', hd', rfl⟩ := List.mem_map.1 ((prefix_clipBytes 63 _).subset hd)
    exact ⟨d', hd', rfl⟩
  refine ⟨by rw [hfirst]; simp, fun d hd => ?_, ?_, ?_⟩
  · obtain ⟨d', hd', rfl⟩ := hmem d hd
    exact isNameChar_toLower (hchars d' hd')
  · rw [hfirst, List.head?_cons, Ne, Option.some.injEq]
    exact toLower_ne_quote fun h => hquote (by rw [h]; rfl)
  · have hlower : (downcaseTruncateIdentifier (c :: cs)).map Char.toLower =
        downcaseTruncateIdentifier (c :: cs) := by
      refine (List.map_congr_left fun d hd => ?_).trans (List.map_id _)
      obtain ⟨d', -, rfl⟩ := hmem d hd
      exact toLower_toLower d'
    rw [downcaseTruncateIdentifier, hlower]
    exact clipBytes_clipBytes 63 _

/-! ## One split -/

/-- The text starts with a quoted name. -/
def startsQuoted (raw : XmlText) : Bool := (raw.dropWhile scannerIsspace).head? = some '"'

theorem takeWhile_spaces (raw : XmlText) :
    ∀ c ∈ raw.takeWhile scannerIsspace, scannerIsspace c = true :=
  fun _ hc => List.mem_takeWhile_imp hc

/-- Behind the spaces stands what has no space in front. -/
theorem spaces_append (raw : XmlText) {cs : XmlText} (h : ∀ c ∈ cs.head?, scannerIsspace c = false) :
    (raw.takeWhile scannerIsspace ++ cs).takeWhile scannerIsspace = raw.takeWhile scannerIsspace ∧
      (raw.takeWhile scannerIsspace ++ cs).dropWhile scannerIsspace = cs := by
  rw [List.takeWhile_append_of_pos (takeWhile_spaces raw),
    List.dropWhile_append_of_pos (takeWhile_spaces raw)]
  rcases cs with _ | ⟨c, cs⟩
  · simp
  · have hc := h c rfl
    simp [hc]

/-- A text that is split has no name or starts with one that is ended properly. -/
theorem splitIdentifierString_cases {raw : XmlText} {names : List XmlText}
    (h : splitIdentifierString raw = some names) :
    raw.dropWhile scannerIsspace = [] ∧ names = [] ∨
      ∃ name rest others, scanName (raw.dropWhile scannerIsspace) = some (name, rest) ∧
        endsName rest = true ∧ names = name :: others := by
  unfold splitIdentifierString at h
  split at h
  next hnil => exact .inl ⟨hnil, (Option.some.inj h).symm⟩
  next hne =>
    right
    obtain ⟨c, cs, hcs⟩ := List.exists_cons_of_ne_nil hne
    rw [hcs, List.length_cons, splitNames] at h
    rw [hcs]
    rcases hscan : scanName (c :: cs) with _ | ⟨name, rest⟩
    · rw [hscan] at h
      cases h
    · rw [hscan] at h
      dsimp only at h
      unfold endsName
      split at h
      next hend => exact ⟨name, rest, [], rfl, by rw [hend], (Option.some.inj h).symm⟩
      next rest' hsep =>
        obtain ⟨others, -, rfl⟩ := Option.map_eq_some_iff.1 h
        exact ⟨name, rest, others, rfl, by rw [hsep]; rfl, rfl⟩
      · cases h

theorem scanName_unquoted {cs name rest : XmlText} (hquote : cs.head? ≠ some '"')
    (h : scanName cs = some (name, rest)) :
    cs.takeWhile isNameChar ≠ [] ∧ name = downcaseTruncateIdentifier (cs.takeWhile isNameChar) ∧
      rest = cs.dropWhile isNameChar := by
  unfold scanName at h
  split at h
  · exact (hquote rfl).elim
  · split at h
    · cases h
    next hne =>
      obtain ⟨rfl, rfl⟩ : _ = name ∧ _ = rest := by simpa using h
      exact ⟨hne, rfl, rfl⟩

/-- A plain first name stays alone. -/
theorem textAfterSplit_unquoted {raw name rest : XmlText} (hquote : startsQuoted raw = false)
    (hscan : scanName (raw.dropWhile scannerIsspace) = some (name, rest))
    (hends : endsName rest = true) :
    textAfterSplit raw = raw.takeWhile scannerIsspace ++ name := by
  obtain ⟨hword, rfl, rfl⟩ := scanName_unquoted (of_decide_eq_false hquote) hscan
  unfold textAfterSplit
  dsimp only
  split
  next hnil =>
    rw [hnil] at hword
    exact (hword rfl).elim
  next hcs =>
    rw [startsQuoted, hcs] at hquote
    exact (of_decide_eq_false hquote rfl).elim
  · split
    next hnil => exact (hword hnil).elim
    · rw [if_pos (.inl hends)]

section Settled

variable {name : XmlText} (hname : SettledName name) (raw : XmlText)
include hname

theorem SettledName.not_space : ∀ c ∈ name.head?, scannerIsspace c = false := by
  intro c hc
  have hchar := hname.chars c (List.mem_of_mem_head? hc)
  unfold isNameChar at hchar
  simpa using (Bool.and_eq_true_iff.1 hchar).2

theorem SettledName.scanName_eq : scanName name = some (name, []) := by
  have htake : name.takeWhile isNameChar = name := List.takeWhile_eq_self_iff.2 hname.chars
  have hdrop : name.dropWhile isNameChar = [] := List.dropWhile_eq_nil_iff.2 hname.chars
  unfold scanName
  split
  · exact (hname.noQuote rfl).elim
  · rw [htake, hdrop]
    split
    · exact (hname.ne_nil rfl).elim
    · rw [hname.fixed]

theorem SettledName.split_eq :
    splitIdentifierString (raw.takeWhile scannerIsspace ++ name) = some [name] := by
  obtain ⟨c, cs, rfl⟩ := List.exists_cons_of_ne_nil hname.ne_nil
  rw [splitIdentifierString, (spaces_append raw hname.not_space).2]
  dsimp only
  rw [List.length_cons, splitNames, hname.scanName_eq]
  rfl

theorem SettledName.textAfterSplit_eq :
    textAfterSplit (raw.takeWhile scannerIsspace ++ name) =
      raw.takeWhile scannerIsspace ++ name := by
  obtain ⟨hspaces, hrest⟩ := spaces_append raw hname.not_space
  have hquote : startsQuoted (raw.takeWhile scannerIsspace ++ name) = false := by
    rw [startsQuoted, hrest]
    exact decide_eq_false hname.noQuote
  have h := textAfterSplit_unquoted hquote (by rw [hrest]; exact hname.scanName_eq) rfl
  rwa [hspaces] at h

end Settled

/-! ## Quoted names -/

/-- What a closed quote holds is shorter than the text by the quote at least. -/
theorem length_scanQuoted_name {cs rest : XmlText} (h : (scanQuoted cs).2 = some rest) :
    (scanQuoted cs).1.length < cs.length := by
  fun_induction scanQuoted cs with
  | case1 => cases h
  | case2 cs ih =>
      have hlen := ih h
      simp only [List.length_cons]
      omega
  | case3 cs hne => simp
  | case4 c cs hpair hquote ih =>
      have hlen := ih h
      simp only [List.length_cons]
      omega

/-- A quoted first name loses its closing quote. -/
theorem textAfterSplit_quoted {raw name rest : XmlText} (hquote : startsQuoted raw = true)
    (hscan : scanName (raw.dropWhile scannerIsspace) = some (name, rest))
    (hends : endsName rest = true) :
    startsQuoted (textAfterSplit raw) = true ∧ (textAfterSplit raw).length < raw.length := by
  obtain ⟨cs, hcs⟩ := List.head?_eq_some_iff.1 (of_decide_eq_true hquote)
  have hraw := congrArg List.length (List.takeWhile_append_dropWhile (p := scannerIsspace) (l := raw))
  rw [hcs, List.length_append, List.length_cons] at hraw
  rw [hcs, scanName] at hscan
  rcases hscanned : scanQuoted cs with ⟨text, _ | behind⟩
  · rw [hscanned] at hscan
    cases hscan
  · rw [hscanned] at hscan
    obtain ⟨-, rfl⟩ : _ ∧ behind = rest := by simpa using hscan
    have hafter : textAfterSplit raw =
        raw.takeWhile scannerIsspace ++ '"' :: truncateIdentifier text := by
      unfold textAfterSplit
      simp only [hcs, hscanned, hends, if_true]
    have hlen : text.length < cs.length := by
      simpa only [hscanned] using length_scanQuoted_name (congrArg Prod.snd hscanned)
    have htruncated := length_truncateIdentifier_le text
    have hhead : ∀ c ∈ ('"' :: truncateIdentifier text).head?, scannerIsspace c = false := by
      intro c hc
      obtain rfl : '"' = c := by simpa using hc
      decide
    rw [hafter]
    refine ⟨?_, ?_⟩
    · rw [startsQuoted, (spaces_append raw hhead).2]
      rfl
    · rw [List.length_append, List.length_cons]
      omega

/-- A list that starts with a quoted name is malformed after some checks. -/
theorem exists_malformed {raw : XmlText} (hquote : startsQuoted raw = true) :
    ∃ n, splitIdentifierString (textAfterSplit^[n] raw) = none := by
  -- by the length of the text: a check that succeeds makes it shorter
  induction hlen : raw.length using Nat.strong_induction_on generalizing raw with
  | _ len ih =>
      rcases hsplit : splitIdentifierString raw with _ | names
      · exact ⟨0, hsplit⟩
      · obtain ⟨hnil, -⟩ | ⟨name, rest, -, hscan, hends, -⟩ := splitIdentifierString_cases hsplit
        · rw [startsQuoted, hnil] at hquote
          cases hquote
        · obtain ⟨hquote', hshorter⟩ := textAfterSplit_quoted hquote hscan hends
          obtain ⟨n, hn⟩ := ih _ (hlen ▸ hshorter) hquote' rfl
          exact ⟨n + 1, by rwa [Function.iterate_succ_apply]⟩

/-! ## One runtime, check after check -/

/-- The answer for a user with the given text; `none` is an error. -/
def privilegeAnswer (env : RoleEnv) (user : Oid) (roles : XmlText) : Option Bool :=
  (plcCheckUserPrivilege env user (some roles)).1.toOption

section Answer

variable {env : RoleEnv} {raw : XmlText} {names : List XmlText}

theorem privilegeAnswer_malformed (h : splitIdentifierString raw = none) (user : Oid) :
    privilegeAnswer env user raw = none := by
  rw [privilegeAnswer, plcCheckUserPrivilege, h]
  rfl

theorem privilegeAnswer_zero : privilegeAnswer env 0 raw = none := by
  rw [privilegeAnswer, plcCheckUserPrivilege]
  cases splitIdentifierString raw with
  | none => rfl
  | some names => rfl

theorem privilegeAnswer_eq (h : splitIdentifierString raw = some names) {user : Oid}
    (huser : user ≠ 0) :
    privilegeAnswer env user raw =
      some (names.any fun name => env.isMemberOfRole user (env.roleOid name)) := by
  rw [privilegeAnswer, plcCheckUserPrivilege, h]
  dsimp only
  rw [if_neg huser]
  rfl

/-- Every member of a role in the list is a member of the first one. -/
def FirstRoleDecides (env : RoleEnv) (names : List XmlText) : Prop :=
  ∀ user : Oid, user ≠ 0 → ∀ name ∈ names, env.isMemberOfRole user (env.roleOid name) = true →
    ∀ first ∈ names.head?, env.isMemberOfRole user (env.roleOid first) = true

/-- The roles that answer all checks alike. A malformed list must stay malformed. A proper one must
    start with a plain name, and the others must not matter. -/
def RolesStable (env : RoleEnv) (raw : XmlText) : Prop :=
  match splitIdentifierString raw with
  | none => ∀ n, splitIdentifierString (textAfterSplit^[n] raw) = none
  | some names => startsQuoted raw = false ∧ FirstRoleDecides env names

theorem firstRoleDecides_cons {first : XmlText} {others : List XmlText} :
    FirstRoleDecides env (first :: others) ↔ ∀ user : Oid, user ≠ 0 →
      ([first].any fun name => env.isMemberOfRole user (env.roleOid name)) =
        (first :: others).any fun name => env.isMemberOfRole user (env.roleOid name) := by
  unfold FirstRoleDecides
  refine forall_congr' fun user => imp_congr_right fun _ => ?_
  simp only [List.head?_cons, Option.mem_some_iff, forall_eq', List.any_cons, List.any_nil,
    Bool.or_false, List.forall_mem_cons, imp_self, true_and]
  refine Iff.trans ?_ Bool.eq_iff_iff.symm
  rw [Bool.or_eq_true, List.any_eq_true]
  constructor
  · exact fun h => ⟨.inl, fun hor => hor.elim id fun ⟨name, hname, hmem⟩ => h name hname hmem⟩
  · exact fun h name hname hmem => h.2 (.inr ⟨name, hname, hmem⟩)

/-- After the first check, a list that starts with a plain name is this name. -/
theorem split_iterate_unquoted (hquote : startsQuoted raw = false) {name rest : XmlText}
    (hscan : scanName (raw.dropWhile scannerIsspace) = some (name, rest))
    (hends : endsName rest = true) (n : ℕ) :
    splitIdentifierString (textAfterSplit^[n + 1] raw) = some [name] := by
  obtain ⟨hword, hname, -⟩ := scanName_unquoted (of_decide_eq_false hquote) hscan
  have hhead : ((raw.dropWhile scannerIsspace).takeWhile isNameChar).head? ≠ some '"' := by
    intro h
    obtain ⟨word, hw⟩ := List.head?_eq_some_iff.1 h
    obtain ⟨behind, hbehind⟩ := List.takeWhile_prefix (p := isNameChar)
      (l := raw.dropWhile scannerIsspace)
    refine of_decide_eq_false hquote ?_
    rw [← hbehind, hw]
    rfl
  have hsettled : SettledName name :=
    hname ▸ settledName_downcase hword (fun _ hc => List.mem_takeWhile_imp hc) hhead
  rw [Function.iterate_succ_apply, textAfterSplit_unquoted hquote hscan hends,
    Function.iterate_fixed (hsettled.textAfterSplit_eq raw), hsettled.split_eq]

/-- A malformed list is answered alike if it stays malformed. -/
theorem answers_eq_iff_of_malformed (hsplit : splitIdentifierString raw = none) :
    (∀ n user, privilegeAnswer env user (textAfterSplit^[n] raw) = privilegeAnswer env user raw) ↔
      ∀ n, splitIdentifierString (textAfterSplit^[n] raw) = none := by
  refine forall_congr' fun n => ⟨fun h => ?_, fun hn user => ?_⟩
  · have hone := h 1
    rw [privilegeAnswer_malformed hsplit] at hone
    rcases hn : splitIdentifierString (textAfterSplit^[n] raw) with _ | names
    · rfl
    · rw [privilegeAnswer_eq hn (by decide)] at hone
      cases hone
  · rw [privilegeAnswer_malformed hn, privilegeAnswer_malformed hsplit]

/-- A proper list that is answered alike starts with a plain name: others are malformed in the end. -/
theorem startsQuoted_of_answers_eq (hsplit : splitIdentifierString raw = some names)
    (h : ∀ n user, privilegeAnswer env user (textAfterSplit^[n] raw) = privilegeAnswer env user raw) :
    startsQuoted raw = false := by
  by_contra hquoted
  obtain ⟨n, hn⟩ := exists_malformed (Bool.not_eq_false _ ▸ hquoted)
  have hone := h n 1
  rw [privilegeAnswer_malformed hn, privilegeAnswer_eq hsplit (by decide)] at hone
  cases hone

/-- After the first check only the first name counts. -/
theorem answers_eq_iff_of_unquoted {name rest : XmlText} {others : List XmlText}
    (hsplit : splitIdentifierString raw = some (name :: others)) (hquote : startsQuoted raw = false)
    (hscan : scanName (raw.dropWhile scannerIsspace) = some (name, rest))
    (hends : endsName rest = true) :
    (∀ n user, privilegeAnswer env user (textAfterSplit^[n] raw) = privilegeAnswer env user raw) ↔
      FirstRoleDecides env (name :: others) := by
  rw [firstRoleDecides_cons]
  constructor
  · intro h user huser
    have honce := h 1 user
    rw [privilegeAnswer_eq (split_iterate_unquoted hquote hscan hends 0) huser,
      privilegeAnswer_eq hsplit huser] at honce
    exact Option.some.inj honce
  · intro hfirst n user
    rcases n with _ | n
    · rfl
    · by_cases huser : user = 0
      · rw [huser, privilegeAnswer_zero, privilegeAnswer_zero]
      · rw [privilegeAnswer_eq (split_iterate_unquoted hquote hscan hends n) huser,
          privilegeAnswer_eq hsplit huser, hfirst user huser]

theorem answers_eq_iff_rolesStable (env : RoleEnv) (raw : XmlText) :
    (∀ n user, privilegeAnswer env user (textAfterSplit^[n] raw) = privilegeAnswer env user raw) ↔
      RolesStable env raw := by
  unfold RolesStable
  rcases hsplit : splitIdentifierString raw with _ | names
  · exact answers_eq_iff_of_malformed hsplit
  · obtain ⟨hnil, rfl⟩ | ⟨name, rest, others, hscan, hends, rfl⟩ := splitIdentifierString_cases hsplit
    · have hfixed : textAfterSplit raw = raw := by
        unfold textAfterSplit
        simp only [hnil]
      refine iff_of_true (fun n user => ?_) ⟨by rw [startsQuoted, hnil]; rfl, by simp [FirstRoleDecides]⟩
      rw [Function.iterate_fixed hfixed]
    · constructor
      · intro h
        have hquote := startsQuoted_of_answers_eq hsplit h
        exact ⟨hquote, (answers_eq_iff_of_unquoted hsplit hquote hscan hends).1 h⟩
      · rintro ⟨hquote, hfirst⟩
        exact (answers_eq_iff_of_unquoted hsplit hquote hscan hends).2 hfirst

end Answer

/-! ## Sessions without a refresh -/

/-- The tables after some calls. -/
def ConfTables.afterCalls (loader : LoaderEnv) (env : RoleEnv) (tables : ConfTables)
    (calls : List RuntimeCall) : ConfTables :=
  calls.foldl (fun tables call => tables.next loader env (.call call)) tables

/-- The decision about a call: whether it may go on; `none` is any other error. -/
def decisionOf : Except CallError RuntimeConfEntry → Option Bool
  | .ok _ => some true
  | .error (.noPrivilege _) => some false
  | .error _ => none

/-- An entry after `n` checks of its roles. -/
def RuntimeConfEntry.checked (n : ℕ) (entry : RuntimeConfEntry) : RuntimeConfEntry :=
  if entry.useUserControl then { entry with roles := entry.roles.map textAfterSplit^[n] } else entry

section Session

variable {loader : LoaderEnv} {env : RoleEnv} {tables : ConfTables}

/-- The decision for a user of an entry. -/
def RuntimeConfEntry.decision (env : RoleEnv) (user : Oid) (entry : RuntimeConfEntry) : Option Bool :=
  if entry.useUserControl then entry.roles.elim (some false) (privilegeAnswer env user) else some true

theorem plcCheckUserPrivilege_snd (env : RoleEnv) (user : Oid) (roles : Option XmlText) :
    (plcCheckUserPrivilege env user roles).2 = roles.map textAfterSplit := by
  rcases roles with _ | raw
  · rfl
  · rfl

theorem toOption_plcCheckUserPrivilege (env : RoleEnv) (user : Oid) (roles : Option XmlText) :
    (plcCheckUserPrivilege env user roles).1.toOption =
      roles.elim (some false) (privilegeAnswer env user) := by
  rcases roles with _ | raw
  · rfl
  · rfl

/-- A check that fails does so with its own errors. -/
theorem plcCheckUserPrivilege_ne_noPrivilege (env : RoleEnv) (user : Oid) (roles : Option XmlText)
    (runtime : XmlText) : (plcCheckUserPrivilege env user roles).1 ≠ .error (.noPrivilege runtime) := by
  rcases roles with _ | raw
  · intro h
    cases h
  · rw [plcCheckUserPrivilege]
    dsimp only
    split
    · intro h
      cases h
    · split
      · intro h
        cases h
      · intro h
        cases h

theorem decisionOf_check {x : Except CallError Bool} (runtime : XmlText) (entry : RuntimeConfEntry)
    (h : ∀ other, x ≠ .error (.noPrivilege other)) :
    decisionOf (do let granted ← x
                   if granted then pure entry else throw (.noPrivilege runtime)) = x.toOption := by
  rcases x with err | granted
  · cases err with
    | noPrivilege other => exact (h other rfl).elim
    | _ => rfl
  · cases granted with
    | false => rfl
    | true => rfl

/-- A call on tables that are loaded. -/
theorem plcontainerGetResult_loaded (hloaded : tables.runtimes ≠ []) (call : RuntimeCall) :
    decisionOf (plcontainerGetResult loader env tables call).1 =
        (findEntry call.runtime tables.runtimes).bind (·.decision env call.user) ∧
      (plcontainerGetResult loader env tables call).2 =
        (findEntry call.runtime tables.runtimes).elim tables fun entry =>
          if entry.useUserControl then
            tables.setRoles call.runtime (entry.roles.map textAfterSplit)
          else tables := by
  rw [plcontainerGetResult, plcGetRuntimeConfiguration, if_neg hloaded]
  rcases findEntry call.runtime tables.runtimes with _ | entry
  · exact ⟨rfl, rfl⟩
  · rw [Option.bind_some, Option.elim_some, RuntimeConfEntry.decision]
    by_cases hcontrol : entry.useUserControl = true
    · simp only [pure, Except.pure, hcontrol, if_true]
      refine ⟨?_, ?_⟩
      · rw [← toOption_plcCheckUserPrivilege]
        exact decisionOf_check _ _ (plcCheckUserPrivilege_ne_noPrivilege env call.user entry.roles)
      · rw [plcCheckUserPrivilege_snd]
    · simp only [pure, Except.pure, hcontrol]
      exact ⟨rfl, rfl⟩

theorem findEntry_setRoles (runtime other : XmlText) (roles : Option XmlText) :
    findEntry runtime (tables.setRoles other roles).runtimes =
      (findEntry runtime tables.runtimes).map fun entry =>
        if runtimeKey entry.runtimeid = runtimeKey other then { entry with roles := roles }
        else entry := by
  rw [findEntry, ConfTables.setRoles, List.find?_map, findEntry]
  congr 2
  funext entry
  rw [Function.comp_apply]
  split
  · rfl
  · rfl

theorem runtimeKey_of_findEntry {runtime : XmlText} {table : List RuntimeConfEntry}
    {entry : RuntimeConfEntry} (h : findEntry runtime table = some entry) :
    runtimeKey entry.runtimeid = runtimeKey runtime := by
  have hfound := List.find?_some h
  exact of_decide_eq_true hfound

theorem findEntry_congr {runtime other : XmlText} (h : runtimeKey runtime = runtimeKey other)
    (table : List RuntimeConfEntry) : findEntry runtime table = findEntry other table := by
  rw [findEntry, findEntry, h]

theorem RuntimeConfEntry.checked_of_not_control {entry : RuntimeConfEntry}
    (h : entry.useUserControl = false) (n : ℕ) : entry.checked n = entry := by
  rw [checked, h]
  rfl

theorem RuntimeConfEntry.checked_of_control {entry : RuntimeConfEntry}
    (h : entry.useUserControl = true) (n : ℕ) :
    entry.checked n = { entry with roles := entry.roles.map textAfterSplit^[n] } :=
  if_pos h

theorem RuntimeConfEntry.checked_zero (entry : RuntimeConfEntry) : entry.checked 0 = entry := by
  by_cases h : entry.useUserControl = true
  · rw [checked_of_control h, Function.iterate_zero, Option.map_id_fun, id]
  · exact checked_of_not_control (Bool.eq_false_iff.2 h) 0

theorem RuntimeConfEntry.checked_checked (m n : ℕ) (entry : RuntimeConfEntry) :
    (entry.checked m).checked n = entry.checked (m + n) := by
  by_cases h : entry.useUserControl = true
  · unfold checked
    simp only [h, if_true, Option.map_map, ← Function.iterate_add, Nat.add_comm]
  · have hfalse := Bool.eq_false_iff.2 h
    rw [checked_of_not_control hfalse, checked_of_not_control hfalse, checked_of_not_control hfalse]

/-- A call checks the roles of its own runtime. -/
theorem findEntry_next (hloaded : tables.runtimes ≠ []) (call : RuntimeCall) (runtime : XmlText) :
    findEntry runtime (tables.next loader env (.call call)).runtimes =
      (findEntry runtime tables.runtimes).map
        (.checked (if runtimeKey call.runtime = runtimeKey runtime then 1 else 0)) := by
  rw [ConfTables.next, (plcontainerGetResult_loaded hloaded call).2]
  by_cases hkey : runtimeKey call.runtime = runtimeKey runtime
  · rw [if_pos hkey, findEntry_congr hkey]
    rcases hentry : findEntry runtime tables.runtimes with _ | entry
    · rw [Option.elim_none, hentry, Option.map_none]
    · rw [Option.elim_some, Option.map_some]
      by_cases hcontrol : entry.useUserControl = true
      · rw [if_pos hcontrol, findEntry_setRoles, hentry, Option.map_some, if_pos,
          RuntimeConfEntry.checked_of_control hcontrol, Function.iterate_one]
        rw [runtimeKey_of_findEntry hentry, hkey]
      · rw [if_neg hcontrol, hentry,
          RuntimeConfEntry.checked_of_not_control (Bool.eq_false_iff.2 hcontrol)]
  · rw [if_neg hkey, funext RuntimeConfEntry.checked_zero, Option.map_id']
    rcases findEntry call.runtime tables.runtimes with _ | other
    · rw [Option.elim_none]
    · rw [Option.elim_some]
      split
      · rw [findEntry_setRoles]
        rcases hentry : findEntry runtime tables.runtimes with _ | entry
        · rfl
        · rw [Option.map_some, if_neg]
          rw [runtimeKey_of_findEntry hentry]
          exact Ne.symm hkey
      · rfl

theorem runtimes_next_ne_nil (hloaded : tables.runtimes ≠ []) (call : RuntimeCall) :
    (tables.next loader env (.call call)).runtimes ≠ [] := by
  rw [ConfTables.next, (plcontainerGetResult_loaded hloaded call).2]
  rcases findEntry call.runtime tables.runtimes with _ | entry
  · exact hloaded
  · rw [Option.elim_some]
    split
    · exact fun h => hloaded (List.map_eq_nil_iff.1 h)
    · exact hloaded

theorem runtimes_afterCalls_ne_nil (hloaded : tables.runtimes ≠ []) (calls : List RuntimeCall) :
    (tables.afterCalls loader env calls).runtimes ≠ [] := by
  induction calls generalizing tables with
  | nil => exact hloaded
  | cons call calls ih => exact ih (runtimes_next_ne_nil hloaded call)

/-- A session checks the roles of a runtime as often as it calls it. -/
theorem findEntry_afterCalls (hloaded : tables.runtimes ≠ []) (calls : List RuntimeCall)
    (runtime : XmlText) :
    findEntry runtime (tables.afterCalls loader env calls).runtimes =
      (findEntry runtime tables.runtimes).map
        (.checked (calls.countP fun call => runtimeKey call.runtime = runtimeKey runtime)) := by
  induction calls generalizing tables with
  | nil => rw [List.countP_nil, funext RuntimeConfEntry.checked_zero, Option.map_id']; rfl
  | cons call calls ih =>
      rw [ConfTables.afterCalls, List.foldl_cons]
      refine (ih (runtimes_next_ne_nil hloaded call)).trans ?_
      rw [findEntry_next hloaded, Option.map_map, List.countP_cons, Nat.add_comm]
      congr 1
      funext entry
      rw [Function.comp_apply, RuntimeConfEntry.checked_checked]
      simp only [decide_eq_true_eq]

theorem decision_afterCalls (hloaded : tables.runtimes ≠ []) (calls : List RuntimeCall)
    (call : RuntimeCall) :
    decisionOf (plcontainerGetResult loader env (tables.afterCalls loader env calls) call).1 =
      (findEntry call.runtime tables.runtimes).bind fun entry =>
        (entry.checked (calls.countP fun c => runtimeKey c.runtime = runtimeKey call.runtime)).decision
          env call.user := by
  rw [(plcontainerGetResult_loaded (runtimes_afterCalls_ne_nil hloaded calls) call).1,
    findEntry_afterCalls hloaded, Option.bind_map]
  rfl

/-- The decision of an entry with the permission check and with roles. -/
theorem RuntimeConfEntry.decision_checked {entry : RuntimeConfEntry} {raw : XmlText}
    (hcontrol : entry.useUserControl = true) (hroles : entry.roles = some raw) (n : ℕ) (user : Oid) :
    (entry.checked n).decision env user = privilegeAnswer env user (textAfterSplit^[n] raw) := by
  rw [checked_of_control hcontrol, decision, if_pos hcontrol, hroles]
  rfl

end Session

/-- The decision on a call is the same after any calls of the session, by any users and for any
    runtimes, exactly if the roles of every runtime with the permission check are stable. -/
theorem privilege_decision_repeatable_iff (loader : LoaderEnv) (env : RoleEnv) (tables : ConfTables)
    (hloaded : tables.runtimes ≠ []) :
    (∀ calls call,
      decisionOf (plcontainerGetResult loader env (tables.afterCalls loader env calls) call).1 =
        decisionOf (plcontainerGetResult loader env tables call).1) ↔
    ∀ runtime entry raw, findEntry runtime tables.runtimes = some entry →
      entry.useUserControl = true → entry.roles = some raw → RolesStable env raw := by
  constructor
  · intro h runtime entry raw hentry hcontrol hroles
    rw [← answers_eq_iff_rolesStable]
    intro n user
    have hn := h (List.replicate n ⟨none, user, runtime⟩) ⟨none, user, runtime⟩
    have hzero : decisionOf (plcontainerGetResult loader env tables ⟨none, user, runtime⟩).1 = _ :=
      decision_afterCalls hloaded [] ⟨none, user, runtime⟩
    rw [decision_afterCalls hloaded, hzero, hentry, Option.bind_some, Option.bind_some,
      RuntimeConfEntry.decision_checked hcontrol hroles,
      RuntimeConfEntry.decision_checked hcontrol hroles, List.countP_nil, List.countP_replicate,
      if_pos (decide_eq_true rfl)] at hn
    exact hn
  · intro h calls call
    have hzero : decisionOf (plcontainerGetResult loader env tables call).1 = _ :=
      decision_afterCalls hloaded [] call
    rw [decision_afterCalls hloaded, hzero]
    rcases hentry : findEntry call.runtime tables.runtimes with _ | entry
    · rfl
    · rw [Option.bind_some, Option.bind_some, List.countP_nil, RuntimeConfEntry.checked_zero]
      by_cases hcontrol : entry.useUserControl = true
      · rcases hroles : entry.roles with _ | raw
        · rw [RuntimeConfEntry.checked_of_control hcontrol, hroles, Option.map_none, ← hroles]
        · have hstable := h call.runtime entry raw hentry hcontrol hroles
          rw [RuntimeConfEntry.decision_checked hcontrol hroles,
            (answers_eq_iff_rolesStable env raw).2 hstable, RuntimeConfEntry.decision,
            if_pos hcontrol, hroles, Option.elim_some]
      · rw [RuntimeConfEntry.checked_of_not_control (Bool.eq_false_iff.2 hcontrol)]

/-- The tables after the configuration was loaded. -/
def loadedTables (document : XmlElement) : ConfTables :=
  (plcRefreshContainerConfig plainLoader (some document)).2

/-- With a single plain name every call is decided alike. -/
theorem privilege_decision_repeatable_one_role :
    (loadedTables networkDocument).runtimes ≠ [] ∧ ∀ calls call,
      decisionOf (plcontainerGetResult plainLoader oneRole
          ((loadedTables networkDocument).afterCalls plainLoader oneRole calls) call).1 =
        decisionOf (plcontainerGetResult plainLoader oneRole (loadedTables networkDocument) call).1 := by
  have hloaded : (loadedTables networkDocument).runtimes ≠ [] := List.cons_ne_nil _ _
  refine ⟨hloaded,
    (privilege_decision_repeatable_iff plainLoader oneRole (loadedTables networkDocument) hloaded).2 ?_⟩
  intro runtime entry raw hentry _ hroles
  have hmem : entry ∈ (loadedTables networkDocument).runtimes := List.mem_of_find?_eq_some hentry
  obtain rfl : raw = ['A'] := by
    obtain ⟨e, he⟩ : ∃ e, (loadedTables networkDocument).runtimes = [e] ∧ e.roles = some ['A'] :=
      ⟨_, rfl, rfl⟩
    rw [he.1, List.mem_singleton] at hmem
    rw [hmem, he.2] at hroles
    exact (Option.some.inj hroles).symm
  refine ⟨rfl, fun user _ name hname hmember first hfirst => ?_⟩
  obtain rfl : ['a'] = name := (List.mem_singleton.1 hname).symm
  obtain rfl : ['a'] = first := Option.some.inj hfirst
  exact hmember

/-- A runtime whose list is `a,b`. -/
def twoRolesDocument : XmlElement :=
  ⟨[], .configuration, [],
    [.element [] .runtime []
      [.element [] .id [] [.text ['r']], .element [] .image [] [.text ['i']],
        .element [] .command [] [.text ['c']], .element [] .setting [⟨[], .roles, ['a', ',', 'b']⟩] []]]⟩

/-- Two roles; the user 7 is a member of the second one. -/
def twoRoles : RoleEnv where
  roleOid name := if name = ['a'] then 10 else if name = ['b'] then 11 else 0
  isMemberOfRole user role := user == 7 && role == 11
  superuser _ := false
  not_member_invalid user _ := by simp

/-- The user's first call goes on. The next one is refused, since the list is down to `a`. -/
theorem second_call_refused :
    decisionOf (plcontainerGetResult plainLoader twoRoles (loadedTables twoRolesDocument)
        ⟨none, 7, ['r']⟩).1 = some true ∧
      decisionOf (plcontainerGetResult plainLoader twoRoles
        ((loadedTables twoRolesDocument).afterCalls plainLoader twoRoles [⟨none, 7, ['r']⟩])
        ⟨none, 7, ['r']⟩).1 = some false :=
  ⟨rfl, rfl⟩

end PlContainer
