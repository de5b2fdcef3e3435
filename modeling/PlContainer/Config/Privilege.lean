import PlContainer.Config.Loader
import PlContainer.Library.Checked

set_option autoImplicit false

/-! # The permission check of a call

A runtime that enables the network or asks for devices may be used by the members of its `roles` only.
The parser marks such a runtime with `useUserControl`, and `plcontainer_get_result` checks the mark
before it starts a container or sends a request. The check reads the stored text with PostgreSQL's
`SplitIdentifierString`, which works in place: the next check finds another text. -/

namespace PlContainer

open Checked Runs

/-! ## `SplitIdentifierString` -/

def scannerIsspace (c : Char) : Bool := c ∈ [' ', '\t', '\n', '\r', '\x0c']

/-- The characters that belong to an unquoted name. -/
def isNameChar (c : Char) : Bool := c ≠ ',' && !scannerIsspace c

/-- The characters that fit into so many bytes. -/
def clipBytes : ℕ → List Char → List Char
  | _, [] => []
  | n, c :: cs => if c.utf8Size ≤ n then c :: clipBytes (n - c.utf8Size) cs else []

/-- `truncate_identifier`: an identifier has less than `NAMEDATALEN` bytes. -/
def truncateIdentifier (name : XmlText) : XmlText := clipBytes 63 name

def downcaseTruncateIdentifier (word : XmlText) : XmlText :=
  truncateIdentifier (word.map Char.toLower)

/-- A quoted name, after the opening quote. Pairs of quotes collapse; without a closing quote there
    is nothing behind the text. -/
def scanQuoted : XmlText → XmlText × Option XmlText
  | [] => ([], none)
  | '"' :: '"' :: cs => ('"' :: (scanQuoted cs).1, (scanQuoted cs).2)
  | '"' :: cs => ([], some cs)
  | c :: cs => (c :: (scanQuoted cs).1, (scanQuoted cs).2)

/-- The name at the start of the text, and the text behind it. -/
def scanName : XmlText → Option (XmlText × XmlText)
  | '"' :: cs =>
      match scanQuoted cs with
      | (_, none) => none
      | (name, some rest) => some (truncateIdentifier name, rest)
  | cs =>
      match cs.takeWhile isNameChar with
      | [] => none
      | word => some (downcaseTruncateIdentifier word, cs.dropWhile isNameChar)

/-- The names from the start of one on; `none` is a syntax error. Every name takes at least one
    character, so the length of the text is enough fuel. -/
def splitNames : ℕ → XmlText → Option (List XmlText)
  | 0, _ => none
  | fuel + 1, cs =>
      match scanName cs with
      | none => none
      | some (name, rest) =>
          match rest.dropWhile scannerIsspace with
          | [] => some [name]
          | ',' :: rest =>
              (splitNames fuel (rest.dropWhile scannerIsspace)).map fun names => name :: names
          | _ => none

theorem length_scanQuoted {cs rest : XmlText} (h : (scanQuoted cs).2 = some rest) :
    rest.length < cs.length := by
  fun_induction scanQuoted cs with
  | case1 => cases h
  | case2 cs ih =>
      have hlen := ih h
      rw [List.length_cons, List.length_cons]
      omega
  | case3 cs hne =>
      obtain rfl : cs = rest := by simpa using h
      exact Nat.lt_succ_self _
  | case4 c cs hpair hquote ih =>
      have hlen := ih h
      rw [List.length_cons]
      omega

/-- A name takes at least one character. -/
theorem length_scanName {cs name rest : XmlText} (h : scanName cs = some (name, rest)) :
    rest.length < cs.length := by
  unfold scanName at h
  split at h
  next cs' =>
    split at h
    · cases h
    next hquoted =>
      obtain ⟨-, rfl⟩ : _ ∧ _ = rest := by simpa using h
      have hlen := length_scanQuoted (congrArg Prod.snd hquoted)
      rw [List.length_cons]
      omega
  next =>
    split at h
    · cases h
    next hword =>
      obtain ⟨-, rfl⟩ : _ ∧ _ = rest := by simpa using h
      have hlen := congrArg List.length (List.takeWhile_append_dropWhile (p := isNameChar) (l := cs))
      rw [List.length_append] at hlen
      have hpos := List.length_pos_iff.2 hword
      omega

theorem splitNames_succ {fuel : ℕ} {cs : XmlText} (h : cs.length ≤ fuel) :
    splitNames (fuel + 1) cs = splitNames fuel cs := by
  induction fuel generalizing cs with
  | zero =>
      obtain rfl : cs = [] := List.eq_nil_of_length_eq_zero (Nat.le_zero.1 h)
      rfl
  | succ fuel ih =>
      rw [splitNames, splitNames]
      rcases hscan : scanName cs with _ | ⟨name, rest⟩
      · rfl
      · have hlen := length_scanName hscan
        dsimp only
        split
        · rfl
        next rest' hrest =>
          have hdrop := congrArg List.length hrest
          have hle := List.length_dropWhile_le scannerIsspace rest
          have hle' := List.length_dropWhile_le scannerIsspace rest'
          rw [List.length_cons] at hdrop
          rw [ih (by omega)]
        · rfl

/-- More fuel than the text has characters changes nothing. -/
theorem splitNames_add (cs : XmlText) (n : ℕ) :
    splitNames (cs.length + n) cs = splitNames cs.length cs := by
  induction n with
  | zero => rfl
  | succ n ih => rw [← Nat.add_assoc, splitNames_succ (Nat.le_add_right _ _), ih]

/-- The names that `SplitIdentifierString` finds. -/
def splitIdentifierString (raw : XmlText) : Option (List XmlText) :=
  match raw.dropWhile scannerIsspace with
  | [] => some []
  | cs => splitNames cs.length cs

/-- A separator or the end follows. -/
def endsName (rest : XmlText) : Bool :=
  match rest.dropWhile scannerIsspace with
  | [] => true
  | c :: _ => c == ','

/-- The text that `SplitIdentifierString` leaves, up to its first zero byte. The first name is ended
    by a zero byte unless a syntax error follows it; an unquoted name is overwritten in lower case, and
    padded with zero bytes if it is cut. -/
def textAfterSplit (raw : XmlText) : XmlText :=
  let spaces := raw.takeWhile scannerIsspace
  match raw.dropWhile scannerIsspace with
  | [] => raw
  | '"' :: cs =>
      match scanQuoted cs with
      | (text, none) => spaces ++ '"' :: text
      | (name, some rest) =>
          if endsName rest then spaces ++ '"' :: truncateIdentifier name
          else spaces ++ '"' :: (name ++ '"' :: rest)
  | cs =>
      match cs.takeWhile isNameChar with
      | [] => raw
      | word =>
          let name := downcaseTruncateIdentifier word
          if endsName (cs.dropWhile isNameChar) ∨ name.length < word.length then spaces ++ name
          else spaces ++ name ++ cs.dropWhile isNameChar

/-! ## The check -/

/-- The roles of the database. -/
structure RoleEnv where
  /-- `get_role_oid` with `missing_ok`: 0 is no role -/
  roleOid : XmlText → Oid
  isMemberOfRole : Oid → Oid → Bool
  superuser : Oid → Bool
  not_member_invalid : ∀ user, superuser user = false → isMemberOfRole user 0 = false

inductive CallError where
  | config (e : ConfigError)
  | undefinedRuntime (runtime : XmlText)
  | badRoles (roles : XmlText)
  | noUser
  | noPrivilege (runtime : XmlText)
deriving DecidableEq, Repr

/-- `plc_check_user_privilege`: its answer, and what it leaves of the text. The error shows the text as
    it was left. -/
def plcCheckUserPrivilege (env : RoleEnv) (user : Oid) :
    Option XmlText → Except CallError Bool × Option XmlText
  | none => (pure false, none)
  | some roles =>
      (match splitIdentifierString roles with
        | none => throw (.badRoles (textAfterSplit roles))
        | some names =>
            if user = 0 then throw .noUser
            else pure (names.any fun name => env.isMemberOfRole user (env.roleOid name)),
        some (textAfterSplit roles))

/-- `plc_get_runtime_configuration`: the tables are loaded when there is no runtime in them. -/
def plcGetRuntimeConfiguration (env : LoaderEnv) (file : Option XmlElement) (tables : ConfTables)
    (runtime : XmlText) : Except ConfigError (Option RuntimeConfEntry) × ConfTables :=
  if tables.runtimes = [] then
    match plcRefreshContainerConfig env file with
    | (.error e, tables) => (throw e, tables)
    | (.ok (), tables) => (pure (findEntry runtime tables.runtimes), tables)
  else (pure (findEntry runtime tables.runtimes), tables)

/-- Another text for the roles of a runtime. -/
def ConfTables.setRoles (tables : ConfTables) (runtime : XmlText) (roles : Option XmlText) :
    ConfTables :=
  { tables with
    runtimes := tables.runtimes.map fun entry =>
      if runtimeKey entry.runtimeid = runtimeKey runtime then { entry with roles := roles }
      else entry }

/-- A call, with the configuration file at that time. -/
structure RuntimeCall where
  file : Option XmlElement
  user : Oid
  runtime : XmlText

/-- `plcontainer_get_result` up to the point where it starts a container, or sends the request to one
    that is there: the entry it has looked up, and the tables it leaves. -/
def plcontainerGetResult (env : LoaderEnv) (roles : RoleEnv) (tables : ConfTables)
    (call : RuntimeCall) : Except CallError RuntimeConfEntry × ConfTables :=
  match plcGetRuntimeConfiguration env call.file tables call.runtime with
  | (.error e, tables) => (throw (.config e), tables)
  | (.ok none, tables) => (throw (.undefinedRuntime call.runtime), tables)
  | (.ok (some entry), tables) =>
      if entry.useUserControl then
        let checked := plcCheckUserPrivilege roles call.user entry.roles
        (do
          let granted ← checked.1
          if granted then pure entry else throw (.noPrivilege call.runtime),
          tables.setRoles call.runtime checked.2)
      else (pure entry, tables)

/-! ## What the parser marks -/

/-- The part of the mark that the first pass over a runtime's children sees to. -/
def RuntimeConfEntry.NetworkGuarded (entry : RuntimeConfEntry) : Prop :=
  entry.enableNetwork = true → entry.useUserControl = true

/-- **A runtime with network or devices has the permission check.** -/
structure RuntimeConfEntry.Guarded (entry : RuntimeConfEntry) : Prop where
  network : entry.NetworkGuarded
  devices : entry.devicerequests ≠ [] → entry.useUserControl = true

section Parser

variable {env : LoaderEnv} {backends : List PlcBackend} {entry entry' : RuntimeConfEntry}

theorem networkGuarded_applySetting {props : List XmlProp} {attr : Attr}
    {set : XmlText → RuntimeConfEntry → Except ConfigError RuntimeConfEntry}
    (hset : ∀ value e', set value entry = .ok e' → e'.NetworkGuarded)
    (h : entry.NetworkGuarded) (hok : applySetting props attr set entry = .ok entry') :
    entry'.NetworkGuarded := by
  rw [applySetting] at hok
  split at hok
  · rw [← pure_eq_ok.1 hok]
    exact h
  · exact hset _ _ hok

theorem networkGuarded_setEnableNetwork {value : XmlText}
    (hok : setEnableNetwork value entry = .ok entry') : entry'.NetworkGuarded := by
  obtain ⟨b, -, hb⟩ := bind_eq_ok.1 hok
  obtain rfl := pure_eq_ok.1 hb
  intro henabled
  have hb' : b = true := henabled
  simp [hb']

theorem networkGuarded_setRoles {value : XmlText} (hok : setRoles value entry = .ok entry') :
    entry'.NetworkGuarded := by
  rw [setRoles] at hok
  split at hok
  · exact (throw_eq_ok.1 hok).elim
  · obtain rfl := pure_eq_ok.1 hok
    exact fun _ => rfl

/-- The other settings change neither field. -/
theorem networkGuarded_of_bind {α : Type} {x : Except ConfigError α} {f : α → RuntimeConfEntry}
    (hf : ∀ a, (f a).enableNetwork = entry.enableNetwork ∧
      (f a).useUserControl = entry.useUserControl)
    (h : entry.NetworkGuarded) (hok : (do let a ← x; pure (f a)) = .ok entry') :
    entry'.NetworkGuarded := by
  obtain ⟨a, -, ha⟩ := bind_eq_ok.1 hok
  obtain rfl := pure_eq_ok.1 ha
  rw [RuntimeConfEntry.NetworkGuarded, (hf a).1, (hf a).2]
  exact h

theorem networkGuarded_setUseContainerLogging {value : XmlText} (h : entry.NetworkGuarded)
    (hok : setUseContainerLogging value entry = .ok entry') : entry'.NetworkGuarded :=
  networkGuarded_of_bind (f := fun b => { entry with useContainerLogging := b })
    (fun _ => ⟨rfl, rfl⟩) h hok

theorem networkGuarded_setMemoryMb {value : XmlText} (h : entry.NetworkGuarded)
    (hok : setMemoryMb value entry = .ok entry') : entry'.NetworkGuarded :=
  networkGuarded_of_bind (f := fun n => { entry with memoryMb := n }) (fun _ => ⟨rfl, rfl⟩) h hok

theorem networkGuarded_setCpuShare {value : XmlText} (h : entry.NetworkGuarded)
    (hok : setCpuShare value entry = .ok entry') : entry'.NetworkGuarded :=
  networkGuarded_of_bind (f := fun n => { entry with cpuShare := n }) (fun _ => ⟨rfl, rfl⟩) h hok

theorem networkGuarded_setResourceGroupId {value : XmlText} (h : entry.NetworkGuarded)
    (hok : setResourceGroupId env value entry = .ok entry') : entry'.NetworkGuarded :=
  networkGuarded_of_bind (f := fun oid => { entry with resgroupOid := oid })
    (fun _ => ⟨rfl, rfl⟩) h hok

theorem networkGuarded_parseSetting {props : List XmlProp} (h : entry.NetworkGuarded)
    (hok : parseSetting env entry props = .ok entry') : entry'.NetworkGuarded := by
  obtain ⟨e₁, h₁, hok⟩ := bind_eq_ok.1 hok
  obtain ⟨e₂, h₂, hok⟩ := bind_eq_ok.1 hok
  obtain ⟨e₃, h₃, hok⟩ := bind_eq_ok.1 hok
  obtain ⟨e₄, h₄, hok⟩ := bind_eq_ok.1 hok
  obtain ⟨e₅, h₅, hok⟩ := bind_eq_ok.1 hok
  obtain ⟨e₆, h₆, hok⟩ := bind_eq_ok.1 hok
  have g₁ := networkGuarded_applySetting (fun _ _ => networkGuarded_setUseContainerLogging h) h h₁
  have g₂ := networkGuarded_applySetting (fun _ _ => networkGuarded_setMemoryMb g₁) g₁ h₂
  have g₃ := networkGuarded_applySetting (fun _ _ => networkGuarded_setCpuShare g₂) g₂ h₃
  have g₄ := networkGuarded_applySetting (fun _ _ => networkGuarded_setEnableNetwork) g₃ h₄
  have g₅ := networkGuarded_applySetting (fun _ _ => networkGuarded_setResourceGroupId g₄) g₄ h₅
  have g₆ := networkGuarded_applySetting (fun _ _ => networkGuarded_setRoles) g₅ h₆
  split at hok
  · rw [← pure_eq_ok.1 hok]
    exact g₆
  · exact (throw_eq_ok.1 hok).elim

theorem networkGuarded_parseBackendRef {e : XmlElement} (h : entry.NetworkGuarded)
    (hok : parseBackendRef backends entry e = .ok entry') : entry'.NetworkGuarded := by
  obtain ⟨name, -, hok⟩ := bind_eq_ok.1 hok
  split at hok
  · exact (throw_eq_ok.1 hok).elim
  · split at hok
    · exact (throw_eq_ok.1 hok).elim
    · obtain rfl := pure_eq_ok.1 hok
      exact h

theorem networkGuarded_parseChild {e : XmlElement} (h : entry.NetworkGuarded)
    (hok : parseChild env backends entry e = .ok entry') : entry'.NetworkGuarded := by
  rw [parseChild] at hok
  split at hok
  · obtain rfl := pure_eq_ok.1 hok
    exact h
  · obtain rfl := pure_eq_ok.1 hok
    exact h
  · obtain rfl := pure_eq_ok.1 hok
    exact h
  · exact networkGuarded_parseSetting h hok
  · obtain rfl := pure_eq_ok.1 hok
    exact h
  · split at hok
    · exact (throw_eq_ok.1 hok).elim
    · obtain rfl := pure_eq_ok.1 hok
      exact h
  · exact networkGuarded_parseBackendRef h hok
  · exact (throw_eq_ok.1 hok).elim

/-- Every device request asks for devices: an empty list of ids becomes a request for all. -/
theorem asksForDevices_parseDeviceRequest (e : XmlElement) :
    (parseDeviceRequest e).asksForDevices = true := by
  rw [PlcDeviceRequest.asksForDevices, parseDeviceRequest]
  split
  · rfl
  next hlisted =>
    have hids : childrenNamed .deviceid e.children ≠ [] := by
      intro hnil
      exact hlisted (.inl (by rw [hnil]; rfl))
    simpa using hids

theorem guarded_setDeviceRequests {entry : RuntimeConfEntry} (h : entry.NetworkGuarded)
    (es : List XmlElement) :
    (setDeviceRequests entry (es.map parseDeviceRequest)).Guarded where
  network hnet := by
    rw [setDeviceRequests]
    simp [h hnet]
  devices hne := by
    cases es with
    | nil => exact absurd rfl hne
    | cons e es => simp [setDeviceRequests, asksForDevices_parseDeviceRequest]

theorem guarded_parseRuntime {id : XmlText} {children : List XmlNode}
    (hok : parseRuntime env backends id children = .ok entry) : entry.Guarded := by
  obtain ⟨first, hfirst, hok⟩ := bind_eq_ok.1 hok
  obtain ⟨-, -, hok⟩ := bind_eq_ok.1 hok
  obtain ⟨-, -, hok⟩ := bind_eq_ok.1 hok
  obtain ⟨dirs, -, hok⟩ := bind_eq_ok.1 hok
  have hnet : first.NetworkGuarded :=
    foldlM_invariant (fun _ _ _ h hstep => networkGuarded_parseChild h hstep)
      (by intro henabled; cases henabled) hfirst
  have hdirs : RuntimeConfEntry.NetworkGuarded { first with sharedDirs := dirs } := hnet
  have hguarded := guarded_setDeviceRequests hdirs (childrenNamed .deviceRequest children)
  obtain rfl := pure_eq_ok.1 hok
  rw [applyDefaultBackend]
  split
  · exact hguarded
  · exact ⟨hguarded.network, hguarded.devices⟩

variable (env) (backends)

/-- Every entry of the table is marked, after a failed parse as well. -/
theorem guarded_parseRuntimeConfiguration (children : List XmlNode) {table : List RuntimeConfEntry}
    (h : ∀ e ∈ table, e.Guarded) :
    ∀ e ∈ (parseRuntimeConfiguration env backends table children).2, e.Guarded := by
  have hremove (id : XmlText) : ∀ e ∈ removeEntry id table, e.Guarded :=
    fun e he => h e (List.mem_of_mem_filter he)
  rw [parseRuntimeConfiguration]
  split
  · exact h
  · exact hremove _
  · split
    · exact hremove _
    · split
      · exact hremove _
      · split
        · exact hremove _
        next entry hparse =>
          intro e he
          rcases List.mem_append.1 he with he | he
          · exact h e he
          · rw [List.mem_singleton.1 he]
            exact guarded_parseRuntime hparse

theorem guarded_parseRuntimes (es : List XmlElement) {table : List RuntimeConfEntry}
    (h : ∀ e ∈ table, e.Guarded) : ∀ e ∈ (parseRuntimes env backends es table).2, e.Guarded := by
  induction es generalizing table with
  | nil => exact h
  | cons e es ih =>
      have hfirst := guarded_parseRuntimeConfiguration env backends e.children h
      rw [parseRuntimes]
      split
      next table' hparse =>
        rw [hparse] at hfirst
        exact hfirst
      next table' hparse =>
        rw [hparse] at hfirst
        exact ih hfirst

end Parser

/-! ## Sessions -/

/-- Every runtime of the tables has the check it needs. -/
def ConfTables.Guarded (tables : ConfTables) : Prop := ∀ entry ∈ tables.runtimes, entry.Guarded

theorem guarded_plcRefreshContainerConfig (env : LoaderEnv) (file : Option XmlElement) :
    (plcRefreshContainerConfig env file).2.Guarded := by
  have hnil : ∀ e ∈ ([] : List RuntimeConfEntry), e.Guarded := fun e he => absurd he List.not_mem_nil
  have hempty : ConfTables.empty.Guarded := hnil
  rcases file with _ | root
  · exact hempty
  · rw [plcRefreshContainerConfig, getRuntimeConfigurations]
    split
    · exact hempty
    · split
      · exact hempty
      next backends _ =>
        have hruntimes := guarded_parseRuntimes env backends (childrenNamed .runtime root.children)
          hnil
        split
        next hparse =>
          rw [hparse] at hruntimes
          exact hruntimes
        next hparse =>
          rw [hparse] at hruntimes
          exact hruntimes

theorem guarded_plcGetRuntimeConfiguration (env : LoaderEnv) {tables : ConfTables}
    (h : tables.Guarded) (file : Option XmlElement) (runtime : XmlText) :
    (plcGetRuntimeConfiguration env file tables runtime).2.Guarded := by
  have hrefresh := guarded_plcRefreshContainerConfig env file
  rw [plcGetRuntimeConfiguration]
  split
  · split
    next hres =>
      rw [hres] at hrefresh
      exact hrefresh
    next hres =>
      rw [hres] at hrefresh
      exact hrefresh
  · exact h

/-- The entry of a call is in the tables. -/
theorem mem_of_plcGetRuntimeConfiguration {env : LoaderEnv} {file : Option XmlElement}
    {tables : ConfTables} {runtime : XmlText} {entry : RuntimeConfEntry}
    (h : (plcGetRuntimeConfiguration env file tables runtime).1 = .ok (some entry)) :
    entry ∈ (plcGetRuntimeConfiguration env file tables runtime).2.runtimes := by
  rw [plcGetRuntimeConfiguration] at h ⊢
  split at h
  next hnone =>
    rw [if_pos hnone]
    split at h
    · exact (throw_eq_ok.1 h).elim
    · exact List.mem_of_find?_eq_some (pure_eq_ok.1 h)
  next hsome =>
    rw [if_neg hsome]
    exact List.mem_of_find?_eq_some (pure_eq_ok.1 h)

theorem guarded_setRoles {tables : ConfTables} (h : tables.Guarded) (runtime : XmlText)
    (roles : Option XmlText) : (tables.setRoles runtime roles).Guarded := by
  intro e he
  obtain ⟨entry, hentry, rfl⟩ := List.mem_map.1 he
  obtain ⟨hnet, hdev⟩ := h entry hentry
  split
  · exact ⟨hnet, hdev⟩
  · exact ⟨hnet, hdev⟩

theorem guarded_plcontainerGetResult {env : LoaderEnv} {tables : ConfTables} (h : tables.Guarded)
    (roles : RoleEnv) (call : RuntimeCall) :
    (plcontainerGetResult env roles tables call).2.Guarded := by
  have hget := guarded_plcGetRuntimeConfiguration env h call.file call.runtime
  rw [plcontainerGetResult]
  split
  next hres =>
    rw [hres] at hget
    exact hget
  next hres =>
    rw [hres] at hget
    exact hget
  next hres =>
    rw [hres] at hget
    split
    · exact guarded_setRoles hget _ _
    · exact hget

inductive ConfEvent where
  /-- `refresh_plcontainer_config`, with the file at that time -/
  | refresh (file : Option XmlElement)
  | call (call : RuntimeCall)

/-- The tables after an event, whether it succeeds or fails. -/
def ConfTables.next (env : LoaderEnv) (roles : RoleEnv) (tables : ConfTables) :
    ConfEvent → ConfTables
  | .refresh file => (plcRefreshContainerConfig env file).2
  | .call call => (plcontainerGetResult env roles tables call).2

/-- The tables of a session. -/
def ConfTables.Reached (env : LoaderEnv) (roles : RoleEnv) : ConfTables → Prop :=
  ReachableUnder (· = .empty) (fun tables e tables' => tables' = tables.next env roles e)
    fun _ _ => True

theorem ConfTables.Reached.guarded {env : LoaderEnv} {roles : RoleEnv} {tables : ConfTables}
    (h : tables.Reached env roles) : tables.Guarded := by
  refine h.invariant (fun t ht => ?_) fun t e t' ht _ hstep => ?_
  · obtain rfl : t = .empty := ht
    exact fun _ he => absurd he List.not_mem_nil
  · obtain rfl := hstep
    rcases e with file | call
    · exact guarded_plcRefreshContainerConfig env file
    · exact guarded_plcontainerGetResult ht roles call

/-- A call that is not refused has passed the check, if its runtime has one. -/
theorem checked_of_plcontainerGetResult {env : LoaderEnv} {roles : RoleEnv} {tables : ConfTables}
    {call : RuntimeCall} {entry : RuntimeConfEntry}
    (h : (plcontainerGetResult env roles tables call).1 = .ok entry) :
    (plcGetRuntimeConfiguration env call.file tables call.runtime).1 = .ok (some entry) ∧
    (entry.useUserControl = true →
      (plcCheckUserPrivilege roles call.user entry.roles).1 = .ok true) := by
  rw [plcontainerGetResult] at h
  split at h
  · exact (throw_eq_ok.1 h).elim
  · exact (throw_eq_ok.1 h).elim
  next entry' tables' hres =>
    rw [hres]
    split at h
    next hcontrol =>
      obtain ⟨granted, hgranted, h⟩ := bind_eq_ok.1 h
      split at h
      next htrue =>
        obtain rfl := pure_eq_ok.1 h
        exact ⟨rfl, fun _ => htrue ▸ hgranted⟩
      · exact (throw_eq_ok.1 h).elim
    next hcontrol =>
      obtain rfl := pure_eq_ok.1 h
      exact ⟨rfl, fun hcontrol' => absurd hcontrol' hcontrol⟩

/-- What a check that grants has found. -/
theorem member_of_plcCheckUserPrivilege {env : RoleEnv} {user : Oid} {roles : Option XmlText}
    (h : (plcCheckUserPrivilege env user roles).1 = .ok true) :
    ∃ text names, roles = some text ∧ splitIdentifierString text = some names ∧
      ∃ name ∈ names, env.isMemberOfRole user (env.roleOid name) = true := by
  rcases roles with _ | text
  · cases pure_eq_ok.1 h
  · rw [plcCheckUserPrivilege] at h
    dsimp only at h
    split at h
    · exact (throw_eq_ok.1 h).elim
    next names hnames =>
      split at h
      · exact (throw_eq_ok.1 h).elim
      · exact ⟨text, names, rfl, hnames, by simpa using pure_eq_ok.1 h⟩

/-- **Network and device access need a granted role**: whatever documents a session has loaded and
    whatever checks it has made, a call that goes on with a runtime that has the network enabled or
    asks for devices is one of a user who is a member of a role in the runtime's list, and the role
    exists unless the user is a superuser. -/
theorem network_needs_granted_role {env : LoaderEnv} {roles : RoleEnv} {tables : ConfTables}
    (h : tables.Reached env roles) (call : RuntimeCall) {entry : RuntimeConfEntry}
    (hgo : (plcontainerGetResult env roles tables call).1 = .ok entry)
    (hneeds : entry.enableNetwork = true ∨ entry.devicerequests ≠ []) :
    ∃ text names, entry.roles = some text ∧ splitIdentifierString text = some names ∧
      ∃ name ∈ names, roles.isMemberOfRole call.user (roles.roleOid name) = true ∧
        (roles.superuser call.user = false → roles.roleOid name ≠ 0) := by
  obtain ⟨hentry, hcheck⟩ := checked_of_plcontainerGetResult hgo
  have hguarded := guarded_plcGetRuntimeConfiguration env h.guarded call.file call.runtime
    entry (mem_of_plcGetRuntimeConfiguration hentry)
  have hcontrol : entry.useUserControl = true := by
    rcases hneeds with hnet | hdev
    · exact hguarded.network hnet
    · exact hguarded.devices hdev
  obtain ⟨text, names, htext, hnames, name, hname, hmember⟩ :=
    member_of_plcCheckUserPrivilege (hcheck hcontrol)
  refine ⟨text, names, htext, hnames, name, hname, hmember, fun huser hinvalid => ?_⟩
  rw [hinvalid, roles.not_member_invalid call.user huser] at hmember
  cases hmember

/-- A runtime with network for the members of one role. -/
def networkDocument : XmlElement :=
  ⟨[], .configuration, [],
    [.element [] .runtime []
      [.element [] .id [] [.text ['r']], .element [] .image [] [.text ['i']],
        .element [] .command [] [.text ['c']],
        .element [] .setting [⟨[], .enableNetwork, yesText⟩, ⟨[], .roles, ['A']⟩] []]]⟩

/-- One role, with one member. -/
def oneRole : RoleEnv where
  roleOid name := if name = ['a'] then 10 else 0
  isMemberOfRole user role := user == 7 && role == 10
  superuser _ := false
  not_member_invalid user _ := by simp

theorem network_needs_granted_role_member :
    ∃ entry, (plcontainerGetResult ⟨fun _ => true, false⟩ oneRole .empty
        ⟨some networkDocument, 7, ['r']⟩).1 = .ok entry ∧ entry.enableNetwork = true ∧
      ∃ text names, entry.roles = some text ∧ splitIdentifierString text = some names ∧
        ∃ name ∈ names, oneRole.isMemberOfRole 7 (oneRole.roleOid name) = true ∧
          (oneRole.superuser 7 = false → oneRole.roleOid name ≠ 0) :=
  ⟨_, rfl, rfl, network_needs_granted_role (.init rfl) ⟨some networkDocument, 7, ['r']⟩ rfl
    (.inl rfl)⟩

end PlContainer
