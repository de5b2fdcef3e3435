import PlContainer.Docker.CreateRequest

set_option autoImplicit false

/-! # What the device requests say

`DeviceRequests` is one member of the request that creates a container, with a text of its own. The count
is set for the first request only, outside the function that prints a request, and the driver is the one
string that is printed without quotes. -/

namespace PlContainer

open Json Format

/-! ## What a request is to say -/

/-- The value of a key. -/
def memberValue (members : List (List Char × Json.Value)) (key : List Char) : Option Json.Value :=
  (members.find? (·.1 = key)).map Prod.snd

/-- -1 for all devices; Docker does not take a count beside a list of devices. -/
def deviceCount (req : PlcDeviceRequest) : ℤ := if req.deviceid.isNone then -1 else 0

/-- The object describes the request. -/
structure Describes (req : PlcDeviceRequest) (members : List (List Char × Json.Value)) : Prop where
  count : memberValue members "Count".toList = some (.lit (decimal (deviceCount req)))
  deviceIDs : ∀ ids, req.deviceid = some ids →
    memberValue members "DeviceIDs".toList = some (.arr (ids.map .str))
  driver : ∀ driver, req.driver = some driver → memberValue members "Driver".toList = some (.str driver)
  capabilities : memberValue members "Capabilities".toList =
    some (.arr [.arr (req.capabilities.map .str)])

/-- The text of the requests is JSON for a list of objects that describe them, in their order. -/
def DescribesAll (reqs : List PlcDeviceRequest) (text : List Char) : Prop :=
  ∃ objects, Denotes (utf8 text) (.arr (objects.map .obj)) ∧ List.Forall₂ Describes reqs objects

/-- A request that the parser can produce, with strings that stand for themselves. -/
structure PlainRequest (req : PlcDeviceRequest) : Prop where
  someDevice : req.deviceid ≠ some []
  someCapability : req.capabilities ≠ []
  deviceid : ∀ ids, req.deviceid = some ids → ∀ id ∈ ids, Plain id
  driver : ∀ driver, req.driver = some driver → Plain driver
  capabilities : ∀ capability ∈ req.capabilities, Plain capability

/-- The parser produces requests for all devices or for some, with a capability. -/
theorem parseDeviceRequest_shape (e : XmlElement) :
    (parseDeviceRequest e).deviceid ≠ some [] ∧ (parseDeviceRequest e).capabilities ≠ [] := by
  refine ⟨?_, List.append_ne_nil_of_right_ne_nil _ (List.cons_ne_nil _ _)⟩
  unfold parseDeviceRequest
  dsimp only
  split
  · simp
  next hsome =>
    rw [not_or, List.isEmpty_iff] at hsome
    simpa using hsome.1

/-! ## The text of a request -/

/-- What is printed first. -/
def countPieces (n : ℤ) : List Piece :=
  [.fixed ['{'], .string "Count".toList, .fixed [':'], .word (decimal n), .fixed [',']]

def deviceIDsPieces : Option (List XmlText) → List Piece
  | none | some [] => []
  | some ids => .string "DeviceIDs".toList :: .fixed [':', '['] :: (strings ids ++ [.fixed [']', ',']])

def capabilitiesPieces (capabilities : List XmlText) : List Piece :=
  .string "Capabilities".toList :: .fixed [':', '[', '['] ::
    (strings capabilities ++ [.fixed [']', ']', '}']])

/-- The pieces behind the driver. -/
def restPieces (req : PlcDeviceRequest) : List Piece :=
  deviceIDsPieces req.deviceid ++ capabilitiesPieces req.capabilities

/-- The driver is no piece: it is printed as it is. -/
def driverText : Option XmlText → List Char
  | none => []
  | some driver => jsonAppendWithName "Driver".toList false driver

theorem jsonAppendStringArray_eq (array : List XmlText) :
    jsonAppendStringArray array = '[' :: (render (strings array) ++ [']']) := by
  rw [jsonAppendStringArray, render_strings]
  rfl

theorem render_deviceIDsPieces (id : XmlText) (ids : List XmlText) :
    render (deviceIDsPieces (some (id :: ids))) =
      jsonAppendWithName "DeviceIDs".toList false (jsonAppendStringArray (id :: ids)) := by
  simp only [deviceIDsPieces, jsonAppendStringArray_eq, jsonAppendWithName, render_cons, render_append,
    Piece.render]
  simp [render]

theorem render_capabilitiesPieces (capabilities : List XmlText) :
    render (capabilitiesPieces capabilities) =
      jsonAppendWithName "Capabilities".toList true
        (['['] ++ jsonAppendStringArray capabilities ++ [']']) ++ ['}'] := by
  simp only [capabilitiesPieces, jsonAppendStringArray_eq, jsonAppendWithName, render_cons,
    render_append, Piece.render]
  simp [render]

theorem render_countPieces (n : ℤ) :
    render (countPieces n) = '{' :: jsonAppendWithName "Count".toList false (decimal n) := by
  simp [countPieces, render, Piece.render, jsonAppendWithName]

theorem driverText_some (driver : XmlText) :
    driverText (some driver) = render [.string "Driver".toList, .fixed [':']] ++ (driver ++ [',']) := by
  simp [driverText, render, Piece.render, jsonAppendWithName]

theorem reqSerializeDevicerequest_eq {n : ℤ} {req : PlcDeviceRequest}
    (hcapability : req.capabilities ≠ []) :
    reqSerializeDevicerequest (n, req) = render (countPieces n) ++ (driverText req.driver ++
      render (restPieces req)) := by
  rw [restPieces]
  rcases req with ⟨driver, deviceid, _ | ⟨capability, capabilities⟩⟩
  · exact absurd rfl hcapability
  · rw [reqSerializeDevicerequest, render_append, render_capabilitiesPieces, render_countPieces]
    rcases deviceid with _ | _ | ⟨id, ids⟩
    · cases driver <;> simp [driverText, deviceIDsPieces, render]
    · cases driver <;> simp [driverText, deviceIDsPieces, render]
    · rw [render_deviceIDsPieces]
      cases driver <;> simp [driverText]

/-! ## What it says -/

/-- The members behind the driver. -/
def restMembers (req : PlcDeviceRequest) : List (List Char × Json.Value) :=
  req.deviceid.toList.map (fun ids => ("DeviceIDs".toList, .arr (ids.map .str))) ++
    [("Capabilities".toList, .arr [.arr (req.capabilities.map .str)])]

/-- The members that are printed for a request without a driver. -/
def requestMembers (n : ℤ) (req : PlcDeviceRequest) : List (List Char × Json.Value) :=
  ("Count".toList, .lit (decimal n)) :: restMembers req

theorem plain_keys : Plain "Count".toList ∧ Plain "Driver".toList ∧ Plain "DeviceIDs".toList ∧
    Plain "Capabilities".toList := by
  and_intros
  all_goals exact plain_lit rfl

/-- What stands between the strings and words. -/
theorem lex_marks :
    lex .between ['{'] = ([.punct '{'], some .between) ∧
    lex .between [':'] = ([.punct ':'], some .between) ∧
    lex .between [','] = ([.punct ','], some .between) ∧
    lex .between [':', '['] = ([.punct ':', .punct '['], some .between) ∧
    lex .between [']', ','] = ([.punct ']', .punct ','], some .between) ∧
    lex .between [':', '[', '['] = ([.punct ':', .punct '[', .punct '['], some .between) ∧
    lex .between [']', ']', '}'] = ([.punct ']', .punct ']', .punct '}'], some .between) := by
  and_intros
  all_goals rfl

theorem fit_plainStrings {ws : List (List Char)} (hws : ∀ w ∈ ws, Plain w) (rest : List Char) :
    Fit rest (strings ws) := by
  refine fit_strings (fun w hw hlast => ?_) rest
  cases hws w hw _ (List.mem_of_getLast? hlast)

theorem lex_countPieces (n : ℤ) (rest : List Char) :
    lex .between (render (countPieces n) ++ rest) =
      (.punct '{' :: .str "Count".toList :: .punct ':' :: .lit (decimal n) :: .punct ',' ::
        (lex .between rest).1, (lex .between rest).2) := by
  have hend : endsWord [','] = true := rfl
  have hfit : Fit rest (countPieces n) := by
    simp only [countPieces, fit_fixed, lex_marks, fit_string_plain plain_keys.1,
      fit_word_fixed (isWord_decimal n) hend, fit_nil]
  have hplain : ∀ p ∈ countPieces n, p.Plain := by
    simp only [countPieces, List.forall_mem_cons, Piece.plain_fixed, Piece.plain_string,
      Piece.plain_word, plain_keys, true_and]
    exact nofun
  rw [lex_render hfit hplain]
  rfl

section Request

variable {n : ℤ} {req : PlcDeviceRequest}

theorem lex_deviceIDsPieces {ids : List XmlText} (hne : ids ≠ []) (hplain : ∀ id ∈ ids, Plain id)
    (rest : List Char) :
    lex .between (render (deviceIDsPieces (some ids)) ++ rest) =
      (commaMembers [("DeviceIDs".toList, .arr (ids.map .str))] ++ (lex .between rest).1,
        (lex .between rest).2) := by
  rcases ids with _ | ⟨id, ids⟩
  · exact absurd rfl hne
  · have hfit : Fit rest (deviceIDsPieces (some (id :: ids))) := by
      simp only [deviceIDsPieces, fit_fixed, lex_marks, fit_string_plain plain_keys.2.2.1, fit_append,
        fit_plainStrings hplain, fit_nil, and_self]
    have hpieces : ∀ p ∈ deviceIDsPieces (some (id :: ids)), p.Plain := by
      simp only [deviceIDsPieces, List.forall_mem_cons, List.forall_mem_append, Piece.plain_fixed,
        Piece.plain_string, plain_keys, true_and, forall_plain_strings]
      exact ⟨List.forall_mem_cons.1 hplain, nofun⟩
    rw [lex_render hfit hpieces]
    simp only [deviceIDsPieces, tokensOf_cons, tokensOf_append, tokensOf_strings, Piece.tokens, lex_marks]
    simp [commaMembers, Value.tokens, tokensOf]

theorem lex_capabilitiesPieces {capabilities : List XmlText}
    (hplain : ∀ capability ∈ capabilities, Plain capability) (rest : List Char) :
    lex .between (render (capabilitiesPieces capabilities) ++ rest) =
      (memberTokens [("Capabilities".toList, .arr [.arr (capabilities.map .str)])] ++
        .punct '}' :: (lex .between rest).1, (lex .between rest).2) := by
  have hfit : Fit rest (capabilitiesPieces capabilities) := by
    simp only [capabilitiesPieces, fit_fixed, lex_marks, fit_string_plain plain_keys.2.2.2, fit_append,
      fit_plainStrings hplain, fit_nil, and_self]
  have hpieces : ∀ p ∈ capabilitiesPieces capabilities, p.Plain := by
    simp only [capabilitiesPieces, List.forall_mem_cons, List.forall_mem_append, Piece.plain_fixed,
      Piece.plain_string, plain_keys, true_and, forall_plain_strings]
    exact ⟨hplain, nofun⟩
  rw [lex_render hfit hpieces]
  simp only [capabilitiesPieces, tokensOf_cons, tokensOf_append, tokensOf_strings, Piece.tokens,
    lex_marks]
  simp [memberTokens, moreMembers, Value.tokens, elemTokens, moreElems, tokensOf]

theorem lex_restPieces (h : PlainRequest req) (rest : List Char) :
    lex .between (render (restPieces req) ++ rest) =
      (memberTokens (restMembers req) ++ .punct '}' :: (lex .between rest).1,
        (lex .between rest).2) := by
  rw [restPieces, restMembers, render_append, List.append_assoc]
  cases hids : req.deviceid with
  | none => exact lex_capabilitiesPieces h.capabilities rest
  | some ids =>
      have hne : ids ≠ [] := fun hnil => h.someDevice (hids.trans (congrArg some hnil))
      rw [lex_deviceIDsPieces hne (h.deviceid ids hids), lex_capabilitiesPieces h.capabilities]
      simp [commaMembers, memberTokens, moreMembers]

/-- A request without a driver is printed as its object. -/
theorem lex_request (h : PlainRequest req) (hdriver : req.driver = none) (rest : List Char) :
    lex .between (reqSerializeDevicerequest (n, req) ++ rest) =
      ((Value.obj (requestMembers n req)).tokens ++ (lex .between rest).1, (lex .between rest).2) := by
  have hrest : moreMembers (restMembers req) = .punct ',' :: memberTokens (restMembers req) := by
    rw [restMembers]
    cases req.deviceid with
    | none => rfl
    | some ids => rfl
  rw [reqSerializeDevicerequest_eq h.someCapability, hdriver, driverText, List.nil_append,
    List.append_assoc, lex_countPieces, lex_restPieces h]
  simp [requestMembers, Value.tokens, memberTokens, hrest]

theorem keys_ne : "Count".toList ≠ "Driver".toList ∧ "Count".toList ≠ "DeviceIDs".toList ∧
    "Count".toList ≠ "Capabilities".toList ∧ "DeviceIDs".toList ≠ "Capabilities".toList := by
  decide

theorem memberValue_cons (key : List Char) (v : Json.Value)
    (members : List (List Char × Json.Value)) :
    memberValue ((key, v) :: members) key = some v := by
  simp [memberValue]

theorem memberValue_cons_of_ne {key key' : List Char} (h : key ≠ key') (v : Json.Value)
    (members : List (List Char × Json.Value)) :
    memberValue ((key, v) :: members) key' = memberValue members key' := by
  rw [memberValue, List.find?_cons_of_neg (by simpa using h), memberValue]

/-- The object without a driver describes its request if the count is right. -/
theorem describes_requestMembers (hdriver : req.driver = none) :
    Describes req (requestMembers n req) ↔ decimal n = decimal (deviceCount req) := by
  have hids : ∀ ids, req.deviceid = some ids →
      memberValue (requestMembers n req) "DeviceIDs".toList = some (.arr (ids.map .str)) := by
    intro ids hids
    rw [requestMembers, memberValue_cons_of_ne keys_ne.2.1, restMembers, hids]
    exact memberValue_cons _ _ _
  have hcapabilities : memberValue (requestMembers n req) "Capabilities".toList =
      some (.arr [.arr (req.capabilities.map .str)]) := by
    rw [requestMembers, memberValue_cons_of_ne keys_ne.2.2.1, restMembers]
    cases req.deviceid with
    | none => exact memberValue_cons _ _ _
    | some ids =>
        exact (memberValue_cons_of_ne keys_ne.2.2.2 _ _).trans (memberValue_cons _ _ _)
  constructor
  · intro h
    have hcount := h.count
    rw [requestMembers, memberValue_cons, Option.some_inj, Value.lit.injEq] at hcount
    exact hcount
  · intro h
    refine ⟨by rw [requestMembers, memberValue_cons, h], hids, fun driver hsome => ?_, hcapabilities⟩
    rw [hdriver] at hsome
    cases hsome

/-- The text of a driver gives no string, so an object with the driver does not come out of it. -/
theorem driver_eq_none (h : PlainRequest req) {members : List (List Char × Json.Value)}
    {rest : List Char} {ts : List Token}
    (hlex : (lex .between (reqSerializeDevicerequest (n, req) ++ rest)).1 =
      (Value.obj members).tokens ++ ts) (hdescribes : Describes req members) : req.driver = none := by
  by_contra hsome
  obtain ⟨driver, hdriver⟩ := Option.ne_none_iff_exists'.1 hsome
  have hmember := hdescribes.driver driver hdriver
  have hfit : Fit (driver ++ ([','] ++ (render (restPieces req) ++ rest)))
      [.string "Driver".toList, .fixed [':']] := by
    simp only [fit_fixed, lex_marks, fit_string_plain plain_keys.2.1, fit_nil]
  have hplain : ∀ p ∈ [Piece.string "Driver".toList, .fixed [':']], p.Plain := by
    simp only [List.forall_mem_cons, Piece.plain_fixed, Piece.plain_string, plain_keys, true_and]
    exact nofun
  rw [reqSerializeDevicerequest_eq h.someCapability, hdriver, driverText_some] at hlex
  simp only [List.append_assoc] at hlex
  rw [lex_countPieces, lex_render hfit hplain] at hlex
  -- the members begin with the count and the driver
  rcases members with _ | ⟨⟨key, v⟩, members⟩
  · simp [Value.tokens, memberTokens] at hlex
  · simp only [Value.tokens, memberTokens, List.cons_append, List.append_assoc, List.cons.injEq,
      true_and, Token.str.injEq] at hlex
    obtain ⟨rfl, hlex⟩ := hlex
    obtain ⟨rfl, hmore⟩ := Value.tokens_inj (.lit (decimal n)) v _ _ hlex
    rcases members with _ | ⟨⟨key', v'⟩, members⟩
    · simp [moreMembers] at hmore
    · simp only [moreMembers, tokensOf_cons, Piece.tokens, lex_marks, List.cons_append,
        List.nil_append, List.append_assoc, List.cons.injEq, true_and, Token.str.injEq] at hmore
      obtain ⟨rfl, hdriverText⟩ := hmore
      rw [memberValue_cons_of_ne keys_ne.1, memberValue_cons, Option.some_inj] at hmember
      subst hmember
      have hquote : '"' ∉ driver := fun hmem => by
        cases h.driver driver hdriver '"' hmem
      exact first_token_of_quoteless rfl hquote _ _ _ hdriverText

end Request

/-! ## The list of requests -/

section Requests

variable {reqs : List (ℤ × PlcDeviceRequest)}

/-- The requests after the first, and the end of the list. -/
def moreRequests (reqs : List (ℤ × PlcDeviceRequest)) : List Char :=
  reqs.flatMap (fun r => ',' :: reqSerializeDevicerequest r) ++ [']']

theorem jsonAppendObjectArray_cons (r : ℤ × PlcDeviceRequest) (reqs : List (ℤ × PlcDeviceRequest)) :
    jsonAppendObjectArray reqSerializeDevicerequest (r :: reqs) =
      '[' :: (reqSerializeDevicerequest r ++ moreRequests reqs) := by
  induction reqs generalizing r with
  | nil => simp [jsonAppendObjectArray, moreRequests, List.intercalate]
  | cons r' reqs ih =>
      have htail := ih r'
      simp only [jsonAppendObjectArray, moreRequests, List.intercalate, List.map_cons,
        List.intersperse_cons_cons, List.flatten_cons, List.flatMap_cons, List.nil_append,
        List.cons_append, List.append_assoc, List.cons.injEq, true_and] at htail ⊢
      rw [htail]

/-- The request is printed with the right count, and it has no driver. -/
def PrintedRight (r : ℤ × PlcDeviceRequest) : Prop :=
  r.2.driver = none ∧ decimal r.1 = decimal (deviceCount r.2)

/-- One object of the list: it describes the request it is printed for exactly if that is printed
    right, and then it ends where the text of the request ends. -/
theorem lex_object {r : ℤ × PlcDeviceRequest} (h : PlainRequest r.2)
    {members : List (List Char × Json.Value)} (hdescribes : Describes r.2 members) {rest : List Char}
    {ts : List Token} {q : Option State}
    (hlex : lex .between (reqSerializeDevicerequest r ++ rest) =
      ((Value.obj members).tokens ++ ts, q)) :
    PrintedRight r ∧ lex .between rest = (ts, q) := by
  have hdriver := driver_eq_none h (congrArg Prod.fst hlex) hdescribes
  rw [lex_request h hdriver, Prod.mk.injEq] at hlex
  obtain ⟨hobject, hts⟩ := Value.tokens_inj _ _ _ _ hlex.1
  rw [← Value.obj.inj hobject, describes_requestMembers hdriver] at hdescribes
  exact ⟨⟨hdriver, hdescribes⟩, Prod.ext hts hlex.2⟩

theorem lex_comma (x : List Char) :
    lex .between (',' :: x) = (.punct ',' :: (lex .between x).1, (lex .between x).2) := rfl

theorem printedRight_of_lex (h : ∀ r ∈ reqs, PlainRequest r.2)
    {objects : List (List (List Char × Json.Value))}
    (hdescribes : List.Forall₂ (fun r o => Describes r.2 o) reqs objects)
    (hlex : lex .between (moreRequests reqs) =
      (moreElems (objects.map .obj) ++ [.punct ']'], some .between)) :
    ∀ r ∈ reqs, PrintedRight r := by
  induction hdescribes with
  | nil => exact nofun
  | @cons r members reqs objects hfirst _ ih =>
      rw [List.forall_mem_cons] at h
      rw [moreRequests, List.flatMap_cons, List.append_assoc, List.cons_append, lex_comma,
        ← moreRequests, List.map_cons, moreElems, List.cons_append, List.append_assoc, Prod.mk.injEq,
        List.cons.injEq] at hlex
      obtain ⟨hright, hrest⟩ := lex_object h.1 hfirst (Prod.ext hlex.1.2 hlex.2)
      exact List.forall_mem_cons.2 ⟨hright, ih h.2 hrest⟩

theorem lex_moreRequests (h : ∀ r ∈ reqs, PlainRequest r.2) (hright : ∀ r ∈ reqs, PrintedRight r) :
    lex .between (moreRequests reqs) =
      (moreElems (reqs.map fun r => .obj (requestMembers r.1 r.2)) ++ [.punct ']'], some .between) := by
  induction reqs with
  | nil => rfl
  | cons r reqs ih =>
      rw [List.forall_mem_cons] at h hright
      have hrest := ih h.2 hright.2
      rw [moreRequests, List.flatMap_cons, List.append_assoc, List.cons_append, lex_comma,
        ← moreRequests, lex_request h.1 hright.1.1, hrest]
      simp [moreElems]

/-- The text says what the requests say if every one of them is printed right. -/
theorem denotes_requests_iff (r : ℤ × PlcDeviceRequest) (reqs : List (ℤ × PlcDeviceRequest))
    (h : ∀ r' ∈ r :: reqs, PlainRequest r'.2) :
    (∃ objects, Denotes (utf8 (jsonAppendObjectArray reqSerializeDevicerequest (r :: reqs)))
        (.arr (objects.map .obj)) ∧
      List.Forall₂ (fun r o => Describes r.2 o) (r :: reqs) objects) ↔
      ∀ r' ∈ r :: reqs, PrintedRight r' := by
  rw [List.forall_mem_cons] at h
  rw [jsonAppendObjectArray_cons]
  have hopen (x : List Char) :
      lex .between ('[' :: x) = (.punct '[' :: (lex .between x).1, (lex .between x).2) := rfl
  constructor
  · rintro ⟨objects, ⟨text, htext, htokens⟩, hdescribes⟩
    obtain ⟨members, objects, hfirst, hrest, rfl⟩ := List.forall₂_cons_left_iff.1 hdescribes
    obtain rfl := utf8_injective htext
    have hend : (Value.arr ((members :: objects).map .obj)).tokens =
        (.punct '[' :: elemTokens ((members :: objects).map .obj)) ++ [.punct ']'] := rfl
    have hlex := lex_of_tokenize (htokens.trans (congrArg some hend))
    rw [hopen, List.map_cons, elemTokens, List.cons_append, List.append_assoc, Prod.mk.injEq,
      List.cons.injEq] at hlex
    obtain ⟨hright, hmore⟩ := lex_object h.1 hfirst (Prod.ext hlex.1.2 hlex.2)
    exact List.forall_mem_cons.2 ⟨hright, printedRight_of_lex h.2 hrest hmore⟩
  · intro hright
    refine ⟨(r :: reqs).map fun r => requestMembers r.1 r.2, ⟨_, rfl, ?_⟩, ?_⟩
    · rw [List.forall_mem_cons] at hright
      rw [tokenize, hopen, lex_request h.1 hright.1.1, lex_moreRequests h.2 hright.2]
      simp [Value.tokens, elemTokens, Function.comp_def]
    · rw [List.forall₂_map_right_iff, List.forall₂_same]
      exact fun r' hr' => (describes_requestMembers (hright r' hr').1).2 (hright r' hr').2

end Requests

/-- The counts are right if no request but the first asks for all devices. -/
theorem printedRight_withCount (req : PlcDeviceRequest) (reqs : List PlcDeviceRequest) :
    (∀ r ∈ withCount (req :: reqs), PrintedRight r) ↔
      (∀ r ∈ req :: reqs, r.driver = none) ∧ ∀ r ∈ reqs, r.deviceid ≠ none := by
  have hcount (r : PlcDeviceRequest) : decimal 0 = decimal (deviceCount r) ↔ r.deviceid ≠ none := by
    rw [deviceCount]
    cases r.deviceid with
    | none => decide
    | some ids => simp
  rw [withCount, List.forall_mem_cons, List.forall_mem_map, List.forall_mem_cons]
  simp only [PrintedRight, hcount, forall_and]
  constructor
  · rintro ⟨hfirst, hdrivers, hdevices⟩
    exact ⟨⟨hfirst.1, hdrivers⟩, hdevices⟩
  · rintro ⟨⟨hfirst, hdrivers⟩, hdevices⟩
    exact ⟨⟨hfirst, rfl⟩, hdrivers, hdevices⟩

theorem snd_withCount (reqs : List PlcDeviceRequest) : (withCount reqs).map Prod.snd = reqs := by
  cases reqs with
  | nil => rfl
  | cons req reqs => simp [withCount, Function.comp_def]

/-- The text for the device requests is a member `DeviceRequests` that describes them. -/
def DeviceRequestsFaithful (conf : RuntimeConfEntry) : Prop :=
  ∃ text, requestBuffer conf = "\n\"DeviceRequests\":".toList ++ (text ++ [',']) ∧
    DescribesAll conf.devicerequests text

theorem deviceRequestsFaithful_iff {conf : RuntimeConfEntry} {req : PlcDeviceRequest}
    {reqs : List PlcDeviceRequest} (hreqs : conf.devicerequests = req :: reqs)
    (hplain : ∀ r ∈ req :: reqs, PlainRequest r) :
    DeviceRequestsFaithful conf ↔ ∀ r ∈ withCount (req :: reqs), PrintedRight r := by
  have hbuffer (text : List Char) :
      '\n' :: jsonAppendWithName "DeviceRequests".toList false
          (jsonAppendObjectArray reqSerializeDevicerequest (withCount (req :: reqs))) =
        "\n\"DeviceRequests\":".toList ++ (text ++ [',']) ↔
      jsonAppendObjectArray reqSerializeDevicerequest (withCount (req :: reqs)) = text := by
    simp [jsonAppendWithName]
  have hpairs : ∀ r ∈ withCount (req :: reqs), PlainRequest r.2 := by
    rw [← List.forall_mem_map (f := Prod.snd) (P := PlainRequest), snd_withCount]
    exact hplain
  have hdescribes (objects : List (List (List Char × Json.Value))) :
      List.Forall₂ Describes (req :: reqs) objects ↔
        List.Forall₂ (fun r o => Describes r.2 o) (withCount (req :: reqs)) objects := by
    rw [← List.forall₂_map_left_iff (R := Describes) (f := Prod.snd), snd_withCount]
  rw [DeviceRequestsFaithful, requestBuffer, hreqs]
  simp only [hbuffer, exists_eq_left', DescribesAll, hdescribes]
  exact denotes_requests_iff _ _ hpairs

/-- **The device requests are printed as they are meant** if none of them has a driver, which is printed
    without quotes, and only the first may ask for all devices, since the count of the others is not
    set. -/
theorem device_requests_faithful_iff (conf : RuntimeConfEntry) (hsome : conf.devicerequests ≠ [])
    (hplain : ∀ req ∈ conf.devicerequests, PlainRequest req) :
    DeviceRequestsFaithful conf ↔
      (∀ req ∈ conf.devicerequests, req.driver = none) ∧
        ∀ req ∈ conf.devicerequests.tail, req.deviceid ≠ none := by
  rcases hreqs : conf.devicerequests with _ | ⟨req, reqs⟩
  · exact absurd hreqs hsome
  · rw [hreqs] at hplain
    rw [deviceRequestsFaithful_iff hreqs hplain, printedRight_withCount, List.tail_cons]

/-- A runtime with device requests. -/
def requestingConf (reqs : List PlcDeviceRequest) : RuntimeConfEntry :=
  { RuntimeConfEntry.fresh ['r'] with devicerequests := reqs }

def gpuText : XmlText := ['g', 'p', 'u']

/-- A request for all devices. -/
def allDevices : PlcDeviceRequest := ⟨none, none, [gpuText]⟩

theorem plainRequest_gpu {driver : Option XmlText} {deviceid : Option (List XmlText)}
    (hsome : deviceid ≠ some []) (hids : ∀ ids, deviceid = some ids → ∀ id ∈ ids, Plain id)
    (hdriver : ∀ d, driver = some d → Plain d) : PlainRequest ⟨driver, deviceid, [gpuText]⟩ :=
  ⟨hsome, List.cons_ne_nil _ _, hids, hdriver,
    List.forall_mem_singleton.2 (List.all_eq_true.1 (by decide : gpuText.all isPlain = true))⟩

theorem plainRequest_allDevices : PlainRequest allDevices := plainRequest_gpu nofun nofun nofun

/-- A request for all devices, and one for the first. -/
theorem device_requests_faithful_gpu :
    DeviceRequestsFaithful (requestingConf [allDevices, ⟨none, some [['0']], [gpuText]⟩]) := by
  have hfirst : PlainRequest ⟨none, some [['0']], [gpuText]⟩ := by
    refine plainRequest_gpu (by simp) (fun ids hids => ?_) nofun
    obtain rfl := Option.some.inj hids
    exact List.forall_mem_singleton.2 (List.all_eq_true.1 (by decide : ['0'].all isPlain = true))
  refine (device_requests_faithful_iff _ (List.cons_ne_nil _ _) ?_).2 (by decide)
  exact List.forall_mem_cons.2 ⟨plainRequest_allDevices, List.forall_mem_singleton.2 hfirst⟩

/-- The driver is not a string, and a second request for all devices asks for none. -/
theorem device_requests_unfaithful :
    (requestBuffer (requestingConf [⟨some ['n', 'v'], none, [gpuText]⟩]) =
        "\n\"DeviceRequests\":[\x7b\"Count\":-1,\"Driver\":nv,\"Capabilities\":[[\"gpu\"]]\x7d],".toList ∧
      ¬ DeviceRequestsFaithful (requestingConf [⟨some ['n', 'v'], none, [gpuText]⟩])) ∧
    (requestBuffer (requestingConf [allDevices, allDevices]) =
        ("\n\"DeviceRequests\":[\x7b\"Count\":-1,\"Capabilities\":[[\"gpu\"]]\x7d," ++
          "\x7b\"Count\":0,\"Capabilities\":[[\"gpu\"]]\x7d],").toList ∧
      ¬ DeviceRequestsFaithful (requestingConf [allDevices, allDevices])) := by
  have hdriver : PlainRequest ⟨some ['n', 'v'], none, [gpuText]⟩ := by
    refine plainRequest_gpu nofun nofun fun driver hsome => ?_
    obtain rfl := Option.some.inj hsome
    exact List.all_eq_true.1 (by decide : ['n', 'v'].all isPlain = true)
  refine ⟨⟨by decide +kernel, ?_⟩, ⟨by decide +kernel, ?_⟩⟩
  · rw [deviceRequestsFaithful_iff rfl (List.forall_mem_singleton.2 hdriver), printedRight_withCount]
    simp
  · rw [deviceRequestsFaithful_iff rfl (List.forall_mem_cons.2 ⟨plainRequest_allDevices,
      List.forall_mem_singleton.2 plainRequest_allDevices⟩), printedRight_withCount]
    simp [allDevices]

end PlContainer
