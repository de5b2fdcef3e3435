import PlContainer.Config.Loader
import PlContainer.Library.Checked

set_option autoImplicit false

/-! # Repeated elements: the array behind `XML_READ_CONTENT`

A field with any number of elements is read into an array that grows. `*field->N` is meant as the
number of elements while `__XML_READ_OBJECT` takes it for the number of places, and every element adds
one to it. Here the block that is allocated and the number stand side by side, and an access outside
the block is a fault of its own. Fields with a single element are `readContent` in the loader. -/

namespace PlContainer

open Checked

/-- What ends a read: an error of the parser, or an access outside the allocated block. -/
inductive XmlFault where
  | error (e : ConfigError)
  | writeOutside (place size : ℕ)
  | readOutside (count size : ℕ)
deriving DecidableEq, Repr

/-- The parser of an element. One that fails may have stored a part of its result before. -/
structure XmlParser (β : Type) where
  parse : XmlElement → Except ConfigError β
  stores : XmlElement → Bool
  stores_of_ok : ∀ e b, parse e = .ok b → stores e = true

/-- `*field->ptr` with the places of its block, and `*field->N`. -/
structure XmlArray (β : Type) where
  block : Option (List (Option β))
  count : ℕ

namespace XmlArray

variable {β : Type}

def empty : XmlArray β := ⟨none, 0⟩

def places (field : XmlArray β) : List (Option β) := field.block.getD []

/-- `source_mem != NULL && *field->N > n` -/
def hasPlace (field : XmlArray β) (n : ℕ) : Bool := field.block.isSome && decide (n < field.count)

/-- The block of twice the size, with the elements copied. -/
def grown (field : XmlArray β) : XmlArray β :=
  let size := (if field.count = 0 then 1 else field.count) * 2
  ⟨some (field.places.take field.count ++ List.replicate (size - field.count) none), size⟩

theorem count_lt_grown (field : XmlArray β) : field.count < field.grown.count := by
  rw [grown]
  dsimp only
  split
  · omega
  · omega

/-- The element is parsed into its place. -/
def store (parser : XmlParser β) (n : ℕ) (field : XmlArray β) (e : XmlElement) :
    Except XmlFault (XmlArray β) :=
  if parser.stores e = true ∧ field.places.length ≤ n then
    throw (.writeOutside n field.places.length)
  else
    match parser.parse e with
    | .error err => throw (.error err)
    | .ok b => pure ⟨some (field.places.set n (some b)), field.count + 1⟩

end XmlArray

open XmlArray

section Read

variable {β : Type} (parser : XmlParser β)

/-- `__XML_READ_OBJECT`, and `__XML_READ_BASIC_ELEMENT` with another parser: element `n` of an array.
    `memcpy` reads as many elements as the number says. -/
def xmlReadObject (n : ℕ) (field : XmlArray β) (e : XmlElement) : Except XmlFault (XmlArray β) :=
  if field.hasPlace n then store parser n field e
  else if field.places.length < field.count then
    throw (.readOutside field.count field.places.length)
  else xmlReadObject n field.grown e
termination_by (if field.block.isSome then 0 else 1) + (n + 1 - field.count)
decreasing_by
  have hlt := field.count_lt_grown
  have hsome : field.grown.block.isSome = true := rfl
  rename_i hplace _
  rw [hsome, if_pos rfl]
  rw [hasPlace, Bool.and_eq_true, decide_eq_true_iff, not_and] at hplace
  split
  next hblock =>
    have hcount := hplace hblock
    omega
  · omega

/-- The loop of `XML_READ_CONTENT` over the elements of a field: the local `N` is the number of those
    before, and the number of all when the loop is over. -/
def xmlReadElements (n : ℕ) (field : XmlArray β) : List XmlElement → Except XmlFault (XmlArray β)
  | [] => pure { field with count := n }
  | e :: es => do
      let field ← xmlReadObject parser n field e
      xmlReadElements (n + 1) field es

/-- `XML_READ_CONTENT` for an array that is empty before. -/
def xmlReadContent (es : List XmlElement) : Except XmlFault (XmlArray β) :=
  xmlReadElements parser 0 .empty es

/-- The parser of `__XML_READ_BASIC_ELEMENT`, which works on the content of the element. -/
def basicParser {β : Type} (f : XmlText → β) : XmlParser β where
  parse e := .ok (f e.getContent)
  stores _ := true
  stores_of_ok _ _ _ := rfl

/-! ## The first three elements -/

/-- The first element allocates a block of two places. -/
theorem xmlReadObject_first (e : XmlElement) :
    xmlReadObject parser 0 .empty e = store parser 0 ⟨some [none, none], 2⟩ e := by
  rw [xmlReadObject, if_neg (by simp [hasPlace, XmlArray.empty]),
    if_neg (by simp [XmlArray.places, XmlArray.empty]), xmlReadObject, if_pos (by rfl)]
  rfl

/-- With a number that is ahead of the elements, there seems to be a place. -/
theorem xmlReadObject_ahead {n count : ℕ} (places : List (Option β)) (e : XmlElement)
    (h : n < count) :
    xmlReadObject parser n ⟨some places, count⟩ e = store parser n ⟨some places, count⟩ e := by
  rw [xmlReadObject, if_pos]
  simpa [hasPlace] using h

variable {parser}

theorem store_error {n : ℕ} {field : XmlArray β} {e : XmlElement} {err : ConfigError}
    (hroom : parser.stores e = true → n < field.places.length) (h : parser.parse e = .error err) :
    store parser n field e = .error (.error err) := by
  rw [store, if_neg (fun hout => Nat.not_lt.2 hout.2 (hroom hout.1)), h]
  rfl

theorem store_ok {n : ℕ} {field : XmlArray β} {e : XmlElement} {b : β}
    (hroom : n < field.places.length) (h : parser.parse e = .ok b) :
    store parser n field e = .ok ⟨some (field.places.set n (some b)), field.count + 1⟩ := by
  rw [store, if_neg (fun hout => Nat.not_lt.2 hout.2 hroom), h]
  rfl

theorem store_outside {n : ℕ} {field : XmlArray β} {e : XmlElement} (hstores : parser.stores e = true)
    (hout : field.places.length ≤ n) :
    store parser n field e = .error (.writeOutside n field.places.length) := by
  rw [store, if_pos ⟨hstores, hout⟩]
  rfl

theorem xmlReadElements_cons_ok {n : ℕ} {field field' : XmlArray β} {e : XmlElement}
    {es : List XmlElement} (h : xmlReadObject parser n field e = .ok field') :
    xmlReadElements parser n field (e :: es) = xmlReadElements parser (n + 1) field' es := by
  rw [xmlReadElements, h]
  rfl

theorem xmlReadElements_cons_error {n : ℕ} {field : XmlArray β} {e : XmlElement}
    {es : List XmlElement} {fault : XmlFault} (h : xmlReadObject parser n field e = .error fault) :
    xmlReadElements parser n field (e :: es) = .error fault := by
  rw [xmlReadElements, h]
  rfl

/-- The array after one element. -/
theorem xmlReadContent_first {a : XmlElement} {va : β} (ha : parser.parse a = .ok va)
    (es : List XmlElement) :
    xmlReadContent parser (a :: es) = xmlReadElements parser 1 ⟨some [some va, none], 3⟩ es := by
  refine xmlReadElements_cons_ok ?_
  rw [xmlReadObject_first]
  exact store_ok (by simp [XmlArray.places]) ha

/-- The array after two elements: the block is full, but the number is four. -/
theorem xmlReadContent_second {a b : XmlElement} {va vb : β} (ha : parser.parse a = .ok va)
    (hb : parser.parse b = .ok vb) (es : List XmlElement) :
    xmlReadContent parser (a :: b :: es) =
      xmlReadElements parser 2 ⟨some [some va, some vb], 4⟩ es := by
  rw [xmlReadContent_first ha]
  refine xmlReadElements_cons_ok ?_
  rw [xmlReadObject_ahead _ _ _ (by decide)]
  exact store_ok (by simp [XmlArray.places]) hb

theorem xmlReadContent_first_error {a : XmlElement} {err : ConfigError}
    (ha : parser.parse a = .error err) (es : List XmlElement) :
    xmlReadContent parser (a :: es) = .error (.error err) := by
  refine xmlReadElements_cons_error ?_
  rw [xmlReadObject_first]
  exact store_error (by simp [XmlArray.places]) ha

theorem xmlReadContent_second_error {a b : XmlElement} {va : β} {err : ConfigError}
    (ha : parser.parse a = .ok va) (hb : parser.parse b = .error err) (es : List XmlElement) :
    xmlReadContent parser (a :: b :: es) = .error (.error err) := by
  rw [xmlReadContent_first ha]
  refine xmlReadElements_cons_error ?_
  rw [xmlReadObject_ahead _ _ _ (by decide)]
  exact store_error (by simp [XmlArray.places]) hb

/-- A third element has no place. -/
theorem xmlReadContent_third {a b c : XmlElement} {va vb : β} (ha : parser.parse a = .ok va)
    (hb : parser.parse b = .ok vb) (hc : parser.stores c = true) (es : List XmlElement) :
    xmlReadContent parser (a :: b :: c :: es) = .error (.writeOutside 2 2) := by
  rw [xmlReadContent_second ha hb]
  refine xmlReadElements_cons_error ?_
  rw [xmlReadObject_ahead _ _ _ (by decide)]
  exact store_outside hc (Nat.le_refl _)

/-- A third element that is refused before anything of it is stored. -/
theorem xmlReadContent_third_error {a b c : XmlElement} {va vb : β} (ha : parser.parse a = .ok va)
    (hb : parser.parse b = .ok vb) (hc : parser.stores c = false) (es : List XmlElement) :
    ∃ err, parser.parse c = .error err ∧
      xmlReadContent parser (a :: b :: c :: es) = .error (.error err) := by
  rcases hparse : parser.parse c with err | vc
  · refine ⟨err, rfl, ?_⟩
    rw [xmlReadContent_second ha hb]
    refine xmlReadElements_cons_error ?_
    rw [xmlReadObject_ahead _ _ _ (by decide)]
    exact store_error (by simp [hc]) hparse
  · rw [parser.stores_of_ok c vc hparse] at hc
    cases hc

end Read

/-! ## All elements -/

/-- Every access is inside the block. If the parser takes all elements, the array has as many entries
    as there are elements, and entry `i` is what the parser makes of element `i`. -/
structure ReadsAll {β : Type} (parser : XmlParser β) (es : List XmlElement) : Prop where
  inside : ∀ fault, xmlReadContent parser es = .error fault → ∃ err, fault = .error err
  entries : ∀ values, es.mapM parser.parse = .ok values →
    ∃ field, xmlReadContent parser es = .ok field ∧ field.count = es.length ∧
      ∀ i < es.length, field.places[i]? = values[i]?.map some

/-- The third element is never reached with something to store. -/
def NoThirdStored {β : Type} (parser : XmlParser β) (es : List XmlElement) : Prop :=
  ∀ a b c rest, es = a :: b :: c :: rest → Succeeds (parser.parse a) → Succeeds (parser.parse b) →
    parser.stores c = false

section ReadsAll

variable {β : Type} {parser : XmlParser β}

/-- Without a third element to store, the array is what the parser makes of the elements. -/
theorem xmlReadContent_eq {es : List XmlElement} (h : NoThirdStored parser es) :
    (∀ values, es.mapM parser.parse = .ok values →
      ∃ field, xmlReadContent parser es = .ok field ∧ field.count = es.length ∧
        field.places.take es.length = values.map some) ∧
    ∀ err, es.mapM parser.parse = .error err → xmlReadContent parser es = .error (.error err) := by
  rcases es with _ | ⟨a, es⟩
  · refine ⟨fun values hvalues => ⟨.empty, rfl, rfl, ?_⟩, fun err herr => by cases herr⟩
    rw [← pure_eq_ok.1 hvalues]
    rfl
  rw [List.mapM_cons]
  rcases ha : parser.parse a with err | va
  · refine ⟨fun values hvalues => (by cases hvalues), fun err' herr => ?_⟩
    cases herr
    exact xmlReadContent_first_error ha es
  rcases es with _ | ⟨b, es⟩
  · refine ⟨fun values hvalues => ⟨_, xmlReadContent_first ha [], rfl, ?_⟩, fun err herr => by cases herr⟩
    cases hvalues
    rfl
  rw [List.mapM_cons]
  rcases hb : parser.parse b with err | vb
  · refine ⟨fun values hvalues => (by cases hvalues), fun err' herr => ?_⟩
    cases herr
    exact xmlReadContent_second_error ha hb es
  rcases es with _ | ⟨c, es⟩
  · refine ⟨fun values hvalues => ⟨_, xmlReadContent_second ha hb [], rfl, ?_⟩,
      fun err herr => by cases herr⟩
    cases hvalues
    rfl
  -- a third element is refused before anything of it is stored
  obtain ⟨err, hc, hread⟩ :=
    xmlReadContent_third_error ha hb (h a b c es rfl ⟨va, ha⟩ ⟨vb, hb⟩) es
  rw [List.mapM_cons, hc]
  refine ⟨fun values hvalues => (by cases hvalues), fun err' herr => ?_⟩
  cases herr
  exact hread

theorem noThirdStored_of_readsAll {es : List XmlElement} (h : ReadsAll parser es) :
    NoThirdStored parser es := by
  rintro a b c rest rfl ⟨va, ha⟩ ⟨vb, hb⟩
  by_contra hstores
  obtain ⟨err, herr⟩ := h.inside _ (xmlReadContent_third ha hb (Bool.not_eq_false _ ▸ hstores) rest)
  cases herr

theorem readsAll_of_noThirdStored {es : List XmlElement} (h : NoThirdStored parser es) :
    ReadsAll parser es := by
  obtain ⟨hok, herror⟩ := xmlReadContent_eq h
  refine ⟨fun fault hfault => ?_, fun values hvalues => ?_⟩
  · rcases hparse : es.mapM parser.parse with err | values
    · rw [herror err hparse] at hfault
      exact ⟨err, (Except.error.inj hfault).symm⟩
    · obtain ⟨field, hfield, -⟩ := hok values hparse
      rw [hfield] at hfault
      cases hfault
  · obtain ⟨field, hfield, hcount, htake⟩ := hok values hvalues
    refine ⟨field, hfield, hcount, fun i hi => ?_⟩
    rw [← List.getElem?_take_of_lt hi, htake, List.getElem?_map]

end ReadsAll

/-- The number of elements and the size of the block drift apart, so repeated elements are read safely
    as long as no third one is stored: with two elements at most, or with an error before. -/
theorem repeated_elements_read_iff {β : Type} (parser : XmlParser β) (es : List XmlElement) :
    ReadsAll parser es ↔ NoThirdStored parser es :=
  ⟨noThirdStored_of_readsAll, readsAll_of_noThirdStored⟩

/-- Texts, numbers and booleans always have something to store. -/
theorem readsAll_basicParser_iff {β : Type} (f : XmlText → β) (es : List XmlElement) :
    ReadsAll (basicParser f) es ↔ es.length ≤ 2 := by
  constructor
  · intro h
    by_contra hlen
    obtain ⟨a, b, c, rest, rfl⟩ : ∃ a b c rest, es = a :: b :: c :: rest := by
      rcases es with _ | ⟨a, _ | ⟨b, _ | ⟨c, rest⟩⟩⟩
      · simp at hlen
      · simp at hlen
      · simp at hlen
      · exact ⟨a, b, c, rest, rfl⟩
    have hstores := noThirdStored_of_readsAll h a b c rest rfl (succeeds_pure _) (succeeds_pure _)
    cases hstores
  · intro hlen
    refine readsAll_of_noThirdStored fun a b c rest hes _ _ => ?_
    rw [hes, List.length_cons, List.length_cons, List.length_cons] at hlen
    omega

/-! ## The backends of the configuration -/

theorem stores_of_xmlReadBackend {e : XmlElement} {backend : PlcBackend}
    (h : xmlReadBackend e = .ok backend) : (xmlGetProp e.props .name).isSome = true := by
  obtain ⟨name, hname, -⟩ := bind_eq_ok.1 h
  unfold readProperty at hname
  split at hname
  · exact (throw_eq_ok.1 hname).elim
  next hsome => rw [hsome, Option.isSome_some]

/-- `xml_read_backend` stores the name first. -/
def backendParser : XmlParser PlcBackend where
  parse := xmlReadBackend
  stores e := (xmlGetProp e.props .name).isSome
  stores_of_ok _ _ := stores_of_xmlReadBackend

/-- `parse_runtime_backend_configuration` with its memory: the array is copied behind the built-in
    backend. An entry that is still zero is `none`. -/
def parseBackendTable (env : LoaderEnv) (root : XmlElement) :
    Except XmlFault (List (Option PlcBackend)) := do
  let field ← xmlReadContent backendParser (childrenNamed .backend root.children)
  if field.places.length < field.count then throw (.readOutside field.count field.places.length)
  pure (some (defaultBackend env) :: field.places.take field.count)

/-- With its memory in order, the code computes the table of the loader. -/
theorem parseBackendTable_eq {env : LoaderEnv} {root : XmlElement}
    (h : NoThirdStored backendParser (childrenNamed .backend root.children)) :
    (∀ backends, parseRuntimeBackendConfiguration env root = .ok backends →
      parseBackendTable env root = .ok (backends.map some)) ∧
    ∀ err, parseRuntimeBackendConfiguration env root = .error err →
      parseBackendTable env root = .error (.error err) := by
  obtain ⟨hok, herror⟩ := xmlReadContent_eq h
  constructor
  · intro backends hbackends
    obtain ⟨values, hvalues, htable⟩ := bind_eq_ok.1 hbackends
    obtain ⟨field, hfield, hcount, htake⟩ := hok values hvalues
    have hlen : ¬ field.places.length < field.count := by
      have hboth := congrArg List.length htake
      rw [List.length_take, List.length_map, ← (forall₂_of_mapM hvalues).length_eq, ← hcount] at hboth
      omega
    rw [parseBackendTable, hfield, ← pure_eq_ok.1 htable, List.map_cons, ← htake, ← hcount]
    exact if_neg hlen
  · intro err herr
    have hvalues : (childrenNamed .backend root.children).mapM xmlReadBackend = .error err := by
      rw [parseRuntimeBackendConfiguration] at herr
      rcases hmap : (childrenNamed .backend root.children).mapM xmlReadBackend with err' | values
      · rw [hmap] at herr
        exact herr
      · rw [hmap] at herr
        cases herr
    rw [parseBackendTable, herror err hvalues]
    rfl

/-- A backend with the given name. -/
def backendNamed (name : XmlText) : XmlElement :=
  ⟨[], .backend, [⟨[], .name, name⟩, ⟨[], .type, dockerText⟩], [.element [] .address [] [.text ['s']]]⟩

/-- Three backends: the third one is written behind the block. -/
theorem third_backend_outside :
    Succeeds ([backendNamed ['a'], backendNamed ['b'], backendNamed ['c']].mapM xmlReadBackend) ∧
      xmlReadContent backendParser [backendNamed ['a'], backendNamed ['b'], backendNamed ['c']] =
        .error (.writeOutside 2 2) :=
  ⟨⟨_, rfl⟩, xmlReadContent_third rfl rfl rfl []⟩

end PlContainer
