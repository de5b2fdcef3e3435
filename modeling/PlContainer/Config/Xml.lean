import Mathlib.Data.BitVec

set_option autoImplicit false

/-! # The configuration document

The configuration file is read twice: by the management tool, with Python's ElementTree, and by the
backend, with libxml2. Both see the same tree, but not in the same way. libxml2 compares names without
their namespace and takes the text of an element from all its descendants; ElementTree puts the
namespace into the name and takes the text before the first child. The two also read numbers
differently. -/

namespace PlContainer

abbrev XmlText := List Char

/-- The element names of the configuration. -/
inductive Tag where
  | configuration | runtime | backend
  | id | image | command | setting | sharedDirectory | deviceRequest
  | deviceid | capacity | driver
  | address | port | username | password | addSegmentIndex
  | other (name : XmlText)
deriving DecidableEq, Repr

/-- The attribute names of the configuration. -/
inductive Attr where
  | useContainerLogging | memoryMb | cpuShare | enableNetwork | resourceGroupId | roles
  | type | name | all | host | container | access
  | other (name : XmlText)
deriving DecidableEq, Repr

/-- An attribute; without a namespace `ns` is empty. -/
structure XmlProp where
  ns : XmlText
  attr : Attr
  value : XmlText
deriving DecidableEq, Repr

inductive XmlNode where
  | element (ns : XmlText) (tag : Tag) (props : List XmlProp) (children : List XmlNode)
  | text (s : XmlText)
  /-- a comment or a processing instruction -/
  | other

/-- An element, with its parts. -/
structure XmlElement where
  ns : XmlText
  tag : Tag
  props : List XmlProp
  children : List XmlNode

def XmlNode.toElement? : XmlNode → Option XmlElement
  | .element ns tag props children => some ⟨ns, tag, props, children⟩
  | _ => none

def XmlElement.toNode (e : XmlElement) : XmlNode := .element e.ns e.tag e.props e.children

/-- The element children, in order. -/
def elements (children : List XmlNode) : List XmlElement := children.filterMap XmlNode.toElement?

/-! ## libxml2 -/

/-- The element children of the given name. -/
def childrenNamed (tag : Tag) (children : List XmlNode) : List XmlElement :=
  (elements children).filter (·.tag = tag)

/-- `xmlGetProp` -/
def xmlGetProp (props : List XmlProp) (attr : Attr) : Option XmlText :=
  (props.find? (·.attr = attr)).map XmlProp.value

mutual

def XmlNode.content : XmlNode → XmlText
  | .element _ _ _ children => contents children
  | .text s => s
  | .other => []

def contents : List XmlNode → XmlText
  | [] => []
  | node :: nodes => node.content ++ contents nodes

end

/-- `xmlNodeGetContent` -/
def XmlElement.getContent (e : XmlElement) : XmlText := contents e.children

/-- `strlen`: the number of bytes of a text. -/
def utf8Strlen (s : XmlText) : ℕ := (s.map Char.utf8Size).sum

def strcasecmp (a b : XmlText) : Bool := a.map Char.toLower == b.map Char.toLower

def isspace (c : Char) : Bool := c ∈ [' ', '\t', '\n', '\x0b', '\x0c', '\r']

/-- The number that a text of decimal digits stands for. -/
def ofDigits (ds : List Char) : ℕ := ds.foldl (fun n c => 10 * n + (c.toNat - '0'.toNat)) 0

/-- The number at the start of a text, without the limits of `strtol`, and the text behind it; `none`
    if there is no number. -/
def strtol (s : XmlText) : Option (ℤ × XmlText) :=
  let unsigned (sign : ℤ) (s : XmlText) : Option (ℤ × XmlText) :=
    match s.takeWhile Char.isDigit with
    | [] => none
    | ds => some (sign * ofDigits ds, s.dropWhile Char.isDigit)
  match s.dropWhile isspace with
  | '-' :: s => unsigned (-1) s
  | '+' :: s => unsigned 1 s
  | s => unsigned 1 s

/-- `pg_atoi` for an `int`; `none` is an error. -/
def pgAtoi (s : XmlText) : Option ℤ :=
  match strtol s with
  | none => none
  | some (n, rest) => if -2 ^ 31 ≤ n ∧ n < 2 ^ 31 ∧ rest.all isspace then some n else none

/-- `atoll` -/
def atoll (s : XmlText) : ℤ :=
  match strtol s with
  | none => 0
  | some (n, _) => max (-2 ^ 63) (min n (2 ^ 63 - 1))

/-- `atoi` -/
def atoi (s : XmlText) : BitVec 32 := BitVec.ofInt 32 (atoll s)

/-! ## ElementTree -/

/-- `findall` with a name that has no namespace. -/
def findall (tag : Tag) (children : List XmlNode) : List XmlElement :=
  (elements children).filter fun e => e.ns = [] ∧ e.tag = tag

/-- `find` -/
def findTag (tag : Tag) (children : List XmlNode) : Option XmlElement := (findall tag children).head?

/-- The entry of `attrib`. -/
def attribOf (props : List XmlProp) (attr : Attr) : Option XmlText :=
  (props.find? fun p => p.ns = [] ∧ p.attr = attr).map XmlProp.value

/-- The text up to the first child element. -/
def textBefore : List XmlNode → XmlText
  | .text s :: nodes => s ++ textBefore nodes
  | .other :: nodes => textBefore nodes
  | _ => []

/-- The property `text`; `none` is `None`. -/
def XmlElement.pyText (e : XmlElement) : Option XmlText :=
  match textBefore e.children with
  | [] => none
  | s => some s

/-- What Python's tables say about the characters outside ASCII. -/
structure PyUnicode where
  /-- the value of a decimal digit -/
  decimal : Char → Option ℕ
  isdigit : Char → Bool
  isspace : Char → Bool

namespace PyUnicode

variable (u : PyUnicode)

def digit (c : Char) : Option ℕ :=
  if c.toNat < 128 then (if c.isDigit then some (c.toNat - '0'.toNat) else none) else u.decimal c

def space (c : Char) : Bool := if c.toNat < 128 then PlContainer.isspace c else u.isspace c

/-- The digits of a number, between which single underscores may stand. -/
def readDigits (n : ℕ) : XmlText → ℕ × XmlText
  | [] => (n, [])
  | c :: cs =>
      match u.digit c, c, cs with
      | some d, _, cs => readDigits (10 * n + d) cs
      | none, '_', c' :: cs' =>
          match u.digit c' with
          | some d => readDigits (10 * n + d) cs'
          | none => (n, c :: c' :: cs')
      | none, c, cs => (n, c :: cs)

/-- `int(s)`; `none` is a `ValueError`. -/
def int (s : XmlText) : Option ℤ :=
  let unsigned (sign : ℤ) (s : XmlText) : Option ℤ :=
    match s with
    | [] => none
    | c :: cs =>
        match u.digit c with
        | none => none
        | some d =>
            let (n, rest) := u.readDigits d cs
            if rest.all u.space then some (sign * n) else none
  match s.dropWhile u.space with
  | '-' :: s => unsigned (-1) s
  | '+' :: s => unsigned 1 s
  | s => unsigned 1 s

/-- `s.isdigit()` -/
def allDigits (s : XmlText) : Bool :=
  !s.isEmpty && s.all fun c => if c.toNat < 128 then c.isDigit else u.isdigit c

end PyUnicode

end PlContainer
