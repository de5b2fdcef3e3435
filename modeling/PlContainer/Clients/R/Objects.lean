import PlContainer.Common.Messages

set_option autoImplicit false

/-! # R objects

The objects of the R interpreter as the conversions of the R client see them. Vectors of logical and
integer values hold C integers, of which one stands for `NA`; in a vector of floating-point numbers `NA`
is a NaN with a certain payload; a vector of strings holds pointers, of which one stands for `NA`. -/

namespace PlContainer

/-! ## Missing values -/

/-- `NA_INTEGER` and `NA_LOGICAL`: the least `int` -/
def naInteger : BitVec 32 := 0x80000000#32

/-- `NA_REAL` -/
def naReal : BitVec 64 := 0x7FF00000000007A2#64

/-- `isnan` -/
def isNaN (d : BitVec 64) : Bool := d.extractLsb' 52 11 = 2047#11 ∧ d.extractLsb' 0 52 ≠ 0#52

/-- `R_IsNA`: the lower word of the NaN is 1954. -/
def rIsNA (d : BitVec 64) : Bool := isNaN d && d.extractLsb' 0 32 = 1954#32

/-- The operator `==` on `double`. -/
def doubleEq (a b : BitVec 64) : Bool :=
  !isNaN a && !isNaN b && (a = b || (a.extractLsb' 0 63 = 0#63 && b.extractLsb' 0 63 = 0#63))

/-- No number is equal to `NA_REAL`. -/
theorem doubleEq_naReal (d : BitVec 64) : doubleEq d naReal = false := by
  have hnan : isNaN naReal = true := by decide
  rw [doubleEq, hnan]
  simp

/-! ## Objects -/

/-- What an atomic vector holds. -/
inductive RAtoms where
  /-- `LGLSXP` -/
  | logical (v : List (BitVec 32))
  /-- `INTSXP` -/
  | integer (v : List (BitVec 32))
  /-- `REALSXP` -/
  | real (v : List (BitVec 64))
  /-- `STRSXP`, with nothing for `NA_STRING` -/
  | character (v : List (Option CString))

def RAtoms.length : RAtoms → ℕ
  | .logical v => v.length
  | .integer v => v.length
  | .real v => v.length
  | .character v => v.length

/-- One value of an atomic vector. -/
inductive RAtom where
  | na
  | logical (b : BitVec 32)
  | integer (n : BitVec 32)
  | real (d : BitVec 64)
  | text (s : CString)
deriving DecidableEq

/-- The value at an index. -/
def RAtoms.get? : RAtoms → ℕ → Option RAtom
  | .logical v, i => v[i]?.map fun b => if b = naInteger then .na else .logical b
  | .integer v, i => v[i]?.map fun n => if n = naInteger then .na else .integer n
  | .real v, i => v[i]?.map fun d => if rIsNA d then .na else .real d
  | .character v, i => v[i]?.map fun s => s.elim .na .text

theorem RAtoms.isSome_get? (a : RAtoms) (i : ℕ) : (a.get? i).isSome ↔ i < a.length := by
  cases a <;> simp [RAtoms.get?, RAtoms.length]

/-- An R object, with the attributes that the conversions look at. -/
inductive RObj where
  /-- `R_NilValue` -/
  | nil
  /-- an atomic vector, with its dimensions; a vector of integers with levels is a factor -/
  | vec (data : RAtoms) (dim : Option (List ℕ)) (levels : Option (List (Option CString)))
  /-- a list; `frame` says that it is a data frame -/
  | list (items : List RObj) (dim : Option (List ℕ)) (frame : Bool)
  /-- anything else: complex numbers, raw bytes, functions, environments and so on -/
  | other (isVector : Bool) (length : ℕ) (dim : Option (List ℕ))

/-- `length` -/
def RObj.length : RObj → ℕ
  | .nil => 0
  | .vec data _ _ => data.length
  | .list items _ _ => items.length
  | .other _ n _ => n

/-- `getAttrib` for `R_DimSymbol`; nothing for `R_NilValue`. -/
def RObj.dim : RObj → Option (List ℕ)
  | .nil => none
  | .vec _ dim _ => dim
  | .list _ dim _ => dim
  | .other _ _ dim => dim

/-- `isVector` -/
def RObj.isVector : RObj → Bool
  | .nil => false
  | .vec _ _ _ => true
  | .list _ _ _ => true
  | .other isVector _ _ => isVector

/-- `isMatrix` -/
def RObj.isMatrix (o : RObj) : Bool := o.isVector && o.dim.any fun d => d.length = 2

/-- `IS_CHARACTER` -/
def RObj.isCharacter : RObj → Bool
  | .vec (.character _) _ _ => true
  | _ => false

/-- `isFrame` -/
def RObj.isFrame : RObj → Bool
  | .list _ _ frame => frame
  | _ => false

/-! ## The interpreter and the compiler -/

/-- What the conversions ask of the interpreter, and how the compiler converts numbers. -/
structure RApi where
  /-- the `int` that `asInteger` makes of a number -/
  realToInt : BitVec 64 → BitVec 32
  intToDouble : BitVec 32 → BitVec 64
  doubleToLong : BitVec 64 → BitVec 64
  doubleToFloat : BitVec 64 → BitVec 32
  /-- `Rf_GetColNames` returns `NULL`, which is not `R_NilValue` -/
  getColNamesNull : RObj → Bool

/-- `asLogical` of a logical vector and `asInteger` of an integer vector. -/
def firstOrNA (v : List (BitVec 32)) : BitVec 32 := v.head?.getD naInteger

/-- `asInteger` of a vector of numbers. -/
def RApi.asInteger (api : RApi) (v : List (BitVec 64)) : BitVec 32 :=
  (v.head?.map api.realToInt).getD naInteger

end PlContainer
