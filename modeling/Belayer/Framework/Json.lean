import Mathlib.Data.Rat.Defs
import Mathlib.Logic.Basic

namespace Belayer.Framework

/-- A JSON value as a Python program reads it: a dict keeps its keys in order and
every key at most once. Numbers that are not finite are left out. -/
inductive Json where
  | null
  | bool (b : Bool)
  | int (n : Int)
  | float (x : Rat)
  | str (s : String)
  | arr (xs : List Json)
  | obj (fields : List (String × Json))

abbrev JsonObject := List (String × Json)

/-- What Python raises when a value has the wrong type or form. -/
inductive PyError where
  | typeError
  | attributeError
  | valueError
  deriving DecidableEq

namespace JsonObject

/-- `o.get(k)`. -/
def get (o : JsonObject) (k : String) : Option Json := o.lookup k

/-- `o[k] = v`. -/
def set : JsonObject → String → Json → JsonObject
  | [], k, v => [(k, v)]
  | (k', v') :: o, k, v => if k' = k then (k, v) :: o else (k', v') :: set o k v

/-- `o.get(k)` with a null value read as a missing one. -/
def getNotNone (o : JsonObject) (k : String) : Option Json :=
  match get o k with
  | none | some .null => none
  | some v => some v

@[simp] theorem get_nil (k : String) : get [] k = none := rfl

theorem get_cons (k' : String) (v : Json) (o : JsonObject) (k : String) :
    get ((k', v) :: o) k = if k = k' then some v else get o k := by
  by_cases h : k = k'
  · simp [get, h]
  · have hb : (k == k') = false := by simpa using h
    simp [get, List.lookup_cons, hb, h]

theorem get_set_ite (o : JsonObject) (k k' : String) (v : Json) :
    get (set o k v) k' = if k' = k then some v else get o k' := by
  induction o with
  | nil => simp [set, get_cons]
  | cons p o ih =>
    obtain ⟨k₁, v₁⟩ := p
    by_cases h : k₁ = k
    · by_cases hk : k' = k <;> simp [set, h, get_cons, hk]
    · by_cases hk : k' = k₁
      · subst k'
        simp [set, h, get_cons]
      · simp [set, h, get_cons, hk, ih]

@[simp] theorem get_set_same (o : JsonObject) (k : String) (v : Json) :
    get (set o k v) k = some v := by
  simp [get_set_ite]

theorem get_set_other (o : JsonObject) {k k' : String} (v : Json) (h : k' ≠ k) :
    get (set o k v) k' = get o k' := by
  simp [get_set_ite, h]

theorem set_set (o : JsonObject) (k : String) (v w : Json) : set (set o k v) k w = set o k w := by
  induction o with
  | nil => simp [set]
  | cons p o ih =>
    by_cases h : p.1 = k
    · simp [set, h]
    · simp [set, h, ih]

/-- A key that is there keeps its place, so another one may be set before it or after it. -/
theorem set_comm (o : JsonObject) {k k' : String} (hk : k ≠ k') (h : (get o k').isSome)
    (v w : Json) : set (set o k v) k' w = set (set o k' w) k v := by
  induction o with
  | nil => simp at h
  | cons p o ih =>
    obtain ⟨k₁, v₁⟩ := p
    by_cases h₁ : k₁ = k
    · have hne : ¬k₁ = k' := fun h' => hk (h₁.symm.trans h')
      simp [set, h₁, hk]
    · by_cases h₂ : k₁ = k'
      · have hne : ¬k' = k := fun h' => hk h'.symm
        simp [set, h₂, hne]
      · have hne : ¬k' = k₁ := fun h' => h₂ h'.symm
        rw [get_cons, if_neg hne] at h
        simp [set, h₁, h₂, ih h]

end JsonObject

namespace Json

/-- The truth value of a JSON value in Python. -/
def truthy : Json → Bool
  | .null => false
  | .bool b => b
  | .int n => n ≠ 0
  | .float x => x ≠ 0
  | .str s => s ≠ ""
  | .arr xs => !xs.isEmpty
  | .obj fields => !fields.isEmpty

/-- `x or []` where `x` is a list if it is not false. -/
def listOrEmpty : Option Json → List Json
  | some (.arr xs) => xs
  | _ => []

/-- `list(x or [])`. -/
def toList (x : Option Json) : Except PyError (List Json) :=
  match x.filter truthy with
  | none => .ok []
  | some (.arr xs) => .ok xs
  | some (.str s) => .ok (s.toList.map fun c => .str (String.singleton c))
  | some (.obj fields) => .ok (fields.map fun p => .str p.1)
  | some _ => .error .typeError

/-- `x or {}`, used as a dict. -/
def toDict (x : Option Json) : Except PyError JsonObject :=
  match x.filter truthy with
  | none => .ok []
  | some (.obj fields) => .ok fields
  | some _ => .error .attributeError

/-- The digits of a decimal number, after Python's `strip()`. -/
def strip (s : List Char) : List Char :=
  ((s.dropWhile Char.isWhitespace).reverse.dropWhile Char.isWhitespace).reverse

def digitsValue (s : List Char) : Nat :=
  s.foldl (fun n c => 10 * n + (c.toNat - '0'.toNat)) 0

/-- `body.isdigit()` and then the number, over the ASCII digits. -/
def parseDigits (s : List Char) : Option Nat :=
  if s ≠ [] ∧ s.all Char.isDigit then some (digitsValue s) else none

/-- `int(x)`. -/
def toInt : Json → Except PyError Int
  | .int n => .ok n
  | .bool b => .ok b.toNat
  | .float x => .ok (x.num.tdiv x.den)
  | .str s =>
    let signed : Option Int :=
      match strip s.toList with
      | '-' :: body => (parseDigits body).map fun n : Nat => -(n : Int)
      | '+' :: body => (parseDigits body).map fun n : Nat => (n : Int)
      | body => (parseDigits body).map fun n : Nat => (n : Int)
    match signed with
    | some n => .ok n
    | none => .error .valueError
  | .null | .arr _ | .obj _ => .error .typeError

/-! Equality -/

/-- The number that a value is. -/
def numberValue : Json → Option Rat
  | .bool b => some b.toNat
  | .int n => some n
  | .float x => some x
  | _ => none

mutual

/-- `a == b`. -/
def pyEq : Json → Json → Bool
  | .null, .null => true
  | .str a, .str b => a == b
  | .arr xs, .arr ys => pyEqList xs ys
  | .obj xs, .obj ys => xs.length == ys.length && pyEqFields xs ys
  | a, b =>
    match numberValue a, numberValue b with
    | some x, some y => x == y
    | _, _ => false

def pyEqList : List Json → List Json → Bool
  | [], [] => true
  | x :: xs, y :: ys => pyEq x y && pyEqList xs ys
  | _, _ => false

def pyEqFields : List (String × Json) → List (String × Json) → Bool
  | [], _ => true
  | (k, v) :: xs, ys =>
    (match ys.lookup k with
    | some w => pyEq v w
    | none => false) && pyEqFields xs ys

end

theorem pyEq_int (m n : Int) : pyEq (.int m) (.int n) = decide (m = n) := by
  rw [Bool.eq_iff_iff]
  simp [pyEq, numberValue]

theorem pyEqList_int {ms ns : List Int} :
    pyEqList (ms.map .int) (ns.map .int) = true ↔ ms = ns := by
  induction ms generalizing ns with
  | nil => cases ns <;> simp [pyEqList]
  | cons m ms ih => cases ns <;> simp [pyEqList, pyEq_int, ih]

end Json

end Belayer.Framework
