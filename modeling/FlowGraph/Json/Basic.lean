import FlowGraph.Keyed
import FlowGraph.Number.Decimal

/-!
# JSON values

A value keeps the order of its object fields. Integers and floating-point numbers are different
numbers: an integer is never equal to a float, whatever their size. `WellFormed` says that no
object repeats a key, which every reader here ensures; `same` is equality of the data, for which
the order of fields does not matter.
-/

namespace FlowGraph

/-- A JSON number: a whole number, or a finite binary one. -/
inductive Number where
  | int (value : Int)
  | float (value : Double)
deriving DecidableEq, Repr, Inhabited

/-- A JSON value with ordered object fields. -/
inductive Json where
  | null
  | bool (value : Bool)
  | num (value : Number)
  | str (value : String)
  | arr (items : List Json)
  | obj (fields : List (String × Json))
deriving Repr, Inhabited

namespace Number

/-- Whether the number is zero of either kind and sign. -/
def isZero : Number → Bool
  | int i => i = 0
  | float x => x.isZero

/-- Equality of numbers of one kind; the two float zeros are equal. -/
def same : Number → Number → Bool
  | int i, int j => i = j
  | float x, float y => x.sameNumber y
  | _, _ => false

/-- The double nearest to the number. -/
def toDouble : Number → Double
  | int i => Double.ofInt i
  | float x => x

/-- The number as written in JSON. -/
def text : Number → String
  | int i => toString i
  | float x => x.text

end Number

namespace Json

/-! ## Construction -/

/-- A whole number. -/
def ofInt (i : Int) : Json := .num (.int i)

/-- A natural number. -/
def ofNat (n : Nat) : Json := .num (.int n)

/-- A double, or `null` when it is not finite: JSON has no text for the others. -/
def ofDouble (x : Double) : Json :=
  if x.isFinite then .num (.float x) else .null

/-- An optional text, `null` when absent. -/
def strOrNull : Option String → Json
  | some s => .str s
  | none => .null

/-! ## Equality -/

mutual
/-- Decides equality of values, field order included. -/
def decEq : (a b : Json) → Decidable (a = b)
  | .null, .null => isTrue rfl
  | .bool a, .bool b => decidable_of_iff (a = b) (by simp)
  | .num a, .num b => decidable_of_iff (a = b) (by simp)
  | .str a, .str b => decidable_of_iff (a = b) (by simp)
  | .arr a, .arr b =>
    match decEqItems a b with
    | isTrue h => isTrue (by rw [h])
    | isFalse h => isFalse (by simpa using h)
  | .obj a, .obj b =>
    match decEqFields a b with
    | isTrue h => isTrue (by rw [h])
    | isFalse h => isFalse (by simpa using h)
  | .null, .bool _ | .null, .num _ | .null, .str _ | .null, .arr _ | .null, .obj _
  | .bool _, .null | .bool _, .num _ | .bool _, .str _ | .bool _, .arr _ | .bool _, .obj _
  | .num _, .null | .num _, .bool _ | .num _, .str _ | .num _, .arr _ | .num _, .obj _
  | .str _, .null | .str _, .bool _ | .str _, .num _ | .str _, .arr _ | .str _, .obj _
  | .arr _, .null | .arr _, .bool _ | .arr _, .num _ | .arr _, .str _ | .arr _, .obj _
  | .obj _, .null | .obj _, .bool _ | .obj _, .num _ | .obj _, .str _ | .obj _, .arr _ =>
    isFalse (by simp)

/-- Decides equality of lists of values. -/
def decEqItems : (a b : List Json) → Decidable (a = b)
  | [], [] => isTrue rfl
  | [], _ :: _ => isFalse (by simp)
  | _ :: _, [] => isFalse (by simp)
  | x :: xs, y :: ys =>
    match decEq x y, decEqItems xs ys with
    | isTrue h, isTrue t => isTrue (by rw [h, t])
    | isFalse h, _ => isFalse (by simp [h])
    | _, isFalse t => isFalse (by simp [t])

/-- Decides equality of lists of fields. -/
def decEqFields : (a b : List (String × Json)) → Decidable (a = b)
  | [], [] => isTrue rfl
  | [], _ :: _ => isFalse (by simp)
  | _ :: _, [] => isFalse (by simp)
  | (k, x) :: xs, (l, y) :: ys =>
    if hk : k = l then
      match decEq x y, decEqFields xs ys with
      | isTrue h, isTrue t => isTrue (by rw [hk, h, t])
      | isFalse h, _ => isFalse (by simp [h])
      | _, isFalse t => isFalse (by simp [t])
    else isFalse (by simp [hk])
end

instance : DecidableEq Json := decEq

mutual
/-- Whether two values hold the same data: numbers are compared as numbers of one kind, and
objects as tables without order. -/
def same : Json → Json → Bool
  | .null, .null => true
  | .bool a, .bool b => a = b
  | .num a, .num b => a.same b
  | .str a, .str b => a = b
  | .arr a, .arr b => sameItems a b
  | .obj a, .obj b => a.length = b.length && sameFields a b
  | _, _ => false

/-- Two lists of the same data, item by item. -/
def sameItems : List Json → List Json → Bool
  | [], [] => true
  | x :: xs, y :: ys => same x y && sameItems xs ys
  | _, _ => false

/-- Each field of the first list has the same data in the second. -/
def sameFields : List (String × Json) → List (String × Json) → Bool
  | [], _ => true
  | (key, x) :: xs, ys =>
    (match Keyed.get? ys key with
      | some y => same x y
      | none => false) && sameFields xs ys
end

/-! ## Views -/

/-- The value under a key of an object; other values have no keys. -/
def field? : Json → String → Option Json
  | .obj fields, key => Keyed.get? fields key
  | _, _ => none

/-- The text of a string value. -/
def asText? : Json → Option String
  | .str s => some s
  | _ => none

/-- A whole number that is not negative. -/
def asNat? : Json → Option Nat
  | .num (.int i) => if 0 ≤ i then some i.toNat else none
  | _ => none

/-- A number, as a double. -/
def asDouble? : Json → Option Double
  | .num n => some n.toDouble
  | _ => none

/-- Whether the value is `null`. -/
def isNull : Json → Bool
  | .null => true
  | _ => false

/-- The name of the value's type, for messages. -/
def typeName : Json → String
  | .null => "null"
  | .bool _ => "boolean"
  | .num _ => "number"
  | .str _ => "string"
  | .arr _ => "array"
  | .obj _ => "object"

/-- Whether a condition holds: `null`, `false`, zero and everything empty do not. -/
def truthy : Json → Bool
  | .null => false
  | .bool b => b
  | .num n => !n.isZero
  | .str s => s ≠ ""
  | .arr items => !items.isEmpty
  | .obj fields => !fields.isEmpty

mutual
/-- No object repeats a key, at any depth. -/
def WellFormed : Json → Prop
  | .arr items => WellFormedItems items
  | .obj fields => Keyed.Distinct fields ∧ WellFormedFields fields
  | _ => True

/-- Every item is well-formed. -/
def WellFormedItems : List Json → Prop
  | [] => True
  | x :: xs => WellFormed x ∧ WellFormedItems xs

/-- Every field's value is well-formed. -/
def WellFormedFields : List (String × Json) → Prop
  | [] => True
  | (_, x) :: xs => WellFormed x ∧ WellFormedFields xs
end

end Json

/-- The fields of an object: node inputs, outputs and configuration. -/
abbrev Fields := Keyed Json

end FlowGraph
