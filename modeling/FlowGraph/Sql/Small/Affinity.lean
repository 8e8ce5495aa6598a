import FlowGraph.Sql.Value
import FlowGraph.Text.Blank

/-!
# Values in the small library

A column has an affinity, a preference for one kind of value: `Affinity.apply` converts a value
that is stored in it or compared with it, where this loses nothing. `Value.compare` is the order
of all values: numbers before texts before blobs.
-/

namespace FlowGraph.Sql

/-- The preference of a column for one kind of value. -/
inductive Affinity where
  | blob
  | text
  | numeric
  | integer
  | real
deriving DecidableEq, Repr

/-! ## Numbers in texts -/

/-- The digits in front of a text, and the rest. -/
def spanDigits (text : List Char) : List Char × List Char :=
  (text.takeWhile Char.isDigit, text.dropWhile Char.isDigit)

/-- The value of a run of decimal digits. -/
def digitsValue (digits : List Char) : Nat :=
  digits.foldl (fun n c => n * 10 + (c.toNat - 48)) 0

/-- An exponent in front of a text: its value, and the rest. -/
def spanExponent (text : List Char) : Option (Int × List Char) :=
  match text with
  | e :: rest =>
    if e = 'e' ∨ e = 'E' then
      let (down, rest) : Bool × List Char := match rest with
        | '-' :: rest => (true, rest)
        | '+' :: rest => (false, rest)
        | rest => (false, rest)
      let (digits, rest) := spanDigits rest
      if digits.isEmpty then none
      else
        let n : Int := digitsValue digits
        some (if down then -n else n, rest)
    else none
  | [] => none

/-- A number without a sign in front of a text, and the rest: an integer unless it has a point,
an exponent or too many digits. -/
def spanNumber (negative : Bool) (text : List Char) : Option (Value × List Char) :=
  let (whole, rest) := spanDigits text
  let (fraction, point, rest) : List Char × Bool × List Char := match rest with
    | '.' :: rest =>
      let (digits, rest) := spanDigits rest
      (digits, true, rest)
    | rest => ([], false, rest)
  if whole.isEmpty ∧ fraction.isEmpty then none
  else
    let significand := digitsValue (whole ++ fraction)
    let float (exponent : Int) : Value :=
      .real (Double.ofDecimal negative significand (exponent - fraction.length))
    match spanExponent rest with
    | some (exponent, rest) => some (float exponent, rest)
    | none =>
      let n : Int := if negative then -(significand : Int) else significand
      some (if point || !isInteger n then float 0 else .integer n, rest)

/-- The number that a whole text spells, blanks at its ends aside. -/
def numberOf? (text : List Char) : Option Value :=
  let blank (c : Char) : Bool := c = ' ' || (9 ≤ c.toNat && c.toNat ≤ 13)
  let text := ((text.dropWhile blank).reverse.dropWhile blank).reverse
  let (negative, digits) : Bool × List Char := match text with
    | '-' :: rest => (true, rest)
    | '+' :: rest => (false, rest)
    | text => (false, text)
  match spanNumber negative digits with
  | some (v, []) => some v
  | _ => none

/-! ## Numbers as texts -/

/-- A double with at most fifteen digits, always with a point. -/
def realText (x : Double) : String :=
  match x.value with
  | .infinite negative => if negative then "-Inf" else "Inf"
  | .notANumber => ""
  | .finite negative m e =>
    if m = 0 then "0.0"
    else
      let d := round (BinaryFormat.double.shortest m e)
      let body :=
        if -4 ≤ d.exponent ∧ d.exponent ≤ 14 then DecimalLayout.write ⟨-4, 14, "", ""⟩ d
        else
          let mantissa := DecimalLayout.write ⟨0, 0, "", ""⟩ { d with exponent := 0 }
          let places := toString d.exponent.natAbs
          let places := if d.exponent.natAbs < 10 then "0" ++ places else places
          mantissa ++ (if d.exponent < 0 then "e-" else "e+") ++ places
      (if negative then "-" else "") ++ body
where
  /-- Round to fifteen digits, a half upwards. -/
  round (d : DecimalDigits) : DecimalDigits :=
    let excess := (Nat.toDigits 10 d.digits).length - 15
    if excess = 0 then d
    else
      let digits := (d.digits + 5 * Nat.pow 10 (excess - 1)) / Nat.pow 10 excess
      if digits = Nat.pow 10 15 then ⟨1, d.exponent + 1⟩ else ⟨digits, d.exponent⟩

/-- The integer that a double is, if it is one that fits. -/
def wholeOf? (x : Double) : Option Int :=
  match x.value with
  | .finite negative m e =>
    let whole? : Option Nat :=
      if 0 ≤ e then if e ≤ 64 then some (m * Nat.pow 2 e.toNat) else none
      else if m % Nat.pow 2 (-e).toNat = 0 then some (m / Nat.pow 2 (-e).toNat) else none
    match whole? with
    | some n =>
      let n : Int := if negative then -(n : Int) else n
      if isInteger n then some n else none
    | none => none
  | _ => none

namespace Value

/-- The text of a value that has text affinity. -/
def asText : Value → Value
  | .integer n => ofString (toString n)
  | .real x => ofString (realText x)
  | v => v

/-- The number that a text value spells. -/
def asNumber : Value → Value
  | .text bytes => (numberOf? (Text.lossyText bytes).toList).getD (.text bytes)
  | v => v

/-- A value as a text of the same bytes. -/
def toText : Value → Value
  | .blob bytes => .text bytes
  | v => v.asText

/-! ## Order -/

/-- The kinds of values in order. -/
def rank : Value → Nat
  | .null => 0
  | .integer _ | .real _ => 1
  | .text _ => 2
  | .blob _ => 3

/-- A finite double as a numerator and a power of two below it; infinities are larger than all
integers. -/
def scaled (x : Double) : Int × Nat :=
  match x.value with
  | .finite negative m e =>
    let m : Int := if negative then -(m : Int) else m
    if 0 ≤ e then (m * Nat.pow 2 e.toNat, 0) else (m, (-e).toNat)
  | .infinite negative => (if negative then -Nat.pow 2 1100 else Nat.pow 2 1100, 0)
  | .notANumber => (0, 0)

/-- A number as a numerator and a power of two below it. -/
def fraction : Value → Int × Nat
  | .integer n => (n, 0)
  | .real x => scaled x
  | _ => (0, 0)

/-- The order of byte sequences. -/
def compareBytes : List UInt8 → List UInt8 → Ordering
  | [], [] => .eq
  | [], _ :: _ => .lt
  | _ :: _, [] => .gt
  | a :: as, b :: bs => if a < b then .lt else if b < a then .gt else compareBytes as bs

/-- The order of all values. -/
def compare (a b : Value) : Ordering :=
  match a, b with
  | .text x, .text y | .blob x, .blob y => compareBytes x.toList y.toList
  | a, b =>
    if a.rank ≠ b.rank then Ord.compare a.rank b.rank
    else
      let (m, p) := a.fraction
      let (n, q) := b.fraction
      Ord.compare (m * Nat.pow 2 q) (n * Nat.pow 2 p)

end Value

namespace Affinity

/-- Whether a word occurs in a text. -/
def occurs (word : List Char) : List Char → Bool
  | [] => word.isEmpty
  | c :: rest => word.isPrefixOf (c :: rest) || occurs word rest

/-- The affinity of a declared type. -/
def ofTypeName (name : String) : Affinity :=
  let chars := name.toList.map Char.toUpper
  let has (word : String) : Bool := occurs word.toList chars
  if has "INT" then .integer
  else if has "CHAR" || has "CLOB" || has "TEXT" then .text
  else if has "BLOB" || chars.isEmpty then .blob
  else if has "REAL" || has "FLOA" || has "DOUB" then .real
  else .numeric

/-- Whether an affinity prefers numbers. -/
def isNumeric : Affinity → Bool
  | .numeric | .integer | .real => true
  | _ => false

/-- Convert a value to an affinity. -/
def apply (affinity : Affinity) (v : Value) : Value :=
  match affinity with
  | .blob => v
  | .text => v.asText
  | .real => match v.asNumber with
    | .integer n => .real (Double.ofInt n)
    | v => v
  | .numeric | .integer => match v.asNumber with
    | .real x => match wholeOf? x with
      | some n => .integer n
      | none => .real x
    | v => v

end Affinity

end FlowGraph.Sql
