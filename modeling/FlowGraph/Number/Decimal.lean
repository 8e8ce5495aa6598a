import FlowGraph.Number.Binary

/-!
# Decimal text of binary numbers

`shortest` finds, for a positive number of a binary format, the fewest decimal digits that read
back as that number, and among those the nearest to it. `DecimalLayout` says how such digits are
laid out: which exponents are written positionally and how the others are marked. `Double.text`
is the layout that JSON output uses, and `Double.ofLiteral?` reads a literal.
-/

namespace FlowGraph

/-- The decimal number `0.d₁d₂… · 10 ^ point` with digits `d₁d₂…`, the first not zero. -/
structure DecimalDigits where
  digits : Nat
  /-- The exponent of the first digit when one digit stands before the point. -/
  exponent : Int
deriving DecidableEq, Repr

namespace BinaryFormat

/-- The ends of the interval of reals that round to `m · 2 ^ e`, in quarters of `2 ^ e`. Below a
power of two the numbers lie twice as dense. -/
def roundingInterval (f : BinaryFormat) (m : Nat) (e : Int) : Nat × Nat :=
  let below := if m = Nat.pow 2 f.fraction ∧ f.minExponent < e then 1 else 2
  (4 * m - below, 4 * m + 2)

/-- Whether the decimal `d · 10 ^ k` lies in the interval of `m · 2 ^ e`. The ends belong to it
when `m` is even. -/
def roundsTo (f : BinaryFormat) (m : Nat) (e : Int) (d : Nat) (k : Int) : Bool :=
  let (low, high) := f.roundingInterval m e
  -- compare `4 · d · 10 ^ k` with `low · 2 ^ e` and `high · 2 ^ e`, all times the denominators
  let tenUp := Nat.pow 10 k.toNat
  let tenDown := Nat.pow 10 (-k).toNat
  let twoUp := Nat.pow 2 e.toNat
  let twoDown := Nat.pow 2 (-e).toNat
  let x := 4 * d * tenUp * twoDown
  let lo := low * twoUp * tenDown
  let hi := high * twoUp * tenDown
  if m % 2 = 0 then lo ≤ x && x ≤ hi else lo < x && x < hi

/-- The decimal exponent of the first digit of `num / den`, both positive. -/
def firstDigitExponent (num den : Nat) : Int :=
  -- a bound from below by the lengths in bits, then counted up
  let guess := ((num.log2 : Int) - den.log2 - 1) * 1233 / 4096 - 1
  climb 6 guess
where
  /-- Count up while the next power of ten still does not exceed the number. -/
  climb : Nat → Int → Int
    | 0, e => e
    | fuel + 1, e =>
      let next := e + 1
      if den * Nat.pow 10 next.toNat ≤ num * Nat.pow 10 (-next).toNat then climb fuel next else e

/-- The shortest decimal that rounds to `m · 2 ^ e`, with `m` positive; of several the nearest,
and of two equally near ones the even. -/
def shortest (f : BinaryFormat) (m : Nat) (e : Int) : DecimalDigits :=
  let num := m * Nat.pow 2 e.toNat
  let den := Nat.pow 2 (-e).toNat
  let top := firstDigitExponent num den
  search num den top 1 20
where
  /-- Try grids of more and more digits. -/
  search (num den : Nat) (top : Int) (places : Nat) : Nat → DecimalDigits
    | 0 => ⟨m, top⟩
    | fuel + 1 =>
      let k := top - (places - 1 : Nat)
      let n := num * Nat.pow 10 (-k).toNat
      let d := den * Nat.pow 10 k.toNat
      let low := n / d
      let high := low + 1
      let lowIn := f.roundsTo m e low k
      let highIn := f.roundsTo m e high k
      let twice := 2 * (n % d)
      let pick (digits : Nat) : DecimalDigits :=
        if digits = Nat.pow 10 places then ⟨Nat.pow 10 (places - 1), top + 1⟩ else ⟨digits, top⟩
      if lowIn && highIn then
        if twice < d then pick low
        else if d < twice then pick high
        else pick (low + low % 2)
      else if lowIn then pick low
      else if highIn then pick high
      else search num den top (places + 1) fuel

end BinaryFormat

/-- How shortest digits are written. -/
structure DecimalLayout where
  /-- The exponents from `positionalFrom` to `positionalTo` are written without a mark. -/
  positionalFrom : Int
  positionalTo : Int
  /-- What stands between digits and exponent when the exponent is positive or zero. -/
  positiveMark : String
  /-- What stands between digits and exponent when the exponent is negative. -/
  negativeMark : String
deriving Repr

namespace DecimalLayout

/-- The zeros at the end of a digit text are dropped. -/
def trimZeros (digits : List Char) : List Char :=
  (digits.reverse.dropWhile (· = '0')).reverse

/-- Write the digits of a number whose first digit has the given exponent. -/
def write (layout : DecimalLayout) (d : DecimalDigits) : String :=
  let digits := trimZeros (Nat.toDigits 10 d.digits)
  let e := d.exponent
  if layout.positionalFrom ≤ e ∧ e ≤ layout.positionalTo then
    if e < 0 then
      String.ofList ('0' :: '.' :: List.replicate ((-e).toNat - 1) '0' ++ digits)
    else
      let whole := digits.take (e.toNat + 1)
      let fraction := digits.drop (e.toNat + 1)
      let padding := List.replicate (e.toNat + 1 - whole.length) '0'
      let fraction := if fraction.isEmpty then ['0'] else fraction
      String.ofList (whole ++ padding ++ '.' :: fraction)
  else
    let mantissa :=
      match digits with
      | first :: rest@(_ :: _) => first :: '.' :: rest
      | short => short
    let mark := if e < 0 then layout.negativeMark else layout.positiveMark
    String.ofList mantissa ++ mark ++ toString e.natAbs

end DecimalLayout

namespace Double

/-- Numbers are written positionally from `1e-5` to below `1e16`, always with a point, and with
a signed exponent beyond. -/
def layout : DecimalLayout := ⟨-5, 15, "e+", "e-"⟩

/-- The shortest text that reads back as the double. -/
def text (x : Double) : String :=
  match x.value with
  | .finite negative m e =>
    let sign := if negative then "-" else ""
    if m = 0 then sign ++ "0.0"
    else sign ++ layout.write (BinaryFormat.double.shortest m e)
  | .infinite negative => if negative then "-inf" else "inf"
  | .notANumber => "NaN"

/-- The double nearest to `± significand · 10 ^ exponent`; too large a number becomes infinity. -/
def ofDecimal (negative : Bool) (significand : Nat) (exponent : Int) : Double :=
  let size : Int := (Nat.toDigits 10 significand).length + exponent
  -- far outside the range of doubles the powers are not worked out
  if significand = 0 ∨ size < -400 then ofRatio negative 0 1
  else if 400 < size then
    ofWord (BinaryFormat.double.signBit negative + BinaryFormat.double.infinityBits)
  else if 0 ≤ exponent then ofRatio negative (significand * Nat.pow 10 exponent.toNat) 1
  else ofRatio negative significand (Nat.pow 10 (-exponent).toNat)

/-- The double nearest to `10 ^ k`. -/
def powerOfTen (k : Nat) : Double := ofRatio false (Nat.pow 10 k) 1

/-- The value of the literal `significand · 10 ^ exponent`: the significand is rounded to a
double, which is then multiplied or divided by a rounded power of ten, first by `10 ^ 308` as
often as needed. `none` when the result is too large. -/
def ofLiteral? (significand : Nat) (exponent : Int) : Option Double :=
  let start := ofRatio false significand 1
  if start.isZero then some start
  else if 308 < exponent then none
  else if 0 ≤ exponent then
    let product := start.mulMagnitude (powerOfTen exponent.toNat)
    if product.isFinite then some product else none
  else some (shrink start (-exponent).toNat 4)
where
  /-- Divide by `10 ^ places`, at most `10 ^ 308` at a time. -/
  shrink (x : Double) (places : Nat) : Nat → Double
    | 0 => ofWord 0
    | fuel + 1 =>
      if x.isZero then x
      else if places ≤ 308 then x.divMagnitude (powerOfTen places)
      else shrink (x.divMagnitude (powerOfTen 308)) (places - 308) fuel

end Double

end FlowGraph
