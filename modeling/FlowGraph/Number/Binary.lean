/-!
# Binary floating-point formats

A finite number of a binary format is `± m · 2 ^ e` with `m` below `2 ^ (fraction + 1)`. A
`BinaryFormat` fixes the widths of the fraction and exponent fields; `encode` rounds an exact
fraction to the nearest number of the format, a tie going to the even neighbour, and `decode`
gives back the exact value. All arithmetic is on integers, so a result never depends on the
machine.
-/

namespace FlowGraph

/-- The widths, in bits, of the stored fraction and of the exponent field. -/
structure BinaryFormat where
  fraction : Nat
  exponent : Nat
deriving DecidableEq, Repr

/-- What a word of a binary format stands for. -/
inductive BinaryValue where
  | finite (negative : Bool) (significand : Nat) (exponent : Int)
  | infinite (negative : Bool)
  | notANumber
deriving DecidableEq, Repr

namespace BinaryFormat

/-- Eight bytes: 52 fraction bits and 11 exponent bits. -/
def double : BinaryFormat := ⟨52, 11⟩

/-- Four bytes: 23 fraction bits and 8 exponent bits. -/
def single : BinaryFormat := ⟨23, 8⟩

/-- The exponent of the smallest step, which the subnormal numbers share. -/
def minExponent (f : BinaryFormat) : Int :=
  2 - (Nat.pow 2 (f.exponent - 1) : Int) - f.fraction

/-- The exponent field of infinities and of words that are not numbers. -/
def topField (f : BinaryFormat) : Nat := Nat.pow 2 f.exponent - 1

/-- The magnitude bits of infinity. -/
def infinityBits (f : BinaryFormat) : Nat := f.topField * Nat.pow 2 f.fraction

/-- The sign bit of a word. -/
def signBit (f : BinaryFormat) (negative : Bool) : Nat :=
  if negative then Nat.pow 2 (f.fraction + f.exponent) else 0

/-- `num / den` rounded to the nearest integer, a tie going to the even one. -/
def roundQuotient (num den : Nat) : Nat :=
  let q := num / den
  let twice := 2 * (num % den)
  if twice < den then q
  else if den < twice then q + 1
  else q + q % 2

/-- The fraction `num / den · 2 ^ (-e)`, as a numerator and a denominator. -/
def scaleDown (num den : Nat) (e : Int) : Nat × Nat :=
  if 0 ≤ e then (num, den * Nat.pow 2 e.toNat) else (num * Nat.pow 2 (-e).toNat, den)

/-- The exponent of the last place that the format keeps of `num / den`, both positive. -/
def lastPlace (f : BinaryFormat) (num den : Nat) : Int :=
  let guess := (num.log2 : Int) - den.log2 - (f.fraction + 1)
  let (n, d) := scaleDown num den guess
  let place := if Nat.pow 2 (f.fraction + 1) ≤ n / d then guess + 1 else guess
  max place f.minExponent

/-- The magnitude bits of the number nearest to `num / den`; too large a fraction becomes
infinity. -/
def magnitudeBits (f : BinaryFormat) (num den : Nat) : Nat :=
  if num = 0 then 0
  else
    let place := f.lastPlace num den
    let (n, d) := scaleDown num den place
    let bits := (place - f.minExponent).toNat * Nat.pow 2 f.fraction + roundQuotient n d
    min bits f.infinityBits

/-- The word of the number nearest to `± num / den`. -/
def encode (f : BinaryFormat) (negative : Bool) (num den : Nat) : Nat :=
  f.signBit negative + f.magnitudeBits num den

/-- What a word stands for. -/
def decode (f : BinaryFormat) (word : Nat) : BinaryValue :=
  let negative := word / Nat.pow 2 (f.fraction + f.exponent) % 2 = 1
  let field := word / Nat.pow 2 f.fraction % Nat.pow 2 f.exponent
  let fraction := word % Nat.pow 2 f.fraction
  if field = f.topField then
    if fraction = 0 then .infinite negative else .notANumber
  else if field = 0 then .finite negative fraction f.minExponent
  else .finite negative (Nat.pow 2 f.fraction + fraction) (f.minExponent + (field - 1))

/-- The word nearest to `± significand · 2 ^ exponent`. -/
def encodeScaled (f : BinaryFormat) (negative : Bool) (significand : Nat) (exponent : Int) :
    Nat :=
  if 0 ≤ exponent then f.encode negative (significand * Nat.pow 2 exponent.toNat) 1
  else f.encode negative significand (Nat.pow 2 (-exponent).toNat)

/-- A word of one format carried to another: exact when the value fits, nearest otherwise. -/
def convert (source target : BinaryFormat) (word : Nat) : Nat :=
  match source.decode word with
  | .finite negative m e => target.encodeScaled negative m e
  | .infinite negative => target.signBit negative + target.infinityBits
  | .notANumber => target.infinityBits + Nat.pow 2 (target.fraction - 1)

end BinaryFormat

/-- A number of the eight-byte format, given by its word. -/
structure Double where
  bits : UInt64
deriving DecidableEq, Repr, Inhabited

/-- A number of the four-byte format, given by its word. -/
structure Single where
  bits : UInt32
deriving DecidableEq, Repr, Inhabited

namespace Double

/-- The double with the given word. -/
def ofWord (word : Nat) : Double := ⟨UInt64.ofNat word⟩

/-- The double nearest to `± num / den`. -/
def ofRatio (negative : Bool) (num den : Nat) : Double :=
  ofWord (BinaryFormat.double.encode negative num den)

/-- The double nearest to an integer. -/
def ofInt (i : Int) : Double := ofRatio (i < 0) i.natAbs 1

/-- What the double stands for. -/
def value (x : Double) : BinaryValue := BinaryFormat.double.decode x.bits.toNat

/-- Whether the double is positive or negative zero. -/
def isZero (x : Double) : Bool := x.bits.toNat % Nat.pow 2 63 = 0

/-- Whether the double is an ordinary number: neither infinite nor undefined. -/
def isFinite (x : Double) : Bool :=
  match x.value with
  | .finite .. => true
  | _ => false

/-- Equality of the numbers: the two zeros are equal. -/
def sameNumber (x y : Double) : Bool := x = y || (x.isZero && y.isZero)

/-- The same magnitude with the opposite sign. -/
def neg (x : Double) : Double :=
  ofWord ((x.bits.toNat + Nat.pow 2 63) % Nat.pow 2 64)

/-- The product of two magnitudes, rounded. Signs are ignored. -/
def mulMagnitude (x y : Double) : Double :=
  match x.value, y.value with
  | .finite _ m e, .finite _ n k => ofWord (BinaryFormat.double.encodeScaled false (m * n) (e + k))
  | _, _ => ofWord BinaryFormat.double.infinityBits

/-- The quotient of two magnitudes, rounded. Signs are ignored; the divisor is not zero. -/
def divMagnitude (x y : Double) : Double :=
  match x.value, y.value with
  | .finite _ m e, .finite _ n k =>
    let (num, den) := BinaryFormat.scaleDown m n (k - e)
    ofRatio false num den
  | _, _ => ofWord BinaryFormat.double.infinityBits

end Double

namespace Single

/-- The single with the given word. -/
def ofWord (word : Nat) : Single := ⟨UInt32.ofNat word⟩

/-- The single nearest to a double. -/
def ofDouble (x : Double) : Single :=
  ofWord (BinaryFormat.double.convert .single x.bits.toNat)

/-- The single nearest to an integer. -/
def ofInt (i : Int) : Single := ofWord (BinaryFormat.single.encode (i < 0) i.natAbs 1)

/-- The double of the same value: every single is one. -/
def toDouble (x : Single) : Double :=
  Double.ofWord (BinaryFormat.single.convert .double x.bits.toNat)

/-- Whether the single is an ordinary number: neither infinite nor undefined. -/
def isFinite (x : Single) : Bool :=
  match BinaryFormat.single.decode x.bits.toNat with
  | .finite .. => true
  | _ => false

end Single

end FlowGraph
