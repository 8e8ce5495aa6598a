/-!
# Reading bytes as text

`lossyText` reads bytes as UTF-8 text, whatever they are: each longest run of bytes that begins
a character but does not complete it becomes one replacement character.
-/

namespace FlowGraph.Text

/-- What stands for bytes that are no text. -/
def replacement : Char := Char.ofNat 0xFFFD

/-- A character of which some bytes are still missing. -/
structure PartialChar where
  /-- How many bytes are missing. -/
  missing : Nat
  /-- The least and the greatest next byte. -/
  low : Nat
  high : Nat
  /-- The number that the bytes so far spell. -/
  number : Nat
deriving DecidableEq, Repr

/-- What a byte at the start of a character is. -/
inductive FirstByte where
  /-- A character of its own. -/
  | whole (c : Char)
  | opens (p : PartialChar)
  | faulty
deriving Repr

/-- Classify the first byte of a character. -/
def firstByte (b : UInt8) : FirstByte :=
  let n := b.toNat
  if n < 0x80 then .whole (Char.ofNat n)
  else if n < 0xC2 then .faulty
  else if n < 0xE0 then .opens ⟨1, 0x80, 0xBF, n - 0xC0⟩
  else if n < 0xF0 then
    .opens ⟨2, if n = 0xE0 then 0xA0 else 0x80, if n = 0xED then 0x9F else 0xBF, n - 0xE0⟩
  else if n < 0xF5 then
    .opens ⟨3, if n = 0xF0 then 0x90 else 0x80, if n = 0xF4 then 0x8F else 0xBF, n - 0xF0⟩
  else .faulty

/-- Read bytes, after those of a character that is not complete. -/
def lossyChars : Option PartialChar → List UInt8 → List Char
  | none, [] => []
  | some _, [] => [replacement]
  | none, b :: rest =>
    match firstByte b with
    | .whole c => c :: lossyChars none rest
    | .opens p => lossyChars (some p) rest
    | .faulty => replacement :: lossyChars none rest
  | some p, b :: rest =>
    let n := b.toNat
    if p.low ≤ n ∧ n ≤ p.high then
      let number := p.number * 64 + (n - 0x80)
      if p.missing ≤ 1 then Char.ofNat number :: lossyChars none rest
      else lossyChars (some ⟨p.missing - 1, 0x80, 0xBF, number⟩) rest
    else
      replacement :: match firstByte b with
        | .whole c => c :: lossyChars none rest
        | .opens p => lossyChars (some p) rest
        | .faulty => replacement :: lossyChars none rest

/-- Read bytes as text. -/
def lossyText (bytes : ByteArray) : String :=
  String.ofList (lossyChars none bytes.toList)

end FlowGraph.Text
