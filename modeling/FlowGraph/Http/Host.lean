import FlowGraph.Http.Punycode
import FlowGraph.Text.Blank

/-!
# Hosts

The host of an address is a name, in small letters, or a number of one of two kinds: four bytes
or eight pairs of bytes. `Host.read` reads one from an address, `Host.text` writes it in its one
usual form.
-/

namespace FlowGraph.Http

/-- The value of a hexadecimal digit. -/
def hexValue? (c : Char) : Option Nat :=
  if c.isDigit then some (c.toNat - 48)
  else if 'a' ≤ c ∧ c ≤ 'f' then some (c.toNat - 87)
  else if 'A' ≤ c ∧ c ≤ 'F' then some (c.toNat - 55)
  else none

/-- The value of digits in a base, if there are any and all are digits of it. -/
def baseValue? (base : Nat) (digits : List Char) : Option Nat :=
  if digits.isEmpty then none
  else digits.foldlM (fun n c => do
    let d ← hexValue? c
    if d < base then some (n * base + d) else none) 0

/-- The parts of a text between the places where a mark stands. -/
def splitAt (mark : Char) : List Char → List (List Char)
  | [] => [[]]
  | c :: rest =>
    if c = mark then [] :: splitAt mark rest
    else match splitAt mark rest with
      | [] => [[c]]
      | part :: parts => (c :: part) :: parts

/-- The host of an address. -/
inductive Host where
  | name (text : String)
  /-- Four bytes as one number. -/
  | short (number : Nat)
  /-- Eight pairs of bytes. -/
  | long (pairs : List Nat)
  /-- A host of an address of another kind than the web's, as it is written. -/
  | foreign (text : String)
deriving DecidableEq, Repr

namespace Host

/-! ## Four bytes -/

/-- One part of a number of four bytes: decimal, octal after a zero, or hexadecimal. -/
def shortPart? (part : List Char) : Option Nat :=
  match part with
  | '0' :: x :: digits =>
    if x = 'x' ∨ x = 'X' then
      if digits.isEmpty then some 0 else baseValue? 16 digits
    else baseValue? 8 (x :: digits)
  | part => baseValue? 10 part

/-- The parts of a name, the empty one after a last point aside. -/
def nameParts (text : List Char) : List (List Char) :=
  let parts := splitAt '.' text
  match parts.reverse with
  | [] :: rest@(_ :: _) => rest.reverse
  | _ => parts

/-- Whether a name ends like a number, so that it must be one. -/
def endsInNumber (text : List Char) : Bool :=
  match (nameParts text).getLast? with
  | some part => (!part.isEmpty && part.all Char.isDigit) || match part with
    | '0' :: x :: digits => (x = 'x' || x = 'X') && digits.all fun c => (hexValue? c).isSome
    | _ => false
  | none => false

/-- Read a number of four bytes: the last part fills the bytes that the others leave. -/
def readShort (text : List Char) : Option Host := do
  let parts := nameParts text
  let numbers ← parts.mapM shortPart?
  let last ← numbers.getLast?
  let first := numbers.dropLast
  if 3 < first.length ∨ first.any (255 < ·) ∨ Nat.pow 256 (4 - first.length) ≤ last then none
  else
    let high := first.foldl (fun n b => n * 256 + b) 0
    some (.short (high * Nat.pow 256 (4 - first.length) + last))

/-- A number of four bytes, byte by byte. -/
def shortText (n : Nat) : String :=
  String.intercalate "." ((List.range 4).map fun i => toString (n / Nat.pow 256 (3 - i) % 256))

/-! ## Eight pairs -/

/-- Read pairs of bytes with colons between them; the last two may be a number of four bytes in
decimal. -/
def readPairs (text : List Char) : Option (List Nat) :=
  if text.isEmpty then some []
  else
    let parts := splitAt ':' text
    match parts.getLast? with
    | none => none
    | some last => do
      let first ← parts.dropLast.mapM pair?
      if last.contains '.' then
        let bytes ← (splitAt '.' last).mapM byte?
        match bytes with
        | [a, b, c, d] => some (first ++ [a * 256 + b, c * 256 + d])
        | _ => none
      else some (first ++ [← pair? last])
where
  /-- A pair of bytes in up to four digits. -/
  pair? (part : List Char) : Option Nat :=
    if part.length ≤ 4 then baseValue? 16 part else none
  /-- A byte in decimal without zeros in front. -/
  byte? (part : List Char) : Option Nat := do
    let n ← baseValue? 10 part
    if 255 < n ∨ (1 < part.length ∧ part.head? = some '0') then none else some n

/-- Split a text at two colons, if they stand anywhere. -/
def splitDouble : List Char → Option (List Char × List Char)
  | [] => none
  | ':' :: ':' :: rest => some ([], rest)
  | c :: rest =>
    match splitDouble rest with
    | some (before, after) => some (c :: before, after)
    | none => none

/-- Read a number of eight pairs; two colons stand for pairs of zeros. -/
def readLong (text : List Char) : Option Host := do
  match splitDouble text with
  | some (before, after) =>
    let before ← readPairs before
    let after ← readPairs after
    let missing := 8 - (before.length + after.length)
    if 7 < before.length + after.length then none
    else some (.long (before ++ List.replicate missing 0 ++ after))
  | none =>
    let pairs ← readPairs text
    if pairs.length = 8 then some (.long pairs) else none

/-- How many zeros a list begins with. -/
def zeroRun (pairs : List Nat) : Nat := (pairs.takeWhile (· = 0)).length

/-- The place and the length of the first longest run of zeros. -/
def longestRun (pairs : List Nat) : Nat × Nat :=
  (List.range pairs.length).foldl (fun (best : Nat × Nat) i =>
    let run := zeroRun (pairs.drop i)
    if best.2 < run then (i, run) else best) (0, 0)

/-- Pairs with colons between them. -/
def pairsText (pairs : List Nat) : String :=
  String.intercalate ":" (pairs.map fun n => String.ofList (Nat.toDigits 16 n))

/-- A number of eight pairs; the first longest run of zeros is left out. -/
def longText (pairs : List Nat) : String :=
  let (place, run) := longestRun pairs
  if run < 2 then "[" ++ pairsText pairs ++ "]"
  else "[" ++ pairsText (pairs.take place) ++ "::" ++ pairsText (pairs.drop (place + run)) ++ "]"

/-! ## Names -/

/-- The byte that a percent sign and two hexadecimal digits stand for. -/
def percentByte? (mark high low : UInt8) : Option UInt8 :=
  if mark = 37 then
    match hexValue? (Char.ofNat high.toNat), hexValue? (Char.ofNat low.toNat) with
    | some x, some y => some (UInt8.ofNat (16 * x + y))
    | _, _ => none
  else none

/-- The bytes of a text in which some are written as two hexadecimal digits after a percent
sign. -/
def percentDecode : List UInt8 → List UInt8
  | p :: a :: b :: rest =>
    match percentByte? p a b with
    | some x => x :: percentDecode rest
    | none => p :: percentDecode (a :: b :: rest)
  | few => few

/-- Characters that no name of a host holds. -/
def isForbidden (c : Char) : Bool :=
  c.toNat ≤ 32 || c.toNat = 127
    || ['#', '/', ':', '<', '>', '?', '@', '[', '\\', ']', '^', '|', '%'].contains c

/-- How a character counts in a name: small and of plain width; an invisible hyphen does not
count. Capitals are known of the Latin, Greek and Cyrillic letters. -/
def foldChar (c : Char) : List Char :=
  let n := c.toNat
  let shifted (d : Nat) : List Char := [Char.ofNat (n + d)]
  if n < 128 then [c.toLower]
  else if n = 0xAD ∨ n = 0x200B then []
  else if n = 0x3002 ∨ n = 0xFF0E ∨ n = 0xFF61 then ['.']
  else if 0xFF01 ≤ n ∧ n ≤ 0xFF5E then [(Char.ofNat (n - 0xFEE0)).toLower]
  else if 0xC0 ≤ n ∧ n ≤ 0xDE ∧ n ≠ 0xD7 then shifted 32
  else if (0x100 ≤ n ∧ n ≤ 0x12F ∨ 0x132 ≤ n ∧ n ≤ 0x137 ∨ 0x14A ≤ n ∧ n ≤ 0x177) ∧ n % 2 = 0 then
    shifted 1
  else if (0x139 ≤ n ∧ n ≤ 0x148 ∨ 0x179 ≤ n ∧ n ≤ 0x17E) ∧ n % 2 = 1 then shifted 1
  else if n = 0x178 then [Char.ofNat 0xFF]
  else if 0x391 ≤ n ∧ n ≤ 0x3AB ∧ n ≠ 0x3A2 then shifted 32
  else if 0x400 ≤ n ∧ n ≤ 0x40F then shifted 80
  else if 0x410 ≤ n ∧ n ≤ 0x42F then shifted 32
  else [c]

/-- Characters beyond ASCII that no name holds: controls, private ones and stand-ins. -/
def isNameless (c : Char) : Bool :=
  let n := c.toNat
  (0x80 ≤ n && n ≤ 0x9F) || (0xE000 ≤ n && n ≤ 0xF8FF) || (0xFFF0 ≤ n && n ≤ 0xFFFF)

/-- A label of a name in ASCII characters. -/
def asciiLabel (label : List Char) : List Char :=
  if label.all fun c => c.toNat < 128 then label
  else ['x', 'n', '-', '-'] ++ Punycode.encode label

/-- Read the host of a web address. -/
def read (text : List Char) : Option Host :=
  match text with
  | '[' :: rest =>
    if rest.getLast? = some ']' then readLong rest.dropLast else none
  | text => do
    let bytes := percentDecode (String.ofList text).toUTF8.toList
    let decoded ← String.fromUTF8? ⟨bytes.toArray⟩
    let folded := decoded.toList.flatMap foldChar
    let name := List.intercalate ['.'] ((splitAt '.' folded).map asciiLabel)
    if name.isEmpty ∨ name.any isForbidden ∨ folded.any isNameless then none
    else if endsInNumber name then readShort name
    else some (.name (String.ofList name))

/-- The host in its usual form. -/
def text : Host → String
  | name s => s
  | short n => shortText n
  | long pairs => longText pairs
  | foreign s => s

end Host

end FlowGraph.Http
