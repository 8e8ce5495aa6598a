import FlowGraph.Json.Draft

/-!
# Reading JSON text

`Draft.ofText` reads a text to its end, or to the place where it stops being JSON.
`Json.read` takes it as one plain value.

A whole number between `-2^63` and `2^64 - 1` is an integer; every other literal is a float, as
is `-0`. Values nested more than 127 deep can be skipped but not taken.
-/

namespace FlowGraph

namespace Draft

/-- How deep a value may be nested and still be taken. -/
def maxDepth : Nat := 127

/-- The blanks of JSON. -/
def isBlank (c : Char) : Bool :=
  c = ' ' || c = '\n' || c = '\t' || c = '\r'

/-- Drop blanks. -/
def skipBlanks (text : List Char) : List Char :=
  text.dropWhile isBlank

/-! ## Words and numbers -/

/-- Read the rest of a word such as `true`. -/
def readWord (value : Draft) : List Char → List Char → Draft × Option (List Char)
  | [], text => (value, some text)
  | _ :: _, [] => (.broken .endInValue (some .endInValue), none)
  | w :: word, c :: text =>
    if w = c then readWord value word text
    else (.broken .expectedWord (some .expectedWord), none)

/-- Add decimal digits to a significand while it fits 64 bits: the significand, the digits
left over, and how many digits were taken. -/
def takeSignificand : Nat → List Char → Nat × List Char × Nat
  | significand, [] => (significand, [], 0)
  | significand, c :: rest =>
    let next := significand * 10 + (c.toNat - 48)
    if next < Nat.pow 2 64 then
      let (result, left, taken) := takeSignificand next rest
      (result, left, taken + 1)
    else (significand, c :: rest, 0)

/-- The value of a run of decimal digits. -/
def decimalValue (digits : List Char) : Nat :=
  digits.foldl (fun n c => n * 10 + (c.toNat - 48)) 0

/-- The parts of a number literal: digits before the point, digits after it if there is a point,
and the exponent's sign and digits if there is one. -/
structure Literal where
  negative : Bool
  whole : List Char
  fraction : Option (List Char)
  exponent : Option (Bool × List Char)

/-- The number that a literal stands for, unless it is too large. -/
def Literal.number? (l : Literal) : Option Number :=
  let (significand, left, _) := takeSignificand 0 l.whole
  match l.fraction, l.exponent, left with
  | none, none, [] =>
    if l.negative then
      if significand = 0 ∨ Nat.pow 2 63 < significand then
        some (.float (Double.ofRatio true significand 1))
      else some (.int (-significand))
    else some (.int significand)
  | fraction, exponent, left =>
    let fractionDigits := fraction.getD []
    -- digits beyond 64 bits are dropped; before the point they still count as places
    let (significand, places) : Nat × Int :=
      if left.isEmpty then
        let (s, _, taken) := takeSignificand significand fractionDigits
        (s, -(taken : Int))
      else
        let (s, _, taken) := takeSignificand significand fractionDigits
        (s, (left.length : Int) - taken)
    let power : Int :=
      match exponent with
      | none => 0
      | some (false, digits) => decimalValue digits
      | some (true, digits) => -(decimalValue digits : Int)
    (Double.ofLiteral? significand (places + power)).map fun x =>
      .float (if l.negative then x.neg else x)

/-- Split off the decimal digits at the front. -/
def spanDigits (text : List Char) : List Char × List Char :=
  text.span fun c => c.isDigit

/-- Where a literal needs a digit and has none: a fault of the number, or of the end of text. -/
def missingDigit (text : List Char) : Draft × Option (List Char) :=
  match text with
  | [] => (.broken .endInValue (some .badNumber), none)
  | _ => (.broken .badNumber (some .badNumber), none)

/-- Finish a literal. -/
def finishLiteral (l : Literal) (rest : List Char) : Draft × Option (List Char) :=
  match l.number? with
  | some n => (.num n, some rest)
  | none => (.broken .numberTooLarge none, some rest)

/-- Read the exponent, after its letter. -/
def readExponent (l : Literal) (text : List Char) : Draft × Option (List Char) :=
  let (negative, text) : Bool × List Char :=
    match text with
    | '+' :: rest => (false, rest)
    | '-' :: rest => (true, rest)
    | text => (false, text)
  let (digits, rest) := spanDigits text
  if digits.isEmpty then missingDigit rest
  else finishLiteral { l with exponent := some (negative, digits) } rest

/-- Read a number literal, after its minus sign if it has one. -/
def readNumber (negative : Bool) (text : List Char) : Draft × Option (List Char) :=
  let (whole, rest) := spanDigits text
  if whole.isEmpty then missingDigit rest
  else if whole.head? = some '0' ∧ 1 < whole.length then
    (.broken .badNumber (some .badNumber), none)
  else
    let l : Literal := ⟨negative, whole, none, none⟩
    match rest with
    | '.' :: rest =>
      let (fraction, rest) := spanDigits rest
      if fraction.isEmpty then missingDigit rest
      else
        let l := { l with fraction := some fraction }
        match rest with
        | 'e' :: rest | 'E' :: rest => readExponent l rest
        | rest => finishLiteral l rest
    | 'e' :: rest | 'E' :: rest => readExponent l rest
    | rest => finishLiteral l rest

/-! ## Quoted texts -/

/-- The value of a hexadecimal digit. -/
def hexValue? (c : Char) : Option Nat :=
  if '0' ≤ c ∧ c ≤ '9' then some (c.toNat - 48)
  else if 'a' ≤ c ∧ c ≤ 'f' then some (c.toNat - 87)
  else if 'A' ≤ c ∧ c ≤ 'F' then some (c.toNat - 55)
  else none

/-- The fault of an escape by number without four hexadecimal digits: the text ends when fewer
than four bytes are left of it. -/
def unitFault (text : List Char) : TextFault :=
  if (text.take 4).foldl (fun n c => n + c.utf8Size) 0 < 4 then .endInString else .badEscape

/-- Four hexadecimal digits. -/
def readUnit (text : List Char) : Except TextFault (Nat × List Char) :=
  match text with
  | a :: b :: c :: d :: rest =>
    match hexValue? a, hexValue? b, hexValue? c, hexValue? d with
    | some a, some b, some c, some d => .ok (((a * 16 + b) * 16 + c) * 16 + d, rest)
    | _, _, _, _ => .error (unitFault text)
  | _ => .error (unitFault text)

/-- The character that a one-letter escape stands for. -/
def simpleEscape? (c : Char) : Option Char :=
  if c = '"' ∨ c = '\\' ∨ c = '/' then some c
  else if c = 'b' then some (Char.ofNat 8)
  else if c = 'f' then some (Char.ofNat 12)
  else if c = 'n' then some '\n'
  else if c = 'r' then some '\r'
  else if c = 't' then some '\t'
  else none

/-- The character of a pair of surrogates. -/
def pairedChar (high low : Nat) : Char :=
  Char.ofNat (0x10000 + (high - 0xD800) * 0x400 + (low - 0xDC00))

/-- The character of an escape by number, whose first unit has been read: the second unit of a
pair follows in the text. -/
def unitChar (unit : Nat) (rest : List Char) : Except TextFault (Char × List Char) :=
  if 0xDC00 ≤ unit ∧ unit ≤ 0xDFFF then .error .loneSurrogate
  else if unit < 0xD800 ∨ 0xDBFF < unit then .ok (Char.ofNat unit, rest)
  else
    match rest with
    | [] => .error .endInString
    | '\\' :: [] => .error .endInString
    | '\\' :: 'u' :: rest =>
      match readUnit rest with
      | .error fault => .error fault
      | .ok (low, rest) =>
        if low < 0xDC00 ∨ 0xDFFF < low then .error .loneSurrogate
        else .ok (pairedChar unit low, rest)
    | _ => .error .halfPair

/-- Find the end of a quoted text without decoding it. -/
def skipQuoted : List Char → Except TextFault (List Char)
  | [] => .error .endInString
  | '"' :: rest => .ok rest
  | ['\\'] => .error .endInString
  | '\\' :: 'u' :: a :: b :: c :: d :: rest =>
    if [a, b, c, d].all fun x => (hexValue? x).isSome then skipQuoted rest
    else .error (unitFault [a, b, c, d])
  | '\\' :: c :: rest =>
    if c = 'u' then .error (unitFault rest)
    else if (simpleEscape? c).isSome then skipQuoted rest
    else .error .badEscape
  | c :: rest => if c.toNat < 32 then .error .controlCharacter else skipQuoted rest

/-- Decode a quoted text, after its opening quote. `fuel` bounds the characters read. -/
def readQuoted : Nat → List Char → List Char → Except TextFault (String × List Char)
  | 0, _, _ => .error .endInString
  | fuel + 1, taken, text =>
    match text with
    | [] => .error .endInString
    | '"' :: rest => .ok (String.ofList taken.reverse, rest)
    | ['\\'] => .error .endInString
    | '\\' :: 'u' :: rest =>
      match readUnit rest with
      | .error fault => .error fault
      | .ok (unit, rest) =>
        match unitChar unit rest with
        | .error fault => .error fault
        | .ok (c, rest) => readQuoted fuel (c :: taken) rest
    | '\\' :: c :: rest =>
      match simpleEscape? c with
      | some c => readQuoted fuel (c :: taken) rest
      | none => .error .badEscape
    | c :: rest =>
      if c.toNat < 32 then .error .controlCharacter else readQuoted fuel (c :: taken) rest

/-- What a quoted text says, and where it ends when it is only skipped. -/
def quoted (text : List Char) :
    Except TextFault String × Except TextFault (List Char) :=
  match readQuoted (text.length + 1) [] text with
  | .ok (s, rest) => (.ok s, .ok rest)
  | .error fault => (.error fault, skipQuoted text)

/-! ## Values -/

/-- A container nested too deep can only be skipped. -/
def limitDepth (depth : Nat) (x : Draft) (rest : Option (List Char)) :
    Draft × Option (List Char) :=
  if depth < maxDepth then (x, rest) else (.broken .nestedTooDeep x.skipFault?, rest)

mutual
/-- Read one value at nesting `depth`. `none` in place of the rest means that the text stopped
being JSON inside the value. -/
def readValue : Nat → Nat → List Char → Draft × Option (List Char)
  | 0, _, _ => (.broken .endInValue (some .endInValue), none)
  | fuel + 1, depth, text =>
    match skipBlanks text with
    | [] => (.broken .endInValue (some .endInValue), none)
    | 'n' :: rest => readWord .null ['u', 'l', 'l'] rest
    | 't' :: rest => readWord (.bool true) ['r', 'u', 'e'] rest
    | 'f' :: rest => readWord (.bool false) ['a', 'l', 's', 'e'] rest
    | '-' :: rest => readNumber true rest
    | '"' :: rest =>
      match quoted rest with
      | (.ok s, .ok rest) => (.str s, some rest)
      | (.ok s, .error _) => (.str s, none)
      | (.error fault, .ok rest) => (.broken fault none, some rest)
      | (.error fault, .error skipped) => (.broken fault (some skipped), none)
    | '[' :: rest =>
      let (items, ending, rest) := readItems fuel (depth + 1) true rest
      limitDepth depth (.list items ending) rest
    | '{' :: rest =>
      let (fields, ending, rest) := readFields fuel (depth + 1) true rest
      limitDepth depth (.object fields ending) rest
    | c :: rest =>
      if c.isDigit then readNumber false (c :: rest)
      else (.broken .expectedValue (some .expectedValue), none)

/-- Read the items of a list after its bracket, or after an item. -/
def readItems : Nat → Nat → Bool → List Char → List Draft × ListEnd × Option (List Char)
  | 0, _, _, _ => ([], .ended, none)
  | fuel + 1, depth, first, text =>
    let item (text : List Char) : List Draft × ListEnd × Option (List Char) :=
      match readValue fuel depth text with
      | (x, none) => ([x], .cut, none)
      | (x, some rest) =>
        let (xs, ending, rest) := readItems fuel depth false rest
        (x :: xs, ending, rest)
    match skipBlanks text with
    | [] => ([], .ended, none)
    | ']' :: rest => ([], .closed, some rest)
    | c :: rest =>
      if first then item (c :: rest)
      else if c = ',' then
        match skipBlanks rest with
        | [] => ([], .endedAfterComma, none)
        | ']' :: _ => ([], .trailingComma, none)
        | text => item text
      else ([], .noSeparator, none)

/-- Read the fields of an object after its brace, or after a field. -/
def readFields : Nat → Nat → Bool → List Char →
    List (Except TextFault String × Draft) × ObjectEnd × Option (List Char)
  | 0, _, _, _ => ([], .ended, none)
  | fuel + 1, depth, first, text =>
    let field (text : List Char) :
        List (Except TextFault String × Draft) × ObjectEnd × Option (List Char) :=
      match quoted text with
      | (key, .error skipped) =>
        let fault := match key with
          | .error fault => fault
          | .ok _ => skipped
        ([(.error fault, .broken fault (some skipped))], .cut, none)
      | (key, .ok rest) =>
        match skipBlanks rest with
        | [] => ([(key, .broken .endInObject (some .endInObject))], .cut, none)
        | ':' :: rest =>
          match readValue fuel depth rest with
          | (x, none) => ([(key, x)], .cut, none)
          | (x, some rest) =>
            let (xs, ending, rest) := readFields fuel depth false rest
            ((key, x) :: xs, ending, rest)
        | _ => ([(key, .broken .expectedColon (some .expectedColon))], .cut, none)
    match skipBlanks text with
    | [] => ([], .ended, none)
    | '}' :: rest => ([], .closed, some rest)
    | c :: rest =>
      if first then
        if c = '"' then field rest else ([], .keyNotText, none)
      else if c = ',' then
        match skipBlanks rest with
        | [] => ([], .endedAfterComma, none)
        | '"' :: rest => field rest
        | '}' :: _ => ([], .trailingComma, none)
        | _ => ([], .keyNotText, none)
      else ([], .noSeparator, none)
end

/-- The draft of a whole text, and whether something other than blanks follows it. -/
def ofText (text : String) : Draft × Bool :=
  let chars := text.toList
  let (x, rest) := readValue (2 * chars.length + 2) 0 chars
  (x, match rest with
    | none => false
    | some rest => !(skipBlanks rest).isEmpty)

end Draft

/-- The value that a text holds. -/
def Json.read (text : String) : Except TextFault Json :=
  let (x, trailing) := Draft.ofText text
  match x.value with
  | .error fault => .error fault
  | .ok v => if trailing then .error .trailingCharacters else .ok v

end FlowGraph
