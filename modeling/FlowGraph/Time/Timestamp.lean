import FlowGraph.Text.Blank
import FlowGraph.Json.Decode

/-!
# Points in time

A timestamp counts seconds from the start of 1970, in universal time, and nanoseconds within the
second; an inserted second has more than a thousand million of them. `Timestamp.text` writes the
date and time of day with as many digits of the fraction as it needs, in groups of three, and
`Timestamp.read` reads such texts with blanks between the parts and any offset.
-/

namespace FlowGraph

/-- A point in universal time. -/
structure Timestamp where
  seconds : Int
  nanos : Nat := 0
deriving DecidableEq, Repr, Inhabited

/-! ## Days of the calendar -/

/-- A date of the calendar that is extended to all years. -/
structure CivilDate where
  year : Int
  month : Nat
  day : Nat
deriving DecidableEq, Repr

namespace CivilDate

/-- Whether a year has a day more. -/
def isLeapYear (year : Int) : Bool :=
  year % 4 = 0 && (year % 100 ≠ 0 || year % 400 = 0)

/-- How many days a month has. -/
def monthLength (year : Int) (month : Nat) : Nat :=
  if month = 2 then (if isLeapYear year then 29 else 28)
  else if month = 4 ∨ month = 6 ∨ month = 9 ∨ month = 11 then 30
  else 31

/-- The years for which dates are kept. -/
def yearInRange (year : Int) : Bool := -262143 ≤ year && year ≤ 262142

/-- The number of the day, counted from the first of 1970. Years are taken to begin in March, so
that the day more comes last. -/
def toDays (date : CivilDate) : Int :=
  let y := if date.month ≤ 2 then date.year - 1 else date.year
  let era := y.fdiv 400
  let yearOfEra := y - era * 400
  let shifted : Int := if 2 < date.month then date.month - 3 else date.month + 9
  let dayOfYear := (153 * shifted + 2) / 5 + date.day - 1
  let dayOfEra := yearOfEra * 365 + yearOfEra / 4 - yearOfEra / 100 + dayOfYear
  era * 146097 + dayOfEra - 719468

/-- The date of a day by its number. -/
def ofDays (days : Int) : CivilDate :=
  let z := days + 719468
  let era := z.fdiv 146097
  let dayOfEra := z - era * 146097
  let yearOfEra :=
    (dayOfEra - dayOfEra / 1460 + dayOfEra / 36524 - dayOfEra / 146096) / 365
  let dayOfYear := dayOfEra - (365 * yearOfEra + yearOfEra / 4 - yearOfEra / 100)
  let shifted := (5 * dayOfYear + 2) / 153
  let day := dayOfYear - (153 * shifted + 2) / 5 + 1
  let month := if shifted < 10 then shifted + 3 else shifted - 9
  let year := yearOfEra + era * 400 + (if month ≤ 2 then 1 else 0)
  ⟨year, month.toNat, day.toNat⟩

end CivilDate

namespace Timestamp

/-! ## Writing -/

/-- A number with zeros before it up to a width. -/
def padded (width n : Nat) : String :=
  let digits := Nat.toDigits 10 n
  String.ofList (List.replicate (width - digits.length) '0' ++ digits)

/-- The year: four digits, with a sign when it has more or is negative. -/
def yearText (year : Int) : String :=
  if 0 ≤ year ∧ year ≤ 9999 then padded 4 year.toNat
  else (if year < 0 then "-" else "+") ++ padded 4 year.natAbs

/-- The fraction of the second, in groups of three digits. -/
def fractionText (nanos : Nat) : String :=
  if nanos = 0 then ""
  else if nanos % 1000000 = 0 then "." ++ padded 3 (nanos / 1000000)
  else if nanos % 1000 = 0 then "." ++ padded 6 (nanos / 1000)
  else "." ++ padded 9 nanos

/-- Date and time of day, up to the fraction of the second. -/
def dateTimeText (t : Timestamp) : String :=
  let days := t.seconds.fdiv 86400
  let ofDay := (t.seconds - days * 86400).toNat
  let date := CivilDate.ofDays days
  let second := ofDay % 60 + t.nanos / 1000000000
  yearText date.year ++ "-" ++ padded 2 date.month ++ "-" ++ padded 2 date.day
    ++ "T" ++ padded 2 (ofDay / 3600) ++ ":" ++ padded 2 (ofDay / 60 % 60)
    ++ ":" ++ padded 2 second ++ fractionText (t.nanos % 1000000000)

/-- The timestamp in universal time, marked by `Z`. -/
def text (t : Timestamp) : String := t.dateTimeText ++ "Z"

/-- The timestamp in universal time, marked by its offset of zero. -/
def offsetText (t : Timestamp) : String := t.dateTimeText ++ "+00:00"

/-- The milliseconds since the start of 1970. -/
def milliseconds (t : Timestamp) : Int := t.seconds * 1000 + t.nanos / 1000000

/-- The nanoseconds from an earlier timestamp to a later one; zero if they are not in order. -/
def nanosSince (later earlier : Timestamp) : Nat :=
  ((later.seconds - earlier.seconds) * 1000000000 + later.nanos - earlier.nanos).toNat

/-! ## Reading -/

/-- Why a text is not a timestamp. -/
inductive Fault where
  | outOfRange
  | impossible
  | invalid
  | tooShort
  | tooLong
deriving DecidableEq, Repr

/-- The fault in words. -/
def Fault.message : Fault → String
  | outOfRange => "input is out of range"
  | impossible => "no possible date and time matching input"
  | invalid => "input contains invalid characters"
  | tooShort => "premature end of input"
  | tooLong => "trailing input"

/-- Drop blanks. -/
def skipBlanks (text : List Char) : List Char := text.dropWhile Text.isBlank

/-- Take up to `width` digits, at least one. -/
def readDigits (width : Nat) (text : List Char) : Except Fault (List Char × List Char) :=
  let digits := (text.take width).takeWhile fun c => c.isDigit
  match text with
  | [] => .error .tooShort
  | _ => if digits.isEmpty then .error .invalid else .ok (digits, text.drop digits.length)

/-- Take a number of up to `width` digits, which must lie in a range. -/
def readNumber (width low high : Nat) (text : List Char) : Except Fault (Nat × List Char) := do
  let (digits, rest) ← readDigits width (skipBlanks text)
  let n := (Text.digitsValue? digits).getD 0
  if low ≤ n ∧ n ≤ high then .ok (n, rest) else .error .outOfRange

/-- Take a year: four digits at most, or any number with a sign. -/
def readYear (text : List Char) : Except Fault (Int × List Char) := do
  let (negative, signed, text) : Bool × Bool × List Char :=
    match skipBlanks text with
    | '-' :: rest => (true, true, rest)
    | '+' :: rest => (false, true, rest)
    | text => (false, false, text)
  let (digits, rest) ← readDigits (if signed then text.length else 4) text
  let n := (Text.digitsValue? digits).getD 0
  if Nat.pow 2 31 ≤ n then .error .outOfRange
  else .ok (if negative then -(n : Int) else n, rest)

/-- Take one given character. -/
def readMark (mark : Char) (text : List Char) : Except Fault (List Char) :=
  match skipBlanks text with
  | [] => .error .tooShort
  | c :: rest => if c = mark then .ok rest else .error .invalid

/-- Take the fraction of the second, if there is one: nine digits count. -/
def readFraction (text : List Char) : Except Fault (Nat × List Char) :=
  match text with
  | '.' :: text => do
    let (digits, rest) ← readDigits 9 text
    let n := (Text.digitsValue? digits).getD 0
    .ok (n * Nat.pow 10 (9 - digits.length), rest.dropWhile fun c => c.isDigit)
  | text => .ok (0, text)

/-- Take two digits of an offset, the first not above `'9'`. -/
def readPair (text : List Char) : Except Fault (Nat × Nat × List Char) :=
  match text with
  | [] => .error .tooShort
  | [c] => if c.utf8Size < 2 then .error .tooShort else .error .invalid
  | a :: b :: rest =>
    if a.isDigit && b.isDigit then .ok (a.toNat - 48, b.toNat - 48, rest)
    else .error .invalid

/-- Take the offset from universal time, in seconds. -/
def readOffset (text : List Char) : Except Fault (Int × List Char) :=
  match text with
  | [] => .error .tooShort
  | c :: rest =>
    if (text.take 3).map Char.toUpper = ['U', 'T', 'C'] then .ok (0, text.drop 3)
    else if c = 'Z' ∨ c = 'z' then .ok (0, rest)
    else if c = '+' ∨ c = '-' ∨ c.toNat = 0x2212 then do
      let (h1, h2, rest) ← readPair rest
      let rest := rest.dropWhile fun c => c = ':' || Text.isBlank c
      let (m1, m2, rest) ← readPair rest
      if 6 ≤ m1 then .error .outOfRange
      else
        let seconds : Int := (h1 * 10 + h2) * 3600 + (m1 * 10 + m2) * 60
        .ok (if c = '+' then seconds else -seconds, rest)
    else .error .invalid

/-- Read a timestamp. -/
def read (text : String) : Except Fault Timestamp := do
  let (year, rest) ← readYear text.toList
  let rest ← readMark '-' rest
  let (month, rest) ← readNumber 2 1 12 rest
  let rest ← readMark '-' rest
  let (day, rest) ← readNumber 2 1 31 rest
  let rest ← match rest with
    | [] => .error .tooShort
    | c :: rest => if c = 't' ∨ c = 'T' ∨ c = ' ' then .ok rest else .error Fault.invalid
  let (hour, rest) ← readNumber 2 0 23 rest
  let rest ← readMark ':' rest
  let (minute, rest) ← readNumber 2 0 59 rest
  let rest ← readMark ':' rest
  let (second, rest) ← readNumber 2 0 60 rest
  let (nanos, rest) ← readFraction rest
  let (offset, rest) ← readOffset (skipBlanks rest)
  if !(skipBlanks rest).isEmpty then .error .tooLong
  else if !CivilDate.yearInRange year || CivilDate.monthLength year month < day then
    .error .outOfRange
  else if 86400 ≤ offset.natAbs then .error .outOfRange
  else
    let inserted := second = 60
    let ofDay : Int := hour * 3600 + minute * 60 + (if inserted then 59 else second : Nat)
    let seconds := CivilDate.toDays ⟨year, month, day⟩ * 86400 + ofDay - offset
    if CivilDate.yearInRange (CivilDate.ofDays (seconds.fdiv 86400)).year then
      .ok ⟨seconds, if inserted then nanos + 1000000000 else nanos⟩
    else .error .impossible

/-! ## As JSON -/

/-- The timestamp as a value. -/
def toJson (t : Timestamp) : Json := .str t.text

/-- Read a timestamp. -/
def ofDraft : Draft → Decoded Timestamp
  | .str s =>
    match read s with
    | .ok t => .ok t
    | .error fault => .error (.data (.malformed fault.message))
  | x => x.mismatch "an RFC 3339 formatted date and time string"

end Timestamp

end FlowGraph
