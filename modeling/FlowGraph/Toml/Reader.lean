import FlowGraph.Toml.Table
import FlowGraph.Json.Reader

/-!
# Reading settings files

`Toml.read` reads a TOML text: comments, bare and quoted keys, strings on one line and on several,
numbers in four bases, dates and times, lists and inline tables. A text that is not TOML gives
`none`.
-/

namespace FlowGraph.Toml

/-! ## Blanks and comments -/

/-- Drop blanks within a line. -/
def skipBlanks (text : List Char) : List Char :=
  text.dropWhile fun c => c = ' ' || c = '\t'

/-- Whether a character may stand in a comment or on one line of a literal string. -/
def isPlain (c : Char) : Bool :=
  c = '\t' || (32 ≤ c.toNat && c.toNat ≠ 127)

/-- Drop a comment, if there is one. -/
def skipComment (text : List Char) : List Char :=
  match text with
  | '#' :: rest => rest.dropWhile isPlain
  | text => text

/-- Take the end of a line: a line break or the end of the text. -/
def readLineEnd (text : List Char) : Option (Bool × List Char) :=
  match skipComment (skipBlanks text) with
  | [] => some (false, [])
  | '\n' :: rest => some (true, rest)
  | '\r' :: '\n' :: rest => some (true, rest)
  | _ => none

/-- Drop blanks, comments and line breaks. -/
def skipLines : Nat → List Char → Option (List Char)
  | 0, text => some text
  | fuel + 1, text =>
    match skipBlanks text with
    | '\n' :: rest => skipLines fuel rest
    | '\r' :: '\n' :: rest => skipLines fuel rest
    | '#' :: rest =>
      match rest.dropWhile isPlain with
      | '\n' :: rest => skipLines fuel rest
      | '\r' :: '\n' :: rest => skipLines fuel rest
      | [] => some []
      | _ => none
    | rest => some rest

/-! ## Strings -/

/-- Take hexadecimal digits: the number they spell. -/
def readHex : Nat → Nat → List Char → Option (Nat × List Char)
  | 0, n, text => some (n, text)
  | count + 1, n, c :: rest => do
    let d ← Draft.hexValue? c
    readHex count (n * 16 + d) rest
  | _ + 1, _, [] => none

/-- Take an escape, after its backslash. -/
def readEscape (text : List Char) : Option (Char × List Char) :=
  let unit (digits : Nat) (rest : List Char) : Option (Char × List Char) := do
    let (n, rest) ← readHex digits 0 rest
    if n < 0xD800 ∨ (0xDFFF < n ∧ n < 0x110000) then some (Char.ofNat n, rest) else none
  match text with
  | 'b' :: rest => some (Char.ofNat 8, rest)
  | 't' :: rest => some ('\t', rest)
  | 'n' :: rest => some ('\n', rest)
  | 'f' :: rest => some (Char.ofNat 12, rest)
  | 'r' :: rest => some ('\r', rest)
  | '"' :: rest => some ('"', rest)
  | '\\' :: rest => some ('\\', rest)
  | 'u' :: rest => unit 4 rest
  | 'U' :: rest => unit 8 rest
  | _ => none

/-- Take a string on one line, after its opening mark; `taken` is what has been read, backwards.
In a literal string a backslash stands for itself. -/
def readLine (mark : Char) : Nat → List Char → List Char → Option (String × List Char)
  | 0, _, _ => none
  | fuel + 1, taken, text =>
    match text with
    | [] => none
    | c :: rest =>
      if c = mark then some (String.ofList taken.reverse, rest)
      else if c = '\\' ∧ mark = '"' then
        match readEscape rest with
        | some (c, rest) => readLine mark fuel (c :: taken) rest
        | none => none
      else if isPlain c then readLine mark fuel (c :: taken) rest
      else none

/-- Drop the break of the line that a backslash ends, and all blanks after it. -/
def skipContinuation (text : List Char) : Option (List Char) :=
  match skipBlanks text with
  | '\n' :: rest => some (rest.dropWhile fun c => c = ' ' || c = '\t' || c = '\n' || c = '\r')
  | '\r' :: '\n' :: rest =>
    some (rest.dropWhile fun c => c = ' ' || c = '\t' || c = '\n' || c = '\r')
  | _ => none

/-- Take a string on several lines, after its opening marks. Up to two marks in a row belong to
the string, also right before the closing ones. -/
def readLinesOf (mark : Char) : Nat → List Char → List Char → Option (String × List Char)
  | 0, _, _ => none
  | fuel + 1, taken, text =>
    match text with
    | [] => none
    | c :: rest =>
      if c = mark then
        let marks := (text.takeWhile (· = mark)).length
        if marks < 3 then readLinesOf mark fuel (c :: taken) rest
        else if marks ≤ 5 then
          some (String.ofList (List.replicate (marks - 3) mark ++ taken).reverse,
            text.drop marks)
        else none
      else if c = '\\' ∧ mark = '"' then
        match readEscape rest with
        | some (c, rest) => readLinesOf mark fuel (c :: taken) rest
        | none =>
          match skipContinuation rest with
          | some rest => readLinesOf mark fuel taken rest
          | none => none
      else if c = '\n' then readLinesOf mark fuel ('\n' :: taken) rest
      else if c = '\r' then
        match rest with
        | '\n' :: rest => readLinesOf mark fuel ('\n' :: taken) rest
        | _ => none
      else if isPlain c then readLinesOf mark fuel (c :: taken) rest
      else none

/-- Drop a line break right after the opening marks. -/
def skipFirstBreak (text : List Char) : List Char :=
  match text with
  | '\n' :: rest => rest
  | '\r' :: '\n' :: rest => rest
  | text => text

/-- Take a string of any of the four forms. -/
def readString (text : List Char) : Option (String × List Char) :=
  match text with
  | '"' :: '"' :: '"' :: rest => readLinesOf '"' (rest.length + 1) [] (skipFirstBreak rest)
  | '\'' :: '\'' :: '\'' :: rest => readLinesOf '\'' (rest.length + 1) [] (skipFirstBreak rest)
  | '"' :: rest => readLine '"' (rest.length + 1) [] rest
  | '\'' :: rest => readLine '\'' (rest.length + 1) [] rest
  | _ => none

/-! ## Keys -/

/-- Whether a character may stand in a bare key. -/
def isBare (c : Char) : Bool :=
  c.isAlphanum || c = '_' || c = '-'

/-- Take one key. -/
def readKey (text : List Char) : Option (String × List Char) :=
  match text with
  | '"' :: rest => readLine '"' (rest.length + 1) [] rest
  | '\'' :: rest => readLine '\'' (rest.length + 1) [] rest
  | text =>
    let key := text.takeWhile isBare
    if key.isEmpty then none else some (String.ofList key, text.drop key.length)

/-- Take keys with dots between them. -/
def readPath : Nat → List Char → Option (List String × List Char)
  | 0, _ => none
  | fuel + 1, text => do
    let (key, rest) ← readKey (skipBlanks text)
    match skipBlanks rest with
    | '.' :: rest => do
      let (keys, rest) ← readPath fuel rest
      some (key :: keys, rest)
    | rest => some ([key], rest)

/-! ## Numbers and times -/

/-- The digits of a number without the lines between them; `none` unless a line stands only
between two digits. -/
def plainDigits (isDigit : Char → Bool) : List Char → Option (List Char)
  | [] => none
  | [c] => if isDigit c then some [c] else none
  | c :: '_' :: d :: rest =>
    if isDigit c then (plainDigits isDigit (d :: rest)).map (c :: ·) else none
  | c :: rest => if isDigit c then (plainDigits isDigit rest).map (c :: ·) else none

/-- A whole number in a base. -/
def wholeNumber (base : Nat) (digits : List Char) : Option Nat := do
  let plain ← plainDigits (fun c => match Draft.hexValue? c with
    | some d => d < base
    | none => false) digits
  some (plain.foldl (fun n c => n * base + (Draft.hexValue? c).getD 0) 0)

/-- A whole number that is not too large. -/
def limited (negative : Bool) (n : Nat) : Option Draft :=
  if negative then if n ≤ Nat.pow 2 63 then some (.num (.int (-n))) else none
  else if n < Nat.pow 2 63 then some (.num (.int n)) else none

/-- A decimal number without its sign: whole, or with a fraction or an exponent. -/
def decimalNumber (negative : Bool) (text : List Char) : Option Draft := do
  let whole := text.takeWhile fun c => c.isDigit || c = '_'
  let rest := text.drop whole.length
  let digits ← plainDigits Char.isDigit whole
  if digits.head? = some '0' ∧ 1 < digits.length then none
  else if rest.isEmpty then limited negative (← wholeNumber 10 whole)
  else
    let (fraction, rest) ← match rest with
      | '.' :: rest => do
        let part := rest.takeWhile fun c => c.isDigit || c = '_'
        let digits ← plainDigits Char.isDigit part
        some (digits, rest.drop part.length)
      | rest => some ([], rest)
    let exponent : Int ← match rest with
      | [] => some 0
      | 'e' :: rest | 'E' :: rest => do
        let (down, rest) : Bool × List Char := match rest with
          | '-' :: rest => (true, rest)
          | '+' :: rest => (false, rest)
          | rest => (false, rest)
        let n := Draft.decimalValue (← plainDigits Char.isDigit rest)
        some (if down then -(n : Int) else n)
      | _ => none
    let significand := Draft.decimalValue (digits ++ fraction)
    some (.num (.float (Double.ofDecimal negative significand (exponent - fraction.length))))

/-- A number, from all of its characters. -/
def number (text : List Char) : Option Draft :=
  let special (negative : Bool) (text : List Char) : Option Draft :=
    let f := BinaryFormat.double
    if text = ['i', 'n', 'f'] then
      some (.num (.float (Double.ofWord (f.signBit negative + f.infinityBits))))
    else if text = ['n', 'a', 'n'] then
      some (.num (.float (Double.ofWord (f.infinityBits + Nat.pow 2 (f.fraction - 1)))))
    else decimalNumber negative text
  match text with
  | '0' :: 'x' :: digits => do limited false (← wholeNumber 16 digits)
  | '0' :: 'o' :: digits => do limited false (← wholeNumber 8 digits)
  | '0' :: 'b' :: digits => do limited false (← wholeNumber 2 digits)
  | '-' :: rest => special true rest
  | '+' :: rest => special false rest
  | text => special false text

/-- Take a number of exactly `width` digits, which must lie in a range. -/
def readField (width low high : Nat) (text : List Char) : Option (Nat × List Char) :=
  let digits := text.take width
  let n := Draft.decimalValue digits
  if digits.length = width ∧ digits.all Char.isDigit ∧ low ≤ n ∧ n ≤ high then
    some (n, text.drop width)
  else none

/-- Take one given character. -/
def readMark (mark : Char) (text : List Char) : Option (List Char) :=
  match text with
  | c :: rest => if c = mark then some rest else none
  | [] => none

/-- Take a date. -/
def readDate (text : List Char) : Option (List Char) := do
  let (year, rest) ← readField 4 0 9999 text
  let (month, rest) ← readField 2 1 12 (← readMark '-' rest)
  let (day, rest) ← readField 2 1 31 (← readMark '-' rest)
  if day ≤ monthLength year month then some rest else none
where
  /-- How many days a month has. -/
  monthLength (year month : Nat) : Nat :=
    if month = 2 then
      (if year % 4 = 0 ∧ (year % 100 ≠ 0 ∨ year % 400 = 0) then 29 else 28)
    else if month = 4 ∨ month = 6 ∨ month = 9 ∨ month = 11 then 30
    else 31

/-- Take a time of day. -/
def readTime (text : List Char) : Option (List Char) := do
  let (_, rest) ← readField 2 0 23 text
  let (_, rest) ← readField 2 0 59 (← readMark ':' rest)
  let (_, rest) ← readField 2 0 60 (← readMark ':' rest)
  match rest with
  | '.' :: rest =>
    let digits := rest.takeWhile Char.isDigit
    if digits.isEmpty then none else some (rest.drop digits.length)
  | rest => some rest

/-- Take an offset, if there is one. -/
def readOffset (text : List Char) : Option (List Char) :=
  match text with
  | 'Z' :: rest | 'z' :: rest => some rest
  | '+' :: rest | '-' :: rest => do
    let (_, rest) ← readField 2 0 23 rest
    let (_, rest) ← readField 2 0 59 (← readMark ':' rest)
    some rest
  | text => some text

/-- Take a date, a time of day, or both. -/
def readMoment (text : List Char) : Option (List Char) :=
  match readDate text with
  | none => readTime text
  | some rest =>
    match rest with
    | 'T' :: after | 't' :: after => do readOffset (← readTime after)
    | ' ' :: after => match readTime after with
      | some after => readOffset after
      | none => some rest
    | rest => some rest

/-- A date or time as a value: an object with one field of its own. -/
def moment (text : List Char) : Draft :=
  .object [(.ok "$__toml_private_datetime", .str (String.ofList text))] .closed

/-! ## Values -/

/-- Whether a character may stand in a number. -/
def isNumberChar (c : Char) : Bool :=
  c.isAlphanum || c = '_' || c = '+' || c = '-' || c = '.'

/-- Take a date, a time or a number. -/
def readNumber (text : List Char) : Option (Draft × List Char) :=
  match readMoment text with
  | some rest => some (moment (text.take (text.length - rest.length)), rest)
  | none => do
    let chars := text.takeWhile isNumberChar
    let x ← number chars
    some (x, text.drop chars.length)

/-- How deep lists and inline tables may be nested. -/
def maxDepth : Nat := 80

mutual
/-- Take a value. -/
def readValue : Nat → Nat → List Char → Option (Draft × List Char)
  | 0, _, _ => none
  | fuel + 1, depth, text =>
    match text with
    | 't' :: 'r' :: 'u' :: 'e' :: rest => some (.bool true, rest)
    | 'f' :: 'a' :: 'l' :: 's' :: 'e' :: rest => some (.bool false, rest)
    | '"' :: _ | '\'' :: _ => do
      let (s, rest) ← readString text
      some (.str s, rest)
    | '[' :: rest =>
      if maxDepth < depth then none
      else do
        let (items, rest) ← readItems fuel (depth + 1) rest
        some (.list items .closed, rest)
    | '{' :: rest =>
      if maxDepth < depth then none
      else do
        let (t, rest) ← match skipBlanks rest with
          | '}' :: rest => some (TomlTable.empty .header, rest)
          | rest => readEntries fuel (depth + 1) (.empty .header) rest
        some (t.toDraft, rest)
    | text => readNumber text

/-- Take the items of a list, after its bracket or a comma. -/
def readItems : Nat → Nat → List Char → Option (List Draft × List Char)
  | 0, _, _ => none
  | fuel + 1, depth, text => do
    match ← skipLines (text.length + 1) text with
    | ']' :: rest => some ([], rest)
    | rest =>
      let (x, rest) ← readValue fuel depth rest
      match ← skipLines (rest.length + 1) rest with
      | ',' :: rest => do
        let (xs, rest) ← readItems fuel depth rest
        some (x :: xs, rest)
      | ']' :: rest => some ([x], rest)
      | _ => none

/-- Take the entries of an inline table, after its brace or a comma. -/
def readEntries : Nat → Nat → TomlTable → List Char → Option (TomlTable × List Char)
  | 0, _, _, _ => none
  | fuel + 1, depth, t, text => do
    let (path, rest) ← readPath (text.length + 1) text
    let (x, rest) ← readValue fuel depth (skipBlanks (← readMark '=' (skipBlanks rest)))
    let key ← path.getLast?
    let t ← t.addValue path.dropLast key x
    match skipBlanks rest with
    | ',' :: rest => readEntries fuel depth t rest
    | '}' :: rest => some (t, rest)
    | _ => none
end

/-! ## Files -/

/-- Take one line of a file: a header, a value under a key, or nothing. -/
def readStatement (text : List Char) (file : TomlFile) : Option (TomlFile × List Char) :=
  match skipBlanks text with
  | '[' :: '[' :: rest => do
    let (path, rest) ← readPath (rest.length + 1) rest
    match rest with
    | ']' :: ']' :: rest => do some (← file.beginListed path, rest)
    | _ => none
  | '[' :: rest => do
    let (path, rest) ← readPath (rest.length + 1) rest
    some (← file.beginTable path, ← readMark ']' rest)
  | [] => some (file, [])
  | c :: rest =>
    if c = '#' ∨ c = '\n' ∨ c = '\r' then some (file, c :: rest)
    else do
      let (path, rest) ← readPath (rest.length + 2) (c :: rest)
      let rest := skipBlanks (← readMark '=' (skipBlanks rest))
      let (x, rest) ← readValue (rest.length + 1) 1 rest
      some (← file.addValue path.dropLast (← path.getLast?) x, rest)

/-- Take lines to the end of the text. -/
def readStatements : Nat → List Char → TomlFile → Option TomlFile
  | 0, _, _ => none
  | fuel + 1, text, file => do
    let (file, rest) ← readStatement text file
    let (more, rest) ← readLineEnd rest
    if more then readStatements fuel rest file else some file

/-- Read a file as one value. -/
def read (text : String) : Option Draft := do
  let chars := match text.toList with
    | c :: rest => if c.toNat = 0xFEFF then rest else c :: rest
    | [] => []
  let file ← readStatements (chars.length + 1) chars {}
  some (← file.finishTable).root.toDraft

end FlowGraph.Toml
