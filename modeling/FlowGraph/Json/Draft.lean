import FlowGraph.Json.Printer

/-!
# Drafts of JSON values

A `Draft` is what a text says before anybody has asked for a value of a certain type. Where the
text stops being JSON, or holds something that JSON allows but no value can hold (a number too
large, half of a surrogate pair, nesting beyond the limit), the draft keeps the fault in its
place. So a reader of typed values walks the draft in the order of the text and meets either a
fault of the text or a fault of its own, whichever comes first, and a part that nobody asks for
only has to be JSON.

`value` takes a draft as a plain value; `skipFault` finds the first fault in a part that is not
wanted.
-/

namespace FlowGraph

/-- Why a text is not JSON. -/
inductive TextFault where
  | endInList
  | endInObject
  | endInString
  | endInValue
  | expectedColon
  | expectedListCommaOrEnd
  | expectedObjectCommaOrEnd
  | expectedWord
  | expectedValue
  | badEscape
  | badNumber
  | numberTooLarge
  | controlCharacter
  | keyNotText
  | loneSurrogate
  | halfPair
  | trailingComma
  | trailingCharacters
  | nestedTooDeep
deriving DecidableEq, Repr

namespace TextFault

/-- Whether more text could still make it JSON. -/
def isEarlyEnd : TextFault → Bool
  | endInList | endInObject | endInString | endInValue => true
  | _ => false

/-- The fault in words. -/
def message : TextFault → String
  | endInList => "EOF while parsing a list"
  | endInObject => "EOF while parsing an object"
  | endInString => "EOF while parsing a string"
  | endInValue => "EOF while parsing a value"
  | expectedColon => "expected \x60:\x60"
  | expectedListCommaOrEnd => "expected \x60,\x60 or \x60]\x60"
  | expectedObjectCommaOrEnd => "expected \x60,\x60 or \x60\x7d\x60"
  | expectedWord => "expected ident"
  | expectedValue => "expected value"
  | badEscape => "invalid escape"
  | badNumber => "invalid number"
  | numberTooLarge => "number out of range"
  | controlCharacter => "control character (\\u0000-\\u001F) found while parsing a string"
  | keyNotText => "key must be a string"
  | loneSurrogate => "lone leading surrogate in hex escape"
  | halfPair => "unexpected end of hex escape"
  | trailingComma => "trailing comma"
  | trailingCharacters => "trailing characters"
  | nestedTooDeep => "recursion limit exceeded"

end TextFault

/-- How a list in a text ends after its last item. -/
inductive ListEnd where
  /-- With its bracket. -/
  | closed
  /-- The text ends where a comma or the bracket should stand. -/
  | ended
  /-- The text ends after a comma. -/
  | endedAfterComma
  /-- The bracket follows a comma. -/
  | trailingComma
  /-- Something else stands where a comma or the bracket should. -/
  | noSeparator
  /-- The last item is itself broken, and nothing after it was read. -/
  | cut
deriving DecidableEq, Repr

/-- How an object in a text ends after its last field. -/
inductive ObjectEnd where
  | closed
  | ended
  | endedAfterComma
  | trailingComma
  | noSeparator
  /-- Something other than a quoted key stands where a key should. -/
  | keyNotText
  | cut
deriving DecidableEq, Repr

/-- A value of a text with the faults of the text in their places. -/
inductive Draft where
  | null
  | bool (value : Bool)
  | num (value : Number)
  | str (value : String)
  | list (items : List Draft) (ending : ListEnd)
  | object (fields : List (Except TextFault String × Draft)) (ending : ObjectEnd)
  /-- No value can be taken from here. `skipped` is the fault, if any, when none is wanted. -/
  | broken (wanted : TextFault) (skipped : Option TextFault)
deriving Inhabited

namespace ListEnd

/-- The fault that a reader meets which asks for one more item. -/
def fault? : ListEnd → Option TextFault
  | closed | cut => none
  | ended => some .endInList
  | endedAfterComma => some .endInValue
  | trailingComma => some .trailingComma
  | noSeparator => some .expectedListCommaOrEnd

/-- The fault when the list is not wanted. -/
def skipFault? : ListEnd → Option TextFault
  | closed | cut => none
  | ended => some .endInList
  | endedAfterComma => some .endInValue
  | trailingComma => some .expectedValue
  | noSeparator => some .expectedListCommaOrEnd

/-- The fault that a reader meets which has taken all items it wants and expects the bracket. -/
def closingFault? : ListEnd → Option TextFault
  | closed | cut => none
  | ended => some .endInList
  | trailingComma => some .trailingComma
  | endedAfterComma | noSeparator => some .trailingCharacters

end ListEnd

namespace ObjectEnd

/-- The fault that a reader meets which asks for one more field. -/
def fault? : ObjectEnd → Option TextFault
  | closed | cut => none
  | ended => some .endInObject
  | endedAfterComma => some .endInValue
  | trailingComma => some .trailingComma
  | noSeparator => some .expectedObjectCommaOrEnd
  | keyNotText => some .keyNotText

/-- The fault when the object is not wanted. -/
def skipFault? : ObjectEnd → Option TextFault
  | closed | cut => none
  | ended | endedAfterComma => some .endInObject
  | trailingComma | keyNotText => some .keyNotText
  | noSeparator => some .expectedObjectCommaOrEnd

end ObjectEnd

namespace Draft

mutual
/-- The first fault in a part that nobody asks for. -/
def skipFault? : Draft → Option TextFault
  | .broken _ skipped => skipped
  | .list items ending => (skipFaultItems? items).or ending.skipFault?
  | .object fields ending => (skipFaultFields? fields).or ending.skipFault?
  | _ => none

/-- The first fault in skipped items. -/
def skipFaultItems? : List Draft → Option TextFault
  | [] => none
  | x :: xs => (skipFault? x).or (skipFaultItems? xs)

/-- The first fault in skipped fields. -/
def skipFaultFields? : List (Except TextFault String × Draft) → Option TextFault
  | [] => none
  | (_, x) :: xs => (skipFault? x).or (skipFaultFields? xs)
end

mutual
/-- The draft as a plain value. A repeated key keeps its first place and takes its last value. -/
def value : Draft → Except TextFault Json
  | .null => .ok .null
  | .bool b => .ok (.bool b)
  | .num n => .ok (.num n)
  | .str s => .ok (.str s)
  | .broken wanted _ => .error wanted
  | .list items ending => do
    let values ← valueItems items
    match ending.fault? with
    | some fault => .error fault
    | none => .ok (.arr values)
  | .object fields ending => do
    let entries ← valueFields fields []
    match ending.fault? with
    | some fault => .error fault
    | none => .ok (.obj entries)

/-- The items as plain values. -/
def valueItems : List Draft → Except TextFault (List Json)
  | [] => .ok []
  | x :: xs => do
    let head ← value x
    let tail ← valueItems xs
    .ok (head :: tail)

/-- The fields as plain values, added to those already taken. -/
def valueFields : List (Except TextFault String × Draft) → Fields → Except TextFault Fields
  | [], taken => .ok taken
  | (.error fault, _) :: _, _ => .error fault
  | (.ok key, x) :: xs, taken => do
    let head ← value x
    valueFields xs (Keyed.insert taken key head)
end

mutual
/-- A plain value as a draft without faults. -/
def ofJson : Json → Draft
  | .null => .null
  | .bool b => .bool b
  | .num n => .num n
  | .str s => .str s
  | .arr items => .list (ofItems items) .closed
  | .obj fields => .object (ofFields fields) .closed

/-- Plain items as drafts. -/
def ofItems : List Json → List Draft
  | [] => []
  | x :: xs => ofJson x :: ofItems xs

/-- Plain fields as drafts. -/
def ofFields : List (String × Json) → List (Except TextFault String × Draft)
  | [] => []
  | (key, x) :: xs => (.ok key, ofJson x) :: ofFields xs
end

end Draft

end FlowGraph
