/-!
# Blanks

The characters that count as white space in running text, and texts without them at their ends.
-/

namespace FlowGraph.Text

/-- The white space of running text, ASCII and beyond. -/
def isBlank (c : Char) : Bool :=
  let n := c.toNat
  (9 ≤ n && n ≤ 13) || n = 0x20 || n = 0x85 || n = 0xA0 || n = 0x1680
    || (0x2000 ≤ n && n ≤ 0x200A) || n = 0x2028 || n = 0x2029 || n = 0x202F || n = 0x205F
    || n = 0x3000

/-- The text without blanks at its ends. -/
def trim (text : List Char) : List Char :=
  ((text.dropWhile isBlank).reverse.dropWhile isBlank).reverse

/-- The value of a run of decimal digits; `none` when it is empty or holds anything else. -/
def digitsValue? (digits : List Char) : Option Nat :=
  if digits.isEmpty then none
  else digits.foldl (fun n c =>
    match n with
    | some n => if c.isDigit then some (n * 10 + (c.toNat - 48)) else none
    | none => none) (some 0)

/-- A natural number below `2 ^ 64` in decimal digits, with an optional plus sign. -/
def word64? (text : List Char) : Option Nat :=
  let digits := match text with
    | '+' :: rest => rest
    | text => text
  match digitsValue? digits with
  | some n => if n < Nat.pow 2 64 then some n else none
  | none => none

end FlowGraph.Text
