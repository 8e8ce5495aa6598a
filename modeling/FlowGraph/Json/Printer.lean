import FlowGraph.Json.Basic

/-!
# JSON text of values

`compact` writes a value without blanks, `pretty` with one field or item a line, two blanks a
level. Only quotes, backslashes and the characters below a blank are escaped.
-/

namespace FlowGraph.Json

/-- The hexadecimal digit of a number below sixteen, in lower case. -/
def hexDigit (n : Nat) : Char :=
  if n < 10 then Char.ofNat (48 + n) else Char.ofNat (87 + n)

/-- A character inside a quoted text. -/
def escapeChar (c : Char) : List Char :=
  match c with
  | '"' => ['\\', '"']
  | '\\' => ['\\', '\\']
  | '\n' => ['\\', 'n']
  | '\r' => ['\\', 'r']
  | '\t' => ['\\', 't']
  | c =>
    if c.toNat = 8 then ['\\', 'b']
    else if c.toNat = 12 then ['\\', 'f']
    else if c.toNat < 32 then
      ['\\', 'u', '0', '0', hexDigit (c.toNat / 16), hexDigit (c.toNat % 16)]
    else [c]

/-- A text in quotes. -/
def quote (s : String) : String :=
  String.ofList ('"' :: s.toList.flatMap escapeChar ++ ['"'])

mutual
/-- A value without blanks. -/
def compact : Json → String
  | .null => "null"
  | .bool true => "true"
  | .bool false => "false"
  | .num n => n.text
  | .str s => quote s
  | .arr items => "[" ++ compactItems items ++ "]"
  | .obj fields => "\x7b" ++ compactFields fields ++ "\x7d"

/-- Items with commas between them. -/
def compactItems : List Json → String
  | [] => ""
  | [x] => compact x
  | x :: xs => compact x ++ "," ++ compactItems xs

/-- Fields with commas between them. -/
def compactFields : List (String × Json) → String
  | [] => ""
  | [(key, x)] => quote key ++ ":" ++ compact x
  | (key, x) :: xs => quote key ++ ":" ++ compact x ++ "," ++ compactFields xs
end

/-- A new line, indented to a level. -/
def newline (level : Nat) : String :=
  String.ofList ('\n' :: List.replicate (2 * level) ' ')

mutual
/-- A value spread over lines, its own lines indented to `level`. -/
def prettyAt (level : Nat) : Json → String
  | .arr (x :: xs) =>
    "[" ++ prettyItems (level + 1) (x :: xs) ++ newline level ++ "]"
  | .obj (x :: xs) =>
    "\x7b" ++ prettyFields (level + 1) (x :: xs) ++ newline level ++ "\x7d"
  | .arr [] => "[]"
  | .obj [] => "\x7b\x7d"
  | .null => "null"
  | .bool true => "true"
  | .bool false => "false"
  | .num n => n.text
  | .str s => quote s

/-- One item a line. -/
def prettyItems (level : Nat) : List Json → String
  | [] => ""
  | [x] => newline level ++ prettyAt level x
  | x :: xs => newline level ++ prettyAt level x ++ "," ++ prettyItems level xs

/-- One field a line. -/
def prettyFields (level : Nat) : List (String × Json) → String
  | [] => ""
  | [(key, x)] => newline level ++ quote key ++ ": " ++ prettyAt level x
  | (key, x) :: xs =>
    newline level ++ quote key ++ ": " ++ prettyAt level x ++ "," ++ prettyFields level xs
end

/-- A value spread over lines. -/
def pretty (v : Json) : String := prettyAt 0 v

/-- A value as it appears in running text: a text as it is, everything else compactly. -/
def display : Json → String
  | .str s => s
  | v => compact v

end FlowGraph.Json
