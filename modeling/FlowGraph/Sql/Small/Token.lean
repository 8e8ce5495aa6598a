import FlowGraph.Sql.Small.Affinity

/-!
# Tokens in the small library

`Token.next` takes the next token of a query, after blanks and comments. Every token remembers
the text that begins with it and the text after it, so that its place and its spelling can be
told.
-/

namespace FlowGraph.Sql

/-- What a token is. -/
inductive TokenKind where
  /-- A keyword or a plain name. -/
  | word
  /-- A name in quotes. -/
  | quoted (name : String)
  | literal (v : Value)
  /-- A placeholder without a name. -/
  | placeholder
  /-- A placeholder with a number. -/
  | numbered (n : Nat)
  /-- A placeholder with a name, mark included. -/
  | named (name : String)
  | symbol
  /-- Text that begins no token. -/
  | illegal

/-- Whether tokens of the kind are keywords or symbols. -/
def TokenKind.isMark : TokenKind → Bool
  | .word | .symbol => true
  | _ => false

/-- A token in a query. -/
structure Token where
  kind : TokenKind
  /-- The query from the token on. -/
  start : List Char
  /-- The query after the token. -/
  rest : List Char

namespace Token

/-- The characters of a token as written. -/
def source (t : Token) : List Char :=
  t.start.take (t.start.length - t.rest.length)

/-- The token as written. -/
def text (t : Token) : String := String.ofList t.source

/-- A keyword in capitals. -/
def upper (t : Token) : String :=
  String.ofList (t.source.map Char.toUpper)

/-- The blanks of queries. -/
def isBlank (c : Char) : Bool :=
  c = ' ' || c = '\t' || c = '\n' || c = '\r' || c.toNat = 12

/-- Drop the rest of a comment that ends with a star and a slash. -/
def skipBlockComment : List Char → List Char
  | [] => []
  | '*' :: '/' :: rest => rest
  | _ :: rest => skipBlockComment rest

/-- Drop blanks and comments. -/
def skip : Nat → List Char → List Char
  | 0, text => text
  | fuel + 1, text =>
    match text with
    | '-' :: '-' :: rest => skip fuel (rest.dropWhile (· ≠ '\n'))
    | '/' :: '*' :: c :: rest => skip fuel (skipBlockComment (c :: rest))
    | c :: rest => if isBlank c then skip fuel rest else c :: rest
    | [] => []

/-- Whether a character may stand in a plain name. -/
def isNameChar (c : Char) : Bool :=
  c.isAlphanum || c = '_' || c = '$' || 128 ≤ c.toNat

/-- Take text up to a closing mark; a mark written twice stands for itself. -/
def takeQuoted (mark : Char) : List Char → Option (List Char × List Char)
  | [] => none
  | [c] => if c = mark then some ([], []) else none
  | c :: d :: rest =>
    if c = mark then
      if d = mark then
        match takeQuoted mark rest with
        | some (text, rest) => some (mark :: text, rest)
        | none => none
      else some ([], d :: rest)
    else
      match takeQuoted mark (d :: rest) with
      | some (text, rest) => some (c :: text, rest)
      | none => none

/-- The value of a hexadecimal digit. -/
def hexValue? (c : Char) : Option Nat :=
  if c.isDigit then some (c.toNat - 48)
  else if 'a' ≤ c ∧ c ≤ 'f' then some (c.toNat - 87)
  else if 'A' ≤ c ∧ c ≤ 'F' then some (c.toNat - 55)
  else none

/-- The bytes that pairs of hexadecimal digits spell. -/
def hexBytes? : List Char → Option (List UInt8)
  | [] => some []
  | [_] => none
  | a :: b :: rest => do
    some (UInt8.ofNat (16 * (← hexValue? a) + (← hexValue? b)) :: (← hexBytes? rest))

/-- A token that is one of several symbols. -/
def symbols : List (List Char) :=
  [['<', '='], ['<', '>'], ['>', '='], ['=', '='], ['!', '='], ['<'], ['>'], ['='], ['('], [')'],
    [','], [';'], ['*'], ['-'], ['+'], ['.']]

/-- The kind of the token that a text begins with, and the text after it. -/
def classify (text : List Char) : TokenKind × List Char :=
  match text with
  | [] => (.illegal, [])
  | c :: rest =>
    let named := rest.takeWhile isNameChar
    if c = '\'' then
      match takeQuoted c rest with
      | some (s, rest) => (.literal (.ofString (String.ofList s)), rest)
      | none => (.illegal, [])
    else if c = '"' ∨ c = '\x60' then
      match takeQuoted c rest with
      | some (s, rest) => (.quoted (String.ofList s), rest)
      | none => (.illegal, [])
    else if c = '[' then
      let name := rest.takeWhile (· ≠ ']')
      match rest.drop name.length with
      | _ :: rest => (.quoted (String.ofList name), rest)
      | [] => (.illegal, [])
    else if (c = 'x' ∨ c = 'X') ∧ rest.head? = some '\'' then
      let digits := rest.tail.takeWhile (· ≠ '\'')
      match hexBytes? digits, rest.tail.drop digits.length with
      | some bytes, _ :: rest => (.literal (.blob ⟨bytes.toArray⟩), rest)
      | _, rest => (.illegal, rest.tail)
    else if c = '?' then
      let digits := rest.takeWhile Char.isDigit
      if digits.isEmpty then (.placeholder, rest)
      else (.numbered (digitsValue digits), rest.drop digits.length)
    else if c = ':' ∨ c = '@' ∨ c = '$' then
      if named.isEmpty then (.illegal, rest)
      else (.named (String.ofList (c :: named)), rest.drop named.length)
    else if c.isDigit ∨ (c = '.' ∧ (rest.head?.map Char.isDigit).getD false) then
      match spanNumber false text with
      | some (v, rest) =>
        let extra := rest.takeWhile isNameChar
        if extra.isEmpty then (.literal v, rest) else (.illegal, rest.drop extra.length)
      | none => (.illegal, rest)
    else if isNameChar c then (.word, rest.drop named.length)
    else
      match symbols.find? (·.isPrefixOf text) with
      | some symbol => (.symbol, text.drop symbol.length)
      | none => (.illegal, rest)

/-- The next token of a query, unless the query ends. -/
def next? (text : List Char) : Option Token :=
  match skip (text.length + 1) text with
  | [] => none
  | start =>
    let (kind, rest) := classify start
    some ⟨kind, start, rest⟩

end Token

end FlowGraph.Sql
