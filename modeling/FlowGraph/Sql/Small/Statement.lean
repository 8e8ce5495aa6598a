import FlowGraph.Sql.Small.Error
import FlowGraph.Sql.Small.Token

/-!
# Statements of the small library

Selections of values or of the columns of one table, the making of a table, the insertion of rows,
and the opening of another database file. `Query.read` reads the first statement of a query
together with the placeholders in it.
-/

namespace FlowGraph.Sql

/-- An expression. -/
inductive Expr where
  | value (v : Value)
  /-- A placeholder, counted from one. -/
  | parameter (index : Nat)
  | column (name : String) (place : Nat)
  /-- An expression converted to a text. -/
  | asText (e : Expr)

/-- What is selected. -/
inductive Selected where
  | all
  /-- An expression under the name that is given to it, else as it is written. -/
  | expr (e : Expr) (label : Option String) (source : String)

inductive Comparison where
  | equal
  | unequal
  | less
  | atMost
  | greater
  | atLeast
deriving DecidableEq, Repr

/-- A condition on rows. -/
structure Condition where
  comparison : Comparison
  left : Expr
  right : Expr

/-- The column that rows are sorted by. -/
structure SortKey where
  name : String
  place : Nat
  descending : Bool

/-- A column of a new table. -/
structure ColumnSpec where
  name : String
  typeName : String
  isKey : Bool
deriving DecidableEq, Repr

inductive Statement where
  | select (items : List Selected) (table : Option String) (condition : Option Condition)
      (order : Option SortKey)
  /-- Make a table; the text is what the table is remembered by. -/
  | create (table : String) (place : Nat) (unlessExists : Bool) (columns : List ColumnSpec)
      (text : String)
  | insert (table : String) (columns : Option (List String)) (rows : List (List Expr))
  /-- Open another database file besides. -/
  | attach (path : Expr) (name : String)

/-- A statement with its placeholders; without a statement the query is blank. -/
structure Query where
  statement : Option Statement
  /-- The names of the placeholders. -/
  parameters : List (Option String)

/-- Where the reading of a query stands. -/
structure Cursor where
  rest : List Char
  parameters : List (Option String) := []
  /-- The size of the whole query in bytes. -/
  size : Nat

/-- A step of the reading. -/
abbrev Reading (α : Type) := StateT Cursor (Except SqlError) α

namespace Reading

/-- The size of a text in bytes. -/
def bytes (text : List Char) : Nat :=
  text.foldl (fun n c => n + c.utf8Size) 0

/-- The place of a token. -/
def placeOf (t : Token) : Reading Nat := do
  return (← get).size - bytes t.start

/-- The next token, which stays there. -/
def peek : Reading (Option Token) := do
  match Token.next? (← get).rest with
  | some t =>
    match t.kind with
    | .illegal => throw (.unknownToken t.text (← placeOf t))
    | _ => return some t
  | none => return none

/-- Go past a token. -/
def skip (t : Token) : Reading Unit :=
  modify fun cursor => { cursor with rest := t.rest }

/-- Refuse a token. -/
def refuse {α : Type} : Option Token → Reading α
  | some t => do throw (.syntaxFault t.text (← placeOf t))
  | none => throw .incomplete

/-- Whether a token is the given keyword or symbol. -/
def isMark (mark : String) (t : Token) : Bool :=
  t.kind.isMark && t.upper = mark

/-- Take a keyword or symbol if it comes next. -/
def takeIf (mark : String) : Reading Bool := do
  match ← peek with
  | some t => if isMark mark t then skip t; return true else return false
  | none => return false

/-- Take a keyword or symbol that must come next. -/
def take (mark : String) : Reading Unit := do
  if ← takeIf mark then return () else refuse (← peek)

/-- Words that are never names. -/
def reserved : List String :=
  ["ADD", "ALL", "ALTER", "AND", "AS", "AUTOINCREMENT", "BETWEEN", "CASE", "CHECK", "COLLATE",
    "COMMIT", "CONSTRAINT", "CREATE", "DEFAULT", "DEFERRABLE", "DELETE", "DISTINCT", "DROP",
    "ELSE", "ESCAPE", "EXISTS", "FOREIGN", "FROM", "GROUP", "HAVING", "IN", "INDEX", "INSERT",
    "INTO", "IS", "ISNULL", "JOIN", "LIMIT", "NOT", "NOTHING", "NOTNULL", "NULL", "ON", "OR",
    "ORDER", "PRIMARY", "REFERENCES", "RETURNING", "SELECT", "SET", "TABLE", "THEN", "TO",
    "TRANSACTION", "UNION", "UNIQUE", "UPDATE", "USING", "VALUES", "WHEN", "WHERE"]

/-- The name that a token gives, if it can be one. -/
def nameOf? (t : Token) : Option String :=
  match t.kind with
  | .word => if reserved.contains t.upper then none else some t.text
  | .quoted name => some name
  | .literal (.text bytes) => some (Text.lossyText bytes)
  | _ => none

/-- Take a name that must come next. -/
def takeName : Reading (String × Token) := do
  match ← peek with
  | some t => match nameOf? t with
    | some name => skip t; return (name, t)
    | none => refuse (some t)
  | none => refuse none

/-- Take things with commas between them. -/
def takeList {α : Type} (item : Reading α) : Nat → Reading (List α)
  | 0 => return []
  | fuel + 1 => do
    let x ← item
    if ← takeIf "," then return x :: (← takeList item fuel) else return [x]

/-- A placeholder: the next one, or the one that has the name already. -/
def placeholder (name : Option String) : Reading Expr := do
  let cursor ← get
  match name with
  | some _ =>
    match cursor.parameters.findIdx? (· = name) with
    | some i => return .parameter (i + 1)
    | none => pure ()
  | none => pure ()
  set { cursor with parameters := cursor.parameters ++ [name] }
  return .parameter (cursor.parameters.length + 1)

/-- The placeholder with a number, after which counting goes on. -/
def numberedPlaceholder (n : Nat) : Reading Expr := do
  modify fun cursor =>
    let missing := List.replicate (n - cursor.parameters.length) none
    { cursor with parameters := cursor.parameters ++ missing }
  return .parameter n

/-- Take a number after its sign. -/
def takeSigned (negative : Bool) : Reading Expr := do
  match ← peek with
  | some t =>
    match t.kind, spanNumber negative t.source with
    | .literal _, some (v, []) => skip t; return .value v
    | _, _ => refuse (some t)
  | none => refuse none

/-- Take an expression. -/
def takeExpr : Nat → Reading Expr
  | 0 => refuse none
  | fuel + 1 => do
    match ← peek with
    | none => refuse none
    | some t =>
      match t.kind with
      | .literal v => skip t; return .value v
      | .placeholder => skip t; placeholder none
      | .named name => skip t; placeholder (some name)
      | .numbered n =>
        if n = 0 ∨ 32766 < n then refuse (some t)
        else skip t; numberedPlaceholder n
      | .quoted name => skip t; return .column name (← placeOf t)
      | .illegal => refuse (some t)
      | .symbol =>
        if isMark "-" t then skip t; takeSigned true
        else if isMark "+" t then skip t; takeSigned false
        else if isMark "(" t then
          skip t
          let e ← takeExpr fuel
          take ")"
          return e
        else refuse (some t)
      | .word =>
        if isMark "NULL" t then skip t; return .value .null
        else if isMark "TRUE" t then skip t; return .value (.integer 1)
        else if isMark "FALSE" t then skip t; return .value (.integer 0)
        else if isMark "CAST" t then
          skip t
          take "("
          let e ← takeExpr fuel
          take "AS"
          take "TEXT"
          take ")"
          return .asText e
        else if reserved.contains t.upper then refuse (some t)
        else skip t; return .column t.text (← placeOf t)

/-- Take an expression, with enough fuel for all brackets that can be there. -/
def expr : Reading Expr := do takeExpr ((← get).rest.length + 1)

/-- The text between two places of a query, blanks at its ends aside. -/
def textBetween (start rest : List Char) : String :=
  String.ofList (Text.trim (start.take (start.length - rest.length)))

/-- Take one thing that is selected. -/
def selected : Reading Selected := do
  match ← peek with
  | none => refuse none
  | some t =>
    if isMark "*" t then skip t; return .all
    else
      let e ← expr
      let source := textBetween t.start (← get).rest
      if ← takeIf "AS" then
        let (name, _) ← takeName
        return .expr e (some name) source
      else match ← peek with
        | some u => match nameOf? u with
          | some name => skip u; return .expr e (some name) source
          | none => return .expr e none source
        | none => return .expr e none source

/-- The comparisons by their symbols. -/
def comparisons : List (String × Comparison) :=
  [("=", .equal), ("==", .equal), ("<>", .unequal), ("!=", .unequal), ("<", .less),
    ("<=", .atMost), (">", .greater), (">=", .atLeast)]

/-- Take a condition. -/
def condition : Reading Condition := do
  let left ← expr
  match ← peek with
  | some t =>
    match comparisons.lookup t.text with
    | some comparison =>
      skip t
      return ⟨comparison, left, ← expr⟩
    | none => refuse (some t)
  | none => refuse none

/-- Take a sort key. -/
def sortKey : Reading SortKey := do
  let (name, t) ← takeName
  let place ← placeOf t
  if ← takeIf "DESC" then return ⟨name, place, true⟩
  else
    let _ ← takeIf "ASC"
    return ⟨name, place, false⟩

/-- Take the rest of a selection. -/
def select : Reading Statement := do
  let items ← takeList selected ((← get).rest.length + 1)
  if ← takeIf "FROM" then
    let (table, _) ← takeName
    let condition ← if ← takeIf "WHERE" then some <$> condition else pure none
    let order ← if ← takeIf "ORDER" then
        take "BY"
        some <$> sortKey
      else pure none
    return .select items (some table) condition order
  else return .select items none none none

/-- Take the words of a type. -/
def typeWords : Nat → Reading (List String)
  | 0 => return []
  | fuel + 1 => do
    match ← peek with
    | some t => match nameOf? t with
      | some word => skip t; return word :: (← typeWords fuel)
      | none => return []
    | none => return []

/-- Take a column of a new table. -/
def columnSpec : Reading ColumnSpec := do
  let (name, _) ← takeName
  let words ← typeWords (← get).rest.length
  let isKey ← if ← takeIf "PRIMARY" then
      take "KEY"
      pure true
    else pure false
  return ⟨name, String.intercalate " " words, isKey⟩

/-- Take the rest of the making of a table. -/
def create : Reading Statement := do
  take "TABLE"
  let unlessExists ← if ← takeIf "IF" then
      take "NOT"
      take "EXISTS"
      pure true
    else pure false
  let (name, t) ← takeName
  let place ← placeOf t
  take "("
  let columns ← takeList columnSpec ((← get).rest.length + 1)
  take ")"
  return .create name place unlessExists columns
    ("CREATE TABLE " ++ textBetween t.start (← get).rest)

/-- Take expressions in brackets. -/
def row : Reading (List Expr) := do
  take "("
  let values ← takeList expr ((← get).rest.length + 1)
  take ")"
  return values

/-- Take the rest of an insertion. -/
def insert : Reading Statement := do
  take "INTO"
  let (table, _) ← takeName
  let columns ← if ← takeIf "(" then
      let names ← takeList takeName ((← get).rest.length + 1)
      take ")"
      pure (some (names.map Prod.fst))
    else pure none
  take "VALUES"
  let rows ← takeList row ((← get).rest.length + 1)
  return .insert table columns rows

/-- Take the rest of the opening of another file. -/
def attach : Reading Statement := do
  let _ ← takeIf "DATABASE"
  let path ← expr
  take "AS"
  let (name, _) ← takeName
  return .attach path name

/-- Go past empty statements. -/
def skipEmpty : Nat → Reading Unit
  | 0 => return ()
  | fuel + 1 => do if ← takeIf ";" then skipEmpty fuel

/-- Take a statement up to its end. -/
def statement : Reading (Option Statement) := do
  skipEmpty (← get).rest.length
  match ← peek with
  | none => return none
  | some t =>
    let s ← if isMark "SELECT" t then skip t; select
      else if isMark "CREATE" t then skip t; create
      else if isMark "INSERT" t then skip t; insert
      else if isMark "ATTACH" t then skip t; attach
      else refuse (some t)
    match ← peek with
    | none => return some s
    | some t => if isMark ";" t then return some s else refuse (some t)

end Reading

namespace Query

/-- Read the first statement of a query. The query ends at a character of number zero. -/
def read (query : String) : Except SqlError Query :=
  let text := query.toList.takeWhile (·.toNat ≠ 0)
  match Reading.statement.run { rest := text, size := Reading.bytes text } with
  | .ok (statement, cursor) => .ok ⟨statement, cursor.parameters⟩
  | .error e => .error e

end Query

end FlowGraph.Sql
