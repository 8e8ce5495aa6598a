import FlowGraph.Sql.Small.Statement

/-!
# Databases of the small library

A database is a list of tables, a table a list of rows, each with a key, in the order of the
keys. `prepare` finds the faults of a statement that can be told without its parameters, `run`
carries it out. A statement that fails leaves the database as it was.
-/

namespace FlowGraph.Sql

/-- A column of a table. -/
structure Column where
  name : String
  affinity : Affinity
deriving DecidableEq, Repr

/-- A row with its key. -/
structure Row where
  key : Int
  values : List Value

/-- A table. -/
structure Table where
  name : String
  columns : List Column
  /-- The place of the column that holds the key, if one does. -/
  keyColumn : Option Nat
  rows : List Row := []
  /-- The statement that made the table. -/
  text : String

/-- The tables of a database file. -/
structure Database where
  tables : List Table := []
deriving Inhabited

/-- Whether two names are the same: capitals do not count. -/
def sameName (a b : String) : Bool :=
  a.toList.map Char.toLower = b.toList.map Char.toLower

/-! ## Rows -/

namespace Table

/-- The place of a column. -/
def columnIndex? (t : Table) (name : String) : Option Nat :=
  t.columns.findIdx? fun c => sameName c.name name

/-- The key of the next row. -/
def nextKey (t : Table) : Int :=
  match t.rows.getLast? with
  | some row => row.key + 1
  | none => 1

/-- Put a row into its place. -/
def insertRow (row : Row) : List Row → List Row
  | [] => [row]
  | other :: rest =>
    if row.key < other.key then row :: other :: rest else other :: insertRow row rest

/-- The key that a value for the key column stands for: the next one for nothing. -/
def keyOf (t : Table) : Value → Except SqlError Int
  | .null => .ok t.nextKey
  | v => match Affinity.integer.apply v with
    | .integer n => .ok n
    | _ => .error .wrongKeyType

/-- Add a row of values, one for each column. -/
def add (t : Table) (values : List Value) : Except SqlError Table := do
  let converted := List.zipWith (fun c v => c.affinity.apply v) t.columns values
  match t.keyColumn with
  | none => .ok { t with rows := insertRow ⟨t.nextKey, converted⟩ t.rows }
  | some i =>
    let key ← t.keyOf ((values[i]?).getD .null)
    if t.rows.any fun row => row.key = key then
      .error (.repeatedKey t.name ((t.columns[i]?.map Column.name).getD ""))
    else .ok { t with rows := insertRow ⟨key, converted.set i (.integer key)⟩ t.rows }

/-- A new table. -/
def ofSpecs (name text : String) (specs : List ColumnSpec) : Table where
  name := name
  columns := specs.map fun s => ⟨s.name, Affinity.ofTypeName s.typeName⟩
  keyColumn := specs.findIdx? fun s => s.isKey && sameName s.typeName "INTEGER"
  text := text

end Table

/-! ## Expressions -/

namespace Expr

/-- Find the columns of an expression among those of a table. -/
def check (table : Option Table) : Expr → Except SqlError Unit
  | value _ | parameter _ => .ok ()
  | asText e => check table e
  | column name place =>
    if (table.bind fun t => t.columnIndex? name).isSome then .ok ()
    else .error (.missingColumn name place)

/-- The affinity of an expression, if it has one. -/
def affinity? (table : Option Table) : Expr → Option Affinity
  | value _ | parameter _ => none
  | asText _ => some .text
  | column name _ => do
    let t ← table
    let c ← t.columns[← t.columnIndex? name]?
    some c.affinity

/-- The value of an expression in a row. -/
def eval (bindings : List Value) (table : Option Table) (row : List Value) : Expr → Value
  | value v => v
  | parameter index => (bindings[index - 1]?).getD .null
  | asText e => (eval bindings table row e).toText
  | column name _ =>
    match table.bind fun t => t.columnIndex? name with
    | some i => (row[i]?).getD .null
    | none => .null

end Expr

/-! ## Conditions -/

namespace Comparison

/-- Whether values in the given order satisfy a comparison. -/
def holds : Comparison → Ordering → Bool
  | equal, o => o = .eq
  | unequal, o => o ≠ .eq
  | less, o => o = .lt
  | atMost, o => o ≠ .gt
  | greater, o => o = .gt
  | atLeast, o => o ≠ .lt

end Comparison

/-- The affinity of a comparison: numbers win between two columns, a column against anything
else. -/
def comparisonAffinity : Option Affinity → Option Affinity → Affinity
  | some a, some b => if a.isNumeric || b.isNumeric then .numeric else .blob
  | some a, none | none, some a => a
  | none, none => .blob

/-- A value made ready for a comparison. -/
def forComparison (affinity : Affinity) (v : Value) : Value :=
  if affinity.isNumeric then v.asNumber
  else if affinity = .text then v.asText
  else v

/-- Whether a row satisfies a condition. Nothing is comparable with `null`. -/
def Condition.holds (c : Condition) (bindings : List Value) (table : Option Table)
    (row : List Value) : Bool :=
  let affinity := comparisonAffinity (c.left.affinity? table) (c.right.affinity? table)
  let left := forComparison affinity (c.left.eval bindings table row)
  let right := forComparison affinity (c.right.eval bindings table row)
  match left, right with
  | .null, _ | _, .null => false
  | left, right => c.comparison.holds (left.compare right)

/-! ## Statements -/

namespace Database

/-- The list of tables, as a table. -/
def catalog (db : Database) : Table where
  name := "sqlite_master"
  columns := [⟨"type", .text⟩, ⟨"name", .text⟩, ⟨"tbl_name", .text⟩, ⟨"rootpage", .integer⟩,
    ⟨"sql", .text⟩]
  keyColumn := none
  rows := db.tables.zipIdx.map fun (t, i) =>
    ⟨i + 1, [.ofString "table", .ofString t.name, .ofString t.name, .integer (i + 2),
      .ofString t.text]⟩
  text := ""

/-- A table by its name. -/
def table? (db : Database) (name : String) : Option Table :=
  if sameName name "sqlite_master" || sameName name "sqlite_schema" then some db.catalog
  else db.tables.find? fun t => sameName t.name name

/-- Put a table in the place of the one of its name. -/
def setTable (db : Database) (t : Table) : Database :=
  ⟨db.tables.map fun old => if sameName old.name t.name then t else old⟩

/-- A table that must be there. -/
def requireTable (db : Database) (name : String) : Except SqlError Table :=
  match db.table? name with
  | some t => .ok t
  | none => .error (.missingTable name)

/-- Whether a statement looks into the tables of its database. -/
def usesTables : Statement → Bool
  | .select _ table _ _ => table.isSome
  | _ => true

/-- Check one thing that is selected. -/
def checkSelected (table : Option Table) : Selected → Except SqlError Unit
  | .all => if table.isSome then .ok () else .error .noTables
  | .expr e _ _ => e.check table

/-- The columns that a row of an insertion is for. -/
def targetColumns (t : Table) : Option (List String) → Except SqlError (List Nat)
  | none => .ok (List.range t.columns.length)
  | some names => names.mapM fun name =>
    match t.columnIndex? name with
    | some i => .ok i
    | none => .error (.foreignColumn t.name name)

/-- Find the faults of a statement that can be told without its parameters. -/
def prepare (db : Database) : Statement → Except SqlError Unit
  | .select items table condition order => do
    let table ← table.mapM db.requireTable
    items.forM (checkSelected table)
    match condition with
    | some c => do
      c.left.check table
      c.right.check table
    | none => .ok ()
    match order with
    | some key => (Expr.column key.name key.place).check table
    | none => .ok ()
  | .create name place unlessExists _ _ =>
    if (db.table? name).isSome ∧ ¬unlessExists then .error (.tableExists name place) else .ok ()
  | .insert name columns rows => do
    let t ← db.requireTable name
    let target ← targetColumns t columns
    rows.forM fun row =>
      if row.length = target.length then row.forM (Expr.check none)
      else match columns with
        | none => .error (.wrongRowSize t.name target.length row.length)
        | some _ => .error (.wrongValueCount row.length target.length)
  | .attach .. => .ok ()

/-- What a row gives under the names of what is selected. -/
def selectedEntries (bindings : List Value) (table : Option Table) (row : List Value) :
    Selected → List (String × Value)
  | .all => match table with
    | some t => List.zipWith (fun c v => (c.name, v)) t.columns row
    | none => []
  | .expr e label source =>
    let name := match label, e with
      | some name, _ => name
      | none, .column name _ =>
        ((table.bind fun t => do t.columns[← t.columnIndex? name]?).map Column.name).getD name
      | none, _ => source
    [(name, e.eval bindings table row)]

/-- Sort rows by a column; equal ones keep their order. -/
def sortRows (t : Table) (key : SortKey) (rows : List Row) : List Row :=
  let valueOf (row : Row) : Value :=
    ((t.columnIndex? key.name).bind fun i => row.values[i]?).getD .null
  rows.mergeSort fun a b =>
    let o := (valueOf a).compare (valueOf b)
    if key.descending then o ≠ .lt else o ≠ .gt

/-- Carry out a prepared statement: the rows that it gives, and the database after it. -/
def run (db : Database) (bindings : List Value) :
    Statement → Except SqlError (List (List (String × Value)) × Database)
  | .select items none _ _ =>
    .ok ([items.flatMap (selectedEntries bindings none [])], db)
  | .select items (some name) condition order => do
    let t ← db.requireTable name
    let rows := match condition with
      | some c => t.rows.filter fun row => c.holds bindings (some t) row.values
      | none => t.rows
    let rows := match order with
      | some key => sortRows t key rows
      | none => rows
    .ok (rows.map fun row => items.flatMap (selectedEntries bindings (some t) row.values), db)
  | .create name _ _ columns text =>
    if (db.table? name).isSome then .ok ([], db)
    else .ok ([], ⟨db.tables ++ [Table.ofSpecs name text columns]⟩)
  | .insert name columns rows => do
    let t ← db.requireTable name
    let target ← targetColumns t columns
    let t ← rows.foldlM (fun (t : Table) row =>
      let values := row.map (Expr.eval bindings none [])
      let placed := (List.range t.columns.length).map fun i =>
        ((target.zip values).lookup i).getD .null
      t.add placed) t
    .ok ([], db.setTable t)
  | .attach .. => .ok ([], db)

end Database

end FlowGraph.Sql
