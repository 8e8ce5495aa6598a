import FlowGraph.Sql.Library
import FlowGraph.Sql.Small.Database

/-!
# A small database library

`small` carries out the statements of `Statement`, for nodes that are tried out where no other
library is at hand. Nothing that is proved of nodes rests on it.

A database file begins with a mark and holds the statements that make the database anew.
-/

namespace FlowGraph.Sql

/-! ## Placeholders -/

namespace Query

/-- Bind by name. Placeholders without a value are `null`. -/
def bindNamed (parameters : List (Option String)) :
    List (String × Value) → List Value → Except SqlError (List Value)
  | [], bindings => .ok bindings
  | (name, v) :: rest, bindings =>
    match parameters.findIdx? (· = some name) with
    | some i => bindNamed parameters rest (bindings.set i v)
    | none => .error (.unknownParameter name)

/-- The values of a query's placeholders. Of too many values only one too many is counted. -/
def bind (q : Query) : Bindings → Except SqlError (List Value)
  | .named values => bindNamed q.parameters values (q.parameters.map fun _ => .null)
  | .listed values =>
    let needed := q.parameters.length
    if values.length = needed then .ok values
    else .error (.parameterCount (min values.length (needed + 1)) needed)

end Query

/-! ## Files -/

/-- Bytes as a literal. -/
def hexLiteral (bytes : ByteArray) : String :=
  let digits := bytes.toList.flatMap fun b =>
    [Json.hexDigit (b.toNat / 16), Json.hexDigit (b.toNat % 16)]
  "x'" ++ String.ofList digits ++ "'"

/-- A value as an expression. -/
def Value.source : Value → String
  | null => "NULL"
  | integer n => toString n
  | real x =>
    match x.value with
    | .infinite negative => if negative then "-9e999" else "9e999"
    | _ => (Json.ofDouble x).compact
  | text bytes => "CAST(" ++ hexLiteral bytes ++ " AS TEXT)"
  | blob bytes => hexLiteral bytes

/-- The statements that make a table anew. -/
def Table.script (t : Table) : List String :=
  let name := "\"" ++ t.name.replace "\"" "\"\"" ++ "\""
  t.text :: t.rows.map fun row =>
    "INSERT INTO " ++ name ++ " VALUES (" ++ String.intercalate ", " (row.values.map Value.source)
      ++ ")"

/-- How a database file begins. -/
def fileMark : List UInt8 := "SQLite format 3\x00".toUTF8.toList ++ [0xFF]

namespace Database

/-- The content of the file of a database. -/
def toFile (db : Database) : ByteArray :=
  let script := String.intercalate "\x00" (db.tables.flatMap Table.script)
  ⟨(fileMark ++ script.toUTF8.toList ++ [0xFF]).toArray⟩

/-- Carry out a statement of a script. -/
def replay (db : Database) (text : String) : Option Database := do
  let q ← (Query.read text).toOption
  let (_, db) ← (db.run [] (← q.statement)).toOption
  some db

/-- The database in a file, if the file holds one: an empty file holds an empty one. What stands
after the script is not part of it. -/
def ofFile? (content : ByteArray) : Option Database :=
  let bytes := content.toList
  if bytes.isEmpty then some {}
  else if fileMark.isPrefixOf bytes then do
    let script := (bytes.drop fileMark.length).takeWhile (· ≠ 0xFF)
    let text ← String.fromUTF8? ⟨script.toArray⟩
    (text.splitOn "\x00").foldlM replay {}
  else none

end Database

/-- The place of a file, which is made if it is missing. -/
def openFile? (fs : FileSystem) (path : String) : Option (Location × FileSystem) :=
  match fs.locate path with
  | .error _ => none
  | .ok place =>
    match fs.entry? place with
    | some .directory => none
    | some (.file _) => some (place, fs)
    | none => some (place, fs.set place (.file .empty))

/-- The database at a place, if there is one. -/
def databaseAt? (fs : FileSystem) (place : Location) : Option Database :=
  match fs.entry? place with
  | some (.file content) => Database.ofFile? content
  | _ => none

/-- Store a database in its file. A database without tables leaves the file as it is. -/
def storeDatabase (fs : FileSystem) (place : Location) (db : Database) : FileSystem :=
  if db.tables.isEmpty then fs else fs.set place (.file db.toFile)

/-- Open the file of a request. -/
def openRequested (fs : FileSystem) (path : String) : Except SqlError (Location × FileSystem) :=
  let before := path.toList.takeWhile (·.toNat ≠ 0)
  if before.length < path.toList.length then
    .error (.nulByte (String.ofList before).utf8ByteSize)
  else match openFile? fs path with
    | some opened => .ok opened
    | none => .error (.cannotOpen path)

/-- Open another file. Two names stand for databases without a file. -/
def openAttached (fs : FileSystem) (path : String) : Except SqlError FileSystem :=
  if path = "" ∨ path = ":memory:" then .ok fs
  else match openFile? fs path with
    | none => .error (.cannotAttach path)
    | some (place, fs) => if (databaseAt? fs place).isSome then .ok fs else .error .notADatabase

/-! ## Requests -/

/-- Rows by their columns. -/
def ResultSet.ofRows (rows : List (List (String × Value))) : ResultSet where
  columns := ((rows.head?).getD []).map Prod.fst
  rows := rows.map fun row => row.map Prod.snd

/-- Carry out a query on a database file that is open. A query that fails leaves what the database
holds as it was. -/
def carryOut (place : Location) (fs : FileSystem) (text : String) (bindings : Bindings) :
    Except SqlError (ResultSet × FileSystem) := do
  let q ← Query.read text
  match q.statement with
  | none =>
    let _ ← q.bind bindings
    .error .blank
  | some s =>
    let content := databaseAt? fs place
    let db ← match content with
      | some db => .ok db
      | none => if Database.usesTables s then .error .notADatabase else .ok {}
    db.prepare s
    let values ← q.bind bindings
    let (rows, after) ← db.run values s
    let fs ← match s with
      | .attach path _ => match (path.eval values none []).toText with
        | .text bytes => openAttached fs (Text.lossyText bytes)
        | _ => openAttached fs ""
      | _ => .ok (if content.isSome then storeDatabase fs place after else fs)
    .ok (.ofRows rows, fs)

/-- The keywords, names and symbols of a text, in capitals. -/
def words : Nat → List Char → List String
  | 0, _ => []
  | fuel + 1, text =>
    match Token.next? text with
    | some t => t.upper :: words fuel t.rest
    | none => []

/-- Whether a query reads a table that goes on from each row to another without a condition or a
limit: it never comes to its end. -/
def isEndless (text : String) : Bool :=
  match words text.toList.length text.toList with
  | "WITH" :: "RECURSIVE" :: rest =>
    let next := (rest.dropWhile (· ≠ "UNION")).takeWhile (· ≠ ")")
    ["UNION", "ALL", "SELECT"].isPrefixOf next && !next.contains "WHERE" && !rest.contains "LIMIT"
  | _ => false

/-- The small library. -/
def small {ν : Type} : Library ν where
  underWay r fs peers :=
    match openRequested fs r.path with
    | .ok (_, fs) => if isEndless r.query then some (fs, peers) else none
    | .error _ => none
  answer r fs peers :=
    let refused (e : SqlError) : Except LibraryFault ResultSet :=
      .error (.refused (e.message r.query))
    match openRequested fs r.path with
    | .error e => (refused e, fs, peers)
    | .ok (place, fs) =>
      match carryOut place fs r.query r.bindings with
      | .error e => (refused e, fs, peers)
      | .ok (result, fs) => (.ok result, fs, peers)

end FlowGraph.Sql
