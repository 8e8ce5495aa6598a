import FlowGraph.NodeInputs
import FlowGraph.Settings
import FlowGraph.Sql.Library

/-!
# Nodes that use the storage directory

Nodes that read and write files and that query databases. What they open is the storage directory
extended by one name, whatever path is asked for; what else a query opens is up to the database
library.
-/

namespace FlowGraph

/-- The directory of a node's files. -/
def ExecutorSettings.storage (s : ExecutorSettings) : StorageRoot := ⟨s.storagePath⟩

namespace Builtin

/-! ## Files -/

/-- The file that a node asks for, and the path that it opens. -/
def filePath (s : ExecutorSettings) (inputs : NodeInputs) : Except NodeError (String × String) := do
  let requested ← inputs.requireText "path" "File path is required"
  let path ← s.storage.resolve requested
  .ok (requested, path)

/-- Read a file. -/
def readFile (s : ExecutorSettings) (inputs : NodeInputs) (fs : FileSystem) :
    Except NodeError Fields := do
  let (requested, path) ← filePath s inputs
  match fs.readText path with
  | .ok text =>
    .ok [("size", Json.ofNat text.utf8ByteSize), ("content", .str text), ("path", .str requested)]
  | .error fault =>
    .error (.collaborator ("Failed to read file " ++ path ++ ": " ++ fault.message))

/-- What a node writes, and where. -/
structure FileWrite where
  path : String
  content : String
  append : Bool
deriving DecidableEq, Repr

/-- The write that a node asks for. -/
def fileWrite (s : ExecutorSettings) (node : Node) (inputs : NodeInputs) :
    Except NodeError FileWrite := do
  let requested ← inputs.requireText "path" "File path is required"
  let content ← inputs.require "content" "Content is required"
  let append := match node.config? "append" with
    | some v => v.truthy
    | none => false
  let path ← s.storage.resolve requested
  .ok ⟨path, content.display, append⟩

/-- Write a file. -/
def writeFile (s : ExecutorSettings) (node : Node) (inputs : NodeInputs) (fs : FileSystem) :
    Except NodeError Fields × FileSystem :=
  match fileWrite s node inputs with
  | .error e => (.error e, fs)
  | .ok w =>
    match fs.write w.path w.append w.content.toUTF8 with
    | .ok fs =>
      (.ok [("success", .bool true), ("path", .str w.path),
        ("size", Json.ofNat w.content.utf8ByteSize)], fs)
    | .error fault =>
      (.error (.collaborator ("Failed to write file " ++ w.path ++ ": " ++ fault.message)), fs)

/-! ## Databases -/

/-- The request that a node makes. The node's configuration may name another database than the
settings. -/
def databaseRequest (s : ExecutorSettings) (node : Node) (inputs : NodeInputs) :
    Except NodeError Sql.Request := do
  let query ← inputs.requireText "query" "Query is required for database query"
  let file := ((node.config? "database").bind Json.asText?).getD s.databaseFile
  let path ← s.storage.resolve file
  .ok ⟨path, query, .ofJson (inputs.get? "parameters")⟩

/-- The output of a query. -/
def queryOutput : Except Sql.LibraryFault Sql.ResultSet → Except NodeError Fields
  | .ok result => .ok [("count", Json.ofNat result.rows.length),
      ("results", .arr (result.objects.map .obj))]
  | .error fault => .error (.collaborator fault.message)

/-- Query a database; the request that is made of the library is over. -/
def queryDatabase {ν : Type} (library : Sql.Library ν) (s : ExecutorSettings) (node : Node)
    (inputs : NodeInputs) (fs : FileSystem) (peers : ν) :
    Except NodeError Fields × FileSystem × ν :=
  match databaseRequest s node inputs with
  | .error e => (.error e, fs, peers)
  | .ok request =>
    let (result, after) := library.answer request fs peers
    (queryOutput result, after)

end Builtin

end FlowGraph
