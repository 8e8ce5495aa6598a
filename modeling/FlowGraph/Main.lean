import FlowGraph.CommandLine.Program
import FlowGraph.Sql.Small.Library
import Std.Time.DateTime.Timestamp

/-!
# The program `graphflow`

Takes from the machine what a command line needs, carries the command out, and puts back the
files that it made or changed. There is no network here: every peer counts as out of reach, and
mails are only numbered. Databases are those of the small library.
-/

namespace FlowGraph.CommandLine.Terminal

/-- Files taken from the machine, with the paths that their places were found under. -/
structure Taken where
  files : FileSystem := {}
  paths : List (Location × String) := []

/-- Take what is at a path, if anything is. -/
def takeEntry (taken : Taken) (place : Location) (path : String) : IO Taken := do
  let entry : IO.FS.DirEntry := { root := path, fileName := "" }
  let paths := (place, path) :: taken.paths
  if ← entry.root.isDir then
    return { files := taken.files.set place .directory, paths }
  else if ← entry.root.pathExists then
    return { files := taken.files.set place (.file (← IO.FS.readBinFile path)), paths }
  else return { taken with paths }

/-- Take what is at a path and at the directories on the way to it. -/
def takePath (taken : Taken) (path : String) : IO Taken := do
  let start := if path.startsWith "/" then "/" else ""
  let (taken, _, _) ← (FileSystem.pathNames path).foldlM (fun (taken, place, path) name => do
    let path := joinPath path name
    if name = ".." then return (taken, place.dropLast, path)
    else return (← takeEntry taken (place ++ [name]) path, place ++ [name], path))
    (taken, ([] : Location), start)
  return taken

/-- Take a directory with the files in it. -/
def takeDirectory (taken : Taken) (path : String) : IO Taken := do
  let taken ← takePath taken path
  let entry : IO.FS.DirEntry := { root := path, fileName := "" }
  if ← entry.root.isDir then
    (← entry.root.readDir).foldlM (fun taken e => takePath taken (joinPath path e.fileName)) taken
  else return taken

/-- The path of a place on the machine. -/
def pathOf (taken : Taken) (place : Location) : String :=
  match taken.paths.find? fun known => known.1.isPrefixOf place with
  | some (start, path) => (place.drop start.length).foldl joinPath path
  | none => String.intercalate "/" place

/-- Put back what was made or changed. -/
def putBack (taken : Taken) (files : FileSystem) : IO Unit :=
  files.entries.forM fun (place, entry) => do
    match entry, taken.files.entry? place with
    | .directory, some .directory => return ()
    | .directory, _ => IO.FS.createDirAll (pathOf taken place)
    | .file content, some (.file before) =>
      if content.data ≠ before.data then IO.FS.writeBinFile (pathOf taken place) content
    | .file content, _ => IO.FS.writeBinFile (pathOf taken place) content

/-- The variables of the environment that settings are read from. -/
def settingNames : List String :=
  ["GRAPHFLOW_MAX_CONCURRENT_EXECUTIONS", "GRAPHFLOW_EXECUTION_TIMEOUT_SECONDS",
    "GRAPHFLOW_STORAGE_PATH", "GRAPHFLOW_MODEL_API_URL", "GRAPHFLOW_MODEL_API_KEY"]

/-- Take the files that a command works with. -/
def takeFor (lookup : String → Option String) : Command → IO Taken
  | .run file _ config _ => do
    let taken ← takePath {} file
    let taken ← match config with
      | some path => takePath taken path
      | none => return taken
    let read (path : String) : Except String String :=
      (taken.files.readText path).mapError FileFault.message
    match Settings.load read lookup config with
    | .ok s => takeDirectory taken s.executors.storagePath
    | .error _ => return taken
  | .validate file => takePath {} file
  | .nodes => return {}
  | .init path => takePath {} path

/-- The time. -/
def now : IO Timestamp := do
  let t ← Std.Time.Timestamp.now
  return ⟨t.val.second.val, t.val.nano.val.toNat⟩

/-- Services of a machine without a network. -/
def services : Services Unit where
  exchange _ peers := (none, peers)
  deliver := deliverNothing
  database := Sql.small

/-- More looks at a run than anybody waits for. -/
def patience : Nat := Nat.pow 2 64

end FlowGraph.CommandLine.Terminal

open FlowGraph FlowGraph.CommandLine in
/-- Carry out the command line. -/
def main (args : List String) : IO UInt32 := do
  let found ← Terminal.settingNames.filterMapM fun name => do
    return (← IO.getEnv name).map fun value => (name, value)
  let environment (name : String) : Option String := found.lookup name
  let taken ← match Command.ofArguments args with
    | .ok command => Terminal.takeFor environment command
    | .error _ => pure {}
  let bytes ← IO.getRandomBytes 16
  let random := bytes.toList.foldl (fun n b => n * 256 + b.toNat) 0
  let world : World Unit := { files := taken.files, clock := ← Terminal.now, peers := () }
  let (t, after) := perform Terminal.services ⟨args, environment, random, Terminal.patience⟩
    world
  Terminal.putBack taken after.files
  IO.print t.output
  IO.eprint t.errors
  return UInt32.ofNat t.code
