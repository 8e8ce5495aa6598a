import FlowGraph.Storage.Root

/-!
# Files

The files that nodes and settings live in: directories and plain files, each at a `Location`, the
names that lead to it from the working directory. `FileSystem.locate` follows a path; the
operations on files are built on it, and `FileFault` says why one fails.
-/

namespace FlowGraph

/-- Why a file operation fails. -/
inductive FileFault where
  | notFound
  | taken
  | notDirectory
  | isDirectory
  | nameTooLong
  | nulByte
  | notText
deriving DecidableEq, Repr

/-- The fault in words. -/
def FileFault.message : FileFault → String
  | notFound => "No such file or directory (os error 2)"
  | taken => "File exists (os error 17)"
  | notDirectory => "Not a directory (os error 20)"
  | isDirectory => "Is a directory (os error 21)"
  | nameTooLong => "File name too long (os error 36)"
  | nulByte => "file name contained an unexpected NUL byte"
  | notText => "stream did not contain valid UTF-8"

/-- The names that lead to a place from the working directory. -/
abbrev Location := List String

/-- What is at a place. -/
inductive FileEntry where
  | directory
  | file (content : ByteArray)
deriving Inhabited

/-- All places that are taken. The working directory is always there. -/
structure FileSystem where
  entries : List (Location × FileEntry) := []
deriving Inhabited

namespace FileSystem

/-! ## Places -/

/-- What is at a place. -/
def entry? (fs : FileSystem) (place : Location) : Option FileEntry :=
  if place = [] then some .directory else fs.entries.lookup place

/-- Put an entry among others. -/
def setEntry (place : Location) (entry : FileEntry) :
    List (Location × FileEntry) → List (Location × FileEntry)
  | [] => [(place, entry)]
  | (p, e) :: rest =>
    if p = place then (p, entry) :: rest else (p, e) :: setEntry place entry rest

/-- Put something at a place. -/
def set (fs : FileSystem) (place : Location) (entry : FileEntry) : FileSystem :=
  ⟨setEntry place entry fs.entries⟩

/-- The names in a path, where empty parts and `.` do not count. -/
def pathNames (path : String) : List String :=
  ((pathParts path.toList).filter fun part => part ≠ [] ∧ part ≠ ['.']).map String.ofList

/-- Whether a path says that it leads to a directory. -/
def namesDirectory (path : String) : Bool :=
  match (pathParts path.toList).getLast? with
  | some part => part = [] || part = ['.']
  | none => false

/-- Follow names from a directory. The last one need not be there. -/
def follow (fs : FileSystem) : Location → List String → Except FileFault Location
  | here, [] => .ok here
  | here, name :: names =>
    if name = ".." then follow fs here.dropLast names
    else if 255 < name.utf8ByteSize then .error .nameTooLong
    else
      let place := here ++ [name]
      match names, fs.entry? place with
      | [], _ => .ok place
      | _ :: _, some .directory => follow fs place names
      | _ :: _, some _ => .error .notDirectory
      | _ :: _, none => .error .notFound

/-- The place that a path leads to. -/
def locate (fs : FileSystem) (path : String) : Except FileFault Location :=
  if path.toList.any fun c => c.toNat = 0 then .error .nulByte
  else if path = "" then .error .notFound
  else if 4096 ≤ path.utf8ByteSize then .error .nameTooLong
  else follow fs [] (pathNames path)

/-! ## Directories -/

/-- Make the directories that names lead through, from a directory that is there. -/
def makeFrom (fs : FileSystem) : Location → List String → Option FileFault × FileSystem
  | _, [] => (none, fs)
  | here, name :: names =>
    if name = ".." then makeFrom fs here.dropLast names
    else if 255 < name.utf8ByteSize then (some .nameTooLong, fs)
    else
      let place := here ++ [name]
      match fs.entry? place with
      | some .directory => makeFrom fs place names
      | some _ => (some (if names = [] then .taken else .notDirectory), fs)
      | none => makeFrom (fs.set place .directory) place names

/-- Make a directory and all those on the way to it. What was made stays, also when a later step
fails. -/
def makeDirectories (fs : FileSystem) (path : String) : Option FileFault × FileSystem :=
  if path.toList.any fun c => c.toNat = 0 then (some .nulByte, fs)
  else if 4096 ≤ path.utf8ByteSize then (some .nameTooLong, fs)
  else fs.makeFrom [] (pathNames path)

/-! ## Reading and writing -/

/-- The text of a file. -/
def readText (fs : FileSystem) (path : String) : Except FileFault String := do
  let place ← fs.locate path
  match fs.entry? place with
  | none => .error .notFound
  | some .directory => .error .isDirectory
  | some (.file content) =>
    if namesDirectory path then .error .notDirectory
    else match String.fromUTF8? content with
      | some text => .ok text
      | none => .error .notText

/-- Write a file, which is made if it is missing: in place of what it holds, or after it. -/
def write (fs : FileSystem) (path : String) (append : Bool) (content : ByteArray) :
    Except FileFault FileSystem := do
  let place ← fs.locate path
  match fs.entry? place with
  | some .directory => .error .isDirectory
  | none =>
    if namesDirectory path then .error .isDirectory else .ok (fs.set place (.file content))
  | some (.file old) =>
    if namesDirectory path then .error .notDirectory
    else .ok (fs.set place (.file (if append then old ++ content else content)))

/-- Put a file at a path together with the directories on the way to it, as far as that is
possible. -/
def plant (fs : FileSystem) (path : String) (content : ByteArray) : FileSystem :=
  let fs := (fs.makeFrom [] (pathNames path).dropLast).2
  match fs.write path false content with
  | .ok fs => fs
  | .error _ => fs

/-- All that is there, by path in the order of the paths. -/
def listing (fs : FileSystem) : List (String × FileEntry) :=
  (fs.entries.map fun (place, entry) => (String.intercalate "/" place, entry)).mergeSort
    fun a b => a.1 ≤ b.1

end FileSystem

end FlowGraph
