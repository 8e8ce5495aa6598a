import FlowGraph.Error

/-!
# The storage directory

File and database nodes work in one directory. A requested path counts only by its final
component, so nothing outside the directory can be named.
-/

namespace FlowGraph

/-- The parts of a path between slashes. -/
def pathParts : List Char → List (List Char)
  | [] => [[]]
  | c :: rest =>
    if c = '/' then [] :: pathParts rest
    else match pathParts rest with
      | [] => [[c]]
      | part :: parts => (c :: part) :: parts

/-- The final component of a path. Empty parts and `.` do not count; a path that ends with `..`
has none. -/
def fileName? (path : String) : Option String :=
  match ((pathParts path.toList).filter fun part => part ≠ [] ∧ part ≠ ['.']).getLast? with
  | none => none
  | some part => if part = ['.', '.'] then none else some (String.ofList part)

/-- A path extended by another. One that begins with a slash replaces it. -/
def joinPath (root name : String) : String :=
  if name.toList.head? = some '/' then name
  else if root = "" then name
  else if root.toList.getLast? = some '/' then root ++ name
  else root ++ "/" ++ name

/-- The directory that file and database nodes are confined to. -/
structure StorageRoot where
  path : String
deriving DecidableEq, Repr

namespace StorageRoot

/-- The file that a requested path stands for. -/
def resolve (root : StorageRoot) (requested : String) : Except NodeError String :=
  match fileName? requested with
  | some name => .ok (joinPath root.path name)
  | none => .error (.missingInput ("Invalid file path: " ++ requested))

end StorageRoot

end FlowGraph
