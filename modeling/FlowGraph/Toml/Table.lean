import FlowGraph.Json.Draft

/-!
# Tables of a settings file

A TOML file defines tables piece by piece: by headers, by dotted keys and by inline values.
`TomlTable` is a table under construction, which remembers how it came about, because a table may
be extended only in the way in which it was begun: a header does not define a table twice, and
dotted keys do not extend a table that has a header. `toDraft` gives the finished table.
-/

namespace FlowGraph

/-- How a table came about. -/
inductive TomlOrigin where
  /-- By its own header. -/
  | header
  /-- By the header of a table inside it. -/
  | implied
  /-- By a dotted key. -/
  | dotted
deriving DecidableEq, Repr

/-- What a key stands for while a file is read. -/
inductive TomlItem where
  /-- A finished value. -/
  | value (x : Draft)
  | table (origin : TomlOrigin) (entries : List (String × TomlItem))
  /-- A list of tables, each with its own header. -/
  | tables (elements : List (List (String × TomlItem)))
deriving Inhabited

/-- A table under construction. -/
structure TomlTable where
  origin : TomlOrigin
  entries : Keyed TomlItem

namespace TomlTable

/-- A table without entries. -/
def empty (origin : TomlOrigin) : TomlTable := ⟨origin, []⟩

/-- Change the table that a path leads to from `t`. Missing tables on the way are made with the
given origin. `none` when something else than a table is on the way, or when dotted keys would
extend a table that has a header. -/
def descend (made : TomlOrigin) (change : TomlTable → Option TomlTable) :
    List String → TomlTable → Option TomlTable
  | [], t => change t
  | key :: path, t => do
    let item ← match Keyed.get? t.entries key with
      | none => do
        let child ← descend made change path (empty made)
        some (.table child.origin child.entries)
      | some (.table origin entries) =>
        if made = .dotted ∧ origin = .header then none
        else do
          let child ← descend made change path ⟨origin, entries⟩
          some (.table child.origin child.entries)
      | some (.tables elements) => match elements.getLast? with
        | none => none
        | some entries =>
          if made = .dotted then none
          else do
            let child ← descend made change path ⟨.header, entries⟩
            some (.tables (elements.dropLast ++ [child.entries]))
      | some (.value _) => none
    some { t with entries := Keyed.insert t.entries key item }

/-- Add a value under a dotted key. -/
def addValue (path : List String) (key : String) (x : Draft) (t : TomlTable) :
    Option TomlTable :=
  descend .dotted (fun table =>
    if (table.origin = .dotted) = path.isEmpty then none
    else if Keyed.contains table.entries key then none
    else some { table with entries := table.entries ++ [(key, .value x)] }) path t

mutual
/-- A finished item. -/
def itemDraft : TomlItem → Draft
  | .value x => x
  | .table _ entries => .object (entriesDraft entries) .closed
  | .tables elements => .list (elementsDraft elements) .closed

/-- Finished entries. -/
def entriesDraft : List (String × TomlItem) → List (Except TextFault String × Draft)
  | [] => []
  | (key, item) :: rest => (.ok key, itemDraft item) :: entriesDraft rest

/-- Finished elements of a list of tables. -/
def elementsDraft : List (List (String × TomlItem)) → List Draft
  | [] => []
  | entries :: rest => .object (entriesDraft entries) .closed :: elementsDraft rest
end

/-- The finished table. -/
def toDraft (t : TomlTable) : Draft := .object (entriesDraft t.entries) .closed

end TomlTable

/-- A file under construction: the tables that are finished, and the one that is being filled. -/
structure TomlFile where
  root : TomlTable := .empty .header
  /-- The path of the table being filled; empty for the root. -/
  path : List String := []
  /-- Whether that table is one of a list. -/
  listed : Bool := false
  current : TomlTable := .empty .header

namespace TomlFile

/-- Put the table being filled into its place. -/
def finishTable (file : TomlFile) : Option TomlFile :=
  match file.path.getLast? with
  | none => some { file with root := file.current }
  | some key => do
    let root ← TomlTable.descend .implied (fun parent =>
      match Keyed.get? parent.entries key with
      | none =>
        let item : TomlItem := if file.listed then .tables [file.current.entries]
          else .table file.current.origin file.current.entries
        some { parent with entries := parent.entries ++ [(key, item)] }
      | some (.tables elements) =>
        if file.listed then
          some { parent with
            entries := Keyed.insert parent.entries key
              (.tables (elements ++ [file.current.entries])) }
        else none
      | some _ => none) file.path.dropLast file.root
    some { file with root }

/-- What is already known of a table whose header comes now: nothing, or what the headers of
tables inside it implied. `none` when it is defined already. -/
def known? (key : String) (parent : TomlTable) : Option (Keyed TomlItem) :=
  match Keyed.get? parent.entries key with
  | none => some []
  | some (.table .implied entries) => some entries
  | some _ => none

/-- Begin the table of a header. -/
def beginTable (path : List String) (file : TomlFile) : Option TomlFile := do
  let file ← file.finishTable
  let key ← path.getLast?
  let parentPath := path.dropLast
  -- what is known is taken out of its place and put back when the table is finished
  let parent ← lookup parentPath file.root
  let entries ← known? key parent
  let root ← TomlTable.descend .implied
    (fun parent => some { parent with entries := Keyed.erase parent.entries key })
    parentPath file.root
  some { root, path, listed := false, current := ⟨.header, entries⟩ }
where
  /-- The table at a path, empty if nothing is there. -/
  lookup : List String → TomlTable → Option TomlTable
    | [], t => some t
    | key :: path, t =>
      match Keyed.get? t.entries key with
      | none => some (.empty .implied)
      | some (.table origin entries) => lookup path ⟨origin, entries⟩
      | some (.tables elements) => match elements.getLast? with
        | some entries => lookup path ⟨.header, entries⟩
        | none => none
      | some (.value _) => none

/-- Begin one more table of a list. -/
def beginListed (path : List String) (file : TomlFile) : Option TomlFile := do
  let file ← file.finishTable
  let key ← path.getLast?
  let _ ← TomlTable.descend .implied (fun parent =>
    match Keyed.get? parent.entries key with
    | none | some (.tables _) => some parent
    | some _ => none) path.dropLast file.root
  some { file with path, listed := true, current := .empty .header }

/-- Add a value under a dotted key to the table being filled. -/
def addValue (path : List String) (key : String) (x : Draft) (file : TomlFile) :
    Option TomlFile := do
  let current ← file.current.addValue path key x
  some { file with current }

end TomlFile

end FlowGraph
