import FlowGraph.Keyed
import FlowGraph.Sql.Value
import FlowGraph.Storage.Files

/-!
# Database libraries

What a node hands to the library that opens its database, and what it gets back. How queries are
carried out is the library's business: all that is known of a `Library` is what is assumed of it.
-/

namespace FlowGraph.Sql

/-! ## Requests -/

/-- The values for the placeholders of a query, by their names or in their order. -/
inductive Bindings where
  | named (values : List (String × Value))
  | listed (values : List Value)

/-- The placeholder that a name means: a colon is put before it unless it has a mark. -/
def parameterName (name : String) : String :=
  match name.toList with
  | c :: _ => if c = ':' ∨ c = '@' ∨ c = '$' then name else ":" ++ name
  | [] => ":"

/-- The values that a node gives: an object binds by name, a list in its order, and anything else
is no values. -/
def Bindings.ofJson : Option Json → Bindings
  | some (.obj fields) => named (fields.map fun field => (parameterName field.1, .ofJson field.2))
  | some (.arr items) => listed (items.map .ofJson)
  | _ => listed []

/-- A query, and the path of the database that it is for. -/
structure Request where
  path : String
  query : String
  bindings : Bindings

/-! ## Answers -/

/-- The rows that a query gives, each with a value for every column. -/
structure ResultSet where
  columns : List String
  rows : List (List Value)

/-- The rows as objects. A name that several columns have stands for the last of them. -/
def ResultSet.objects (r : ResultSet) : List Fields :=
  r.rows.map fun row => Keyed.ofEntries (List.zipWith (fun c v => (c, v.toJson)) r.columns row)

/-- Why a library gives no rows. -/
inductive LibraryFault where
  /-- It refuses the query or gives up on it, and says why. -/
  | refused (message : String)
  /-- It breaks down. -/
  | broken (message : String)
deriving DecidableEq, Repr

/-- The fault in words. -/
def LibraryFault.message : LibraryFault → String
  | refused message => "Database query failed: " ++ message
  | broken message => "Database task failed: " ++ message

/-- A database library among peers of type `ν`. It opens what it likes. -/
structure Library (ν : Type) where
  /-- Look at a request: while it is under way, the files and peers as they are by now, and nothing
  when it is over. -/
  underWay : Request → FileSystem → ν → Option (FileSystem × ν)
  /-- The answer to a request that is over. -/
  answer : Request → FileSystem → ν → Except LibraryFault ResultSet × FileSystem × ν

/-- A library that opens nothing. -/
def Library.absent {ν : Type} : Library ν where
  underWay _ _ _ := none
  answer _ fs peers := (.error (.refused "unable to open database file"), fs, peers)

end FlowGraph.Sql
