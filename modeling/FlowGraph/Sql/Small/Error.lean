/-!
# Failures in the small library

`SqlError.message` gives a failure in words; some failures quote the query and the place in it
that they are about.
-/

namespace FlowGraph.Sql

/-- Why a query fails. Places are counted in bytes. -/
inductive SqlError where
  | syntaxFault (token : String) (place : Nat)
  | unknownToken (token : String) (place : Nat)
  /-- The query ends too early. -/
  | incomplete
  /-- The query says nothing. -/
  | blank
  | missingTable (name : String)
  | missingColumn (name : String) (place : Nat)
  | tableExists (name : String) (place : Nat)
  /-- All columns are asked for, but of no table. -/
  | noTables
  | foreignColumn (table column : String)
  | wrongRowSize (table : String) (columns values : Nat)
  | wrongValueCount (values columns : Nat)
  | repeatedKey (table column : String)
  | wrongKeyType
  | unknownParameter (name : String)
  | parameterCount (given needed : Nat)
  | notADatabase
  | cannotOpen (path : String)
  | cannotAttach (path : String)
  | nulByte (place : Nat)
deriving DecidableEq, Repr

namespace SqlError

/-- The failure of a query in words. -/
def message (query : String) : SqlError → String
  | syntaxFault token place => "near \"" ++ token ++ "\": syntax error" ++ inQuery place
  | unknownToken token place => "unrecognized token: \"" ++ token ++ "\"" ++ inQuery place
  | incomplete => "incomplete input"
  | blank => "not an error"
  | missingTable name => "no such table: " ++ name
  | missingColumn name place => "no such column: " ++ name ++ inQuery place
  | tableExists name place => "table " ++ name ++ " already exists" ++ inQuery place
  | noTables => "no tables specified"
  | foreignColumn table column => "table " ++ table ++ " has no column named " ++ column
  | wrongRowSize table columns values =>
    "table " ++ table ++ " has " ++ toString columns ++ " columns but " ++ toString values
      ++ " values were supplied"
  | wrongValueCount values columns =>
    toString values ++ " values for " ++ toString columns ++ " columns"
  | repeatedKey table column => "UNIQUE constraint failed: " ++ table ++ "." ++ column
  | wrongKeyType => "datatype mismatch"
  | unknownParameter name => "Invalid parameter name: " ++ name
  | parameterCount given needed =>
    "Wrong number of parameters passed to query. Got " ++ toString given ++ ", needed "
      ++ toString needed
  | notADatabase => "file is not a database"
  | cannotOpen path => "unable to open database file: " ++ path
  | cannotAttach path => "unable to open database: " ++ path
  | nulByte place => "nul byte found in provided data at position: " ++ toString place
where
  /-- The place that a message is about. -/
  inQuery (place : Nat) : String := " in " ++ query ++ " at offset " ++ toString place

end SqlError

end FlowGraph.Sql
