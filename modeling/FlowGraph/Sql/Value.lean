import FlowGraph.Json.Printer
import FlowGraph.Text.Utf8

/-!
# Values in a database

The values that nodes exchange with databases, and how JSON values become such values and back.
-/

namespace FlowGraph.Sql

/-- A value in a database. Texts are any bytes. -/
inductive Value where
  | null
  | integer (n : Int)
  | real (x : Double)
  | text (bytes : ByteArray)
  | blob (bytes : ByteArray)
deriving Inhabited

/-- The least and the greatest integer in a database. -/
def minInteger : Int := -Nat.pow 2 63
def maxInteger : Int := Nat.pow 2 63 - 1

/-- Whether an integer fits. -/
def isInteger (n : Int) : Bool := minInteger ≤ n && n ≤ maxInteger

namespace Value

/-- A text as a value. -/
def ofString (s : String) : Value := .text s.toUTF8

/-- A JSON value as a value of a database: integers that do not fit become reals, and lists and
objects their text. -/
def ofJson : Json → Value
  | .null => .null
  | .bool b => .integer (if b then 1 else 0)
  | .num (.int n) => if isInteger n then .integer n else .real (Double.ofInt n)
  | .num (.float x) => .real x
  | .str s => ofString s
  | v => ofString v.compact

/-- A value of a database as a JSON value: blobs are lists of bytes. -/
def toJson : Value → Json
  | .null => .null
  | .integer n => Json.ofInt n
  | .real x => Json.ofDouble x
  | .text bytes => .str (Text.lossyText bytes)
  | .blob bytes => .arr (bytes.toList.map fun b => Json.ofNat b.toNat)

end Value

end FlowGraph.Sql
