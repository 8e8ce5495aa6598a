import FlowGraph.Http.Client
import FlowGraph.Sql.Library
import FlowGraph.Time.Timestamp

/-!
# The world of the built-in executors

What nodes read and change: files, the time, and the peers beyond the machine. The peers and the
database library are known only by how they respond, which `Services` says.
-/

namespace FlowGraph

/-- A mail that a node hands over. -/
structure EmailMessage where
  recipient : String
  subject : String
  body : String
deriving DecidableEq, Repr

/-- Everything around the executors; `ν` is the state of the peers. -/
structure World (ν : Type) where
  files : FileSystem := {}
  clock : Timestamp
  peers : ν

/-- How peers respond. -/
structure Services (ν : Type) where
  exchange : Http.Exchange ν
  /-- Hand a mail over: its id, or why it is refused. -/
  deliver : EmailMessage → Timestamp → ν → Except NodeError String × ν
  /-- The library that opens databases. -/
  database : Sql.Library ν

/-- A mail service that delivers nothing and takes the time for the id. -/
def deliverNothing {ν : Type} (_ : EmailMessage) (now : Timestamp) (peers : ν) :
    Except NodeError String × ν :=
  (.ok ("msg_" ++ toString now.milliseconds), peers)

end FlowGraph
