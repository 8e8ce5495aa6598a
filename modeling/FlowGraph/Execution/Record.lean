import FlowGraph.Json.Basic
import FlowGraph.Time.Timestamp

/-!
# Records of runs

The record of a run moves from pending through running to one of three terminal statuses, and the
result of a node from running to success or error. Once there, later calls change nothing.
-/

namespace FlowGraph

/-- Where a run stands. -/
inductive ExecutionStatus where
  | pending
  | running
  | completed
  | failed
  | cancelled
deriving DecidableEq, Repr, Inhabited

namespace ExecutionStatus

/-- Whether the run is over. -/
def isTerminal : ExecutionStatus → Bool
  | completed | failed | cancelled => true
  | pending | running => false

/-- The name of the status. -/
def name : ExecutionStatus → String
  | pending => "pending"
  | running => "running"
  | completed => "completed"
  | failed => "failed"
  | cancelled => "cancelled"

end ExecutionStatus

/-- Where a node stands within a run. -/
inductive NodeStatus where
  | running
  | success
  | error
deriving DecidableEq, Repr, Inhabited

namespace NodeStatus

/-- The name of the status. -/
def name : NodeStatus → String
  | running => "running"
  | success => "success"
  | error => "error"

end NodeStatus

/-- What became of one node. -/
structure NodeResult where
  nodeId : String
  status : NodeStatus
  output : Option Fields
  error : Option String
  startedAt : Timestamp
  completedAt : Option Timestamp
  duration : Option Double
  /-- The place of the node in the order in which nodes were started. -/
  sequence : Nat
deriving DecidableEq, Repr, Inhabited

namespace NodeResult

/-- A node that has just been started. -/
def started (nodeId : String) (sequence : Nat) (now : Timestamp) : NodeResult where
  nodeId := nodeId
  status := .running
  output := none
  error := none
  startedAt := now
  completedAt := none
  duration := none
  sequence := sequence

/-- The node succeeded. Ignored unless it is running. -/
def succeed (r : NodeResult) (output : Fields) (duration : Double) (now : Timestamp) :
    NodeResult :=
  if r.status = .running then
    { r with
      status := .success
      output := some output
      duration := some duration
      completedAt := some now }
  else r

/-- The node failed. Ignored unless it is running. -/
def fail (r : NodeResult) (error : String) (duration : Double) (now : Timestamp) :
    NodeResult :=
  if r.status = .running then
    { r with
      status := .error
      error := some error
      duration := some duration
      completedAt := some now }
  else r

end NodeResult

/-- The record of a run. -/
structure Execution where
  id : String
  workflowId : String
  status : ExecutionStatus
  startedAt : Timestamp
  completedAt : Option Timestamp
  input : Fields
  /-- Results by node id. -/
  results : Keyed NodeResult
  error : Option String
deriving DecidableEq, Repr, Inhabited

namespace Execution

/-- The record of a run that has not begun. -/
def make (id workflowId : String) (input : Fields) (now : Timestamp) : Execution where
  id := id
  workflowId := workflowId
  status := .pending
  startedAt := now
  completedAt := none
  input := input
  results := []
  error := none

/-- The run has begun. -/
def markRunning (e : Execution) : Execution := { e with status := .running }

/-- The run is over. Ignored when it already was. -/
def finish (e : Execution) (status : ExecutionStatus) (error : Option String)
    (now : Timestamp) : Execution :=
  if e.status.isTerminal then e
  else { e with status, error, completedAt := some now }

/-- The result of a node. -/
def result? (e : Execution) (nodeId : String) : Option NodeResult :=
  Keyed.get? e.results nodeId

/-- Store the result of a node. -/
def setResult (e : Execution) (nodeId : String) (r : NodeResult) : Execution :=
  { e with results := Keyed.insert e.results nodeId r }

/-- The results in the order in which the nodes were started. -/
def orderedResults (e : Execution) : List NodeResult :=
  (e.results.map Prod.snd).mergeSort fun a b => a.sequence ≤ b.sequence

/-- The results in the order of the node ids. -/
def resultsById (e : Execution) : List (String × NodeResult) :=
  e.results.mergeSort fun a b => a.1 ≤ b.1

end Execution

/-- The id of a run, made of 128 random bits: version and variant bits have fixed values. -/
def executionId (random : Nat) : String :=
  let low := random % Nat.pow 2 62
  let middle := random / Nat.pow 2 62 % Nat.pow 2 12
  let high := random / Nat.pow 2 74 % Nat.pow 2 48
  let word := high * Nat.pow 2 80 + 4 * Nat.pow 2 76 + middle * Nat.pow 2 64 + 2 * Nat.pow 2 62 + low
  let digits := Nat.toDigits 16 word
  "exec_" ++ String.ofList (List.replicate (32 - digits.length) '0' ++ digits)

end FlowGraph
