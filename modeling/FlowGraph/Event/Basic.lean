import FlowGraph.Execution.Record
import FlowGraph.Workflow.Basic

/-!
# Events of runs

What observers of a run are told: when it starts and ends, when its nodes start, succeed and
fail, and what the nodes report of themselves.
-/

namespace FlowGraph

/-- A report of a node about itself. -/
inductive NodeEvent where
  | info (message : String)
  | warning (message : String)
deriving DecidableEq, Repr, Inhabited

/-- What happened in a run. -/
inductive ExecutionEvent where
  | executionStarted (executionId workflowId : String) (timestamp : Timestamp)
  | executionFinished (executionId : String) (status : ExecutionStatus) (durationMs : Nat)
      (timestamp : Timestamp)
  | nodeStarted (executionId nodeId : String) (nodeType : NodeType) (timestamp : Timestamp)
  | nodeCompleted (executionId nodeId : String) (durationMs : Nat) (timestamp : Timestamp)
  | nodeFailed (executionId nodeId error : String) (timestamp : Timestamp)
  | nodeEvent (executionId nodeId : String) (event : NodeEvent) (timestamp : Timestamp)
deriving DecidableEq, Repr, Inhabited

namespace ExecutionEvent

/-- The run that an event belongs to. -/
def executionId : ExecutionEvent → String
  | executionStarted id .. | executionFinished id .. | nodeStarted id .. | nodeCompleted id ..
  | nodeFailed id .. | nodeEvent id .. => id

end ExecutionEvent

/-- A handle for reports about a node of a run. It is made for whatever node its maker names, and
whoever has it may use it at any time. -/
structure Emitter where
  executionId : String
  nodeId : String
deriving DecidableEq, Repr

/-- What is sent when something is reported through an emitter. -/
def Emitter.event (emitter : Emitter) (report : NodeEvent) (now : Timestamp) : ExecutionEvent :=
  .nodeEvent emitter.executionId emitter.nodeId report now

end FlowGraph
