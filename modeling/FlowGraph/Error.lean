import FlowGraph.Workflow.Basic

/-!
# Failures

A `NodeError` is the failure of one node: it stays with the node and is routed along its error
edges. An `EngineError` ends a run or an operation of the engine. `message` gives each in words.
-/

namespace FlowGraph

/-- The failure of one node. -/
inductive NodeError where
  | missingInput (text : String)
  | invalidInputType (field expected actual : String)
  | unsupported (category : NodeType) (kind : String)
  | collaborator (text : String)
  | initialization (text : String)
  | cancelled
deriving DecidableEq, Repr, Inhabited

/-- Broad classes of node failures. -/
inductive ErrorClass where
  | inputValidation
  | configuration
  | collaborator
  | cancellation
deriving DecidableEq, Repr

namespace NodeError

/-- The failure in words. -/
def message : NodeError → String
  | missingInput text => text
  | invalidInputType field expected actual =>
    "Invalid input type for '" ++ field ++ "': expected " ++ expected ++ ", got " ++ actual
  | unsupported category kind => "Unsupported " ++ category.name ++ " type: " ++ kind
  | collaborator text => text
  | initialization text => "Executor initialization failed: " ++ text
  | cancelled => "Cancelled"

/-- The class of the failure. -/
def errorClass : NodeError → ErrorClass
  | missingInput _ | invalidInputType .. => .inputValidation
  | unsupported .. | initialization _ => .configuration
  | collaborator _ => .collaborator
  | cancelled => .cancellation

end NodeError

/-- The failure of a run as a whole or of an operation of the engine. -/
inductive EngineError where
  | noExecutor (nodeType : NodeType)
  | registryNotInitialized
  | initialization (nodeType : NodeType) (cause : NodeError)
  | noTriggerNode
  | cancelled
  | shuttingDown
  | executionLost (id : String)
  | shutdown (failures : List (NodeType × NodeError))
deriving DecidableEq, Repr, Inhabited

namespace EngineError

/-- The failure in words. -/
def message : EngineError → String
  | noExecutor nodeType => "No executor found for node type: " ++ nodeType.name
  | registryNotInitialized => "Executor registry is not initialized"
  | initialization nodeType cause =>
    "Failed to initialize " ++ nodeType.name ++ " executor: " ++ cause.message
  | noTriggerNode => "Workflow must have at least one trigger node"
  | cancelled => "Execution was cancelled"
  | shuttingDown => "Engine is shutting down"
  | executionLost id => "Execution " ++ id ++ " ended without a record"
  | shutdown failures =>
    "Executor shutdown reported " ++ toString failures.length ++ " error(s)"

/-- The failure of a node behind this one, if there is one. -/
def cause? : EngineError → Option NodeError
  | initialization _ cause => some cause
  | _ => none

end EngineError

end FlowGraph
