import FlowGraph.Workflow.Kind

/-!
# Checking workflows

What is wrong with a workflow before it is run: faults that would make a run fail, and ends of
edges that lead nowhere and are passed over.
-/

namespace FlowGraph

/-- What would make a run fail. -/
inductive WorkflowFault where
  | noTrigger
  /-- A node has the id of one before it. -/
  | duplicateId (id : String)
  | badKind (nodeId : String) (failure : NodeError)
deriving DecidableEq, Repr

/-- An end of an edge that names no node. -/
structure DanglingEnd where
  edgeId : String
  nodeId : String
deriving DecidableEq, Repr

namespace WorkflowFault

/-- The fault in words. -/
def message : WorkflowFault → String
  | noTrigger => "Workflow must have at least one trigger node"
  | duplicateId id => "Duplicate node id: " ++ id
  | badKind nodeId failure => "Node " ++ nodeId ++ ": " ++ failure.message

end WorkflowFault

namespace DanglingEnd

/-- The end in words. -/
def message (d : DanglingEnd) : String :=
  "Edge " ++ d.edgeId ++ " references unknown node " ++ d.nodeId ++ "; it will be ignored"

end DanglingEnd

/-- The fault of a node's kind, if it has one. -/
def Node.kindFaults (node : Node) : List WorkflowFault :=
  match Kind.check node with
  | .ok () => []
  | .error failure => [.badKind node.id failure]

/-- The faults of nodes after those with the given ids. -/
def nodeFaults : List String → List Node → List WorkflowFault
  | _, [] => []
  | seen, node :: nodes =>
    (if seen.contains node.id then [.duplicateId node.id] else [])
      ++ node.kindFaults ++ nodeFaults (node.id :: seen) nodes

namespace Workflow

/-- The faults of a workflow, in the order of its nodes. -/
def faults (w : Workflow) : List WorkflowFault :=
  (if w.triggers.isEmpty then [.noTrigger] else []) ++ nodeFaults [] w.nodes

/-- The ends of edges that name no node, in the order of the edges, sources first. -/
def danglingEnds (w : Workflow) : List DanglingEnd :=
  w.edges.flatMap fun e =>
    ([e.source, e.target].filter fun id => (w.findNode? id).isNone).map fun id => ⟨e.id, id⟩

end Workflow

end FlowGraph
