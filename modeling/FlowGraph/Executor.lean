import FlowGraph.Context
import FlowGraph.Event.Basic
import FlowGraph.Registry

/-!
# Executors

An executor serves all nodes of one category. A call hands it a node, the node's inputs and the
context of the run; until the call is over it is a process, which makes progress when it is
polled: it may report events, ask for its own run to be cancelled, and change the world that
all executors share.
-/

namespace FlowGraph

/-- What an executor is called with. -/
structure ExecutorCall where
  node : Node
  inputs : NodeInputs
  context : Context
deriving DecidableEq, Repr

/-- How a call ends. -/
inductive CallOutcome where
  /-- With the node's output, or its failure. -/
  | answered (answer : Except NodeError Fields)
  /-- With a defect of the executor, which ends the run. -/
  | crashed

/-- What a process did when it was polled. -/
structure Progress (π : Type) where
  /-- What it reported of the node that it was called for. -/
  events : List NodeEvent := []
  /-- Whether it asked for the run to be cancelled. -/
  cancels : Bool := false
  /-- The process as it goes on, or how it ended. -/
  state : π ⊕ CallOutcome

/-- Executors of type `ε` whose calls are processes of type `π`, in a world of type `ω`. -/
structure Executors (ε π ω : Type) where
  hooks : Lifecycle ε ω
  /-- The time in a world. -/
  now : ω → Timestamp
  /-- Begin a call. -/
  begin : ε → ExecutorCall → π
  /-- Let a process go on; the flag says whether its run is cancelled. -/
  poll : π → Bool → ω → Progress π × ω

/-- Executors that answer every call at once, with an empty output. -/
def Executors.prompt : Executors Unit Unit Unit where
  hooks := ⟨fun e world => (none, e, world), fun e world => (none, e, world)⟩
  now _ := default
  begin _ _ := ()
  poll _ _ world := ({ state := .inr (.answered (.ok [])) }, world)

end FlowGraph
