import FlowGraph.Json.Basic

/-!
# Workflows

A workflow is a list of nodes and a list of directed edges between node ids. An edge is followed
after its source succeeded or after it failed, as its kind says. Edges may name ids that no node
has, and ids may repeat: `findNode?` takes the first node of an id, and `successors` skips edges
without a target.
-/

namespace FlowGraph

/-- The category of a node, which selects the executor that runs it. -/
inductive NodeType where
  | trigger
  | action
  | condition
  | transformation
  | modelCall
  | dataSource
  | output
deriving DecidableEq, Repr, Inhabited

namespace NodeType

/-- All categories, in the order in which their executors are started and stopped. -/
def all : List NodeType :=
  [trigger, action, condition, transformation, modelCall, dataSource, output]

/-- The name of the category. -/
def name : NodeType → String
  | trigger => "trigger"
  | action => "action"
  | condition => "condition"
  | transformation => "transformation"
  | modelCall => "model_call"
  | dataSource => "data_source"
  | output => "output"

/-- The names under which a category may be written; the last is an older name. -/
def spellings : List (String × NodeType) :=
  [("trigger", trigger), ("action", action), ("condition", condition),
    ("transformation", transformation), ("ai_model", modelCall), ("model_call", modelCall),
    ("data_source", dataSource), ("output", output)]

theorem mem_all (t : NodeType) : t ∈ all := by
  cases t <;> simp [all]

end NodeType

/-- Which outcome of its source an edge follows. -/
inductive EdgeKind where
  | success
  | failure
deriving DecidableEq, Repr, Inhabited

/-- A connection between two nodes, given by their ids. -/
structure Edge where
  id : String
  source : String
  target : String
  kind : EdgeKind
deriving DecidableEq, Repr, Inhabited

/-- A declared input of a node. -/
structure InputSpec where
  id : String
  valueType : String := "any"
  required : Bool := false
  fallback : Option Json := none
deriving DecidableEq, Repr, Inhabited

/-- A declared output of a node; only declared outputs are published. -/
structure OutputSpec where
  id : String
  valueType : String := "any"
deriving DecidableEq, Repr, Inhabited

/-- The place of a node in an editor. Runs do not read it. -/
structure Position where
  x : Single
  y : Single
deriving DecidableEq, Repr, Inhabited

/-- A node: its category, its declared inputs and outputs and its configuration. -/
structure Node where
  id : String
  nodeType : NodeType
  position : Option Position := none
  label : String := ""
  description : Option String := none
  inputs : List InputSpec := []
  outputs : List OutputSpec := []
  config : Fields := []
deriving DecidableEq, Repr, Inhabited

/-- A workflow: nodes and the edges between them. -/
structure Workflow where
  id : String
  name : String := ""
  description : Option String := none
  nodes : List Node := []
  edges : List Edge := []
deriving DecidableEq, Repr, Inhabited

namespace Node

/-- A configuration value. -/
def config? (node : Node) (key : String) : Option Json :=
  Keyed.get? node.config key

end Node

namespace Workflow

/-- The first node with an id. -/
def findNode? (w : Workflow) (id : String) : Option Node :=
  w.nodes.find? fun node => node.id = id

/-- The nodes where runs begin, in the order of their declaration. -/
def triggers (w : Workflow) : List Node :=
  w.nodes.filter fun node => node.nodeType = .trigger

/-- The nodes that follow `source` after the outcome `kind`, in the order of the edges. Edges
to unknown ids are skipped. -/
def successors (w : Workflow) (source : String) (kind : EdgeKind) : List Node :=
  (w.edges.filter fun e => e.source = source && e.kind = kind).filterMap
    fun e => w.findNode? e.target

/-- The name to show: the id when there is no name. -/
def displayName (w : Workflow) : String :=
  if w.name = "" then w.id else w.name

end Workflow

end FlowGraph
