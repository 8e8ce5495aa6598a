import FlowGraph.Workflow.Basic

/-!
# Building workflows

Nodes and workflows put together piece by piece. A new node is labelled with its id; an edge's id
is made of its place and its ends.
-/

namespace FlowGraph

namespace InputSpec

/-- An input that a run must provide. -/
def mandatory (id : String) : InputSpec := { id, required := true }

/-- An input that a run may leave out. -/
def optional (id : String) : InputSpec := { id }

/-- The same input with a value to fall back on. -/
def withDefault (spec : InputSpec) (value : Json) : InputSpec :=
  { spec with fallback := some value }

end InputSpec

namespace Node

/-- A node without inputs, outputs or configuration. -/
def make (id : String) (nodeType : NodeType) : Node := { id, nodeType, label := id }

/-- Change the label. -/
def withLabel (node : Node) (label : String) : Node := { node with label }

/-- Set a configuration value. -/
def withConfig (node : Node) (key : String) (value : Json) : Node :=
  { node with config := Keyed.insert node.config key value }

/-- Choose the kind within the category. -/
def withKind (node : Node) (kind : String) : Node :=
  node.withConfig "type" (.str kind)

/-- Declare one more input. -/
def withInput (node : Node) (spec : InputSpec) : Node :=
  { node with inputs := node.inputs ++ [spec] }

/-- Declare one more output. -/
def withOutput (node : Node) (id : String) : Node :=
  { node with outputs := node.outputs ++ [{ id }] }

/-- Place the node in the editor. -/
def withPosition (node : Node) (x y : Single) : Node :=
  { node with position := some ⟨x, y⟩ }

end Node

namespace Workflow

/-- A workflow without nodes. -/
def make (id : String) : Workflow := { id }

/-- Change the name. -/
def withName (w : Workflow) (name : String) : Workflow := { w with name }

/-- Add a node at the end. -/
def addNode (w : Workflow) (node : Node) : Workflow :=
  { w with nodes := w.nodes ++ [node] }

/-- The edge that would be added next between two ids. -/
def nextEdge (w : Workflow) (source target : String) (kind : EdgeKind) : Edge :=
  { id := "e" ++ toString w.edges.length ++ "-" ++ source ++ "-" ++ target
    source, target, kind }

/-- Add an edge at the end. -/
def addEdge (w : Workflow) (source target : String) (kind : EdgeKind) : Workflow :=
  { w with edges := w.edges ++ [w.nextEdge source target kind] }

/-- Follow `source` by `target` when `source` succeeds. -/
def connect (w : Workflow) (source target : String) : Workflow :=
  w.addEdge source target .success

/-- Follow `source` by `target` when `source` fails. -/
def connectOnError (w : Workflow) (source target : String) : Workflow :=
  w.addEdge source target .failure

end Workflow

end FlowGraph
