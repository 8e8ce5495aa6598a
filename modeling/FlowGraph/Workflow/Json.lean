import FlowGraph.Json.Decode
import FlowGraph.Json.Reader
import FlowGraph.Workflow.Basic

/-!
# Workflows as JSON

`Workflow.toJson` writes a workflow and `Workflow.ofDraft` reads one, from a value or from a
text. Optional parts that are absent are left out when written and may be left out when read.
-/

namespace FlowGraph

/-- A field that is written only when there is a value. -/
def optionalField (key : String) : Option Json → List (String × Json)
  | some v => [(key, v)]
  | none => []

namespace NodeType

/-- The category as a value. -/
def toJson (t : NodeType) : Json := .str t.name

/-- Read a category. -/
def ofDraft (dialect : Dialect) (x : Draft) : Decoded NodeType :=
  x.toVariant dialect spellings

end NodeType

namespace EdgeKind

/-- The name of the kind. -/
def name : EdgeKind → String
  | success => "default"
  | failure => "error"

/-- The names under which a kind may be written. -/
def spellings : List (String × EdgeKind) :=
  [("default", success), ("success", success), ("error", failure)]

/-- The kind as a value. -/
def toJson (k : EdgeKind) : Json := .str k.name

/-- Read a kind. -/
def ofDraft (dialect : Dialect) (x : Draft) : Decoded EdgeKind :=
  x.toVariant dialect spellings

end EdgeKind

namespace Edge

/-- The edge as a value. -/
def toJson (e : Edge) : Json :=
  .obj [("id", .str e.id), ("source", .str e.source), ("target", .str e.target),
    ("type", e.kind.toJson)]

/-- Read an edge. -/
def ofDraft : Dialect → Draft → Decoded Edge :=
  let text := fun (_ : Dialect) (x : Draft) => x.toText
  (((Record.field "id" text .required).and
      ((Record.field "source" text .required).and
        ((Record.field "target" text .required).and
          (Record.field "type" EdgeKind.ofDraft (.anywhere .success))))).map
    fun (id, source, target, kind) => Edge.mk id source target kind).decode "struct Edge"

end Edge

namespace InputSpec

/-- The declaration as a value. -/
def toJson (spec : InputSpec) : Json :=
  .obj ([("id", .str spec.id), ("type", .str spec.valueType),
    ("required", .bool spec.required)] ++ optionalField "default" spec.fallback)

/-- Read a declaration. -/
def ofDraft : Dialect → Draft → Decoded InputSpec :=
  (((Record.field "id" (fun _ x => x.toText) .required).and
      ((Record.field "type" (fun _ x => x.toText) (.anywhere "any")).and
        ((Record.field "required" (fun _ x => x.toBool) (.anywhere false)).and
          (Record.field "default" (fun _ x => x.toOption Draft.toJson)
            (.anywhere none))))).map
    fun (id, valueType, required, fallback) =>
      InputSpec.mk id valueType required fallback).decode "struct InputSpec"

end InputSpec

namespace OutputSpec

/-- The declaration as a value. -/
def toJson (spec : OutputSpec) : Json :=
  .obj [("id", .str spec.id), ("type", .str spec.valueType)]

/-- Read a declaration. -/
def ofDraft : Dialect → Draft → Decoded OutputSpec :=
  (((Record.field "id" (fun _ x => x.toText) .required).and
      (Record.field "type" (fun _ x => x.toText) (.anywhere "any"))).map
    fun (id, valueType) => OutputSpec.mk id valueType).decode "struct OutputSpec"

end OutputSpec

namespace Position

/-- The position as a value; a coordinate beyond all numbers is `null`. -/
def toJson (p : Position) : Json :=
  .obj [("x", Json.ofDouble p.x.toDouble), ("y", Json.ofDouble p.y.toDouble)]

/-- Read a position. -/
def ofDraft : Dialect → Draft → Decoded Position :=
  (((Record.field "x" (fun _ x => x.toSingle) .required).and
      (Record.field "y" (fun _ x => x.toSingle) .required)).map
    fun (x, y) => Position.mk x y).decode "struct Position"

end Position

namespace Node

/-- The part of a node that describes what it does. -/
structure Payload where
  label : String
  description : Option String
  inputs : List InputSpec
  outputs : List OutputSpec
  config : Fields

/-- Read the part of a node that describes what it does. -/
def Payload.ofDraft : Dialect → Draft → Decoded Payload :=
  (((Record.field "label" (fun _ x => x.toText) (.anywhere "")).and
      ((Record.field "description" (fun _ x => x.toOption Draft.toText) (.anywhere none)).and
        ((Record.field "inputs" (fun d x => x.toList (InputSpec.ofDraft d)) (.anywhere [])).and
          ((Record.field "outputs" (fun d x => x.toList (OutputSpec.ofDraft d))
              (.anywhere [])).and
            (Record.field "config" (fun _ x => x.toFields) (.anywhere [])))))).map
    fun (label, description, inputs, outputs, config) =>
      Payload.mk label description inputs outputs config).decode "struct NodeData"

/-- The node as a value. -/
def toJson (node : Node) : Json :=
  .obj ([("id", .str node.id), ("type", node.nodeType.toJson)]
    ++ optionalField "position" (node.position.map Position.toJson)
    ++ [("data", .obj ([("label", .str node.label)]
      ++ optionalField "description" (node.description.map .str)
      ++ [("inputs", .arr (node.inputs.map InputSpec.toJson)),
        ("outputs", .arr (node.outputs.map OutputSpec.toJson)),
        ("config", .obj node.config)]))])

/-- Read a node. -/
def ofDraft : Dialect → Draft → Decoded Node :=
  (((Record.field "id" (fun _ x => x.toText) .required).and
      ((Record.field "type" NodeType.ofDraft .required).and
        ((Record.field "position" (fun d x => x.toOption (Position.ofDraft d))
            (.anywhere none)).and
          (Record.field "data" Payload.ofDraft .required)))).map
    fun (id, nodeType, position, data) =>
      { id, nodeType, position
        label := data.label
        description := data.description
        inputs := data.inputs
        outputs := data.outputs
        config := data.config : Node }).decode "struct Node"

end Node

namespace Workflow

/-- The workflow as a value. -/
def toJson (w : Workflow) : Json :=
  .obj ([("id", .str w.id), ("name", .str w.name)]
    ++ optionalField "description" (w.description.map .str)
    ++ [("nodes", .arr (w.nodes.map Node.toJson)), ("edges", .arr (w.edges.map Edge.toJson))])

/-- Read a workflow. -/
def ofDraft : Dialect → Draft → Decoded Workflow :=
  (((Record.field "id" (fun _ x => x.toText) .required).and
      ((Record.field "name" (fun _ x => x.toText) (.anywhere "")).and
        ((Record.field "description" (fun _ x => x.toOption Draft.toText) (.anywhere none)).and
          ((Record.field "nodes" (fun d x => x.toList (Node.ofDraft d)) .required).and
            (Record.field "edges" (fun d x => x.toList (Edge.ofDraft d))
              (.anywhere [])))))).map
    fun (id, name, description, nodes, edges) =>
      Workflow.mk id name description nodes edges).decode "struct Workflow"

/-- Read a workflow from a value. -/
def ofJson (v : Json) : Decoded Workflow :=
  ofDraft .value (Draft.ofJson v)

/-- Read a workflow from a text. -/
def ofText (text : String) : Decoded Workflow := do
  let (x, trailing) := Draft.ofText text
  let w ← ofDraft .text x
  if trailing then .error (.text .trailingCharacters) else .ok w

end Workflow

end FlowGraph
