import FlowGraph.NodeInputs

/-!
# Context of a run

What the executors of one run see of it: the input, the outputs that earlier nodes published,
and the messages of earlier failures. `resolveInputs` makes a node's inputs from it.
-/

namespace FlowGraph

/-- The state that the nodes of one run share. -/
structure Context where
  executionId : String
  input : Fields
  /-- Published outputs by `node.output`. -/
  results : Fields := []
  /-- Messages of failed nodes by node id. -/
  errors : Keyed String := []
deriving DecidableEq, Repr, Inhabited

namespace Context

/-- The key of a published output. -/
def resultKey (nodeId outputId : String) : String :=
  nodeId ++ "." ++ outputId

/-- Publish an output. -/
def publish (ctx : Context) (nodeId outputId : String) (value : Json) : Context :=
  { ctx with results := Keyed.insert ctx.results (resultKey nodeId outputId) value }

/-- A published output. -/
def result? (ctx : Context) (nodeId outputId : String) : Option Json :=
  Keyed.get? ctx.results (resultKey nodeId outputId)

/-- Record the failure of a node. -/
def recordError (ctx : Context) (nodeId message : String) : Context :=
  { ctx with errors := Keyed.insert ctx.errors nodeId message }

/-- Publish those of the declared outputs that the node returned. -/
def publishDeclared (ctx : Context) (nodeId : String) (specs : List OutputSpec)
    (output : Fields) : Context :=
  specs.foldl (fun ctx spec =>
    match Keyed.get? output spec.id with
    | some value => ctx.publish nodeId spec.id value
    | none => ctx) ctx

end Context

/-- The value of a declared input: from the run's input, else from the configuration, else the
declared default. -/
def InputSpec.source? (spec : InputSpec) (config input : Fields) : Option Json :=
  ((Keyed.get? input spec.id).or (Keyed.get? config spec.id)).or spec.fallback

/-- Resolve declared inputs one after the other into those already resolved. -/
def resolveSpecs (nodeId : String) (config input : Fields) :
    List InputSpec → Fields → Except NodeError Fields
  | [], resolved => .ok resolved
  | spec :: specs, resolved =>
    match spec.source? config input with
    | some value => resolveSpecs nodeId config input specs (Keyed.insert resolved spec.id value)
    | none =>
      if spec.required then
        .error (.missingInput
          ("Required input " ++ spec.id ++ " not provided for node " ++ nodeId))
      else resolveSpecs nodeId config input specs resolved

/-- The inputs that a node is run with. -/
def Node.resolveInputs (node : Node) (input : Fields) : Except NodeError NodeInputs :=
  match resolveSpecs node.id node.config input node.inputs [] with
  | .ok fields => .ok ⟨fields⟩
  | .error e => .error e

end FlowGraph
