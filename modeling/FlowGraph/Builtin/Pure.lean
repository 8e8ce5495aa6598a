import FlowGraph.Context
import FlowGraph.Template.Expand
import FlowGraph.Template.Text
import FlowGraph.Time.Timestamp
import FlowGraph.Workflow.Kind

/-!
# Nodes that only compute

Triggers, conditions, transformations and the answering output: their outputs depend on the node,
its inputs, the input of the run and the time alone.
-/

namespace FlowGraph.Builtin

/-! ## Triggers -/

/-- A text of the configuration. -/
def configText (config : Fields) (key fallback : String) : String :=
  ((Keyed.get? config key).bind Json.asText?).getD fallback

/-- The output of a trigger: the input of the run as its payload. -/
def trigger (config input : Fields) (now : Timestamp) : Fields :=
  match Kind.trigger config with
  | .manual => [("payload", .obj input)]
  | .webhook =>
    let run : NodeInputs := ⟨input⟩
    [("payload", run.valueOr "payload" (.obj [])), ("headers", run.valueOr "headers" (.obj [])),
      ("method", run.valueOr "method" (.str "POST"))]
  | .schedule =>
    [("timestamp", .str now.offsetText), ("schedule", .str (configText config "schedule" "")),
      ("timezone", .str (configText config "timezone" "UTC"))]

/-! ## Conditions -/

/-- Decide a branch by whether a value holds. -/
def ifElse (inputs : NodeInputs) : Except NodeError Fields := do
  let condition ← inputs.require "condition" "Condition input is required"
  let result := condition.truthy
  .ok [("result", .bool result), ("true", .bool result), ("false", .bool !result)]

/-- Whether a case of a switch is for a value. -/
def matchesCase (value case : Json) : Bool :=
  match case.field? "value" with
  | some v => v.same value
  | none => false

/-- Choose the first case that is for the value. -/
def switch (inputs : NodeInputs) : Except NodeError Fields := do
  let value ← inputs.require "value" "Switch value is required"
  match inputs.valueOr "cases" (.arr []) with
  | .arr cases =>
    let chosen := cases.find? (matchesCase value)
    let decision : Fields :=
      [("value", value), ("matched", .bool chosen.isSome), ("default", .bool chosen.isNone)]
    .ok (match chosen with
      | some case =>
        decision ++ [("case", (case.field? "id").getD .null),
          ("output", (case.field? "output").getD .null)]
      | none => decision)
  | other => .error (.invalidInputType "cases" "array" other.typeName)

/-- The output of a condition. -/
def condition (node : Node) (inputs : NodeInputs) : Except NodeError Fields := do
  match ← Kind.ofNode ConditionKind node with
  | .ifElse => ifElse inputs
  | .switch => switch inputs

/-! ## Transformations -/

/-- Expand a template of values. -/
def jsonTransform (inputs : NodeInputs) : Except NodeError Json := do
  let input ← inputs.require "input" "Input data is required"
  let template ← inputs.require "template" "Template is required"
  Template.expand input template

/-- Put variables into a text. -/
def textTemplate (inputs : NodeInputs) : Except NodeError Json := do
  match ← inputs.require "template" "Template is required" with
  | .str template =>
    let values ← inputs.objectOrEmpty "variables"
    .ok (.str (TextTemplate.render template values))
  | other => .error (.invalidInputType "template" "string" other.typeName)

/-- The output of a transformation. -/
def transformation (node : Node) (inputs : NodeInputs) : Except NodeError Fields := do
  let result ← match ← Kind.ofNode TransformKind node with
    | .jsonTransform => jsonTransform inputs
    | .textTemplate => textTemplate inputs
  .ok [("output", result)]

/-! ## Answers -/

/-- The answer that a workflow gives to a request. -/
def httpResponse (inputs : NodeInputs) : Except NodeError Fields := do
  let body ← inputs.require "body" "Response body is required"
  let headers ← inputs.objectOrEmpty "headers"
  .ok [("body", body), ("statusCode", inputs.valueOr "statusCode" (Json.ofNat 200)),
    ("headers", .obj headers)]

end FlowGraph.Builtin
