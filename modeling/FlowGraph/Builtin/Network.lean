import FlowGraph.Builtin.World
import FlowGraph.NodeInputs
import FlowGraph.Settings
import FlowGraph.Workflow.Kind

/-!
# Nodes that use the network

Each of these nodes makes one call. A `NetworkPlan` is made of the node's inputs alone: what is
announced, what is called, and what output the answer gives.
-/

namespace FlowGraph.Builtin

open Http

/-- What a network node is about to do. -/
structure NetworkPlan where
  /-- What observers are told before. -/
  announcement : Option String := none
  call : HttpCall
  /-- Whether the call is given up when the run is cancelled. -/
  abandonable : Bool := false
  output : HttpAnswer → Except NodeError Fields

/-- The failure of a node whose executor has no client. -/
def noClient : NodeError := .initialization "HTTP client not initialized"

/-- Calls are refused without a client. -/
def requireClient (client : Bool) : Except NodeError Unit :=
  if client then .ok () else .error noClient

/-- Call an address. -/
def httpRequest (client : Bool) (inputs : NodeInputs) : Except NodeError NetworkPlan := do
  requireClient client
  let url ← inputs.requireText "url" "URL is required for HTTP request"
  let method := inputs.textOr "method" "GET"
  let headers ← inputs.objectOrEmpty "headers"
  .ok {
    announcement := some (method ++ " " ++ url)
    call := { method, url, headers, body := inputs.get? "body" }
    output := fun a => .ok [("response", a.body), ("status", Json.ofNat a.status),
      ("headers", .obj a.headers)] }

/-- Fetch data from an address. -/
def apiRequest (client : Bool) (inputs : NodeInputs) : Except NodeError NetworkPlan := do
  requireClient client
  let url ← inputs.requireText "url" "URL is required for API request"
  let headers ← inputs.objectOrEmpty "headers"
  let params ← inputs.objectOrEmpty "params"
  .ok {
    call := {
      method := inputs.textOr "method" "GET", url, headers, query := some params,
      body := inputs.get? "body" }
    output := fun a => .ok [("data", a.body), ("status", Json.ofNat a.status),
      ("headers", .obj a.headers)] }

/-- Send a payload to an address. -/
def webhook (client : Bool) (inputs : NodeInputs) : Except NodeError NetworkPlan := do
  requireClient client
  let url ← inputs.requireText "url" "Webhook URL is required"
  let payload ← inputs.require "payload" "Webhook payload is required"
  let headers ← inputs.objectOrEmpty "headers"
  .ok {
    call := { method := "POST", url, headers, body := some payload }
    output := fun a => .ok [("success", .bool a.isSuccess), ("url", .str url),
      ("status", Json.ofNat a.status)] }

/-! ## Models -/

/-- The model that a node asks for: from its inputs, else from its configuration. -/
def modelName (node : Node) (inputs : NodeInputs) (fallback : String) : String :=
  (((inputs.get? "model").or (node.config? "model")).bind Json.asText?).getD fallback

/-- The address of a model service, without slashes at its end. -/
def modelUrl (s : ExecutorSettings) (route : String) : String :=
  String.ofList (s.modelApiUrl.toList.reverse.dropWhile (· = '/')).reverse ++ route

/-- A call of a model service. -/
def modelCall (s : ExecutorSettings) (route : String) (body : Fields) : HttpCall where
  method := "POST"
  url := modelUrl s route
  headers := if s.modelApiKey = "" then []
    else [("Authorization", .str ("Bearer " ++ s.modelApiKey))]
  body := some (.obj body)

/-- The answer of a model service must be a success. -/
def requireSuccess (a : HttpAnswer) : Except NodeError Unit :=
  if a.isSuccess then .ok ()
  else .error (.collaborator
    ("Model API returned " ++ toString a.status ++ ": " ++ a.body.display))

/-- Seven tenths. -/
def usualTemperature : Double := Double.ofDecimal false 7 (-1)

/-- Ask a model for a text. -/
def textGeneration (s : ExecutorSettings) (node : Node) (inputs : NodeInputs) :
    Except NodeError NetworkPlan := do
  let prompt ← inputs.requireText "prompt" "Prompt is required for text generation"
  let model := modelName node inputs "gpt-3.5-turbo"
  let maxTokens := ((inputs.get? "maxTokens").bind Json.asNat?).getD 100
  let temperature := ((inputs.get? "temperature").bind Json.asDouble?).getD usualTemperature
  .ok {
    announcement := some ("Generating text with " ++ model)
    call := modelCall s "/api/ai/generate" [("prompt", .str prompt),
      ("maxTokens", Json.ofNat maxTokens), ("temperature", Json.ofDouble temperature),
      ("model", .str model)]
    abandonable := true
    output := fun a => do
      requireSuccess a
      .ok [("text", (a.body.field? "text").getD (.str "")), ("model", .str model),
        ("usage", (a.body.field? "usage").getD .null)] }

/-- Ask a model for an image. -/
def imageGeneration (s : ExecutorSettings) (node : Node) (inputs : NodeInputs) :
    Except NodeError NetworkPlan := do
  let prompt ← inputs.requireText "prompt" "Prompt is required for image generation"
  let model := modelName node inputs "dall-e-3"
  .ok {
    call := modelCall s "/api/ai/generate-image" [("prompt", .str prompt),
      ("size", .str (inputs.textOr "size" "512x512")), ("model", .str model)]
    abandonable := true
    output := fun a => do
      requireSuccess a
      .ok [("url", (a.body.field? "url").getD .null), ("model", .str model)] }

/-- The plan of a model node. -/
def modelPlan (s : ExecutorSettings) (node : Node) (inputs : NodeInputs) :
    Except NodeError NetworkPlan := do
  match ← Kind.ofNode ModelKind node with
  | .textGeneration => textGeneration s node inputs
  | .imageGeneration => imageGeneration s node inputs

/-! ## Carrying out a plan -/

/-- Make the call of a plan. -/
def NetworkPlan.perform {ν : Type} (plan : NetworkPlan) (exchange : Exchange ν)
    (client cancelled : Bool) (peers : ν) : Except NodeError Fields × ν :=
  if ¬client then (.error noClient, peers)
  else if plan.abandonable ∧ cancelled then (.error .cancelled, peers)
  else
    match exchange.send plan.call peers with
    | (.ok a, peers) => (plan.output a, peers)
    | (.error fault, peers) => (.error fault.toNodeError, peers)

end FlowGraph.Builtin
