import FlowGraph.Error
import FlowGraph.Json.Printer

/-!
# Kinds within a category

Each category of nodes has a closed set of kinds, chosen by the node's configuration value
`type`. An absent value chooses the first kind. A kind is written as its name, or as an object
whose only key is the name and whose value is `null`.
-/

namespace FlowGraph

/-- Where a run begins. -/
inductive TriggerKind where
  | manual
  | webhook
  | schedule
deriving DecidableEq, Repr, Inhabited

/-- What an action does. -/
inductive ActionKind where
  | httpRequest
  | sendEmail
deriving DecidableEq, Repr, Inhabited

/-- How a condition decides. -/
inductive ConditionKind where
  | ifElse
  | switch
deriving DecidableEq, Repr, Inhabited

/-- How data is reshaped. -/
inductive TransformKind where
  | jsonTransform
  | textTemplate
deriving DecidableEq, Repr, Inhabited

/-- What a model is asked for. -/
inductive ModelKind where
  | textGeneration
  | imageGeneration
deriving DecidableEq, Repr, Inhabited

/-- Where data is read from. -/
inductive DataSourceKind where
  | databaseQuery
  | fileReader
  | apiRequest
deriving DecidableEq, Repr, Inhabited

/-- Where a result goes. -/
inductive OutputKind where
  | httpResponse
  | fileWriter
  | webhook
deriving DecidableEq, Repr, Inhabited

/-- A closed set of kinds for one category; the first is the default. -/
class KindOf (κ : Type) [Inhabited κ] where
  category : NodeType
  names : List (String × κ)

instance : KindOf TriggerKind where
  category := .trigger
  names := [("manual", .manual), ("webhook", .webhook), ("schedule", .schedule)]

instance : KindOf ActionKind where
  category := .action
  names := [("http_request", .httpRequest), ("send_email", .sendEmail)]

instance : KindOf ConditionKind where
  category := .condition
  names := [("if_else", .ifElse), ("switch", .switch)]

instance : KindOf TransformKind where
  category := .transformation
  names := [("json_transform", .jsonTransform), ("text_template", .textTemplate)]

instance : KindOf ModelKind where
  category := .modelCall
  names := [("text_generation", .textGeneration), ("image_generation", .imageGeneration)]

instance : KindOf DataSourceKind where
  category := .dataSource
  names := [("database_query", .databaseQuery), ("file_reader", .fileReader),
    ("api_request", .apiRequest)]

instance : KindOf OutputKind where
  category := .output
  names := [("http_response", .httpResponse), ("file_writer", .fileWriter),
    ("webhook", .webhook)]

namespace Kind

/-- The name that a configuration value chooses, in either spelling. -/
def chosenName? : Json → Option String
  | .str name => some name
  | .obj [(name, .null)] => some name
  | _ => none

/-- The kind that a configuration chooses; the default without a choice. -/
def ofConfig (κ : Type) [Inhabited κ] [KindOf κ] (config : Fields) : Except NodeError κ :=
  match Keyed.get? config "type" with
  | none => .ok default
  | some choice =>
    match (chosenName? choice).bind (Keyed.get? (KindOf.names (κ := κ))) with
    | some kind => .ok kind
    | none => .error (.unsupported (KindOf.category κ) choice.display)

/-- The kind of a node. -/
def ofNode (κ : Type) [Inhabited κ] [KindOf κ] (node : Node) : Except NodeError κ :=
  ofConfig κ node.config

/-- The kind of a trigger: an unknown choice counts as the default, so a trigger never fails on
it. -/
def trigger (config : Fields) : TriggerKind :=
  match ofConfig TriggerKind config with
  | .ok kind => kind
  | .error _ => default

/-- The failure of a node whose kind is not known. Triggers do not fail on their kind. -/
def check (node : Node) : Except NodeError Unit :=
  match node.nodeType with
  | .trigger => .ok ()
  | .action => (ofNode ActionKind node).map fun _ => ()
  | .condition => (ofNode ConditionKind node).map fun _ => ()
  | .transformation => (ofNode TransformKind node).map fun _ => ()
  | .modelCall => (ofNode ModelKind node).map fun _ => ()
  | .dataSource => (ofNode DataSourceKind node).map fun _ => ()
  | .output => (ofNode OutputKind node).map fun _ => ()

end Kind

end FlowGraph
