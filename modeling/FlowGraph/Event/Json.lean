import FlowGraph.Event.Basic
import FlowGraph.Execution.Json
import FlowGraph.Workflow.Json

/-!
# Events as JSON

An event is an object whose field `type` names what happened; a report of a node names itself in
`event_type`. When an event is read, its tag may stand anywhere among the fields, or first in a
list.
-/

namespace FlowGraph

/-- A tagged value taken apart: the tag, and the rest to be read according to it. -/
structure Tagged (τ : Type) where
  tag : τ
  content : Draft

namespace Tagged

/-- Read a tag: the name of a variant. -/
def readTag {τ : Type} (tags : List (String × τ)) : Draft → Decoded τ
  | .str name => Draft.toNamed tags name
  | x => x.mismatch "variant identifier"

/-- Find the tag among the fields; the other fields are the content. -/
def ofFields {τ : Type} (key : String) (tags : List (String × τ)) :
    List (Except TextFault String × Draft) → Option τ →
      Decoded (Option τ × List (Except TextFault String × Draft))
  | [], tag => .ok (tag, [])
  | (.error fault, _) :: _, _ => .error (.text fault)
  | (.ok name, x) :: rest, tag =>
    if name = key then
      match tag with
      | some _ => .error (.data (.duplicateField key))
      | none => do
        let tag ← readTag tags x
        ofFields key tags rest (some tag)
    else do
      let (tag, others) ← ofFields key tags rest tag
      .ok (tag, (.ok name, x) :: others)

/-- Take a tagged value apart. `expected` names it. -/
def ofDraft {τ : Type} (expected key : String) (tags : List (String × τ)) :
    Draft → Decoded (Tagged τ)
  | .object fields ending => do
    match ← ofFields key tags fields none with
    | (some tag, others) => .ok ⟨tag, .object others ending⟩
    | (none, _) => .error (.data (.missingField key))
  | .list (x :: rest) ending => do
    let tag ← readTag tags x
    .ok ⟨tag, .list rest ending⟩
  | .list [] _ => .error (.data (.missingField key))
  | x => x.mismatch ("internally tagged enum " ++ expected)

end Tagged

namespace NodeEvent

/-- The report as a value. -/
def toJson : NodeEvent → Json
  | info message => .obj [("event_type", .str "Info"), ("message", .str message)]
  | warning message => .obj [("event_type", .str "Warning"), ("message", .str message)]

/-- Read a report. -/
def ofDraft (x : Draft) : Decoded NodeEvent := do
  let tagged ← Tagged.ofDraft "NodeEvent" "event_type"
    [("Info", ("Info", info)), ("Warning", ("Warning", warning))] x
  let (name, make) := tagged.tag
  ((Record.field "message" (fun _ x => x.toText) .required).map make).decode
    ("struct variant NodeEvent::" ++ name) .tagged tagged.content

end NodeEvent

namespace ExecutionEvent

/-- The kinds of events. -/
inductive Tag where
  | executionStarted
  | executionFinished
  | nodeStarted
  | nodeCompleted
  | nodeFailed
  | nodeEvent
deriving DecidableEq, Repr

/-- The names of the kinds. -/
def Tag.names : List (String × Tag) :=
  [("ExecutionStarted", executionStarted), ("ExecutionFinished", executionFinished),
    ("NodeStarted", nodeStarted), ("NodeCompleted", nodeCompleted),
    ("NodeFailed", nodeFailed), ("NodeEvent", nodeEvent)]

/-- The event as a value. -/
def toJson : ExecutionEvent → Json
  | executionStarted id workflowId t =>
    .obj [("type", .str "ExecutionStarted"), ("execution_id", .str id),
      ("workflow_id", .str workflowId), ("timestamp", t.toJson)]
  | executionFinished id status ms t =>
    .obj [("type", .str "ExecutionFinished"), ("execution_id", .str id),
      ("status", status.toJson), ("duration_ms", Json.ofNat ms), ("timestamp", t.toJson)]
  | nodeStarted id nodeId nodeType t =>
    .obj [("type", .str "NodeStarted"), ("execution_id", .str id), ("node_id", .str nodeId),
      ("node_type", nodeType.toJson), ("timestamp", t.toJson)]
  | nodeCompleted id nodeId ms t =>
    .obj [("type", .str "NodeCompleted"), ("execution_id", .str id), ("node_id", .str nodeId),
      ("duration_ms", Json.ofNat ms), ("timestamp", t.toJson)]
  | nodeFailed id nodeId error t =>
    .obj [("type", .str "NodeFailed"), ("execution_id", .str id), ("node_id", .str nodeId),
      ("error", .str error), ("timestamp", t.toJson)]
  | nodeEvent id nodeId event t =>
    .obj [("type", .str "NodeEvent"), ("execution_id", .str id), ("node_id", .str nodeId),
      ("event", event.toJson), ("timestamp", t.toJson)]

/-- A text field that must be there. -/
def textField (name : String) : Record (Option String) String :=
  Record.field name (fun _ x => x.toText) .required

/-- The time of the event. -/
def timeField : Record (Option Timestamp) Timestamp :=
  Record.field "timestamp" (fun _ x => Timestamp.ofDraft x) .required

/-- A duration in milliseconds. -/
def durationField : Record (Option Nat) Nat :=
  Record.field "duration_ms" (fun _ x => x.toNat "u64") .required

/-- Read an event of a given kind. -/
def ofContent (x : Draft) : Tag → Decoded ExecutionEvent
  | .executionStarted =>
    (((textField "execution_id").and ((textField "workflow_id").and timeField)).map
      fun (id, workflowId, t) => executionStarted id workflowId t).decode
        "struct variant ExecutionEvent::ExecutionStarted" .tagged x
  | .executionFinished =>
    (((textField "execution_id").and
        ((Record.field "status" ExecutionStatus.ofDraft .required).and
          (durationField.and timeField))).map
      fun (id, status, ms, t) => executionFinished id status ms t).decode
        "struct variant ExecutionEvent::ExecutionFinished" .tagged x
  | .nodeStarted =>
    (((textField "execution_id").and ((textField "node_id").and
        ((Record.field "node_type" NodeType.ofDraft .required).and timeField))).map
      fun (id, nodeId, nodeType, t) => nodeStarted id nodeId nodeType t).decode
        "struct variant ExecutionEvent::NodeStarted" .tagged x
  | .nodeCompleted =>
    (((textField "execution_id").and ((textField "node_id").and
        (durationField.and timeField))).map
      fun (id, nodeId, ms, t) => nodeCompleted id nodeId ms t).decode
        "struct variant ExecutionEvent::NodeCompleted" .tagged x
  | .nodeFailed =>
    (((textField "execution_id").and ((textField "node_id").and
        ((textField "error").and timeField))).map
      fun (id, nodeId, error, t) => nodeFailed id nodeId error t).decode
        "struct variant ExecutionEvent::NodeFailed" .tagged x
  | .nodeEvent =>
    (((textField "execution_id").and ((textField "node_id").and
        ((Record.field "event" (fun _ x => NodeEvent.ofDraft x) .required).and
          timeField))).map
      fun (id, nodeId, event, t) => nodeEvent id nodeId event t).decode
        "struct variant ExecutionEvent::NodeEvent" .tagged x

/-- Read an event. -/
def ofDraft (x : Draft) : Decoded ExecutionEvent := do
  let tagged ← Tagged.ofDraft "ExecutionEvent" "type" Tag.names x
  ofContent tagged.content tagged.tag

end ExecutionEvent

end FlowGraph
