import FlowGraph.Execution.Record
import FlowGraph.Json.Decode

/-!
# Records of runs as JSON

`toJson` writes a record with all its fields, `null` for those without a value; `ofDraft` reads
one back.
-/

namespace FlowGraph

/-- An optional value, `null` when absent. -/
def Json.ofOption {α : Type} (write : α → Json) : Option α → Json
  | some v => write v
  | none => .null

namespace ExecutionStatus

/-- The statuses by name. -/
def names : List (String × ExecutionStatus) :=
  [("pending", pending), ("running", running), ("completed", completed), ("failed", failed),
    ("cancelled", cancelled)]

/-- The status as a value. -/
def toJson (s : ExecutionStatus) : Json := .str s.name

/-- Read a status. -/
def ofDraft (dialect : Dialect) (x : Draft) : Decoded ExecutionStatus :=
  x.toVariant dialect names

end ExecutionStatus

namespace NodeStatus

/-- The statuses by name. -/
def names : List (String × NodeStatus) :=
  [("running", running), ("success", success), ("error", error)]

/-- The status as a value. -/
def toJson (s : NodeStatus) : Json := .str s.name

/-- Read a status. -/
def ofDraft (dialect : Dialect) (x : Draft) : Decoded NodeStatus :=
  x.toVariant dialect names

end NodeStatus

namespace NodeResult

/-- The result as a value. -/
def toJson (r : NodeResult) : Json :=
  .obj [("node_id", .str r.nodeId), ("status", r.status.toJson),
    ("output", Json.ofOption .obj r.output), ("error", Json.strOrNull r.error),
    ("started_at", r.startedAt.toJson),
    ("completed_at", Json.ofOption Timestamp.toJson r.completedAt),
    ("duration_seconds", Json.ofOption Json.ofDouble r.duration),
    ("sequence", Json.ofNat r.sequence)]

/-- Read a result. -/
def ofDraft : Dialect → Draft → Decoded NodeResult :=
  (((Record.field "node_id" (fun _ x => x.toText) .required).and
      ((Record.field "status" NodeStatus.ofDraft .required).and
        ((Record.field "output" (fun _ x => x.toOption Draft.toFields) (.inObject none)).and
          ((Record.field "error" (fun _ x => x.toOption Draft.toText) (.inObject none)).and
            ((Record.field "started_at" (fun _ x => Timestamp.ofDraft x) .required).and
              ((Record.field "completed_at" (fun _ x => x.toOption Timestamp.ofDraft)
                  (.inObject none)).and
                ((Record.field "duration_seconds" (fun _ x => x.toOption Draft.toDouble)
                    (.inObject none)).and
                  (Record.field "sequence" (fun _ x => x.toNat "usize") .required)))))))).map
    fun (nodeId, status, output, error, startedAt, completedAt, duration, sequence) =>
      NodeResult.mk nodeId status output error startedAt completedAt duration
        sequence).decode "struct NodeExecutionResult"

end NodeResult

namespace Execution

/-- The record as a value. -/
def toJson (e : Execution) : Json :=
  .obj [("id", .str e.id), ("workflow_id", .str e.workflowId), ("status", e.status.toJson),
    ("started_at", e.startedAt.toJson),
    ("completed_at", Json.ofOption Timestamp.toJson e.completedAt), ("input", .obj e.input),
    ("results", .obj (e.results.map fun r => (r.1, r.2.toJson))),
    ("error", Json.strOrNull e.error)]

/-- Read the results of a record, which are keyed by node id. -/
def readResults (dialect : Dialect) :
    List (Except TextFault String × Draft) → Keyed NodeResult → Decoded (Keyed NodeResult)
  | [], taken => .ok taken
  | (.error fault, _) :: _, _ => .error (.text fault)
  | (.ok key, x) :: rest, taken => do
    let r ← NodeResult.ofDraft dialect x
    readResults dialect rest (Keyed.insert taken key r)

/-- The results of a record. -/
def resultsOfDraft (dialect : Dialect) : Draft → Decoded (Keyed NodeResult)
  | .object fields ending => do
    let results ← readResults dialect fields []
    match ending.fault? with
    | some fault => .error (.text fault)
    | none => .ok results
  | x => x.mismatch "a map"

/-- Read a record. -/
def ofDraft : Dialect → Draft → Decoded Execution :=
  (((Record.field "id" (fun _ x => x.toText) .required).and
      ((Record.field "workflow_id" (fun _ x => x.toText) .required).and
        ((Record.field "status" ExecutionStatus.ofDraft .required).and
          ((Record.field "started_at" (fun _ x => Timestamp.ofDraft x) .required).and
            ((Record.field "completed_at" (fun _ x => x.toOption Timestamp.ofDraft)
                (.inObject none)).and
              ((Record.field "input" (fun _ x => x.toFields) .required).and
                ((Record.field "results" resultsOfDraft .required).and
                  (Record.field "error" (fun _ x => x.toOption Draft.toText)
                    (.inObject none))))))))).map
    fun (id, workflowId, status, startedAt, completedAt, input, results, error) =>
      Execution.mk id workflowId status startedAt completedAt input results
        error).decode "struct Execution"

end Execution

end FlowGraph
