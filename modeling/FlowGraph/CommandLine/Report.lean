import FlowGraph.Error
import FlowGraph.Event.Basic
import FlowGraph.Json.Printer

/-!
# What the program prints

The lines that tell a run as it goes, the summary after it, and the report of a failure with its
causes.
-/

namespace FlowGraph.CommandLine

/-- A failure of the program, with what is behind it. -/
structure Failure where
  message : String
  causes : List String := []
deriving DecidableEq, Repr

namespace Failure

/-- Indent all lines of a cause; the first one may be numbered. -/
def indented (first later : String) (text : String) : String :=
  first ++ String.intercalate ("\n" ++ later) (text.splitOn "\n")

/-- The number of a cause, in five places. -/
def numberText (n : Nat) : String :=
  let digits := toString n
  String.ofList (List.replicate (5 - digits.length) ' ') ++ digits ++ ": "

/-- The causes below the message; several are numbered. -/
def causesText : List String → String
  | [] => ""
  | [cause] => "\n\nCaused by:\n" ++ indented "    " "    " cause
  | causes =>
    "\n\nCaused by:\n" ++ String.intercalate "\n" (causes.zipIdx.map fun (cause, i) =>
      indented (numberText i) "       " cause)

/-- The report of a failure. -/
def report (f : Failure) : String :=
  "Error: " ++ f.message ++ causesText f.causes ++ "\n"

/-- The failure of an engine. -/
def ofEngineError (e : EngineError) : Failure :=
  ⟨e.message, (e.cause?.map NodeError.message).toList⟩

end Failure

/-- The line that tells of an event. -/
def eventLine : ExecutionEvent → String
  | .executionStarted .. => "▶️  Workflow started"
  | .nodeStarted _ nodeId nodeType _ =>
    "  ⚡ Starting node: " ++ nodeId ++ " (" ++ nodeType.name ++ ")"
  | .nodeCompleted _ nodeId durationMs _ =>
    "  ✅ Node " ++ nodeId ++ " completed in " ++ toString durationMs ++ "ms"
  | .nodeFailed _ nodeId error _ => "  ❌ Node " ++ nodeId ++ " failed: " ++ error
  | .nodeEvent _ nodeId (.info message) _ => "     ℹ️  [" ++ nodeId ++ "] " ++ message
  | .nodeEvent _ nodeId (.warning message) _ => "     ⚠️  [" ++ nodeId ++ "] " ++ message
  | .executionFinished _ .completed durationMs _ =>
    "✨ Workflow completed successfully in " ++ toString durationMs ++ "ms"
  | .executionFinished _ status durationMs _ =>
    "💥 Workflow " ++ status.name ++ " after " ++ toString durationMs ++ "ms"

/-- The output of a node. -/
def outputLines (r : NodeResult) : List String :=
  match r.output with
  | some output =>
    ("   Node " ++ r.nodeId ++ ":")
      :: output.map fun (key, value) => "     " ++ key ++ ": " ++ value.compact
  | none => []

/-- The summary of a run. -/
def summaryLines (e : Execution) : List String :=
  let results := e.orderedResults
  let failed := (results.filter fun r => r.status = .error).length
  let outputs := if results.any fun r => r.output.isSome then
      "" :: "📤 Outputs:" :: results.flatMap outputLines
    else []
  ["", "📊 Execution Summary:", "   Execution ID: " ++ e.id, "   Status: " ++ e.status.name,
    "   Nodes run: " ++ toString results.length ++ " (" ++ toString failed ++ " failed)"]
    ++ (e.error.map fun error => "   Error: " ++ error).toList ++ outputs

end FlowGraph.CommandLine
