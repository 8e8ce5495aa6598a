import FlowGraph.Builtin.Executor
import FlowGraph.CommandLine.Command
import FlowGraph.CommandLine.Report
import FlowGraph.Engine.Schedule
import FlowGraph.Workflow.Builder
import FlowGraph.Workflow.Check
import FlowGraph.Workflow.Json

/-!
# The program

Each command as a function of the world that it finds. `perform` carries out a whole command line:
what is printed, the exit code, and the world afterwards.
-/

namespace FlowGraph.CommandLine

/-- What a command line is carried out with. -/
structure Invocation where
  arguments : List String
  environment : String → Option String
  /-- Fresh random bits for the id of a run. -/
  random : Nat
  /-- How often a run that waits for something is looked at again before it is given up. -/
  patience : Nat

/-- What the program leaves behind. -/
structure Transcript where
  code : Nat
  output : String
  errors : String
deriving DecidableEq, Repr

/-- The world of a command and what has been printed. -/
structure Desk (ν : Type) where
  world : World ν
  printed : String := ""

/-- A part of a command. -/
abbrev Work (ν : Type) (α : Type) := ExceptT Failure (StateM (Desk ν)) α

variable {ν : Type}

/-- Print a line. -/
def say (line : String) : Work ν Unit :=
  modify fun desk => { desk with printed := desk.printed ++ line ++ "\n" }

/-- Print lines. -/
def sayAll (lines : List String) : Work ν Unit :=
  lines.forM say

/-! ## Reading -/

/-- Load the settings. -/
def loadSettings (inv : Invocation) (config : Option String) : Work ν Settings := do
  let files := (← get).world.files
  let read (path : String) : Except String String :=
    match files.readText path with
    | .ok text => .ok text
    | .error fault => .error fault.message
  match Settings.load read inv.environment config with
  | .ok s => return s
  | .error e => throw ⟨Settings.errorMessage e, [Settings.causeMessage e]⟩

/-- Load a workflow. -/
def loadWorkflow (file : String) : Work ν Workflow := do
  match (← get).world.files.readText file with
  | .error fault => throw ⟨"Failed to read workflow " ++ file, [fault.message]⟩
  | .ok text => match Workflow.ofText text with
    | .ok w => return w
    | .error fault => throw ⟨"Invalid workflow " ++ file, [fault.message]⟩

/-- Read the input of a run; without any it is empty. -/
def readInput : Option String → Work ν Fields
  | none => return []
  | some text => match Json.read text with
    | .ok (.obj fields) => return fields
    | .ok _ => throw ⟨"Input must be a JSON object", []⟩
    | .error fault => throw ⟨"Input is not valid JSON", [fault.message]⟩

/-! ## Running -/

/-- The name under which the program follows the events of a run. -/
def observer : String := "terminal"

/-- Run a workflow file. -/
def runWorkflow (services : Services ν) (inv : Invocation) (file : String)
    (input config : Option String) : Work ν Unit := do
  say ("🚀 Loading workflow from: " ++ file)
  let settings ← loadSettings inv config
  let workflow ← loadWorkflow file
  let input ← readInput input
  sayAll ["📋 Workflow: " ++ workflow.displayName,
    "   Nodes: " ++ toString workflow.nodes.length,
    "   Edges: " ++ toString workflow.edges.length, ""]
  let executors := Builtin.executors services
  let keepWorld (e : Engine BuiltinExecutor BuiltinWork (World ν)) : Work ν Unit :=
    modify fun desk => { desk with world := e.state.world }
  let engine := Engine.make (Builtin.registry settings.executors) settings.engine
    (← get).world
  let (n, engine) := engine.request .start
  let (started, engine) := engine.waitFor executors n
  keepWorld engine
  match started with
  | some (.done (.error e)) => throw (Failure.ofEngineError e)
  | _ => pure ()
  let id := executionId inv.random
  let (result, engine) := { engine with bus := engine.bus.subscribe observer }.runToCompletion
    executors inv.patience id workflow input
  let (events, _, bus) := engine.bus.drain observer
  sayAll (events.map eventLine)
  keepWorld engine
  match result with
  | some (.ok execution) =>
    sayAll (summaryLines execution)
    let (n, engine) := { engine with bus }.request .shutdown
    let (closed, engine) := engine.waitFor executors n
    keepWorld engine
    match closed with
    | some (.done (.error e)) => throw (Failure.ofEngineError e)
    | _ => pure ()
    if execution.status ≠ .completed then
      throw ⟨"Execution " ++ execution.id ++ " " ++ execution.status.name ++ ": "
        ++ execution.error.getD "no error recorded", []⟩
  | some (.error e) => throw (Failure.ofEngineError e)
  | none => throw ⟨"Execution " ++ id ++ " has not ended", []⟩

/-! ## Checking -/

/-- Check a workflow file. -/
def validateWorkflow (file : String) : Work ν Unit := do
  say ("🔍 Validating workflow: " ++ file)
  let workflow ← loadWorkflow file
  let faults := workflow.faults
  sayAll (workflow.danglingEnds.map fun d => "⚠️  " ++ d.message)
  if faults.isEmpty then
    sayAll ["✅ Workflow is valid:", "   Name: " ++ workflow.displayName,
      "   Nodes: " ++ toString workflow.nodes.length,
      "   Edges: " ++ toString workflow.edges.length]
  else
    sayAll (faults.map fun fault => "❌ " ++ fault.message)
    throw ⟨"Workflow has " ++ toString faults.length ++ " error(s)", []⟩

/-! ## Lists and examples -/

/-- What nodes of a category do, and their kinds. -/
def describe : NodeType → String × String
  | .trigger => ("Starts a run", "manual, webhook, schedule")
  | .action => ("Performs a side effect", "http_request, send_email")
  | .condition => ("Decides a branch", "if_else, switch")
  | .transformation => ("Reshapes data", "json_transform, text_template")
  | .modelCall => ("Calls a model API", "text_generation, image_generation")
  | .dataSource => ("Reads data", "database_query, file_reader, api_request")
  | .output => ("Emits a result", "http_response, file_writer, webhook")

/-- List the categories of nodes. -/
def listNodes : Work ν Unit := do
  sayAll ["📦 Available Node Types:", ""]
  sayAll (NodeType.all.flatMap fun t =>
    ["  • " ++ t.name, "    " ++ (describe t).1, "    config.type: " ++ (describe t).2])

/-- A workflow that renders a greeting and stores it. -/
def exampleWorkflow : Workflow :=
  let place (n : Node) (x y : Int) : Node := n.withPosition (Single.ofInt x) (Single.ofInt y)
  let start := (((Node.make "start" .trigger).withLabel "Start").withKind "manual").withOutput
    "payload"
  let greet := ((((((Node.make "greet" .transformation).withLabel "Render Greeting").withKind
    "text_template").withConfig "template" (.str "Hello \x7b\x7bname\x7d\x7d!")).withInput
    (.mandatory "template")).withInput (.optional "variables")).withOutput "output"
  let save := ((((((Node.make "save" .output).withLabel "Save Greeting").withKind
    "file_writer").withConfig "path" (.str "greeting.txt")).withConfig "content"
    (.str "greeting rendered")).withInput (.mandatory "path")).withInput (.mandatory "content")
  let report := ((((((Node.make "report" .output).withLabel "Report Failure").withKind
    "http_response").withConfig "body" (.str "greeting failed")).withConfig "statusCode"
    (Json.ofNat 500)).withInput (.mandatory "body")).withInput (.optional "statusCode")
  let w : Workflow := { (Workflow.make "example").withName "Example Greeting Workflow" with
    description := some "Renders a greeting and writes it to storage" }
  let w := [place start 100 100, place greet 300 100, place save 500 100,
    place report 500 250].foldl Workflow.addNode w
  ((w.connect "start" "greet").connect "greet" "save").connectOnError "greet" "report"

/-- Write an example workflow. -/
def createExample (path : String) : Work ν Unit := do
  let desk ← get
  let text := exampleWorkflow.toJson.pretty
  match desk.world.files.write path false text.toUTF8 with
  | .error fault => throw ⟨"Failed to write " ++ path, [fault.message]⟩
  | .ok files => set { desk with world := { desk.world with files } }
  sayAll ["✨ Created example workflow: " ++ path, "", "Run it with:",
    "  graphflow run --file " ++ path
      ++ " --input '\x7b\"variables\": \x7b\"name\": \"World\"\x7d\x7d'"]

/-! ## All commands -/

/-- Carry out a command. -/
def Command.carryOut (services : Services ν) (inv : Invocation) : Command → Work ν Unit
  | .run file input config _ => runWorkflow services inv file input config
  | .validate file => validateWorkflow file
  | .nodes => listNodes
  | .init path => createExample path

/-- Carry out a command line. -/
def perform (services : Services ν) (inv : Invocation) (w : World ν) : Transcript × World ν :=
  match Command.ofArguments inv.arguments with
  | .error .help => (⟨0, Command.usage, ""⟩, w)
  | .error .invalid => (⟨2, "", Command.usage⟩, w)
  | .ok command =>
    let (result, desk) := (command.carryOut services inv).run.run { world := w }
    match result with
    | .ok () => (⟨0, desk.printed, ""⟩, desk.world)
    | .error failure => (⟨1, desk.printed, failure.report⟩, desk.world)

end FlowGraph.CommandLine
