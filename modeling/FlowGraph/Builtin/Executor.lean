import FlowGraph.Builtin.Network
import FlowGraph.Builtin.Pure
import FlowGraph.Builtin.Storage
import FlowGraph.Executor

/-!
# The built-in executors

One executor for each category of nodes. Those that use files make the storage directory when
they are started, and those that use the network get their client then and lose it when they are
stopped. A call is over when it is first polled, except that a database query takes as long as the
database library does.
-/

namespace FlowGraph

/-- A built-in executor. -/
structure BuiltinExecutor where
  nodeType : NodeType
  settings : ExecutorSettings
  /-- Whether it has a client for the network. -/
  client : Bool := false
deriving DecidableEq, Repr

/-- How a call of a built-in executor ended. -/
structure BuiltinResult (ν : Type) where
  events : List NodeEvent := []
  answer : Except NodeError Fields
  world : World ν

namespace Builtin

variable {ν : Type}

/-- Hand a mail over. -/
def sendEmail (services : Services ν) (inputs : NodeInputs) (w : World ν) :
    Except NodeError Fields × World ν :=
  let message : Except NodeError EmailMessage := do
    let recipient ← inputs.requireText "to" "Recipient (to) is required"
    let subject ← inputs.requireText "subject" "Subject is required"
    let body ← inputs.requireText "body" "Body is required"
    .ok ⟨recipient, subject, body⟩
  match message with
  | .error e => (.error e, w)
  | .ok m =>
    let (result, peers) := services.deliver m w.clock w.peers
    (result.map fun id => [("success", .bool true), ("messageId", .str id)], { w with peers })

end Builtin

namespace BuiltinExecutor

variable {ν : Type}

/-- The executor of a category. -/
def make (settings : ExecutorSettings) (nodeType : NodeType) : BuiltinExecutor :=
  { nodeType, settings }

/-- A result that leaves the world as it is. -/
def answered (w : World ν) (answer : Except NodeError Fields) : BuiltinResult ν :=
  { answer, world := w }

/-- A result that may have changed files. -/
def withFiles (w : World ν) (result : Except NodeError Fields × FileSystem) : BuiltinResult ν :=
  { answer := result.1, world := { w with files := result.2 } }

/-- Carry out a plan for the network. -/
def withNetwork (e : BuiltinExecutor) (services : Services ν) (cancelled : Bool) (w : World ν) :
    Except NodeError Builtin.NetworkPlan → BuiltinResult ν
  | .error failure => answered w (.error failure)
  | .ok plan =>
    let (answer, peers) := plan.perform services.exchange e.client cancelled w.peers
    { events := (plan.announcement.map NodeEvent.info).toList, answer, world := { w with peers } }

/-- Run a node; a database request that it makes is over. -/
def run (e : BuiltinExecutor) (services : Services ν) (call : ExecutorCall) (cancelled : Bool)
    (w : World ν) : BuiltinResult ν :=
  let node := call.node
  let inputs := call.inputs
  let network := e.withNetwork services cancelled w
  match e.nodeType with
  | .trigger => answered w (.ok (Builtin.trigger node.config call.context.input w.clock))
  | .action =>
    match Kind.ofNode ActionKind node with
    | .error failure => answered w (.error failure)
    | .ok .httpRequest => network (Builtin.httpRequest e.client inputs)
    | .ok .sendEmail =>
      let (answer, world) := Builtin.sendEmail services inputs w
      { answer, world }
  | .condition => answered w (Builtin.condition node inputs)
  | .transformation => answered w (Builtin.transformation node inputs)
  | .modelCall => network (Builtin.modelPlan e.settings node inputs)
  | .dataSource =>
    match Kind.ofNode DataSourceKind node with
    | .error failure => answered w (.error failure)
    | .ok .databaseQuery =>
      let (answer, files, peers) :=
        Builtin.queryDatabase services.database e.settings node inputs w.files w.peers
      { answer, world := { w with files, peers } }
    | .ok .fileReader => answered w (Builtin.readFile e.settings inputs w.files)
    | .ok .apiRequest => network (Builtin.apiRequest e.client inputs)
  | .output =>
    match Kind.ofNode OutputKind node with
    | .error failure => answered w (.error failure)
    | .ok .httpResponse => answered w (Builtin.httpResponse inputs)
    | .ok .fileWriter => withFiles w (Builtin.writeFile e.settings node inputs w.files)
    | .ok .webhook => network (Builtin.webhook e.client inputs)

/-- The database request that a call makes, if it makes one. -/
def request? (e : BuiltinExecutor) (call : ExecutorCall) : Option Sql.Request :=
  match e.nodeType with
  | .dataSource =>
    match Kind.ofNode DataSourceKind call.node with
    | .ok .databaseQuery => (Builtin.databaseRequest e.settings call.node call.inputs).toOption
    | _ => none
  | _ => none

/-! ## Lifecycle -/

/-- Whether executors of a category use the storage directory. -/
def usesStorage : NodeType → Bool
  | .dataSource | .output => true
  | _ => false

/-- Whether executors of a category use the network. -/
def usesNetwork : NodeType → Bool
  | .action | .modelCall | .dataSource | .output => true
  | _ => false

/-- Make the storage directory if it is needed, then the client. -/
def start (e : BuiltinExecutor) (w : World ν) : Option NodeError × BuiltinExecutor × World ν :=
  let (fault, files) :=
    if usesStorage e.nodeType then w.files.makeDirectories e.settings.storagePath
    else (none, w.files)
  let w := { w with files }
  match fault with
  | some fault =>
    (some (.initialization ("Failed to create storage directory " ++ e.settings.storagePath
      ++ ": " ++ fault.message)), e, w)
  | none => (none, { e with client := e.client || usesNetwork e.nodeType }, w)

/-- Give the client up. -/
def stop (e : BuiltinExecutor) (w : World ν) : Option NodeError × BuiltinExecutor × World ν :=
  (none, { e with client := false }, w)

end BuiltinExecutor

/-- A call of a built-in executor that is not over. -/
structure BuiltinWork where
  executor : BuiltinExecutor
  call : ExecutorCall
deriving DecidableEq, Repr

namespace Builtin

variable {ν : Type}

/-- Let a call go on: a database request that is under way goes on, and any other call ends. -/
def poll (services : Services ν) (p : BuiltinWork) (cancelled : Bool) (w : World ν) :
    Progress BuiltinWork × World ν :=
  match (p.executor.request? p.call).bind fun r => services.database.underWay r w.files w.peers with
  | some (files, peers) => ({ state := .inl p }, { w with files, peers })
  | none =>
    let result := p.executor.run services p.call cancelled w
    ({ events := result.events, state := .inr (.answered result.answer) }, result.world)

/-- The built-in executors among peers that respond in a given way. -/
def executors (services : Services ν) : Executors BuiltinExecutor BuiltinWork (World ν) where
  hooks := { start := BuiltinExecutor.start, stop := BuiltinExecutor.stop }
  now w := w.clock
  begin e call := ⟨e, call⟩
  poll := poll services

/-- A registry with the executor of every category. -/
def registry (settings : ExecutorSettings) : Registry BuiltinExecutor :=
  NodeType.all.foldl (fun r t => r.set t (BuiltinExecutor.make settings t)) Registry.empty

end Builtin

end FlowGraph
