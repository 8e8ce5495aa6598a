import FlowGraph.Engine.Config
import FlowGraph.Engine.Locks
import FlowGraph.Traversal

/-!
# State of an engine

An engine runs workflows in the background. Each run has a worker, which waits for a permit and
for the registry, traverses the workflow, and stores the final record; users of the engine make
calls that may have to wait, too. `EngineState` holds all of it between two moves. Workers and
calls move one at a time, from one point where they may wait to the next (`Engine/Step`).
-/

namespace FlowGraph

/-- Where a worker stands. Each phase holds the record of the run, by itself or as part of the
traversal. -/
inductive Phase (π : Type) where
  /-- It has not moved yet. -/
  | spawned (record : Execution)
  /-- It waits for a permit. -/
  | queued (record : Execution)
  /-- It was given a permit and has not moved since. -/
  | permitted (record : Execution)
  /-- It is running and waits for the registry, or was let in and has not moved since. -/
  | awaitingRegistry (record : Execution)
  /-- It holds the registry and stands between two nodes. -/
  | traversing (traversal : Traversal)
  /-- An executor works on the node entered last. -/
  | calling (traversal : Traversal) (node : Node) (process : π)
  /-- The record is final and is to be stored. -/
  | storing (record : Execution)

/-- The worker of a run. -/
structure Worker (π : Type) where
  workflow : Workflow
  phase : Phase π

/-- What the engine lets users see of a run that is not over. -/
structure ActiveRun where
  cancelled : Bool := false
  status : ExecutionStatus := .pending
  /-- Whether a shutdown waits for the worker already. -/
  claimed : Bool := false
deriving DecidableEq, Repr

/-- A call that may have to wait. -/
inductive Request where
  | start
  | shutdown
  /-- The final record of a run. -/
  | get (id : String)
  | nodeTypes
deriving DecidableEq, Repr

/-- Where a call stands. -/
inductive CallState where
  /-- It has not moved yet. -/
  | made (request : Request)
  /-- A shutdown waits for the workers of these runs. -/
  | waitingForRuns (ids : List String)
  /-- It waits for the registry, or was let in and has not moved since. -/
  | waitingForRegistry (request : Request)
  /-- It waits for a run to be over. -/
  | waitingForRun (id : String)
deriving DecidableEq, Repr

/-- What a call is answered with. -/
inductive CallAnswer where
  | done (result : Except EngineError Unit)
  | record (execution : Option Execution)
  | nodeTypes (types : List NodeType)

/-- An engine between two moves. -/
structure EngineState (ε π ω : Type) where
  config : EngineConfig
  registry : Registry ε
  lock : RegistryLock := {}
  permits : Permits
  shuttingDown : Bool := false
  /-- The runs that are not over. -/
  active : Keyed ActiveRun := []
  /-- The records of the runs that are over and not forgotten. -/
  finished : Keyed Execution := []
  /-- The runs whose record is stored, while those who wait for it have not been told yet. -/
  untold : List String := []
  workers : Keyed (Worker π) := []
  calls : List (Nat × CallState) := []
  answers : List (Nat × CallAnswer) := []
  /-- Events that have not been broadcast yet. -/
  emitted : List ExecutionEvent := []
  /-- Tasks that can move again and have not been scheduled yet. -/
  woken : List Task := []
  world : ω

namespace EngineState

variable {ε π ω : Type}

/-- An engine without runs. -/
def make (registry : Registry ε) (config : EngineConfig) (world : ω) : EngineState ε π ω where
  config := config
  registry := registry
  permits := { free := config.limit }
  world := world

/-- Emit events. -/
def emit (s : EngineState ε π ω) (events : List ExecutionEvent) : EngineState ε π ω :=
  { s with emitted := s.emitted ++ events }

/-- Wake tasks. -/
def wake (s : EngineState ε π ω) (tasks : List Task) : EngineState ε π ω :=
  { s with woken := s.woken ++ tasks }

/-- Whether a run is to be cancelled. -/
def isCancelled (s : EngineState ε π ω) (id : String) : Bool :=
  match Keyed.get? s.active id with
  | some run => run.cancelled
  | none => false

/-- Change what is seen of a run. -/
def updateActive (s : EngineState ε π ω) (id : String) (change : ActiveRun → ActiveRun) :
    EngineState ε π ω :=
  { s with active := Keyed.modify s.active id change }

/-- Move a worker to a phase. -/
def setPhase (s : EngineState ε π ω) (id : String) (phase : Phase π) : EngineState ε π ω :=
  { s with workers := Keyed.modify s.workers id fun w => { w with phase } }

/-- Give back a permit; the run that gets it can move. -/
def releasePermit (s : EngineState ε π ω) : EngineState ε π ω :=
  match s.permits.release with
  | (none, permits) => { s with permits }
  | (some id, permits) =>
    let s := { s with permits }
    let s := match Keyed.get? s.workers id with
      | some { phase := .queued record, .. } => s.setPhase id (.permitted record)
      | _ => s
    s.wake [.worker id]

/-- Give up the registry; the tasks let in can move. -/
def releaseRegistry (s : EngineState ε π ω) (t : Task) : EngineState ε π ω :=
  let (woken, lock) := s.lock.release t
  { s with lock }.wake woken

/-! ## What users see at once -/

/-- The status of a run. -/
def status? (s : EngineState ε π ω) (id : String) : Option ExecutionStatus :=
  match Keyed.get? s.finished id with
  | some record => some record.status
  | none => (Keyed.get? s.active id).map ActiveRun.status

/-- The ids of the runs that are not over. -/
def activeIds (s : EngineState ε π ω) : List String := Keyed.keys s.active

/-- How many runs are traversing. -/
def runningCount (s : EngineState ε π ω) : Nat :=
  s.active.countP fun entry => entry.2.status = .running

end EngineState

end FlowGraph
