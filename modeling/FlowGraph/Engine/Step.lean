import FlowGraph.Engine.State

/-!
# Moves of an engine

Each function here is one move: a task goes from one point where it may wait to the next, or a
user makes a call that never waits. A worker may wait for its permit, for the registry, for the
executor of each node and for the table of runs, so its moves are: to be admitted, to begin the
traversal, to take a node, to attend to an executor, to store the record. Between two moves any
other task may move, so what an engine does under every schedule is what these moves do in every
order.
-/

namespace FlowGraph

namespace EngineState

variable {ε π ω : Type}

/-! ## Calls that never wait -/

/-- Start a run under a fresh id: its pending record, or a refusal while shutting down. -/
def execute (ex : Executors ε π ω) (s : EngineState ε π ω) (id : String) (workflow : Workflow)
    (input : Fields) : Except EngineError Execution × EngineState ε π ω :=
  if s.shuttingDown then (.error .shuttingDown, s)
  else
    let record := Execution.make id workflow.id input (ex.now s.world)
    (.ok record,
      { s with
        active := Keyed.insert s.active id {}
        workers := Keyed.insert s.workers id ⟨workflow, .spawned record⟩ }.wake [.worker id])

/-- Ask for a run to be cancelled. Answers whether it was still active and not over. -/
def cancel (s : EngineState ε π ω) (id : String) : Bool × EngineState ε π ω :=
  match Keyed.get? s.active id with
  | none => (false, s)
  | some run =>
    if run.status.isTerminal then (false, s)
    else (true, (s.updateActive id fun run => { run with cancelled := true }).wake [.worker id])

/-- Drop the record of a run that is over. -/
def forget (s : EngineState ε π ω) (id : String) : Option Execution × EngineState ε π ω :=
  (Keyed.get? s.finished id, { s with finished := Keyed.erase s.finished id })

/-! ## Moves of workers -/

/-- How the outcome of a traversal ends a run: the status and the error. -/
def verdict : Traversal.Outcome → ExecutionStatus × Option String
  | .returned (.ok ()) => (.completed, none)
  | .returned (.error .cancelled) => (.cancelled, some EngineError.cancelled.message)
  | .returned (.error e) => (.failed, some e.message)
  | .crashed => (.failed, some "Execution panicked")

/-- Finish the record of a run; it is to be stored next. -/
def finishRun (ex : Executors ε π ω) (s : EngineState ε π ω) (id : String) (record : Execution)
    (outcome : Traversal.Outcome) : EngineState ε π ω :=
  let now := ex.now s.world
  let (status, error) := verdict outcome
  let record := record.finish status error now
  (s.emit [.executionFinished id record.status
    (now.nanosSince record.startedAt / 1000000) now]).setPhase id (.storing record)

/-- End a traversal: give up the registry and the permit, and finish the record. -/
def leave (ex : Executors ε π ω) (s : EngineState ε π ω) (id : String) (record : Execution)
    (outcome : Traversal.Outcome) : EngineState ε π ω :=
  ((s.releaseRegistry (.worker id)).releasePermit).finishRun ex id record outcome

/-- Take the next node: pass it over, refuse it, call its executor, or end the traversal. -/
def takeNode (ex : Executors ε π ω) (s : EngineState ε π ω) (id : String) (w : Workflow)
    (t : Traversal) : EngineState ε π ω :=
  match t.step w (Traversal.view s.registry (s.isCancelled id) (ex.now s.world)) with
  | .ended outcome => s.leave ex id t.record (.returned outcome)
  | .passed t => s.setPhase id (.traversing t)
  | .refused t events => (s.emit events).setPhase id (.traversing t)
  | .entered executor node inputs t event =>
    (s.emit [event]).setPhase id
      (.calling t node (ex.begin executor ⟨node, inputs, t.context⟩))

/-- Take over what a process did when it was polled: the world, its events, and that the run is
to be cancelled if it asked for that. -/
def heed (ex : Executors ε π ω) (s : EngineState ε π ω) (id : String) (node : Node)
    (progress : Progress π) (world : ω) : EngineState ε π ω :=
  let s := { s with world }.emit
    (progress.events.map fun e => .nodeEvent id node.id e (ex.now world))
  if progress.cancels then s.updateActive id fun run => { run with cancelled := true } else s

/-- Poll the executor at work on a node: wait for it further, take its answer, or end the
traversal with its defect. -/
def attend (ex : Executors ε π ω) (s : EngineState ε π ω) (id : String) (w : Workflow)
    (t : Traversal) (node : Node) (p : π) : EngineState ε π ω :=
  let (progress, world) := ex.poll p (s.isCancelled id) s.world
  let s := s.heed ex id node progress world
  match progress.state with
  | .inl p => s.setPhase id (.calling t node p)
  | .inr .crashed => s.leave ex id t.record .crashed
  | .inr (.answered answer) =>
    let (t, event) := t.complete w node answer (ex.now world)
    (s.emit [event]).setPhase id (.traversing t)

/-- The registry is held: traverse the workflow from its triggers. -/
def beginTraversal (ex : Executors ε π ω) (s : EngineState ε π ω) (id : String) (w : Workflow)
    (record : Execution) : EngineState ε π ω :=
  if w.triggers.isEmpty then s.leave ex id record (.returned (.error .noTriggerNode))
  else
    s.setPhase id
      (.traversing (Traversal.start w record { executionId := id, input := record.input }))

/-- The permit is held: the run is running and asks for the registry. -/
def admitRun (ex : Executors ε π ω) (s : EngineState ε π ω) (id : String) (w : Workflow)
    (record : Execution) : EngineState ε π ω :=
  let s := s.updateActive id fun run => { run with status := .running }
  let s := s.emit [.executionStarted id w.id (ex.now s.world)]
  { s with lock := s.lock.request (.worker id) .read }.setPhase id
    (.awaitingRegistry record.markRunning)

/-- The record is final: the run leaves the active ones, and its record can be looked up. Those
who wait for the run have not been told yet. -/
def store (s : EngineState ε π ω) (id : String) (record : Execution) : EngineState ε π ω :=
  { s with
    active := Keyed.erase s.active id
    finished := Keyed.insert s.finished id record
    untold := s.untold ++ [id]
    workers := Keyed.erase s.workers id }

/-- The calls that wait for a run to be over. -/
def waitingFor (s : EngineState ε π ω) (id : String) : List Task :=
  s.calls.filterMap fun call =>
    match call.2 with
    | .waitingForRun other => if other = id then some (Task.call call.1) else none
    | .waitingForRuns ids => if ids.contains id then some (Task.call call.1) else none
    | _ => none

/-- Tell those who wait for a run that its record is stored: they can move. -/
def tell (s : EngineState ε π ω) (id : String) : EngineState ε π ω :=
  if s.untold.contains id then
    { s with untold := s.untold.filter (· ≠ id) }.wake (s.waitingFor id)
  else s

/-- A move of the worker of a run. When its record is stored, all that is left is to tell those
who wait for the run. -/
def pollWorker (ex : Executors ε π ω) (s : EngineState ε π ω) (id : String) :
    EngineState ε π ω :=
  match Keyed.get? s.workers id with
  | none => s.tell id
  | some ⟨w, phase⟩ =>
    let cancelled := s.isCancelled id
    match phase with
    | .spawned record =>
      if cancelled then s.finishRun ex id record (.returned (.error .cancelled))
      else match s.permits.acquire id with
        | (true, permits) => { s with permits }.admitRun ex id w record
        | (false, permits) => { s with permits }.setPhase id (.queued record)
    | .queued record =>
      if cancelled then
        { s with permits := s.permits.leave id }.finishRun ex id record
          (.returned (.error .cancelled))
      else s
    | .permitted record =>
      if cancelled then
        s.releasePermit.finishRun ex id record (.returned (.error .cancelled))
      else s.admitRun ex id w record
    | .awaitingRegistry record =>
      if s.lock.holds (.worker id) then s.beginTraversal ex id w record else s
    | .traversing t => s.takeNode ex id w t
    | .calling t node p => s.attend ex id w t node p
    | .storing record => s.store id record

/-! ## Moves of calls -/

/-- Move a call to a state. -/
def setCall (s : EngineState ε π ω) (n : Nat) (state : CallState) : EngineState ε π ω :=
  { s with calls := s.calls.map fun call => if call.1 = n then (n, state) else call }

/-- Answer a call. -/
def answer (s : EngineState ε π ω) (n : Nat) (a : CallAnswer) : EngineState ε π ω :=
  { s with
    calls := s.calls.filter fun call => call.1 ≠ n
    answers := s.answers ++ [(n, a)] }

/-- What a request wants the registry for. -/
def Request.access : Request → Access
  | .start | .shutdown => .write
  | .nodeTypes | .get _ => .read

/-- The registry is held: do what the call wants it for, and give it up. -/
def useRegistry (ex : Executors ε π ω) (s : EngineState ε π ω) (n : Nat) :
    Request → EngineState ε π ω
  | .start =>
    let (result, registry, world) := s.registry.startAll ex.hooks s.world
    ({ s with registry, world }.releaseRegistry (.call n)).answer n (.done result)
  | .shutdown =>
    let (result, registry, world) := s.registry.stopAll ex.hooks s.world
    ({ s with registry, world }.releaseRegistry (.call n)).answer n (.done result)
  | .nodeTypes => (s.releaseRegistry (.call n)).answer n (.nodeTypes s.registry.nodeTypes)
  | .get _ => s.releaseRegistry (.call n)

/-- Ask for the registry, and use it if it is free. -/
def askRegistry (ex : Executors ε π ω) (s : EngineState ε π ω) (n : Nat) (request : Request) :
    EngineState ε π ω :=
  let s := { s with lock := s.lock.request (.call n) (Request.access request) }
  if s.lock.holds (.call n) then s.useRegistry ex n request
  else s.setCall n (.waitingForRegistry request)

/-- Wait for the workers of runs that are not over, then ask for the registry. -/
def awaitRuns (ex : Executors ε π ω) (s : EngineState ε π ω) (n : Nat) (ids : List String) :
    EngineState ε π ω :=
  match ids.filter fun id => Keyed.contains s.workers id with
  | [] => s.askRegistry ex n .shutdown
  | ids => s.setCall n (.waitingForRuns ids)

/-- Let no further run in, cancel those that are active, and claim their workers: the runs that
no shutdown waits for yet. -/
def closeAdmission (s : EngineState ε π ω) : List String × EngineState ε π ω :=
  let unclaimed := s.active.filter fun entry => !entry.2.claimed
  let active : Keyed ActiveRun := s.active.map fun (id, run) =>
    (id, { run with cancelled := true, claimed := true })
  (Keyed.keys unclaimed,
    ({ s with shuttingDown := true, active } : EngineState ε π ω).wake
      ((Keyed.keys active).map Task.worker))

/-- The record of a run that is over, or wait for it. -/
def awaitRun (s : EngineState ε π ω) (n : Nat) (id : String) : EngineState ε π ω :=
  match Keyed.get? s.finished id with
  | some record => s.answer n (.record (some record))
  | none =>
    if Keyed.contains s.active id then s.setCall n (.waitingForRun id)
    else s.answer n (.record none)

/-- Wait until a run is over and those who wait for it are told, then look its record up. -/
def resumeGet (s : EngineState ε π ω) (n : Nat) (id : String) : EngineState ε π ω :=
  if Keyed.contains s.active id || s.untold.contains id then s
  else s.answer n (.record (Keyed.get? s.finished id))

/-- A move of a call. -/
def pollCall (ex : Executors ε π ω) (s : EngineState ε π ω) (n : Nat) : EngineState ε π ω :=
  match s.calls.lookup n with
  | none => s
  | some (.made .shutdown) =>
    let (ids, s) := s.closeAdmission
    s.awaitRuns ex n ids
  | some (.made (.get id)) => s.awaitRun n id
  | some (.made request) => s.askRegistry ex n request
  | some (.waitingForRuns ids) => s.awaitRuns ex n ids
  | some (.waitingForRun id) => s.resumeGet n id
  | some (.waitingForRegistry request) =>
    if s.lock.holds (.call n) then s.useRegistry ex n request else s

/-- What a user who started a run and waited for its record is told. -/
def completion (id : String) : Option Execution → Except EngineError Execution
  | some record => .ok record
  | none => .error (.executionLost id)

/-- Make a call that may have to wait. -/
def makeCall (s : EngineState ε π ω) (n : Nat) (request : Request) : EngineState ε π ω :=
  { s with calls := s.calls ++ [(n, CallState.made request)] }.wake [.call n]

/-- Give up a call: nobody waits for its answer any more. -/
def abandon (s : EngineState ε π ω) (n : Nat) : EngineState ε π ω :=
  { s.releaseRegistry (.call n) with calls := s.calls.filter fun call => call.1 ≠ n }

/-- A move of a task. -/
def poll (ex : Executors ε π ω) (s : EngineState ε π ω) : Task → EngineState ε π ω
  | .worker id => s.pollWorker ex id
  | .call n => s.pollCall ex n

end EngineState

end FlowGraph
