import FlowGraph.Engine.Step
import FlowGraph.Event.Bus

/-!
# A fair schedule

`Engine` runs the tasks of an engine one at a time, each until it has to wait, in the order in
which they were woken, and broadcasts their events. `settle` goes on until nothing can move.
-/

namespace FlowGraph

/-- An engine with its schedule and its observers. -/
structure Engine (ε π ω : Type) where
  state : EngineState ε π ω
  bus : EventBus ExecutionEvent
  /-- The tasks that can move, in the order in which they were woken. -/
  ready : List Task := []
  /-- The number of the next call. -/
  nextCall : Nat := 0

namespace Engine

variable {ε π ω : Type}

/-- An engine without runs and observers. -/
def make (registry : Registry ε) (config : EngineConfig) (world : ω) : Engine ε π ω where
  state := EngineState.make registry config world
  bus := EventBus.make config.bufferSize

/-- Add tasks that are not scheduled yet. -/
def enqueue (ready : List Task) (tasks : List Task) : List Task :=
  tasks.foldl (fun ready t => if ready.contains t then ready else ready ++ [t]) ready

/-- Take over the state after a move: broadcast its events and schedule its tasks. -/
def take (e : Engine ε π ω) (s : EngineState ε π ω) : Engine ε π ω :=
  { e with
    state := { s with emitted := [], woken := [] }
    bus := e.bus.sendAll s.emitted
    ready := enqueue e.ready s.woken }

/-- Whether a worker that was in the phase `before` goes on at once. -/
def goesOn (s : EngineState ε π ω) (id : String) (before : Phase π) : Bool :=
  match (Keyed.get? s.workers id).map Worker.phase, before with
  | some (.traversing _), _ | some (.storing _), _ | none, .storing _ => true
  | some (.awaitingRegistry _), _ => s.lock.holds (.worker id)
  | some (.calling ..), .calling .. => false
  | some (.calling ..), _ => true
  | _, _ => false

/-- Move a worker until it has to wait, at most `fuel` times. -/
def moveWorker (ex : Executors ε π ω) (id : String) : Nat → Engine ε π ω → Engine ε π ω
  | 0, e => e
  | fuel + 1, e =>
    let before := Keyed.get? e.state.workers id
    let e := e.take (e.state.poll ex (.worker id))
    match before with
    | some worker => if goesOn e.state id worker.phase then moveWorker ex id fuel e else e
    | none => e

/-- A bound on the moves of a worker in one turn: two for each node it takes, and those before
and after the traversal. -/
def turnBound (e : Engine ε π ω) (id : String) : Nat :=
  match Keyed.get? e.state.workers id with
  | some worker => 2 * Traversal.bound worker.workflow + 8
  | none => 0

/-- Move a task until it has to wait. -/
def move (ex : Executors ε π ω) (e : Engine ε π ω) (t : Task) : Engine ε π ω :=
  match t with
  | .call _ => e.take (e.state.poll ex t)
  | .worker id => moveWorker ex id (e.turnBound id) e

/-- Move the tasks that can move, at most `fuel` of them. -/
def drainWithin (ex : Executors ε π ω) : Nat → Engine ε π ω → Engine ε π ω
  | 0, e => e
  | fuel + 1, e =>
    match e.ready with
    | [] => e
    | t :: rest => drainWithin ex fuel ({ e with ready := rest }.move ex t)

/-- A bound on the moves until nothing can move: a task is woken only a few times by what it
waits for, and once by each run that ends. -/
def moveBound (e : Engine ε π ω) : Nat :=
  let tasks := e.ready.length + e.state.workers.length + e.state.calls.length + 8
  tasks * tasks

/-- Move tasks until none can move. -/
def settle (ex : Executors ε π ω) (e : Engine ε π ω) : Engine ε π ω :=
  drainWithin ex e.moveBound e

/-- Start a run under a fresh id. -/
def execute (ex : Executors ε π ω) (e : Engine ε π ω) (id : String) (w : Workflow)
    (input : Fields) : Except EngineError Execution × Engine ε π ω :=
  let (result, s) := e.state.execute ex id w input
  (result, e.take s)

/-- Ask for a run to be cancelled. -/
def cancel (e : Engine ε π ω) (id : String) : Bool × Engine ε π ω :=
  let (result, s) := e.state.cancel id
  (result, e.take s)

/-- Drop the record of a run that is over. -/
def forget (e : Engine ε π ω) (id : String) : Option Execution × Engine ε π ω :=
  let (result, s) := e.state.forget id
  (result, e.take s)

/-- Make a call that may have to wait; the result is its number. -/
def request (e : Engine ε π ω) (r : Request) : Nat × Engine ε π ω :=
  (e.nextCall, { e.take (e.state.makeCall e.nextCall r) with nextCall := e.nextCall + 1 })

/-- The answer of a call, if it has one. -/
def answer? (e : Engine ε π ω) (n : Nat) : Option CallAnswer :=
  e.state.answers.lookup n

/-- Wait for the answer of a call: the call moves first, then everything that can move. -/
def waitFor (ex : Executors ε π ω) (e : Engine ε π ω) (n : Nat) :
    Option CallAnswer × Engine ε π ω :=
  let e := ({ e with ready := e.ready.filter (· ≠ Task.call n) }).move ex (.call n)
  match e.answer? n with
  | some a => (some a, e)
  | none =>
    let e := e.settle ex
    (e.answer? n, e)

/-- Change the world from outside, and wake the workers that this concerns. -/
def changeWorld (e : Engine ε π ω) (world : ω) (woken : List String) : Engine ε π ω :=
  e.take ({ e.state with world }.wake (woken.map .worker))

/-- Wait on for the answer of a call while processes of executors are at work elsewhere: each is
polled again, at most `patience` times. -/
def waitOn (ex : Executors ε π ω) (n : Nat) :
    Nat → Engine ε π ω → Option CallAnswer × Engine ε π ω
  | 0, e => (none, e)
  | patience + 1, e =>
    let e := (e.changeWorld e.state.world (e.state.workers.map Prod.fst)).settle ex
    match e.answer? n with
    | some a => (some a, e)
    | none => waitOn ex n patience e

/-- Give up a call. -/
def abandon (e : Engine ε π ω) (n : Nat) : Engine ε π ω :=
  e.take (e.state.abandon n)

/-- Start a run and wait for its record. `none` when it waits for something that no task can
bring about, and that does not come about while processes are polled again `patience` times. -/
def runToCompletion (ex : Executors ε π ω) (patience : Nat) (e : Engine ε π ω) (id : String)
    (w : Workflow) (input : Fields) : Option (Except EngineError Execution) × Engine ε π ω :=
  match e.execute ex id w input with
  | (.error failure, e) => (some (.error failure), e)
  | (.ok _, e) =>
    let (n, e) := e.request (.get id)
    let (answer, e) := match e.waitFor ex n with
      | (none, e) => e.waitOn ex n patience
      | answered => answered
    match answer with
    | some (.record record) => (some (EngineState.completion id record), e)
    | some _ => (some (EngineState.completion id none), e)
    | none => (none, e.abandon n)

end Engine

end FlowGraph
