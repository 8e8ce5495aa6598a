import FlowGraph.Executor

/-!
# Traversal of a workflow

A run visits nodes depth-first: it starts at the triggers in the order of their declaration, and
after each node goes on with the node's successors in the order of the edges. The nodes still to
be visited stand on an agenda; a node whose id has a result already is passed over, so a run
enters each id at most once, whatever cycles the graph has.

`Traversal.step` takes the next node off the agenda. When the node's executor has to be called,
the traversal stops there, and `Traversal.complete` goes on with the answer.
-/

namespace FlowGraph

/-- A traversal between two nodes, or waiting for the node it entered last. -/
structure Traversal where
  /-- The nodes to visit, the next one first. -/
  agenda : List Node
  record : Execution
  context : Context
deriving Repr

namespace Traversal

variable {ε π ω : Type}

/-- What a traversal sees of its surroundings when it takes a node. -/
structure View (ε : Type) where
  cancelled : Bool
  /-- The executor of a category. -/
  executor : NodeType → Except EngineError ε
  now : Timestamp

/-- What taking the next node comes to. -/
inductive Turn (ε : Type) where
  /-- The traversal is over. -/
  | ended (outcome : Except EngineError Unit)
  /-- The node has a result already. -/
  | passed (next : Traversal)
  /-- The node was entered, but its inputs are missing. -/
  | refused (next : Traversal) (events : List ExecutionEvent)
  /-- The node was entered, and its executor is to be called. -/
  | entered (executor : ε) (node : Node) (inputs : NodeInputs) (next : Traversal)
      (event : ExecutionEvent)

/-- The traversal of a workflow before its first node. -/
def start (w : Workflow) (record : Execution) (context : Context) : Traversal :=
  { agenda := w.triggers, record, context }

/-- The time since a node was started, in seconds. -/
def secondsSince (started now : Timestamp) : Double :=
  Double.ofRatio false (now.nanosSince started) 1000000000

/-- The time since a node was started, in whole milliseconds. -/
def millisSince (started now : Timestamp) : Nat :=
  now.nanosSince started / 1000000

/-- Enter a node: its result is running, and its place is the number of results before it. -/
def enter (t : Traversal) (node : Node) (now : Timestamp) : Traversal :=
  { t with
    record := t.record.setResult node.id
      (NodeResult.started node.id t.record.results.length now) }

/-- The event of entering a node. -/
def enterEvent (t : Traversal) (node : Node) (now : Timestamp) : ExecutionEvent :=
  .nodeStarted t.record.id node.id node.nodeType now

/-- Take the answer of the node entered last: record it, publish the declared outputs or the
failure, and put the successors on the agenda. -/
def complete (w : Workflow) (node : Node) (answer : Except NodeError Fields) (now : Timestamp)
    (t : Traversal) : Traversal × ExecutionEvent :=
  let started := ((t.record.result? node.id).map NodeResult.startedAt).getD now
  let update (change : NodeResult → NodeResult) : Execution :=
    { t.record with results := Keyed.modify t.record.results node.id change }
  match answer with
  | .ok output =>
    ({ agenda := w.successors node.id .success ++ t.agenda
       record := update fun r => r.succeed output (secondsSince started now) now
       context := t.context.publishDeclared node.id node.outputs output },
      .nodeCompleted t.record.id node.id (millisSince started now) now)
  | .error e =>
    ({ agenda := w.successors node.id .failure ++ t.agenda
       record := update fun r => r.fail e.message (secondsSince started now) now
       context := t.context.recordError node.id e.message },
      .nodeFailed t.record.id node.id e.message now)

/-- Take the next node. -/
def step (w : Workflow) (view : View ε) (t : Traversal) : Turn ε :=
  match t.agenda with
  | [] => .ended (.ok ())
  | node :: rest =>
    let t := { t with agenda := rest }
    if view.cancelled then .ended (.error .cancelled)
    else if Keyed.contains t.record.results node.id then .passed t
    else
      match view.executor node.nodeType with
      | .error e => .ended (.error e)
      | .ok executor =>
        let entered := t.enter node view.now
        let event := t.enterEvent node view.now
        match node.resolveInputs t.context.input with
        | .ok inputs => .entered executor node inputs entered event
        | .error e =>
          let (next, failed) := entered.complete w node (.error e) view.now
          .refused next [event, failed]

/-- How many nodes a traversal can take off its agenda: each trigger once, and the target of each
edge once, since the edges of an id are put on the agenda only when it is entered. -/
def bound (w : Workflow) : Nat := w.triggers.length + w.edges.length

/-! ## Traversal by itself -/

/-- How a traversal ends. -/
inductive Outcome where
  | returned (result : Except EngineError Unit)
  | crashed

/-- What surrounds a traversal that is run to its end in a world. -/
structure Scene (ω : Type) where
  events : List ExecutionEvent := []
  /-- The calls made of executors, in order. -/
  calls : List ExecutorCall := []
  cancelled : Bool
  world : ω

/-- A traversal that is run to its end in a world. -/
structure Running (ω : Type) extends Scene ω where
  traversal : Traversal

/-- Poll a process until it ends; `none` when it has not ended after `fuel` polls. -/
def finishCall (ex : Executors ε π ω) (id nodeId : String) :
    Nat → π → Scene ω → Option (CallOutcome × Scene ω)
  | 0, _, _ => none
  | fuel + 1, p, scene =>
    let (progress, world) := ex.poll p scene.cancelled scene.world
    let now := ex.now world
    let scene := { scene with
      events := scene.events ++ progress.events.map fun e => .nodeEvent id nodeId e now
      cancelled := scene.cancelled || progress.cancels
      world }
    match progress.state with
    | .inl p => finishCall ex id nodeId fuel p scene
    | .inr outcome => some (outcome, scene)

/-- What a traversal sees in a registry. -/
def view (r : Registry ε) (cancelled : Bool) (now : Timestamp) : View ε where
  cancelled := cancelled
  executor := r.get
  now := now

/-- Take nodes until the traversal is over. A call that does not end within `patience` polls
counts as a defect. -/
def loop (ex : Executors ε π ω) (r : Registry ε) (w : Workflow)
    (patience : Nat) : Nat → Running ω → Outcome × Running ω
  | 0, run => (.returned (.ok ()), run)
  | fuel + 1, run =>
    match run.traversal.step w (view r run.cancelled (ex.now run.world)) with
    | .ended outcome => (.returned outcome, run)
    | .passed next => loop ex r w patience fuel { run with traversal := next }
    | .refused next events =>
      loop ex r w patience fuel { run with traversal := next, events := run.events ++ events }
    | .entered executor node inputs next event =>
      let call : ExecutorCall := ⟨node, inputs, next.context⟩
      let run := { run with
        traversal := next
        events := run.events ++ [event]
        calls := run.calls ++ [call] }
      match finishCall ex next.record.id node.id patience (ex.begin executor call) run.toScene with
      | none => (.crashed, run)
      | some (.crashed, scene) => (.crashed, { run with toScene := scene })
      | some (.answered answer, scene) =>
        let (next, event) := next.complete w node answer (ex.now scene.world)
        loop ex r w patience fuel
          { scene with traversal := next, events := scene.events ++ [event] }

/-- Run a traversal to its end. A workflow without a trigger cannot run. -/
def run (ex : Executors ε π ω) (r : Registry ε) (w : Workflow) (patience : Nat)
    (record : Execution) (context : Context) (cancelled : Bool) (world : ω) :
    Outcome × Running ω :=
  let running : Running ω := { traversal := start w record context, cancelled, world }
  if w.triggers.isEmpty then (.returned (.error .noTriggerNode), running)
  else loop ex r w patience (bound w + 1) running

end Traversal

end FlowGraph
