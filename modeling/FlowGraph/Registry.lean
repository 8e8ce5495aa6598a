import FlowGraph.Error

/-!
# Registry of executors

A registry holds at most one executor for each category of nodes and takes care of their
lifecycle: all are initialized together and shut down together, in the order of the categories.
`Lifecycle` says what the two hooks of an executor do to it and to the world around it.

When an executor fails to initialize, those initialized before it are shut down again. A
shutdown goes through all executors, whatever fails.
-/

namespace FlowGraph

/-- The hooks of executors of type `ε` in a world of type `ω`. A hook fails with an error or
succeeds, and leaves a new executor and a new world. -/
structure Lifecycle (ε ω : Type) where
  start : ε → ω → Option NodeError × ε × ω
  stop : ε → ω → Option NodeError × ε × ω

/-- The registered executors, and whether they are initialized. -/
structure Registry (ε : Type) where
  executor? : NodeType → Option ε := fun _ => none
  initialized : Bool := false

namespace Registry

variable {ε ω : Type}

/-- A registry without executors. -/
def empty : Registry ε := {}

/-- Put an executor in the place of any other of its category. -/
def set (r : Registry ε) (t : NodeType) (e : ε) : Registry ε :=
  { r with executor? := fun u => if u = t then some e else r.executor? u }

/-- Register an executor; the result says whether it replaced another. -/
def register (r : Registry ε) (t : NodeType) (e : ε) : Bool × Registry ε :=
  ((r.executor? t).isSome, r.set t e)

/-- The categories with an executor, in order. -/
def nodeTypes (r : Registry ε) : List NodeType :=
  NodeType.all.filter fun t => (r.executor? t).isSome

/-- The executor for a category. -/
def get (r : Registry ε) (t : NodeType) : Except EngineError ε :=
  if r.initialized then
    match r.executor? t with
    | some e => .ok e
    | none => .error (.noExecutor t)
  else .error .registryNotInitialized

/-- Shut down the executors of the given categories, in their order, and collect the failures. -/
def stopEach (hooks : Lifecycle ε ω) :
    List NodeType → Registry ε → ω → List (NodeType × NodeError) × Registry ε × ω
  | [], r, world => ([], r, world)
  | t :: ts, r, world =>
    match r.executor? t with
    | none => stopEach hooks ts r world
    | some e =>
      let (failure, e, world) := hooks.stop e world
      let (failures, r, world) := stopEach hooks ts (r.set t e) world
      match failure with
      | some error => ((t, error) :: failures, r, world)
      | none => (failures, r, world)

/-- Initialize the executors of the given categories, in their order. `started` are those
initialized before, which are shut down again when one fails. -/
def startEach (hooks : Lifecycle ε ω) :
    List NodeType → List NodeType → Registry ε → ω → Except EngineError Unit × Registry ε × ω
  | [], _, r, world => (.ok (), { r with initialized := true }, world)
  | t :: ts, started, r, world =>
    match r.executor? t with
    | none => startEach hooks ts started r world
    | some e =>
      match hooks.start e world with
      | (none, e, world) => startEach hooks ts (started ++ [t]) (r.set t e) world
      | (some error, e, world) =>
        let (_, r, world) := stopEach hooks started (r.set t e) world
        (.error (.initialization t error), r, world)

/-- Initialize all executors, unless they are. -/
def startAll (hooks : Lifecycle ε ω) (r : Registry ε) (world : ω) :
    Except EngineError Unit × Registry ε × ω :=
  if r.initialized then (.ok (), r, world)
  else startEach hooks NodeType.all [] r world

/-- Shut down all executors. -/
def stopAll (hooks : Lifecycle ε ω) (r : Registry ε) (world : ω) :
    Except EngineError Unit × Registry ε × ω :=
  let (failures, r, world) := stopEach hooks NodeType.all r world
  (if failures.isEmpty then .ok () else .error (.shutdown failures),
    { r with initialized := false }, world)

end Registry

end FlowGraph
