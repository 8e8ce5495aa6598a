import FlowGraph.Engine.Step
import FlowGraph.Proofs.Builtin.Failures
import FlowGraph.Proofs.Builtin.Polling
import FlowGraph.Proofs.Engine.Lifecycles
import FlowGraph.Proofs.Traversal.Bounds
import FlowGraph.Proofs.Traversal.Failures

/-!
# Running what was checked

A workflow without faults runs on the built-in executors, once they are initialized and unless it is
cancelled: none of its nodes fails because its kind is not supported, and the run succeeds if it
comes to its end.  It does so when the requests that it makes of the database library do
(`RequestsEnd`); nothing puts an end to a request that goes on for ever, so then the run does not
end either (`unfinished_of_endless`).

An initialized registry has the executor of every category in its place (`Covers`), so each call is
made of the executor of its node's category, and then `run_plainly` speaks of its failures.
-/

namespace FlowGraph

namespace Builtin

variable {ν : Type} {r r' : Registry BuiltinExecutor} {w w' : World ν}

/-! ## The registry -/

/-- Every category has its executor. -/
def Covers (r : Registry BuiltinExecutor) : Prop :=
  ∀ t, ∃ e, r.executor? t = some e ∧ e.nodeType = t

lemma covers_registry (settings : ExecutorSettings) : Covers (registry settings) := by
  intro t
  cases t <;> exact ⟨_, rfl, rfl⟩

lemma Covers.set (h : Covers r) {t : NodeType} {e : BuiltinExecutor} (htype : e.nodeType = t) :
    Covers (r.set t e) := by
  intro u
  by_cases hu : u = t
  · exact ⟨e, if_pos hu, htype.trans hu.symm⟩
  · obtain ⟨other, hother, hotherType⟩ := h u
    exact ⟨other, (if_neg hu).trans hother, hotherType⟩

lemma nodeType_start (e : BuiltinExecutor) (w : World ν) :
    (e.start w).2.1.nodeType = e.nodeType := by
  unfold BuiltinExecutor.start
  dsimp only
  split <;> rfl

/-- Initializing executors leaves each in its place. -/
lemma covers_startEach (services : Services ν) (ts started : List NodeType) (h : Covers r)
    (hstart : r.startEach (executors services).hooks ts started w = (.ok (), r', w')) :
    r'.initialized = true ∧ Covers r' := by
  -- each executor that is started goes back to its own place, so the invariant is `Covers`
  induction ts generalizing started r w with
  | nil =>
    cases hstart
    exact ⟨rfl, h⟩
  | cons t ts ih =>
    obtain ⟨e, he, htype⟩ := h t
    rw [Registry.startEach, he] at hstart
    dsimp only at hstart
    split at hstart
    · next e' _ hstarted =>
      have hkept : e'.nodeType = t := by
        rw [← htype, ← nodeType_start e w]
        exact congrArg (fun result => result.2.1.nodeType) hstarted.symm
      exact ih _ (h.set hkept) hstart
    · cases hstart

lemma covers_startAll (services : Services ν) (settings : ExecutorSettings)
    (hstart : (registry settings).startAll (executors services).hooks w = (.ok (), r, w')) :
    r.initialized = true ∧ Covers r :=
  covers_startEach services NodeType.all [] (covers_registry settings) hstart

/-! ## Runs -/

lemma neverCancels (services : Services ν) : Traversal.NeverCancels (executors services) :=
  cancels_poll services

/-- Every request that a run makes of the database library comes to its end. -/
def RequestsEnd (services : Services ν) (r : Registry BuiltinExecutor) (workflow : Workflow)
    (first : Traversal.Running (World ν)) : Prop :=
  ∀ run, Relation.ReflTransGen (Traversal.Goes (executors services) r workflow) first run →
    ∀ executor node inputs next event,
      run.traversal.step workflow
          (Traversal.view r run.cancelled ((executors services).now run.world)) =
        .entered executor node inputs next event →
      ∀ request, executor.request? ⟨node, inputs, next.context⟩ = some request →
        services.database.Ends request run.world.files run.world.peers

/-- Then every call returns. -/
lemma RequestsEnd.callsReturn {services : Services ν} {workflow : Workflow}
    {first : Traversal.Running (World ν)} (h : RequestsEnd services r workflow first) :
    Traversal.CallsReturn (executors services) r workflow first := by
  intro run hrun executor node inputs next event hstep
  exact finishCall_of_ends (h run hrun executor node inputs next event hstep)

/-- The call is one of the node, whose kind is supported, and made of the executor of its
category. -/
structure Suits (node : Node) (p : BuiltinWork) : Prop where
  same : p.call.node = node
  category : p.executor.nodeType = node.nodeType
  kind : node.kindFaults = []

/-- The calls of a workflow whose kinds are supported fail plainly. -/
lemma failsWith_plain (hcovers : Covers r) {workflow : Workflow}
    (hkinds : ∀ node ∈ workflow.nodes, node.kindFaults = []) (exchange : Http.Exchange ν)
    (library : Sql.Library ν) :
    Traversal.FailsWith (executors ⟨exchange, deliverNothing, library⟩) r workflow Suits
      Plain where
  refuse _ hrefused := plain_of_resolveInputs hrefused
  begin executor call hnode hget := by
    obtain ⟨e, he, htype⟩ := hcovers call.node.nodeType
    obtain rfl : executor = e := Option.some.inj ((Registry.get_eq_ok.1 hget).2.symm.trans he)
    exact ⟨rfl, htype, hkinds _ hnode⟩
  poll hsuits hstate := by
    obtain rfl := eq_of_poll hstate
    exact hsuits
  fail {node p cancelled world failure} hsuits hstate := by
    obtain ⟨rfl, hcategory, hkind⟩ := hsuits
    exact (BuiltinExecutor.run_plainly hcategory hkind cancelled world).plain
      (answer_of_poll hstate)

/-- No node has failed because its kind is not supported. -/
def KindsSupported (run : Traversal.Running (World ν)) : Prop :=
  ∀ entry ∈ run.traversal.record.results, ∀ category kind,
    entry.2.error ≠ some (NodeError.unsupported category kind).message

/-- A run succeeds and is completed, and no node of it failed because its kind is not supported. -/
structure RunsThrough (final : Traversal.Outcome × Traversal.Running (World ν)) : Prop where
  succeeds : final.1 = .returned (.ok ())
  completed : (EngineState.verdict final.1).1 = .completed
  supported : KindsSupported final.2

section Checked

variable {workflow : Workflow} {record : Execution}

/-- The kinds of a workflow without faults are supported, however long its run may take. -/
lemma kindsSupported_of_faults (hfaults : workflow.faults = []) (hcovers : Covers r)
    (exchange : Http.Exchange ν) (library : Sql.Library ν) (hfresh : record.results = [])
    (context : Context) (patience : ℕ) (world : World ν) :
    KindsSupported (Traversal.run (executors ⟨exchange, deliverNothing, library⟩) r workflow
      patience record context false world).2 := by
  have hkinds : ∀ node ∈ workflow.nodes, node.kindFaults = [] :=
    (nodeFaults_eq_nil.1 (List.append_eq_nil_iff.1 hfaults).2).2.2
  intro entry hentry category kind herror
  -- the record that the run leaves is that of its last moment
  obtain ⟨m, hreached, htraversal, -⟩ := Traversal.run_reached
    (executors ⟨exchange, deliverNothing, library⟩) r workflow patience record context false world
  rw [← htraversal] at hentry
  have hplain := Traversal.errors_of_reached (failsWith_plain hcovers hkinds exchange library)
    hfresh hreached entry hentry _ herror
  exact hplain.ne_unsupported category kind rfl

/-- **Workflows without faults run through.** -/
lemma runsThrough_of_faults (hfaults : workflow.faults = [])
    (hinitialized : r.initialized = true) (hcovers : Covers r) (exchange : Http.Exchange ν)
    (library : Sql.Library ν) (hfresh : record.results = []) (context : Context) (world : World ν)
    (hends : RequestsEnd ⟨exchange, deliverNothing, library⟩ r workflow
      (.start workflow record context false world)) :
    ∃ patience, ∀ more, RunsThrough (Traversal.run (executors ⟨exchange, deliverNothing, library⟩)
      r workflow (patience + more) record context false world) := by
  have hserved : ∀ t, (r.executor? t).isSome = true := by
    intro t
    obtain ⟨e, he, -⟩ := hcovers t
    rw [he]
    rfl
  have htriggers : workflow.triggers ≠ [] := (Workflow.faults_eq_nil.1 hfaults).1
  obtain ⟨patience, result, final, hreturns⟩ := (Traversal.run_bounded
    (executors ⟨exchange, deliverNothing, library⟩) r workflow record context false
    world).returns hends.callsReturn
  refine ⟨patience, fun more => ?_⟩
  have hsucceeds := Traversal.succeeds_of_returned
    (neverCancels ⟨exchange, deliverNothing, library⟩) hinitialized hserved htriggers
    (patience + more) record context world (by rw [hreturns]; nofun)
  exact ⟨hsucceeds, by rw [hsucceeds]; rfl,
    kindsSupported_of_faults hfaults hcovers exchange library hfresh context _ world⟩

end Checked

end Builtin

namespace Workflow

/-- **Checking is sound and complete.**  A workflow has no fault exactly if it has a trigger, its
nodes have different ids, and each node that is no trigger asks for no kind or for one of its
category, written as a variant.  No node of a workflow without faults fails because its kind is not
supported, and the workflow runs through when its database requests come to their ends: whatever the
input, the peers, the library and the world, on the built-in executors, initialized with whatever
settings, the run succeeds and is completed. -/
theorem faults_sound_complete (workflow : Workflow) :
    (workflow.faults = [] ↔
      workflow.triggers ≠ [] ∧ (workflow.nodes.map Node.id).Nodup ∧
        ∀ node ∈ workflow.nodes, node.nodeType ≠ .trigger → node.ChoosesKind) ∧
    (workflow.faults = [] →
      ∀ {ν : Type} (exchange : Http.Exchange ν) (library : Sql.Library ν)
        (settings : ExecutorSettings) (r : Registry BuiltinExecutor) (before after : World ν),
        let executors := Builtin.executors ⟨exchange, deliverNothing, library⟩
        (Builtin.registry settings).startAll executors.hooks before = (.ok (), r, after) →
        ∀ (record : Execution) (context : Context) (world : World ν), record.results = [] →
          (∀ patience, Builtin.KindsSupported
            (Traversal.run executors r workflow patience record context false world).2) ∧
          (Builtin.RequestsEnd ⟨exchange, deliverNothing, library⟩ r workflow
              (.start workflow record context false world) →
            ∃ patience, ∀ more, Builtin.RunsThrough
              (Traversal.run executors r workflow (patience + more) record context false world))) := by
  refine ⟨faults_eq_nil, ?_⟩
  intro hfaults ν exchange library settings r before after executors hstart record context world
    hfresh
  obtain ⟨hinitialized, hcovers⟩ := Builtin.covers_startAll _ settings hstart
  refine ⟨fun patience => ?_, fun hends => ?_⟩
  · exact Builtin.kindsSupported_of_faults hfaults hcovers exchange library hfresh context patience
      world
  · exact Builtin.runsThrough_of_faults hfaults hinitialized hcovers exchange library hfresh context
      world hends

/-- A trigger of an unknown kind, a node that asks a database, and a node whose kind is written as
an object. -/
def lenientAndWrapped (query : String) : Workflow where
  id := "flow"
  name := "flow"
  nodes :=
    [{ id := "start", nodeType := .trigger, config := [("type", .bool true)] },
      { id := "ask", nodeType := .dataSource
        config := [("type", .str "database_query"), ("query", .str query)]
        inputs := [{ id := "query", required := true }] },
      { id := "finish", nodeType := .output, config := [("type", .obj [("file_writer", .null)])] }]
  edges :=
    [{ id := "e", source := "start", target := "ask", kind := .success },
      { id := "f", source := "ask", target := "finish", kind := .success }]

/-- A library that gives one row, when a request is looked at for the second time. -/
def secondLook : Sql.Library Bool where
  underWay _ fs seen := if seen then none else some (fs, true)
  answer _ fs _ := (.ok ⟨["one"], [[.integer 1]]⟩, fs, false)

/-- The run goes through, although the output fails for want of a path. -/
theorem faults_sound_complete_lenientAndWrapped :
    let services : Services Bool := ⟨fun _ peers => (none, peers), deliverNothing, secondLook⟩
    let world : World Bool := { clock := default, peers := false }
    let record := Execution.make "run" "flow" [] default
    let context : Context := { executionId := "run", input := [] }
    let workflow := lenientAndWrapped "SELECT 1 AS one"
    ∃ r after, (Builtin.registry {}).startAll (Builtin.executors services).hooks world =
        (.ok (), r, after) ∧
      workflow.faults = [] ∧ (workflow.nodes.map Node.id).Nodup ∧
      Builtin.RequestsEnd services r workflow (.start workflow record context false after) ∧
      ∃ patience, ∀ more, Builtin.RunsThrough (Traversal.run (Builtin.executors services) r
        workflow (patience + more) record context false after) := by
  intro services world record context workflow
  have hfaults : workflow.faults = [] := by decide
  obtain ⟨hiff, hruns⟩ := faults_sound_complete workflow
  have hstart : (Builtin.registry {}).startAll (Builtin.executors services).hooks world =
      (.ok (), _, _) := rfl
  have hends : ∀ request fs seen, secondLook.Ends request fs seen := by
    intro request fs seen
    cases seen with
    | true => exact .now rfl
    | false => exact .later rfl (.now rfl)
  have hrequests : ∀ r first, Builtin.RequestsEnd services r workflow first :=
    fun r first run _ executor node inputs next event _ request _ => hends request _ _
  exact ⟨_, _, hstart, hfaults, (hiff.1 hfaults).2.1, hrequests _ _,
    (hruns hfaults _ _ {} _ world _ hstart record context _ rfl).2 (hrequests _ _)⟩

/-- A query for the rows with a certain property, which none has, of a table without an end. -/
def endlessQuery : String :=
  "WITH RECURSIVE c(x) AS (SELECT 1 UNION ALL SELECT x + 1 FROM c) SELECT x AS n FROM c WHERE x < 0"

/-- A library that goes through a table without an end. -/
def searching : Sql.Library Unit where
  underWay _ fs peers := some (fs, peers)
  answer _ fs peers := (.ok ⟨["n"], []⟩, fs, peers)

/-- Without an end of its request a run has none, although its workflow has no fault. -/
theorem unfinished_of_endless :
    let services : Services Unit := ⟨fun _ peers => (none, peers), deliverNothing, searching⟩
    let world : World Unit := { clock := default, peers := () }
    let record := Execution.make "run" "flow" [] default
    let context : Context := { executionId := "run", input := [] }
    let workflow := lenientAndWrapped endlessQuery
    ∃ r after, (Builtin.registry {}).startAll (Builtin.executors services).hooks world =
        (.ok (), r, after) ∧
      workflow.faults = [] ∧
      ∀ patience, ¬ Builtin.RunsThrough (Traversal.run (Builtin.executors services) r workflow
        patience record context false after) := by
  intro services world record context workflow
  let executors := Builtin.executors services
  let started := (Builtin.registry {}).startAll executors.hooks world
  let first := Traversal.Running.start workflow record context false started.2.2
  have hstart : started = (.ok (), started.2.1, started.2.2) := rfl
  refine ⟨started.2.1, started.2.2, hstart, by decide, fun patience hruns => ?_⟩
  have htriggers : workflow.triggers.isEmpty = false := by decide
  have hloop := hruns.succeeds
  rw [Traversal.run, htriggers] at hloop
  replace hloop : (Traversal.loop executors started.2.1 workflow patience 4 first).1 =
      .returned (.ok ()) := hloop
  rcases patience with _ | patience
  · cases hloop
  · -- the trigger answers, and the node after it makes the request
    obtain ⟨second, executor, node, inputs, next, event, request, hturn, hstep, hrequest⟩ :
        ∃ second executor node inputs next event request,
          Traversal.turn executors started.2.1 workflow (patience + 1) first = .inl second ∧
            second.traversal.step workflow (Traversal.view started.2.1 second.cancelled
              (executors.now second.world)) = .entered executor node inputs next event ∧
            executor.request? ⟨node, inputs, { executionId := "run", input := [] }⟩ =
              some request :=
      ⟨_, _, _, _, _, _, _, rfl, rfl, rfl⟩
    rw [BuiltinExecutor.request?_context _ _ _ _ next.context] at hrequest
    let called := second.calling next event ⟨node, inputs, next.context⟩
    have hcall : Traversal.finishCall executors next.record.id node.id (patience + 1)
        (executors.begin executor ⟨node, inputs, next.context⟩) called.toScene = none :=
      Builtin.finishCall_of_endless hrequest (fun _ _ => rfl) _
    rw [Traversal.loop_succ, hturn] at hloop
    dsimp only at hloop
    rw [Traversal.loop_succ, Traversal.turn, hstep] at hloop
    dsimp only at hloop
    rw [hcall] at hloop
    cases hloop

end Workflow

end FlowGraph
