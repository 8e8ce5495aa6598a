import FlowGraph.Proofs.Traversal.Taking
import Mathlib.Data.Nat.Basic
import Mathlib.Tactic.Common

/-!
# The moments of a run

The traversal works off its agenda in turns.  This file looks inside a turn: `Moment.Step` leads
from one moment of a run to the next, where a node has been entered but not been called, or an
executor is at work on it.  `run_reached` shows that the traversal goes through such moments up to
the state it ends in.  Between two moments the surroundings may interfere: somebody else may
cancel the run or change the world.

The turns come to an end because of the *open edges*, those whose source has no result: entering a
node closes all edges that leave it, and its successors are paid for by them.  So the length of
the agenda plus the number of open edges, the `work` that is left, falls with every turn.
-/

namespace FlowGraph

namespace Traversal

variable {ε π ω : Type}

/-! ## The work that is left -/

/-- How many edges leave an id that has no result. -/
def openEdges (w : Workflow) (results : Keyed NodeResult) : ℕ :=
  w.edges.countP fun e => !Keyed.contains results e.source

/-- How many edges leave an id. -/
def edgesFrom (w : Workflow) (id : String) : ℕ :=
  w.edges.countP fun e => e.source = id

lemma length_successors_le (w : Workflow) (id : String) (kind : EdgeKind) :
    (w.successors id kind).length ≤ edgesFrom w id := by
  refine le_trans (List.length_filterMap_le _ _) ?_
  rw [← List.countP_eq_length_filter]
  refine List.countP_mono_left fun e _ he => ?_
  simp only [Bool.and_eq_true] at he
  exact he.1

/-- A result for an id without one closes the edges that leave the id. -/
lemma openEdges_insert (w : Workflow) {results : Keyed NodeResult} {id : String}
    (h : Keyed.contains results id = false) (r : NodeResult) :
    openEdges w (Keyed.insert results id r) + edgesFrom w id = openEdges w results := by
  unfold openEdges edgesFrom
  induction w.edges with
  | nil => rfl
  | cons e es ih =>
    simp only [List.countP_cons, Keyed.contains_insert] at ih ⊢
    by_cases he : id = e.source
    · subst he
      simp only [decide_true, Bool.true_or, Bool.not_true, Bool.false_eq_true, if_false, if_true,
        h, Bool.not_false]
      omega
    · simp only [he, Ne.symm he, decide_false, Bool.false_or, Bool.false_eq_true, if_false]
      omega

lemma openEdges_modify (w : Workflow) (results : Keyed NodeResult) (id : String)
    (change : NodeResult → NodeResult) :
    openEdges w (Keyed.modify results id change) = openEdges w results := by
  simp only [openEdges, Keyed.contains_modify]

/-- A bound on the turns that are left. -/
def work (w : Workflow) (t : Traversal) : ℕ :=
  t.agenda.length + openEdges w t.record.results

lemma work_enter (w : Workflow) {t : Traversal} {node : Node}
    (h : Keyed.contains t.record.results node.id = false) (now : Timestamp) :
    (t.enter node now).work w + edgesFrom w node.id = t.work w := by
  have hopen := openEdges_insert w h
    (NodeResult.started node.id t.record.results.length now)
  simp only [work, enter, Execution.setResult]
  omega

lemma work_complete_le (w : Workflow) (node : Node) (answer : Except NodeError Fields)
    (now : Timestamp) (t : Traversal) :
    (t.complete w node answer now).1.work w ≤ t.work w + edgesFrom w node.id := by
  cases answer with
  | ok output =>
    have hlen := length_successors_le w node.id .success
    simp only [work, complete, openEdges_modify, List.length_append]
    omega
  | error e =>
    have hlen := length_successors_le w node.id .failure
    simp only [work, complete, openEdges_modify, List.length_append]
    omega

/-! ## The turns of the loop -/

/-- Take a node off the agenda, which leaves `rest`. -/
def Running.pass (rest : List Node) (run : Running ω) : Running ω :=
  { run with traversal := { run.traversal with agenda := rest } }

/-- Enter a node. -/
def Running.enter (ex : Executors ε π ω) (node : Node) (run : Running ω) : Running ω :=
  { run with
    traversal := run.traversal.enter node (ex.now run.world)
    events := run.events ++ [run.traversal.enterEvent node (ex.now run.world)] }

/-- The call of the executor of the node entered last. -/
def Running.call (node : Node) (inputs : NodeInputs) (run : Running ω) : ExecutorCall :=
  ⟨node, inputs, run.traversal.context⟩

/-- Make the call of an executor. -/
def Running.called (node : Node) (inputs : NodeInputs) (run : Running ω) : Running ω :=
  { run with calls := run.calls ++ [run.call node inputs] }

/-- Take the answer of the node entered last. -/
def Running.complete (ex : Executors ε π ω) (w : Workflow) (node : Node)
    (answer : Except NodeError Fields) (run : Running ω) : Running ω :=
  let completed := run.traversal.complete w node answer (ex.now run.world)
  { run with traversal := completed.1, events := run.events ++ [completed.2] }

/-- The scene after a process was polled. -/
def Scene.polled (ex : Executors ε π ω) (id nodeId : String) (p : π) (scene : Scene ω) :
    Scene ω :=
  let (progress, world) := ex.poll p scene.cancelled scene.world
  { scene with
    events := scene.events ++ progress.events.map fun e => .nodeEvent id nodeId e (ex.now world)
    cancelled := scene.cancelled || progress.cancels
    world }

lemma finishCall_succ (ex : Executors ε π ω) (id nodeId : String) (fuel : ℕ) (p : π)
    (scene : Scene ω) :
    finishCall ex id nodeId (fuel + 1) p scene =
      match (ex.poll p scene.cancelled scene.world).1.state with
      | .inl p' => finishCall ex id nodeId fuel p' (scene.polled ex id nodeId p)
      | .inr outcome => some (outcome, scene.polled ex id nodeId p) := rfl

section Loop

variable (ex : Executors ε π ω) (r : Registry ε) (w : Workflow) (patience fuel : ℕ)
variable {run : Running ω} {node : Node} {rest : List Node}

lemma loop_nil (h : run.traversal.agenda = []) :
    loop ex r w patience (fuel + 1) run = (.returned (.ok ()), run) := by
  simp only [loop, step, h]

lemma loop_cancelled (h : run.traversal.agenda = node :: rest) (hc : run.cancelled = true) :
    loop ex r w patience (fuel + 1) run = (.returned (.error .cancelled), run) := by
  simp [loop, step, view, h, hc]

/-- A node with a result is passed over. -/
lemma loop_passed (h : run.traversal.agenda = node :: rest) (hc : run.cancelled = false)
    (hk : Keyed.contains run.traversal.record.results node.id = true) :
    loop ex r w patience (fuel + 1) run =
      loop ex r w patience fuel (run.pass rest) := by
  simp [loop, step, view, h, hc, hk, Running.pass]

lemma loop_unserved (h : run.traversal.agenda = node :: rest) (hc : run.cancelled = false)
    (hk : Keyed.contains run.traversal.record.results node.id = false)
    {failure : EngineError} (hget : r.get node.nodeType = .error failure) :
    loop ex r w patience (fuel + 1) run = (.returned (.error failure), run) := by
  simp [loop, step, view, h, hc, hk, hget]

/-- A node whose inputs are missing fails without a call. -/
lemma loop_refused (h : run.traversal.agenda = node :: rest) (hc : run.cancelled = false)
    (hk : Keyed.contains run.traversal.record.results node.id = false)
    {executor : ε} (hget : r.get node.nodeType = .ok executor)
    {failure : NodeError}
    (hin : node.resolveInputs run.traversal.context.input = .error failure) :
    loop ex r w patience (fuel + 1) run =
      loop ex r w patience fuel
        (((run.pass rest).enter ex node).complete ex w node (.error failure)) := by
  simp [loop, step, view, h, hc, hk, hget, hin, Running.pass, Running.enter, Running.complete]

/-- Any other node is entered, and its executor is called. -/
lemma loop_called (h : run.traversal.agenda = node :: rest) (hc : run.cancelled = false)
    (hk : Keyed.contains run.traversal.record.results node.id = false)
    {executor : ε} (hget : r.get node.nodeType = .ok executor) {inputs : NodeInputs}
    (hin : node.resolveInputs run.traversal.context.input = .ok inputs) :
    loop ex r w patience (fuel + 1) run =
      let called := ((run.pass rest).enter ex node).called node inputs
      match finishCall ex called.traversal.record.id node.id patience
          (ex.begin executor (((run.pass rest).enter ex node).call node inputs))
          called.toScene with
      | none => (.crashed, called)
      | some (.crashed, scene) => (.crashed, { called with toScene := scene })
      | some (.answered answer, scene) =>
        loop ex r w patience fuel
          ({ called with toScene := scene }.complete ex w node answer) := by
  have hstep : run.traversal.step w (view r run.cancelled (ex.now run.world)) =
      .entered executor node inputs ((run.pass rest).enter ex node).traversal
        ((run.pass rest).traversal.enterEvent node (ex.now run.world)) := by
    simp [step, view, h, hc, hk, hget, hin, Running.pass, Running.enter]
  rw [loop, hstep]
  rfl

end Loop

/-! ## Moments -/

/-- A moment of a run. -/
inductive Moment (ε π ω : Type) where
  /-- The traversal stands between two nodes. -/
  | between (run : Running ω)
  /-- The node was entered, and its inputs have not been looked at. -/
  | entered (executor : ε) (node : Node) (run : Running ω)
  /-- An executor works on the node. -/
  | calling (node : Node) (process : π) (run : Running ω)

namespace Moment

/-- What the run has done up to a moment. -/
def run : Moment ε π ω → Running ω
  | between run | entered _ _ run | calling _ _ run => run

/-- The record of the run at a moment. -/
def record (m : Moment ε π ω) : Execution := m.run.traversal.record

/-- Change what the run has done. -/
def mapRun (f : Running ω → Running ω) : Moment ε π ω → Moment ε π ω
  | between run => between (f run)
  | entered executor node run => entered executor node (f run)
  | calling node process run => calling node process (f run)

/-- From one moment of a run to the next. -/
inductive Step (ex : Executors ε π ω) (r : Registry ε) (w : Workflow) :
    Moment ε π ω → Moment ε π ω → Prop
  /-- Pass over a node that has a result. -/
  | pass {run : Running ω} {node : Node} {rest : List Node}
      (hagenda : run.traversal.agenda = node :: rest) (hcancelled : run.cancelled = false)
      (hknown : Keyed.contains run.traversal.record.results node.id = true) :
      Step ex r w (between run) (between (run.pass rest))
  /-- Enter a node. -/
  | enter {run : Running ω} {node : Node} {rest : List Node} {executor : ε}
      (hagenda : run.traversal.agenda = node :: rest) (hcancelled : run.cancelled = false)
      (hnew : Keyed.contains run.traversal.record.results node.id = false)
      (hget : r.get node.nodeType = .ok executor) :
      Step ex r w (between run) (entered executor node ((run.pass rest).enter ex node))
  /-- Let the node fail because its inputs are missing. -/
  | refuse {run : Running ω} {node : Node} {executor : ε} {failure : NodeError}
      (hin : node.resolveInputs run.traversal.context.input = .error failure) :
      Step ex r w (entered executor node run)
        (between (run.complete ex w node (.error failure)))
  /-- Call the executor. -/
  | call {run : Running ω} {node : Node} {executor : ε} {inputs : NodeInputs}
      (hin : node.resolveInputs run.traversal.context.input = .ok inputs) :
      Step ex r w (entered executor node run)
        (calling node (ex.begin executor (run.call node inputs)) (run.called node inputs))
  /-- The executor is not done yet. -/
  | poll {run : Running ω} {node : Node} {p p' : π}
      (hstate : (ex.poll p run.cancelled run.world).1.state = .inl p') :
      Step ex r w (calling node p run)
        (calling node p'
          { run with toScene := run.toScene.polled ex run.traversal.record.id node.id p })
  /-- The executor answers. -/
  | answer {run : Running ω} {node : Node} {p : π} {answer : Except NodeError Fields}
      (hstate : (ex.poll p run.cancelled run.world).1.state = .inr (.answered answer)) :
      Step ex r w (calling node p run)
        (between
          ({ run with toScene := run.toScene.polled ex run.traversal.record.id node.id p
            }.complete ex w node answer))
  /-- Somebody else cancels the run or changes the world. -/
  | interfere (m : Moment ε π ω) (cancel : Bool) (world : ω) :
      Step ex r w m (m.mapRun fun run => { run with cancelled := run.cancelled || cancel, world })

/-- The moments that a run goes through. -/
inductive Reached (ex : Executors ε π ω) (r : Registry ε) (w : Workflow) (start : Running ω) :
    Moment ε π ω → Prop
  | start : Reached ex r w start (between start)
  | step {m m' : Moment ε π ω} (hm : Reached ex r w start m) (hstep : Step ex r w m m') :
      Reached ex r w start m'

end Moment

/-- A run before its first turn. -/
def Running.start (w : Workflow) (record : Execution) (context : Context) (cancelled : Bool)
    (world : ω) : Running ω :=
  { traversal := Traversal.start w record context, cancelled, world }

/-! ## The loop goes through moments -/

section Reached

open Moment

variable {ex : Executors ε π ω} {r : Registry ε} {w : Workflow} {start : Running ω}

/-- When a call ends, its last moment leads to what comes after it, and no further call was
made. -/
lemma reached_finishCall {node : Node} (fuel : ℕ) (p : π) (run : Running ω)
    (h : Reached ex r w start (.calling node p run)) :
    match finishCall ex run.traversal.record.id node.id fuel p run.toScene with
    | some (.answered answer, scene) =>
      Reached ex r w start (.between ({ run with toScene := scene }.complete ex w node answer))
    | some (.crashed, scene) => scene.calls = run.calls
    | none => True := by
  induction fuel generalizing p run with
  | zero => trivial
  | succ fuel ih =>
    rw [finishCall_succ]
    rcases hstate : (ex.poll p run.cancelled run.world).1.state with p' | outcome
    · exact ih p' _ (h.step (.poll hstate))
    · rcases outcome with answer | _
      · exact h.step (.answer hstate)
      · rfl

/-- How a run stops that has something to begin with, and what it leaves. -/
inductive Halts (ex : Executors ε π ω) (r : Registry ε) (w : Workflow) (start : Running ω) :
    Outcome → Running ω → Prop
  /-- Its traversal takes no further node. -/
  | ended {run : Running ω} {result : Except EngineError Unit}
      (hreached : Reached ex r w start (.between run))
      (hstep : run.traversal.step w (view r run.cancelled (ex.now run.world)) = .ended result) :
      Halts ex r w start (.returned result) run
  /-- It stops while an executor works. -/
  | crashed {node : Node} {process : π} {run final : Running ω}
      (hreached : Reached ex r w start (.calling node process run))
      (hleft : final.traversal = run.traversal) (hcalls : final.calls = run.calls) :
      Halts ex r w start .crashed final

/-- From a moment between two nodes, and with enough fuel, the loop goes on until it stops. -/
lemma loop_halts (patience : ℕ) :
    ∀ (fuel : ℕ) (run : Running ω), run.traversal.work w < fuel →
      Reached ex r w start (.between run) →
      Halts ex r w start (loop ex r w patience fuel run).1 (loop ex r w patience fuel run).2 := by
  intro fuel
  induction fuel with
  | zero => intro run hwork; omega
  | succ fuel ih =>
    intro run hwork h
    rcases hagenda : run.traversal.agenda with _ | ⟨node, rest⟩
    · rw [loop_nil ex r w patience fuel hagenda]
      exact .ended h (by simp only [step, hagenda])
    by_cases hc : run.cancelled = true
    · rw [loop_cancelled ex r w patience fuel hagenda hc]
      exact .ended h (by simp [step, view, hagenda, hc])
    rw [Bool.not_eq_true] at hc
    have hpass : (run.pass rest).traversal.work w + 1 = run.traversal.work w := by
      simp only [work, Running.pass, hagenda, List.length_cons]
      omega
    by_cases hk : Keyed.contains run.traversal.record.results node.id = true
    · rw [loop_passed ex r w patience fuel hagenda hc hk]
      exact ih _ (by omega) (h.step (.pass hagenda hc hk))
    rw [Bool.not_eq_true] at hk
    rcases hget : r.get node.nodeType with failure | executor
    · rw [loop_unserved ex r w patience fuel hagenda hc hk hget]
      exact .ended h (by simp [step, view, hagenda, hc, hk, hget])
    have hentered := h.step (.enter hagenda hc hk hget)
    -- the turn is paid for by the node that was taken off the agenda
    have hpaid : ∀ answer now,
        (((run.pass rest).enter ex node).traversal.complete w node answer now).1.work w < fuel := by
      intro answer now
      have henter : ((run.pass rest).enter ex node).traversal.work w + edgesFrom w node.id =
          (run.pass rest).traversal.work w :=
        work_enter w (t := (run.pass rest).traversal) hk _
      have hcomplete := work_complete_le w node answer now ((run.pass rest).enter ex node).traversal
      omega
    rcases hin : node.resolveInputs run.traversal.context.input with failure | inputs
    · rw [loop_refused ex r w patience fuel hagenda hc hk hget hin]
      exact ih _ (hpaid _ _) (hentered.step (.refuse hin))
    · rw [loop_called ex r w patience fuel hagenda hc hk hget hin]
      have hcalling := hentered.step (.call hin)
      have hfinished := reached_finishCall patience _ _ hcalling
      dsimp only
      rcases hfin : finishCall ex _ node.id patience _
        (((run.pass rest).enter ex node).called node inputs).toScene with _ | ⟨answer | _, scene⟩
      · exact .crashed hcalling rfl rfl
      · rw [hfin] at hfinished
        exact ih _ (hpaid _ _) hfinished
      · rw [hfin] at hfinished
        exact .crashed hcalling rfl hfinished

/-- The fuel of a run covers the work that is left. -/
lemma run_halts (ex : Executors ε π ω) (r : Registry ε) {w : Workflow}
    (h : w.triggers.isEmpty = false) (patience : ℕ) (record : Execution) (context : Context)
    (cancelled : Bool) (world : ω) :
    Halts ex r w (.start w record context cancelled world)
      (run ex r w patience record context cancelled world).1
      (run ex r w patience record context cancelled world).2 := by
  unfold run
  rw [h]
  refine loop_halts patience _ _ ?_ .start
  have hle : openEdges w record.results ≤ w.edges.length := List.countP_le_length
  simp only [work, Traversal.start, bound]
  omega

/-- The traversal ends at one of its moments, where all its calls have been made, and when it
succeeds its agenda is empty there. -/
theorem run_last (ex : Executors ε π ω) (r : Registry ε) (w : Workflow) (patience : ℕ)
    (record : Execution) (context : Context) (cancelled : Bool) (world : ω) :
    ∃ m : Moment ε π ω, Reached ex r w (.start w record context cancelled world) m ∧
      m.run.traversal = (run ex r w patience record context cancelled world).2.traversal ∧
      m.run.calls = (run ex r w patience record context cancelled world).2.calls ∧
      ((run ex r w patience record context cancelled world).1 = .returned (.ok ()) →
        m = .between m.run ∧ m.run.traversal.agenda = []) := by
  rcases htriggers : w.triggers.isEmpty with _ | _
  · have hhalts := run_halts ex r htriggers patience record context cancelled world
    generalize run ex r w patience record context cancelled world = final at hhalts ⊢
    obtain ⟨outcome, final⟩ := final
    cases hhalts with
    | ended hreached hstep =>
      refine ⟨_, hreached, rfl, rfl, fun hok => ⟨rfl, ?_⟩⟩
      cases hok
      cases taken_of_step hstep with
      | finished hagenda => exact hagenda
    | crashed hreached hleft hcalls =>
      exact ⟨_, hreached, hleft.symm, hcalls.symm, nofun⟩
  · refine ⟨_, .start, ?_, ?_, fun hok => ?_⟩
    · rw [run, if_pos htriggers]
      rfl
    · rw [run, if_pos htriggers]
      rfl
    · simp [run, htriggers] at hok

/-- The traversal ends at one of its moments. -/
theorem run_reached (ex : Executors ε π ω) (r : Registry ε) (w : Workflow) (patience : ℕ)
    (record : Execution) (context : Context) (cancelled : Bool) (world : ω) :
    ∃ m : Moment ε π ω, Reached ex r w (.start w record context cancelled world) m ∧
      m.run.traversal = (run ex r w patience record context cancelled world).2.traversal ∧
      ((run ex r w patience record context cancelled world).1 = .returned (.ok ()) →
        m = .between m.run ∧ m.run.traversal.agenda = []) := by
  obtain ⟨m, hm, htraversal, -, hok⟩ := run_last ex r w patience record context cancelled world
  exact ⟨m, hm, htraversal, hok⟩

end Reached

end Traversal

end FlowGraph
