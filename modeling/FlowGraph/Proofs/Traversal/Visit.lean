import FlowGraph.Proofs.Traversal.Moment

/-!
# Traversal as a recursive visit

A depth-first traversal is usually described by a recursion: to visit a node is to execute it and
then to visit its successors one after the other, unless it has a result already.  This file
defines that recursion, `Journal.visit`, which knows of no agenda, and shows that the traversal
with its agenda does the same: `run_journal` gives the outcome, the record, the context, the
events and the calls of a run in terms of the visits of the triggers.

The recursion ends because of the open edges: a node that is executed closes all edges that leave
it.  The same count bounds the number of turns the agenda can take, which is what `loop_journal`
needs: the agenda `ns` in front of a journal `j` is worked off within `ns.length` plus the number
of open edges of `j`.
-/

namespace FlowGraph

namespace Traversal

variable {ε π ω : Type}

/-! ## Journals -/

/-- What a run has done so far, without the nodes it is still to visit. -/
structure Journal (ω : Type) extends Scene ω where
  record : Execution
  context : Context

namespace Journal

/-- Enter a node: its result is running, and its place is the number of results before it. -/
def enter (node : Node) (now : Timestamp) (j : Journal ω) : Journal ω :=
  { j with
    record := j.record.setResult node.id
      (NodeResult.started node.id j.record.results.length now)
    events := j.events ++ [.nodeStarted j.record.id node.id node.nodeType now] }

/-- Record the answer of a node: its result, its outputs or its failure, and the event.  What
comes out says which edges are to be followed. -/
def settle (node : Node) (answer : Except NodeError Fields) (now : Timestamp) (j : Journal ω) :
    (Outcome ⊕ EdgeKind) × Journal ω :=
  let started := ((j.record.result? node.id).map NodeResult.startedAt).getD now
  match answer with
  | .ok output =>
    (.inr .success,
      { j with
        record := { j.record with
          results := Keyed.modify j.record.results node.id fun r =>
            r.succeed output (secondsSince started now) now }
        context := j.context.publishDeclared node.id node.outputs output
        events := j.events ++ [.nodeCompleted j.record.id node.id (millisSince started now) now] })
  | .error e =>
    (.inr .failure,
      { j with
        record := { j.record with
          results := Keyed.modify j.record.results node.id fun r =>
            r.fail e.message (secondsSince started now) now }
        context := j.context.recordError node.id e.message
        events := j.events ++ [.nodeFailed j.record.id node.id e.message now] })

/-- Call an executor on a node and record its answer.  A defect stops the run. -/
def call (ex : Executors ε π ω) (patience : ℕ) (executor : ε) (node : Node)
    (inputs : NodeInputs) (j : Journal ω) : (Outcome ⊕ EdgeKind) × Journal ω :=
  let call : ExecutorCall := ⟨node, inputs, j.context⟩
  let called : Scene ω := { j.toScene with calls := j.calls ++ [call] }
  match finishCall ex j.record.id node.id patience (ex.begin executor call) called with
  | none => (.inl .crashed, { j with toScene := called })
  | some (.crashed, scene) => (.inl .crashed, { j with toScene := scene })
  | some (.answered answer, scene) =>
    { j with toScene := scene }.settle node answer (ex.now scene.world)

/-- Execute a node: look its executor up, enter the node, resolve its inputs and call the
executor.  A node whose inputs are missing fails without a call.  The run stops when there is no
executor. -/
def execute (ex : Executors ε π ω) (r : Registry ε) (patience : ℕ) (node : Node)
    (j : Journal ω) : (Outcome ⊕ EdgeKind) × Journal ω :=
  match r.get node.nodeType with
  | .error e => (.inl (.returned (.error e)), j)
  | .ok executor =>
    match node.resolveInputs j.context.input with
    | .error e => (j.enter node (ex.now j.world)).settle node (.error e) (ex.now j.world)
    | .ok inputs => (j.enter node (ex.now j.world)).call ex patience executor node inputs

/-- The open edges of a journal. -/
def openEdges (w : Workflow) (j : Journal ω) : ℕ :=
  Traversal.openEdges w j.record.results

lemma settle_openEdges (w : Workflow) (node : Node) (answer : Except NodeError Fields)
    (now : Timestamp) (j : Journal ω) :
    (j.settle node answer now).2.openEdges w = j.openEdges w := by
  cases answer <;> simp only [settle, openEdges, openEdges_modify]

lemma call_openEdges (ex : Executors ε π ω) (w : Workflow) (patience : ℕ) (executor : ε)
    (node : Node) (inputs : NodeInputs) (j : Journal ω) :
    (j.call ex patience executor node inputs).2.openEdges w = j.openEdges w := by
  simp only [call]
  split
  · rfl
  · rfl
  · rw [settle_openEdges]
    rfl

/-- Executing a node without a result closes the edges that leave it, unless the run stops. -/
lemma execute_openEdges (ex : Executors ε π ω) (r : Registry ε) (w : Workflow) (patience : ℕ)
    {node : Node} {j : Journal ω} (hj : Keyed.contains j.record.results node.id = false) :
    (j.execute ex r patience node).2.openEdges w +
      edgesFrom w node.id = j.openEdges w ∨
    ∃ outcome, j.execute ex r patience node = (.inl outcome, j) := by
  have hentered : (j.enter node (ex.now j.world)).openEdges w
      + edgesFrom w node.id = j.openEdges w :=
    openEdges_insert w hj _
  unfold execute
  split
  · exact Or.inr ⟨_, rfl⟩
  · left
    split
    · rw [settle_openEdges, hentered]
    · rw [call_openEdges, hentered]

lemma execute_openEdges_le (ex : Executors ε π ω) (r : Registry ε) (w : Workflow) (patience : ℕ)
    {node : Node} {j : Journal ω} (hj : Keyed.contains j.record.results node.id = false) :
    (j.execute ex r patience node).2.openEdges w ≤ j.openEdges w := by
  rcases execute_openEdges ex r w patience hj with h | ⟨outcome, h⟩
  · omega
  · rw [h]

/-- The successors that are to be visited next are paid for by the edges that were closed. -/
lemma execute_successors_le (ex : Executors ε π ω) (r : Registry ε) (w : Workflow)
    (patience : ℕ) {node : Node} {j j' : Journal ω} {kind : EdgeKind}
    (hj : Keyed.contains j.record.results node.id = false)
    (h : j.execute ex r patience node = (.inr kind, j')) :
    (w.successors node.id kind).length + j'.openEdges w ≤ j.openEdges w := by
  have hlen := length_successors_le w node.id kind
  rcases execute_openEdges ex r w patience hj with hopen | ⟨outcome, hstop⟩
  · rw [h] at hopen
    simp only at hopen
    omega
  · simp [h] at hstop

end Journal

/-! ## The recursion -/

section Visit

variable (ex : Executors ε π ω) (r : Registry ε) (w : Workflow) (patience : ℕ)

mutual

/-- The visit of a node, with the fact that it opens no edge. -/
def visitClosing (node : Node) (j : Journal ω) :
    { p : Option Outcome × Journal ω // p.2.openEdges w ≤ j.openEdges w } :=
  if j.cancelled then ⟨(some (.returned (.error .cancelled)), j), Nat.le_refl _⟩
  else if hj : Keyed.contains j.record.results node.id then ⟨(none, j), Nat.le_refl _⟩
  else
    have hle := Journal.execute_openEdges_le ex r w patience (Bool.eq_false_iff.2 hj)
    match h : j.execute ex r patience node with
    | (.inl outcome, j') => ⟨(some outcome, j'), by rw [h] at hle; exact hle⟩
    | (.inr kind, j') =>
      let ⟨p, hp⟩ := visitEachClosing (w.successors node.id kind) j'
      ⟨p, by rw [h] at hle; exact Nat.le_trans hp hle⟩
termination_by (j.openEdges w, 1)
decreasing_by
  -- the edges that the node's successors were found by are closed now
  have hpaid := Journal.execute_successors_le ex r w patience (Bool.eq_false_iff.2 hj) h
  rw [Prod.lex_def]
  omega

/-- The visits of several nodes, with the fact that they open no edge. -/
def visitEachClosing (nodes : List Node) (j : Journal ω) :
    { p : Option Outcome × Journal ω // p.2.openEdges w ≤ j.openEdges w } :=
  match nodes with
  | [] => ⟨(none, j), Nat.le_refl _⟩
  | node :: rest =>
    match visitClosing node j with
    | ⟨(some outcome, j'), hj'⟩ => ⟨(some outcome, j'), hj'⟩
    | ⟨(none, j'), hj'⟩ =>
      let ⟨p, hp⟩ := visitEachClosing rest j'
      ⟨p, Nat.le_trans hp hj'⟩
termination_by (j.openEdges w, 2 * nodes.length)
decreasing_by
  · rw [Prod.lex_def, List.length_cons]
    omega
  · rw [Prod.lex_def, List.length_cons]
    simp only at hj'
    omega

end

/-- Visit a node.  Comes out with the outcome of the run when the run stops there. -/
def Journal.visit (node : Node) (j : Journal ω) : Option Outcome × Journal ω :=
  (visitClosing ex r w patience node j).1

/-- Visit nodes one after the other, until the run stops. -/
def Journal.visitEach (nodes : List Node) (j : Journal ω) : Option Outcome × Journal ω :=
  (visitEachClosing ex r w patience nodes j).1

/-- The recursion: a node is executed unless the run is cancelled or the node has a result, and
then the successors that its outcome selects are visited. -/
theorem Journal.visit_eq (node : Node) (j : Journal ω) :
    j.visit ex r w patience node =
      if j.cancelled then (some (.returned (.error .cancelled)), j)
      else if Keyed.contains j.record.results node.id then (none, j)
      else
        match j.execute ex r patience node with
        | (.inl outcome, j') => (some outcome, j')
        | (.inr kind, j') => j'.visitEach ex r w patience (w.successors node.id kind) := by
  rw [Journal.visit, visitClosing]
  split
  · rfl
  · split
    · rfl
    · split
      · next h =>
        simp only [h]
      · next h =>
        simp only [h]
        rfl

@[simp] lemma Journal.visitEach_nil (j : Journal ω) :
    j.visitEach ex r w patience [] = (none, j) := by
  rw [Journal.visitEach, visitEachClosing]

theorem Journal.visitEach_cons (node : Node) (rest : List Node) (j : Journal ω) :
    j.visitEach ex r w patience (node :: rest) =
      match j.visit ex r w patience node with
      | (some outcome, j') => (some outcome, j')
      | (none, j') => j'.visitEach ex r w patience rest := by
  rw [Journal.visitEach, visitEachClosing, Journal.visit]
  split
  · next h => rw [h]
  · next h =>
    rw [h]
    rfl

/-- Visiting a list in two parts. -/
lemma Journal.visitEach_append (ns ms : List Node) (j : Journal ω) :
    j.visitEach ex r w patience (ns ++ ms) =
      match j.visitEach ex r w patience ns with
      | (some outcome, j') => (some outcome, j')
      | (none, j') => j'.visitEach ex r w patience ms := by
  induction ns generalizing j with
  | nil => simp
  | cons node rest ih =>
    rw [List.cons_append, visitEach_cons, visitEach_cons]
    rcases j.visit ex r w patience node with ⟨_ | outcome, j'⟩
    · exact ih j'
    · rfl

/-- The run as a recursion: visit the triggers in the order of their declaration. -/
def Journal.visitTriggers (j : Journal ω) : Outcome × Journal ω :=
  match j.visitEach ex r w patience w.triggers with
  | (some outcome, j') => (outcome, j')
  | (none, j') => (.returned (.ok ()), j')

end Visit

/-! ## The agenda against the recursion -/

/-- What a run has done so far. -/
def Running.journal (run : Running ω) : Journal ω :=
  { run with record := run.traversal.record, context := run.traversal.context }

/-- A run that has done what a journal says and has an agenda left. -/
def Journal.withAgenda (j : Journal ω) (agenda : List Node) : Running ω :=
  { j with traversal := ⟨agenda, j.record, j.context⟩ }

/-- Taking the answer of a node puts the successors that the outcome selects on the agenda; the
rest of it is what is settled without an agenda. -/
lemma complete_withAgenda (ex : Executors ε π ω) (w : Workflow) (node : Node)
    (answer : Except NodeError Fields) (rest : List Node) (j : Journal ω) :
    ∃ kind j', j.settle node answer (ex.now j.world) = (.inr kind, j') ∧
      (j.withAgenda rest).complete ex w node answer =
        j'.withAgenda (w.successors node.id kind ++ rest) := by
  cases answer with
  | ok output => exact ⟨_, _, rfl, rfl⟩
  | error e => exact ⟨_, _, rfl, rfl⟩

/-- One turn of the loop that executes a node does what the recursion does with the node. -/
lemma loop_execute (ex : Executors ε π ω) (r : Registry ε) (w : Workflow) (patience fuel : ℕ)
    (node : Node) (rest : List Node) (j : Journal ω) (hc : j.cancelled = false)
    (hj : Keyed.contains j.record.results node.id = false) :
    match j.execute ex r patience node with
    | (.inl outcome, j') => ∃ agenda,
        loop ex r w patience (fuel + 1) (j.withAgenda (node :: rest)) =
          (outcome, j'.withAgenda agenda)
    | (.inr kind, j') =>
        loop ex r w patience (fuel + 1) (j.withAgenda (node :: rest)) =
          loop ex r w patience fuel (j'.withAgenda (w.successors node.id kind ++ rest)) := by
  have hagenda : (j.withAgenda (node :: rest)).traversal.agenda = node :: rest := rfl
  rcases hget : r.get node.nodeType with failure | executor
  · -- there is no executor
    have hexec : j.execute ex r patience node = (.inl (.returned (.error failure)), j) := by
      simp only [Journal.execute, hget]
    rw [hexec]
    exact ⟨node :: rest, loop_unserved ex r w patience fuel hagenda hc hj hget⟩
  · rcases hin : node.resolveInputs j.context.input with failure | inputs
    · -- the inputs are missing: the node fails without a call
      obtain ⟨kind, j', hsettle, hrun⟩ := complete_withAgenda ex w node (.error failure) rest
        (j.enter node (ex.now j.world))
      have hexec : j.execute ex r patience node = (.inr kind, j') := by
        simp only [Journal.execute, hget, hin]
        exact hsettle
      rw [hexec, loop_refused ex r w patience fuel hagenda hc hj hget hin]
      exact congrArg (loop ex r w patience fuel) hrun
    · -- the executor is called
      have hexec : j.execute ex r patience node =
          (j.enter node (ex.now j.world)).call ex patience executor node inputs := by
        simp only [Journal.execute, hget, hin]
      have hentered : ((j.withAgenda (node :: rest)).pass rest).enter ex node =
          (j.enter node (ex.now j.world)).withAgenda rest := rfl
      rw [hexec, loop_called ex r w patience fuel hagenda hc hj hget hin, hentered]
      generalize j.enter node (ex.now j.world) = entered
      dsimp only [Journal.call, Running.called, Running.call, Journal.withAgenda]
      rcases finishCall ex entered.record.id node.id patience
        (ex.begin executor ⟨node, inputs, entered.context⟩)
        { entered.toScene with calls := entered.calls ++ [⟨node, inputs, entered.context⟩] }
        with _ | ⟨answer | _, scene⟩
      · -- it does not end
        exact ⟨rest, rfl⟩
      · -- it answers
        obtain ⟨kind, j', hsettle, hrun⟩ := complete_withAgenda ex w node answer rest
          ⟨scene, entered.record, entered.context⟩
        dsimp only at hsettle ⊢
        rw [hsettle]
        exact congrArg (loop ex r w patience fuel) hrun
      · -- it ends with a defect
        exact ⟨rest, rfl⟩

/-- With enough fuel, working off an agenda is visiting its nodes one after the other. -/
lemma loop_journal (ex : Executors ε π ω) (r : Registry ε) (w : Workflow) (patience : ℕ) :
    ∀ (fuel : ℕ) (agenda : List Node) (j : Journal ω),
      agenda.length + j.openEdges w < fuel →
      (loop ex r w patience fuel (j.withAgenda agenda)).map id Running.journal =
        match j.visitEach ex r w patience agenda with
        | (some outcome, j') => (outcome, j')
        | (none, j') => (.returned (.ok ()), j') := by
  intro fuel
  induction fuel with
  | zero => intro agenda j h; omega
  | succ fuel ih =>
    intro agenda j hfuel
    rcases agenda with _ | ⟨node, rest⟩
    · rw [loop_nil ex r w patience fuel rfl, Journal.visitEach_nil]
      rfl
    · have hagenda : (j.withAgenda (node :: rest)).traversal.agenda = node :: rest := rfl
      rw [List.length_cons] at hfuel
      rw [Journal.visitEach_cons, Journal.visit_eq]
      by_cases hc : j.cancelled = true
      · -- the run stops before it looks at the node
        rw [loop_cancelled ex r w patience fuel hagenda hc, if_pos hc]
        rfl
      · rw [if_neg hc]
        rw [Bool.not_eq_true] at hc
        by_cases hk : Keyed.contains j.record.results node.id = true
        · -- the node is passed over
          rw [loop_passed ex r w patience fuel hagenda hc hk, if_pos hk]
          exact ih rest j (by omega)
        · rw [if_neg hk]
          rw [Bool.not_eq_true] at hk
          have hturn := loop_execute ex r w patience fuel node rest j hc hk
          rcases he : j.execute ex r patience node with ⟨outcome | kind, j'⟩
          · rw [he] at hturn
            obtain ⟨agenda, hturn⟩ := hturn
            rw [hturn]
            rfl
          · rw [he] at hturn
            have hpaid := Journal.execute_successors_le ex r w patience hk he
            simp only at hturn
            rw [hturn, ih _ j' (by rw [List.length_append]; omega), Journal.visitEach_append]

/-- **The traversal refines the recursion.**  Whatever the workflow, the registry, the executors
and the record at the start, running the traversal with its agenda has the outcome and leaves the
record, the context, the events and the calls of the recursive visit of the triggers.  Only a
workflow without a trigger, where there is nothing to visit, is refused. -/
theorem run_journal (ex : Executors ε π ω) (r : Registry ε) (w : Workflow) (patience : ℕ)
    (record : Execution) (context : Context) (cancelled : Bool) (world : ω) :
    (run ex r w patience record context cancelled world).map id Running.journal =
      if w.triggers.isEmpty then
        (.returned (.error .noTriggerNode), { record, context, cancelled, world })
      else Journal.visitTriggers ex r w patience { record, context, cancelled, world } := by
  unfold run Journal.visitTriggers
  split
  · rfl
  · refine loop_journal ex r w patience _ w.triggers { record, context, cancelled, world } ?_
    have hle : Journal.openEdges w { record, context, cancelled, world : Journal ω }
        ≤ w.edges.length := List.countP_le_length
    unfold bound
    omega

/-- A workflow without nodes: the recursion succeeds where the run is refused. -/
theorem visitTriggers_ne_run :
    let record := Execution.make "exec" "empty" [] default
    let context : Context := { executionId := "exec", input := [] }
    (Journal.visitTriggers Executors.prompt Registry.empty { id := "empty" } 0
        { record, context, cancelled := false, world := () }).1 = .returned (.ok ()) ∧
      (run Executors.prompt Registry.empty { id := "empty" } 0 record context false ()).1 =
        .returned (.error .noTriggerNode) := by
  refine ⟨?_, rfl⟩
  simp [Journal.visitTriggers, Workflow.triggers]

end Traversal

end FlowGraph
