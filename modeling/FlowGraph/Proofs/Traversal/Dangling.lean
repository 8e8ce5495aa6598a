import FlowGraph.Proofs.Traversal.Bounds
import FlowGraph.Proofs.Traversal.Failures
import FlowGraph.Workflow.Check

/-!
# Edges that lead nowhere

A check of a workflow complains about each end of an edge that names no node, and announces that the
edge will be ignored.  So it is: without the edges that it complains about (`Workflow.pruned`), each
run goes through the same moments and ends in the same way.

What a run does depends on the edges only through the successors of its nodes, and it visits no node
but those of its workflow.  So workflows with the same nodes have the same runs if these have the
same successors (`Workflow.Agree`).  An edge that carries a warning leaves no node or leads to none:
the successors are the same without it (`Workflow.agree_pruned`).
-/

namespace FlowGraph

/-! ## The ends of edges -/

/-- An end of an edge. -/
inductive EdgeEnd where
  | source (e : Edge)
  | target (e : Edge)
deriving DecidableEq, Repr

namespace EdgeEnd

/-- The edge of an end. -/
def edge : EdgeEnd → Edge
  | source e | target e => e

/-- The id that stands at an end. -/
def nodeId : EdgeEnd → String
  | source e => e.source
  | target e => e.target

/-- No node has the id that stands at the end. -/
def Loose (w : Workflow) (x : EdgeEnd) : Prop :=
  ∀ node ∈ w.nodes, node.id ≠ x.nodeId

instance (w : Workflow) : DecidablePred (Loose w) :=
  fun x => inferInstanceAs (Decidable (∀ node ∈ w.nodes, node.id ≠ x.nodeId))

/-- What a check says of an end that is loose. -/
def warning (x : EdgeEnd) : DanglingEnd := ⟨x.edge.id, x.nodeId⟩

end EdgeEnd

namespace Workflow

/-- All ends of edges: those of an edge come together, its source first. -/
def ends (w : Workflow) : List EdgeEnd :=
  w.edges.flatMap fun e => [.source e, .target e]

/-- The warnings that an edge carries: those of the workflow when it has no other edge. -/
def warnings (w : Workflow) (e : Edge) : List DanglingEnd :=
  ({ w with edges := [e] } : Workflow).danglingEnds

/-- The workflow without the edges that carry a warning. -/
def pruned (w : Workflow) : Workflow :=
  { w with edges := w.edges.filter fun e => (w.warnings e).isEmpty }

variable {w : Workflow}

lemma findNode?_eq_none {id : String} :
    w.findNode? id = none ↔ ∀ node ∈ w.nodes, node.id ≠ id := by
  rw [findNode?, List.find?_eq_none]
  simp only [decide_eq_true_eq, ne_eq]

lemma danglingEnds_eq_flatMap (w : Workflow) : w.danglingEnds = w.edges.flatMap w.warnings :=
  List.flatMap_congr fun _ _ => (List.flatMap_singleton _ _).symm

/-- An edge carries a warning for each of its ends that is loose. -/
lemma warnings_eq (w : Workflow) (e : Edge) :
    w.warnings e =
      ([EdgeEnd.source e, .target e].filter (EdgeEnd.Loose w)).map EdgeEnd.warning := by
  have hids : [e.source, e.target] = [EdgeEnd.source e, .target e].map EdgeEnd.nodeId := rfl
  have hloose : (fun id => (w.findNode? id).isNone) ∘ EdgeEnd.nodeId =
      fun x => decide (EdgeEnd.Loose w x) := by
    funext x
    rw [Function.comp_apply, Bool.eq_iff_iff, Option.isNone_iff_eq_none, findNode?_eq_none,
      decide_eq_true_iff]
    rfl
  calc w.warnings e
    _ = ([e.source, e.target].filter fun id => (w.findNode? id).isNone).map fun id => ⟨e.id, id⟩ :=
      List.flatMap_singleton _ _
    _ = ([EdgeEnd.source e, .target e].filter (EdgeEnd.Loose w)).map fun x => ⟨e.id, x.nodeId⟩ := by
      rw [hids, List.filter_map, List.map_map, hloose]
      rfl
    _ = _ := by
      refine List.map_congr_left fun x hx => ?_
      have hedge : x.edge = e := by
        rcases List.mem_pair.1 (List.mem_of_mem_filter hx) with rfl | rfl <;> rfl
      rw [EdgeEnd.warning, hedge]

/-- There is a warning for each loose end, in the order of the ends. -/
lemma danglingEnds_eq (w : Workflow) :
    w.danglingEnds = (w.ends.filter (EdgeEnd.Loose w)).map EdgeEnd.warning := by
  rw [danglingEnds_eq_flatMap, ends, List.filter_flatMap, List.map_flatMap]
  exact List.flatMap_congr fun e _ => warnings_eq w e

/-- An edge carries no warning when both its ends name nodes. -/
lemma warnings_eq_nil {e : Edge} :
    w.warnings e = [] ↔ ¬(EdgeEnd.source e).Loose w ∧ ¬(EdgeEnd.target e).Loose w := by
  rw [warnings_eq, List.map_eq_nil_iff, List.filter_eq_nil_iff]
  simp

/-- Nothing is left to complain about. -/
lemma danglingEnds_pruned (w : Workflow) : w.pruned.danglingEnds = [] := by
  rw [danglingEnds_eq_flatMap, List.flatMap_eq_nil_iff]
  intro e he
  exact List.isEmpty_iff.1 (List.mem_filter.1 he).2

/-! ## Workflows with the same successors -/

/-- Two workflows have the same nodes, and these have the same successors. -/
structure Agree (w w' : Workflow) : Prop where
  nodes : w'.nodes = w.nodes
  successors : ∀ node ∈ w.nodes, ∀ kind, w'.successors node.id kind = w.successors node.id kind

lemma Agree.symm {w' : Workflow} (h : Agree w w') : Agree w' w :=
  ⟨h.nodes.symm, fun node hnode kind => (h.successors node (h.nodes ▸ hnode) kind).symm⟩

lemma Agree.triggers {w' : Workflow} (h : Agree w w') : w'.triggers = w.triggers := by
  rw [Workflow.triggers, Workflow.triggers, h.nodes]

/-- An edge that carries a warning but leaves a node has no target, and so makes no successor. -/
lemma agree_pruned (w : Workflow) : Agree w w.pruned := by
  refine ⟨rfl, fun node hnode kind => ?_⟩
  rw [successors, successors, pruned, List.filter_filter, List.filterMap_filter,
    List.filterMap_filter]
  refine List.filterMap_congr fun e _ => ?_
  by_cases hwarnings : w.warnings e = []
  · simp [hwarnings, findNode?]
  · have htarget : e.source = node.id → w.findNode? e.target = none := by
      intro hsource
      rw [findNode?_eq_none]
      by_contra hfound
      exact hwarnings (warnings_eq_nil.2 ⟨fun hloose => hloose node hnode hsource.symm, hfound⟩)
    have hgone : (w.warnings e).isEmpty = false := List.isEmpty_eq_false_iff.2 hwarnings
    rw [hgone, Bool.and_false, if_neg Bool.false_ne_true]
    split
    · next hleaves =>
      rw [Bool.and_eq_true, decide_eq_true_iff] at hleaves
      exact (htarget hleaves.1).symm
    · rfl

end Workflow

namespace Traversal

open Moment

variable {ε π ω : Type} {w w' : Workflow}

/-! ## Runs of workflows that agree -/

lemma complete_of_agree (h : w.Agree w') {node : Node} (hnode : node ∈ w.nodes)
    (answer : Except NodeError Fields) (now : Timestamp) (t : Traversal) :
    t.complete w' node answer now = t.complete w node answer now := by
  cases answer <;> simp only [complete, h.successors node hnode]

lemma Running.complete_of_agree (h : w.Agree w') {node : Node} (hnode : node ∈ w.nodes)
    (ex : Executors ε π ω) (answer : Except NodeError Fields) (run : Running ω) :
    run.complete ex w' node answer = run.complete ex w node answer := by
  simp only [Running.complete, Traversal.complete_of_agree h hnode]

lemma step_of_agree (h : w.Agree w') {t : Traversal} (hagenda : ∀ node ∈ t.agenda, node ∈ w.nodes)
    (v : View ε) : t.step w' v = t.step w v := by
  unfold step
  rcases hnext : t.agenda with _ | ⟨node, rest⟩
  · rfl
  · have hnode : node ∈ w.nodes := hagenda node (hnext ▸ List.mem_cons_self)
    simp only [complete_of_agree h hnode]

lemma turn_of_agree {ex : Executors ε π ω} {r : Registry ε} {patience : ℕ} (h : w.Agree w')
    {run : Running ω} (hagenda : ∀ node ∈ run.traversal.agenda, node ∈ w.nodes) :
    turn ex r w' patience run = turn ex r w patience run := by
  rw [turn, turn, step_of_agree h hagenda]
  rcases hstep : run.traversal.step w (view r run.cancelled (ex.now run.world)) with
    outcome | passed | ⟨refused, events⟩ | ⟨executor, node, inputs, entered, event⟩
  · rfl
  · rfl
  · rfl
  · have hnode : node ∈ w.nodes := by
      cases taken_of_step hstep with
      | entered hnext _ _ _ _ => exact hagenda node (hnext ▸ List.mem_cons_self)
    simp only [Running.complete_of_agree h hnode]

namespace Moment

variable {ex : Executors ε π ω} {r : Registry ε} {m m' : Moment ε π ω}

/-- The nodes of a moment are those of a workflow. -/
structure Within (w : Workflow) (m : Moment ε π ω) : Prop where
  agenda : ∀ node ∈ m.run.traversal.agenda, node ∈ w.nodes
  node : ∀ node, m.node? = some node → node ∈ w.nodes

/-- A run visits nodes of its workflow only. -/
lemma Reached.within {record : Execution} {context : Context} {cancelled : Bool} {world : ω}
    (h : Reached ex r w (.start w record context cancelled world) m) : m.Within w := by
  have htells : m.Tells r w (fun node _ => node ∈ w.nodes) (fun _ => True) :=
    h.tells ⟨fun _ _ => trivial, fun _ _ hnode _ => hnode, fun hnode _ => hnode, fun _ _ => trivial⟩
      fun _ _ _ _ => trivial
  refine ⟨htells.agenda, fun node hnode => ?_⟩
  have hwork := htells.atWork
  cases m with
  | between run => cases hnode
  | entered executor node run =>
    cases hnode
    exact hwork.1
  | calling node p run =>
    cases hnode
    exact hwork

lemma Step.of_agree (h : w.Agree w') (hm : m.Within w) (hstep : Step ex r w m m') :
    Step ex r w' m m' := by
  cases hstep with
  | pass hagenda hcancelled hknown => exact .pass hagenda hcancelled hknown
  | enter hagenda hcancelled hnew hget => exact .enter hagenda hcancelled hnew hget
  | @refuse run node executor failure hin =>
    rw [← Running.complete_of_agree h (hm.node node rfl)]
    exact .refuse hin
  | call hin => exact .call hin
  | poll hstate => exact .poll hstate
  | @answer run node p answer hstate =>
    rw [← Running.complete_of_agree h (hm.node node rfl)]
    exact .answer hstate
  | interfere m cancel world => exact .interfere m cancel world

end Moment

section Runs

variable (ex : Executors ε π ω) (r : Registry ε) (record : Execution) (context : Context)
  (cancelled : Bool) (world : ω)

lemma start_of_agree (h : w.Agree w') :
    Running.start w' record context cancelled world =
      .start w record context cancelled world := by
  rw [Running.start, Running.start, start, start, h.triggers]

/-- Runs of workflows that agree go through the same moments. -/
lemma reached_of_agree (h : w.Agree w') {m : Moment ε π ω}
    (hm : Reached ex r w (.start w record context cancelled world) m) :
    Reached ex r w' (.start w' record context cancelled world) m := by
  rw [start_of_agree record context cancelled world h]
  induction hm with
  | start => exact .start
  | step hbefore hstep ih => exact ih.step (hstep.of_agree h hbefore.within)

variable {ex r record context cancelled world}

lemma loop_of_agree (h : w.Agree w') (patience fuel : ℕ) (run : Running ω)
    (hrun : Reached ex r w (.start w record context cancelled world) (.between run)) :
    loop ex r w' patience fuel run = loop ex r w patience fuel run := by
  induction fuel generalizing run with
  | zero => rfl
  | succ fuel ih =>
    have hagenda : ∀ node ∈ run.traversal.agenda, node ∈ w.nodes := hrun.within.agenda
    rw [loop_succ, loop_succ, turn_of_agree h hagenda]
    rcases hturn : turn ex r w patience run with next | last
    · exact ih next (reached_turn hrun hturn)
    · rfl

variable (ex r record context cancelled world)

/-- Runs of workflows that agree end in the same way. -/
lemma run_of_agree (h : w.Agree w') (patience : ℕ) :
    run ex r w' patience record context cancelled world =
      run ex r w patience record context cancelled world := by
  have hstart := start_of_agree record context cancelled world h
  -- both limits on the turns cover the work, and so does their sum
  have hbound : ∀ v : Workflow,
      (Running.start v record context cancelled world).traversal.work v ≤ bound v + 1 :=
    fun v => (work_start_le v record context).trans (Nat.le_succ _)
  let turns := bound w + 1 + (bound w' + 1)
  rw [run, run, h.triggers]
  split
  · exact congrArg (Prod.mk _) hstart
  · calc loop ex r w' patience (bound w' + 1) (.start w' record context cancelled world)
      _ = loop ex r w' patience turns (.start w' record context cancelled world) :=
        loop_eq_of_work_le (hbound w') ((hbound w').trans (Nat.le_add_left _ _))
      _ = loop ex r w patience turns (.start w record context cancelled world) := by
        rw [hstart]
        exact loop_of_agree h patience turns _ .start
      _ = loop ex r w patience (bound w + 1) (.start w record context cancelled world) :=
        loop_eq_of_work_le ((hbound w).trans (Nat.le_add_right _ _)) (hbound w)

end Runs

end Traversal

/-- **Edges that a check complains about are ignored.**  There is one warning for each end of an
edge that names no node, in the order of the edges and the source first, and each edge carries those
of its ends.  Without the edges that carry a warning nothing is left to complain about, and all runs
go through the same moments and end in the same way, whatever record they begin with. -/
theorem Workflow.danglingEnds_ignored (w : Workflow) :
    w.danglingEnds = (w.ends.filter (EdgeEnd.Loose w)).map EdgeEnd.warning ∧
      w.danglingEnds = w.edges.flatMap w.warnings ∧
      w.pruned.danglingEnds = [] ∧
      ∀ {ε π ω : Type} (ex : Executors ε π ω) (r : Registry ε) (record : Execution)
        (context : Context) (cancelled : Bool) (world : ω),
        (∀ patience, Traversal.run ex r w.pruned patience record context cancelled world =
          Traversal.run ex r w patience record context cancelled world) ∧
        ∀ m, Traversal.Moment.Reached ex r w.pruned
            (.start w.pruned record context cancelled world) m ↔
          Traversal.Moment.Reached ex r w (.start w record context cancelled world) m := by
  refine ⟨danglingEnds_eq w, danglingEnds_eq_flatMap w, danglingEnds_pruned w,
    fun ex r record context cancelled world =>
      ⟨fun patience => ?_, fun m => ⟨fun hm => ?_, fun hm => ?_⟩⟩⟩
  · exact Traversal.run_of_agree ex r record context cancelled world (agree_pruned w) patience
  · exact Traversal.reached_of_agree ex r record context cancelled world (agree_pruned w).symm hm
  · exact Traversal.reached_of_agree ex r record context cancelled world (agree_pruned w) hm

/-- An edge that a trigger leaves for an unknown node, and one from nowhere to nowhere. -/
example :
    let w : Workflow :=
      { id := "w"
        nodes := [{ id := "start", nodeType := .trigger }]
        edges := [⟨"e1", "start", "lost", .success⟩, ⟨"e2", "ghost", "lost", .failure⟩,
          ⟨"e3", "start", "start", .success⟩] }
    w.danglingEnds = [⟨"e1", "lost"⟩, ⟨"e2", "ghost"⟩, ⟨"e2", "lost"⟩] ∧
      w.pruned.edges = [⟨"e3", "start", "start", .success⟩] := by
  decide

end FlowGraph
