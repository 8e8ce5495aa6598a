import FlowGraph.Traversal
import Mathlib.Tactic.Common

/-!
# Taking a node

`Taken` lists what a step of a traversal comes to, each result with what led to it, and
`taken_step` says that there is nothing else.  Whatever a traversal does, the record stays that of
the same run: only its results change (`SameRun`).
-/

namespace FlowGraph

/-- Two records are of the same run, which is at the same point of its life. -/
structure SameRun (record record' : Execution) : Prop where
  id : record'.id = record.id
  workflowId : record'.workflowId = record.workflowId
  input : record'.input = record.input
  startedAt : record'.startedAt = record.startedAt

namespace SameRun

variable {a b c : Execution}

lemma refl (record : Execution) : SameRun record record := ⟨rfl, rfl, rfl, rfl⟩

lemma trans (h : SameRun a b) (h' : SameRun b c) : SameRun a c :=
  ⟨h'.id.trans h.id, h'.workflowId.trans h.workflowId, h'.input.trans h.input,
    h'.startedAt.trans h.startedAt⟩

lemma finish (record : Execution) (status : ExecutionStatus) (error : Option String)
    (now : Timestamp) : SameRun record (record.finish status error now) := by
  unfold Execution.finish
  split
  · exact refl record
  · exact ⟨rfl, rfl, rfl, rfl⟩

end SameRun

namespace Traversal

variable {ε : Type}

/-- What is left of a traversal when a node was taken off its agenda. -/
def drop (t : Traversal) (rest : List Node) : Traversal := { t with agenda := rest }

/-! ## The results of a step -/

/-- What a step comes to, with what led to it. -/
inductive Taken (w : Workflow) (view : View ε) (t : Traversal) : Turn ε → Prop
  /-- Nothing is left. -/
  | finished (hagenda : t.agenda = []) : Taken w view t (.ended (.ok ()))
  /-- The run is cancelled before the next node. -/
  | cancelled {node : Node} {rest : List Node} (hagenda : t.agenda = node :: rest)
      (hcancelled : view.cancelled = true) : Taken w view t (.ended (.error .cancelled))
  /-- There is no executor for the next node. -/
  | unserved {node : Node} {rest : List Node} {failure : EngineError}
      (hagenda : t.agenda = node :: rest) (hcancelled : view.cancelled = false)
      (hnew : Keyed.contains t.record.results node.id = false)
      (hget : view.executor node.nodeType = .error failure) :
      Taken w view t (.ended (.error failure))
  /-- The next node has a result. -/
  | passed {node : Node} {rest : List Node} (hagenda : t.agenda = node :: rest)
      (hcancelled : view.cancelled = false)
      (hknown : Keyed.contains t.record.results node.id = true) :
      Taken w view t (.passed (t.drop rest))
  /-- The next node is entered, but its inputs are missing: it fails. -/
  | refused {node : Node} {rest : List Node} {executor : ε} {failure : NodeError}
      (hagenda : t.agenda = node :: rest) (hcancelled : view.cancelled = false)
      (hnew : Keyed.contains t.record.results node.id = false)
      (hget : view.executor node.nodeType = .ok executor)
      (hin : node.resolveInputs t.context.input = .error failure) :
      Taken w view t (.refused
        (((t.drop rest).enter node view.now).complete w node (.error failure) view.now).1
        [t.enterEvent node view.now,
          (((t.drop rest).enter node view.now).complete w node (.error failure) view.now).2])
  /-- The next node is entered, and its executor is to be called. -/
  | entered {node : Node} {rest : List Node} {executor : ε} {inputs : NodeInputs}
      (hagenda : t.agenda = node :: rest) (hcancelled : view.cancelled = false)
      (hnew : Keyed.contains t.record.results node.id = false)
      (hget : view.executor node.nodeType = .ok executor)
      (hin : node.resolveInputs t.context.input = .ok inputs) :
      Taken w view t (.entered executor node inputs ((t.drop rest).enter node view.now)
        (t.enterEvent node view.now))

lemma taken_step (w : Workflow) (view : View ε) (t : Traversal) :
    Taken w view t (t.step w view) := by
  unfold step
  split
  · next hagenda => exact .finished hagenda
  next node rest hagenda =>
  dsimp only
  split
  · next hcancelled => exact .cancelled hagenda hcancelled
  next hcancelled =>
  rw [Bool.not_eq_true] at hcancelled
  split
  · next hknown => exact .passed hagenda hcancelled hknown
  next hnew =>
  rw [Bool.not_eq_true] at hnew
  split
  · next failure hget => exact .unserved hagenda hcancelled hnew hget
  next executor hget =>
  split
  · next inputs hin => exact .entered hagenda hcancelled hnew hget hin
  · next failure hin => exact .refused hagenda hcancelled hnew hget hin

lemma taken_of_step {w : Workflow} {view : View ε} {t : Traversal} {turn : Turn ε}
    (h : t.step w view = turn) : Taken w view t turn := by
  rw [← h]
  exact taken_step w view t

/-- A run that is cancelled takes no node. -/
lemma step_of_cancelled (w : Workflow) {view : View ε} (t : Traversal)
    (h : view.cancelled = true) :
    t.step w view = .ended (if t.agenda.isEmpty then .ok () else .error .cancelled) := by
  unfold step
  split
  · next hagenda => rw [hagenda]; rfl
  · next node rest hagenda =>
    dsimp only
    rw [if_pos h, hagenda]
    rfl

/-! ## The record stays that of the run -/

lemma status_complete (w : Workflow) (node : Node) (answer : Except NodeError Fields)
    (now : Timestamp) (t : Traversal) :
    (t.complete w node answer now).1.record.status = t.record.status := by
  cases answer <;> rfl

lemma sameRun_enter (t : Traversal) (rest : List Node) (node : Node) (now : Timestamp) :
    SameRun t.record ((t.drop rest).enter node now).record := ⟨rfl, rfl, rfl, rfl⟩

lemma sameRun_complete (w : Workflow) (node : Node) (answer : Except NodeError Fields)
    (now : Timestamp) (t : Traversal) :
    SameRun t.record (t.complete w node answer now).1.record := by
  cases answer <;> exact ⟨rfl, rfl, rfl, rfl⟩

lemma executionId_complete (w : Workflow) (node : Node) (answer : Except NodeError Fields)
    (now : Timestamp) (t : Traversal) :
    (t.complete w node answer now).2.executionId = t.record.id := by
  cases answer <;> rfl

/-- What taking a node emits belongs to the run of the record. -/
lemma Taken.executionId {w : Workflow} {view : View ε} {t : Traversal} {turn : Turn ε}
    (h : Taken w view t turn) :
    match turn with
    | .refused _ events => ∀ e ∈ events, e.executionId = t.record.id
    | .entered _ _ _ _ event => event.executionId = t.record.id
    | _ => True := by
  cases h with
  | refused _ _ _ _ _ =>
    intro e he
    simp only [List.mem_cons, List.not_mem_nil, or_false] at he
    rcases he with rfl | rfl
    · rfl
    · exact executionId_complete _ _ _ _ _
  | entered _ _ _ _ _ => rfl
  | _ => trivial

end Traversal

end FlowGraph
