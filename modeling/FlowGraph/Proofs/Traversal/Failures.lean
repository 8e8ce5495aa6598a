import FlowGraph.Proofs.Traversal.Outcomes
import FlowGraph.Proofs.Traversal.Replay

/-!
# What nodes fail with

The errors in the record of a run are what its executors answer with, and the complaints about
missing inputs.  So what is known of all failures of the executors is known of all errors in the
record, at every moment and however others interfere: `errors_of_reached`.

Where no executor asks for its run to be cancelled, a run that is served succeeds when it returns:
`succeeds_of_returned`.
-/

namespace FlowGraph

namespace Traversal

open Moment

variable {ε π ω : Type}

/-! ## Errors of the record -/

/-- Calls of the nodes of a workflow fail only with messages that have the property `Told`.  While a
call of a node is at work its process has the property `Fine`. -/
structure FailsWith (ex : Executors ε π ω) (r : Registry ε) (w : Workflow)
    (Fine : Node → π → Prop) (Told : String → Prop) : Prop where
  refuse : ∀ {node input failure}, node ∈ w.nodes →
    node.resolveInputs input = .error failure → Told failure.message
  begin : ∀ executor (call : ExecutorCall), call.node ∈ w.nodes →
    r.get call.node.nodeType = .ok executor → Fine call.node (ex.begin executor call)
  poll : ∀ {node p p' cancelled world}, Fine node p →
    (ex.poll p cancelled world).1.state = .inl p' → Fine node p'
  fail : ∀ {node p cancelled world failure}, Fine node p →
    (ex.poll p cancelled world).1.state = .inr (.answered (.error failure)) → Told failure.message

/-- The errors of the results have the property. -/
def ErrorsTold (Told : String → Prop) (results : Keyed NodeResult) : Prop :=
  ∀ entry ∈ results, ∀ message, entry.2.error = some message → Told message

/-- The node at work is one of the workflow, and its executor is the one for it or its process is
fine. -/
def Moment.AtWork (r : Registry ε) (w : Workflow) (Fine : Node → π → Prop) :
    Moment ε π ω → Prop
  | between _ => True
  | entered executor node _ => node ∈ w.nodes ∧ r.get node.nodeType = .ok executor
  | calling node p _ => Fine node p

/-- What is kept from moment to moment. -/
structure Moment.Tells (r : Registry ε) (w : Workflow) (Fine : Node → π → Prop)
    (Told : String → Prop) (m : Moment ε π ω) : Prop where
  agenda : ∀ node ∈ m.run.traversal.agenda, node ∈ w.nodes
  atWork : m.AtWork r w Fine
  errors : ErrorsTold Told m.run.traversal.record.results

variable {ex : Executors ε π ω} {r : Registry ε} {w : Workflow} {Fine : Node → π → Prop}
variable {Told : String → Prop} {m m' : Moment ε π ω}

/-- An error of a result that was closed is an old one or the failure. -/
lemma error_closed {answer : Except NodeError Fields} {seconds : Double} {now : Timestamp}
    {result : NodeResult} {message : String}
    (h : (closed answer seconds now result).error = some message) :
    result.error = some message ∨
      ∃ failure, answer = .error failure ∧ message = failure.message := by
  rcases answer with failure | output
  · rw [closed, NodeResult.fail] at h
    split at h
    · exact .inr ⟨failure, rfl, (Option.some.inj h).symm⟩
    · exact .inl h
  · rw [closed, NodeResult.succeed] at h
    split at h <;> exact .inl h

lemma ErrorsTold.complete {run : Running ω} (h : ErrorsTold Told run.traversal.record.results)
    (node : Node) {answer : Except NodeError Fields}
    (hanswer : ∀ failure, answer = .error failure → Told failure.message) :
    ErrorsTold Told (run.complete ex w node answer).traversal.record.results := by
  obtain ⟨seconds, hresults⟩ := results_complete w node answer (ex.now run.world) run.traversal
  intro entry hentry message hmessage
  rw [Running.complete, hresults] at hentry
  obtain ⟨old, hold, rfl⟩ := List.mem_map.1 hentry
  split at hmessage
  · rcases error_closed hmessage with hkept | ⟨failure, hfailure, rfl⟩
    · exact h old hold message hkept
    · exact hanswer failure hfailure
  · exact h old hold message hmessage

/-- **A step keeps it.** -/
lemma Moment.Tells.step (hex : FailsWith ex r w Fine Told) (h : m.Tells r w Fine Told)
    (hstep : Step ex r w m m') : m'.Tells r w Fine Told := by
  cases hstep with
  | pass hagenda _ _ =>
    exact ⟨fun node hnode => h.agenda node (hagenda ▸ List.mem_cons_of_mem _ hnode), trivial,
      h.errors⟩
  | @enter run node rest executor hagenda _ _ hget =>
    refine ⟨fun other hother => h.agenda other (hagenda ▸ List.mem_cons_of_mem _ hother),
      ⟨h.agenda node (hagenda ▸ List.mem_cons_self), hget⟩, ?_⟩
    intro entry hentry message hmessage
    -- the result of a node that was only entered has no error yet
    rcases Keyed.mem_insert hentry with rfl | hold
    · cases hmessage
    · exact h.errors entry hold message hmessage
  | @refuse run node executor failure hin =>
    have hagenda : ∀ next ∈ run.traversal.agenda, next ∈ w.nodes := h.agenda
    have herrors : ErrorsTold Told run.traversal.record.results := h.errors
    refine ⟨agenda_complete_subset hagenda node _, trivial, herrors.complete node ?_⟩
    rintro _ ⟨⟩
    exact hex.refuse h.atWork.1 hin
  | @call run node executor inputs hin =>
    obtain ⟨hnode, hget⟩ := h.atWork
    exact ⟨h.agenda, hex.begin executor (run.call node inputs) hnode hget, h.errors⟩
  | poll hstate => exact ⟨h.agenda, hex.poll h.atWork hstate, h.errors⟩
  | @answer run node p answer hstate =>
    let polled : Running ω :=
      { run with toScene := run.toScene.polled ex run.traversal.record.id node.id p }
    have hanswer : ∀ failure, answer = .error failure → Told failure.message := by
      rintro failure rfl
      exact hex.fail h.atWork hstate
    have hagenda : ∀ next ∈ polled.traversal.agenda, next ∈ w.nodes := h.agenda
    have herrors : ErrorsTold Told polled.traversal.record.results := h.errors
    exact ⟨agenda_complete_subset hagenda node answer, trivial, herrors.complete node hanswer⟩
  | interfere m cancel world =>
    cases m with
    | between run | entered executor node run | calling node p run =>
      exact ⟨h.agenda, h.atWork, h.errors⟩

lemma Moment.Reached.tells (hex : FailsWith ex r w Fine Told) {record : Execution}
    {context : Context} {cancelled : Bool} {world : ω} (htold : ErrorsTold Told record.results)
    (h : Reached ex r w (.start w record context cancelled world) m) : m.Tells r w Fine Told := by
  induction h with
  | start => exact ⟨fun node hnode => (List.mem_filter.1 hnode).1, trivial, htold⟩
  | step _ hstep ih => exact ih.step hex hstep

/-- **All errors are told.**  At every moment of a run on a fresh record, however others interfere,
each error in the record has the property that the failures of its calls have. -/
theorem errors_of_reached (hex : FailsWith ex r w Fine Told) {record : Execution}
    {context : Context} {cancelled : Bool} {world : ω} (hfresh : record.results = [])
    (h : Reached ex r w (.start w record context cancelled world) m) :
    ErrorsTold Told m.run.traversal.record.results := by
  have htold : ErrorsTold Told record.results := by
    rw [hfresh]
    exact List.forall_mem_nil _
  exact (h.tells hex htold).errors

/-! ## Runs that nothing stops -/

/-- No call asks for its run to be cancelled. -/
def NeverCancels (ex : Executors ε π ω) : Prop :=
  ∀ p cancelled world, (ex.poll p cancelled world).1.cancels = false

lemma cancelled_finishCall (hex : NeverCancels ex) {id nodeId : String} (patience : ℕ) (p : π)
    (scene : Scene ω) {last : CallOutcome × Scene ω}
    (h : finishCall ex id nodeId patience p scene = some last) :
    last.2.cancelled = scene.cancelled := by
  induction patience generalizing p scene with
  | zero => cases h
  | succ patience ih =>
    have hpolled : (scene.polled ex id nodeId p).cancelled = scene.cancelled := by
      show (scene.cancelled || (ex.poll p scene.cancelled scene.world).1.cancels) = scene.cancelled
      rw [hex, Bool.or_false]
    rw [finishCall_succ] at h
    rcases hstate : (ex.poll p scene.cancelled scene.world).1.state with p' | outcome
    · rw [hstate] at h
      exact (ih p' _ h).trans hpolled
    · rw [hstate] at h
      cases h
      exact hpolled

/-- Such calls leave a run as it is, cancelled or not. -/
lemma cancelled_loop (hex : NeverCancels ex) (r : Registry ε) (w : Workflow) (patience : ℕ) :
    ∀ (fuel : ℕ) (run : Running ω),
      (loop ex r w patience fuel run).2.cancelled = run.cancelled := by
  intro fuel
  induction fuel with
  | zero => intro run; rfl
  | succ fuel ih =>
    intro run
    rcases hagenda : run.traversal.agenda with _ | ⟨node, rest⟩
    · rw [loop_nil ex r w _ fuel hagenda]
    by_cases hc : run.cancelled = true
    · rw [loop_cancelled ex r w _ fuel hagenda hc]
    rw [Bool.not_eq_true] at hc
    by_cases hk : Keyed.contains run.traversal.record.results node.id = true
    · rw [loop_passed ex r w _ fuel hagenda hc hk]
      exact ih _
    rw [Bool.not_eq_true] at hk
    rcases hget : r.get node.nodeType with failure | executor
    · rw [loop_unserved ex r w _ fuel hagenda hc hk hget]
    rcases hin : node.resolveInputs run.traversal.context.input with failure | inputs
    · rw [loop_refused ex r w _ fuel hagenda hc hk hget hin]
      exact ih _
    · rw [loop_called ex r w _ fuel hagenda hc hk hget hin]
      dsimp only
      rcases hcall : finishCall ex _ node.id patience _
          (((run.pass rest).enter ex node).called node inputs).toScene with
        _ | ⟨_ | _, scene⟩
      · rfl
      · exact (ih _).trans (cancelled_finishCall hex _ _ _ hcall)
      · exact cancelled_finishCall hex _ _ _ hcall

/-- **A run that is served succeeds when it returns**, if it has a trigger and nobody cancels it. -/
theorem succeeds_of_returned (hex : NeverCancels ex) {r : Registry ε}
    (hinitialized : r.initialized = true) (hserved : ∀ t, (r.executor? t).isSome = true)
    {w : Workflow} (htriggers : w.triggers ≠ []) (patience : ℕ) (record : Execution)
    (context : Context) (world : ω)
    (hreturned : (run ex r w patience record context false world).1 ≠ .crashed) :
    (run ex r w patience record context false world).1 = .returned (.ok ()) := by
  have hsome : w.triggers.isEmpty = false := List.isEmpty_eq_false_iff.2 htriggers
  have hfree : (run ex r w patience record context false world).2.cancelled = false := by
    rw [run, hsome]
    exact cancelled_loop hex r w patience _ _
  exact (run_concludes ex r w patience record context false world).succeeds hreturned hfree
    htriggers hinitialized fun node _ => hserved node.nodeType

end Traversal

end FlowGraph
