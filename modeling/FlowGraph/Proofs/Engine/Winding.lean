import FlowGraph.Proofs.Engine.Following
import FlowGraph.Proofs.Traversal.Reach

/-!
# How a cancelled run winds up

Once a run is cancelled there is little that can still happen to it, whatever its phase was:
`Winding` lists it.  A run that was not let in is dismissed; an executor at work may finish, and its
answer is taken; then the run stops before the next node.  The lemma `Turn.winding` says that
nothing else happens, and `winding_after` carries it to the end of the run.

A cancellation is only seen when there is a next node.  So a run that is cancelled while an executor
works on its last node is completed all the same: `status_of_cancelled` says exactly when.
-/

namespace FlowGraph

namespace EngineState

variable {ε π ω : Type}

/-- Events that an executor reports of a node. -/
def Reports (id : String) (node : Node) (events : List ExecutionEvent) : Prop :=
  ∀ e ∈ events, ∃ report now, e = .nodeEvent id node.id report now

/-- The traversal that a run is left with that was cancelled in the phase `p₀`, and the events
until then. -/
inductive Left (id : String) (w : Workflow) (p₀ : Phase π) :
    Traversal → List ExecutionEvent → Prop
  /-- It stood between two nodes. -/
  | between {t : Traversal} (h : p₀ = .traversing t) : Left id w p₀ t []
  /-- It was to begin its traversal. -/
  | begun {record : Execution} (h : p₀ = .awaitingRegistry record)
      (hsome : w.triggers.isEmpty = false) :
      Left id w p₀ (Traversal.start w record { executionId := id, input := record.input }) []
  /-- An executor was at work, and its answer was taken. -/
  | answered {t : Traversal} {node : Node} {q : π} {events : List ExecutionEvent}
      (h : p₀ = .calling t node q) (answer : Except NodeError Fields) (now : Timestamp)
      (hevents : Reports id node events) :
      Left id w p₀ (t.complete w node answer now).1
        (events ++ [(t.complete w node answer now).2])

/-- What becomes of a run that was cancelled in the phase `p₀`: the phases it comes to, each with
the events since the cancellation. -/
inductive Winding (ex : Executors ε π ω) (id : String) (w : Workflow) (p₀ : Phase π) :
    Phase π → List ExecutionEvent → Prop
  | same : Winding ex id w p₀ p₀ []
  /-- It is given the permit it waits for, but it is not let in. -/
  | granted {record : Execution} (h : p₀ = .queued record) :
      Winding ex id w p₀ (.permitted record) []
  /-- It is dismissed before it was let in. -/
  | dismissed (h : p₀.isPending = true) {record : Execution} (now : Timestamp) (ms : ℕ)
      (hrecord : record = p₀.record.finish .cancelled (some EngineError.cancelled.message) now) :
      Winding ex id w p₀ (.storing record) [.executionFinished id record.status ms now]
  /-- There is nothing to begin with. -/
  | untriggered {begun record : Execution} (h : p₀ = .awaitingRegistry begun)
      (hnone : w.triggers.isEmpty = true) (now : Timestamp) (ms : ℕ)
      (hrecord : record = begun.finish .failed (some EngineError.noTriggerNode.message) now) :
      Winding ex id w p₀ (.storing record) [.executionFinished id record.status ms now]
  /-- The executor that is at work goes on. -/
  | waiting {t : Traversal} {node : Node} {q : π} {events : List ExecutionEvent}
      (h : p₀ = .calling t node q) (q' : π) (hevents : Reports id node events) :
      Winding ex id w p₀ (.calling t node q') events
  /-- The executor that is at work has a defect. -/
  | crashed {t : Traversal} {node : Node} {q : π} {events : List ExecutionEvent}
      (h : p₀ = .calling t node q) (hevents : Reports id node events)
      (hcrashed : ∃ q' world, (ex.poll q' true world).1.state = .inr .crashed)
      {record : Execution} (now : Timestamp) (ms : ℕ)
      (hrecord : record = t.record.finish .failed (some "Execution panicked") now) :
      Winding ex id w p₀ (.storing record)
        (events ++ [.executionFinished id record.status ms now])
  /-- It stands between two nodes. -/
  | left {t : Traversal} {events : List ExecutionEvent} (h : Left id w p₀ t events) :
      Winding ex id w p₀ (.traversing t) events
  /-- It stops there: cancelled, or completed if nothing was left to visit. -/
  | stopped {t : Traversal} {events : List ExecutionEvent} (h : Left id w p₀ t events)
      {record : Execution} (now : Timestamp) (ms : ℕ)
      (hrecord : record = if t.agenda.isEmpty then t.record.finish .completed none now
        else t.record.finish .cancelled (some EngineError.cancelled.message) now) :
      Winding ex id w p₀ (.storing record)
        (events ++ [.executionFinished id record.status ms now])

section Turn

variable {ex : Executors ε π ω} {s : EngineState ε π ω} {id : String} {w : Workflow}
variable {p₀ p p' : Phase π} {events more : List ExecutionEvent}

lemma reports_polled (node : Node) (q : π) : Reports id node (s.reports ex id node q) := by
  intro e he
  obtain ⟨report, -, rfl⟩ := List.mem_map.1 he
  exact ⟨report, _, rfl⟩

lemma Reports.append {node : Node} (h : Reports id node events) (h' : Reports id node more) :
    Reports id node (events ++ more) := by
  intro e he
  rcases List.mem_append.1 he with he | he
  · exact h e he
  · exact h' e he

/-- A run that was not let in leaves no traversal. -/
lemma not_left_of_pending {t : Traversal} (hpending : p₀.isPending = true) :
    ¬Left id w p₀ t events := by
  intro h
  cases h with
  | between h | begun h _ | answered h _ _ _ =>
    subst h
    cases hpending

/-- How a winding-up run stands at a traversal. -/
lemma Winding.left_of_traversing {t : Traversal}
    (h : Winding ex id w p₀ (.traversing t) events) : Left id w p₀ t events := by
  generalize hp : Phase.traversing t = p at h
  cases h with
  | same => exact .between hp.symm
  | left h =>
    cases hp
    exact h
  | _ => cases hp

/-- What a winding-up run does with an executor at work. -/
lemma Winding.of_calling {t : Traversal} {node : Node} {q : π}
    (h : Winding ex id w p₀ (.calling t node q) events) :
    ∃ q₀, p₀ = .calling t node q₀ ∧ Reports id node events := by
  generalize hp : Phase.calling t node q = p at h
  cases h with
  | same => exact ⟨q, hp.symm, fun e he => (by cases he)⟩
  | @waiting t node q₀ events h q' hevents =>
    cases hp
    exact ⟨q₀, h, hevents⟩
  | _ => cases hp

lemma Winding.of_awaiting {record : Execution}
    (h : Winding ex id w p₀ (.awaitingRegistry record) events) :
    p₀ = .awaitingRegistry record ∧ events = [] := by
  generalize hp : Phase.awaitingRegistry record = p at h
  cases h with
  | same => exact ⟨rfl, rfl⟩
  | _ => cases hp

/-- A run that is still not let in was not when it was cancelled. -/
lemma Winding.of_pending (h : Winding ex id w p₀ p events) (hp : p.isPending = true) :
    p₀.isPending = true ∧ p.record = p₀.record ∧ events = [] := by
  cases h with
  | same => exact ⟨hp, rfl, rfl⟩
  | granted h =>
    subst h
    exact ⟨rfl, rfl, rfl⟩
  | _ => cases hp

/-- A turn of a cancelled run does not lead anywhere else. -/
lemma Turn.winding (h : Turn ex s id w p p' more) (hcancelled : s.isCancelled id = true)
    (hp : Winding ex id w p₀ p events) : Winding ex id w p₀ p' (events ++ more) := by
  have hview : (s.viewOf ex id).cancelled = true := hcancelled
  cases h with
  | queue hfree => simp [hcancelled] at hfree
  | @grant record =>
    generalize hq : Phase.queued record = p at hp
    cases hp with
    | same => exact .granted hq.symm
    | _ => cases hq
  | letIn _ hfree => simp [hcancelled] at hfree
  | «begin» hsome hlock =>
    obtain ⟨rfl, rfl⟩ := hp.of_awaiting
    exact .left (.begun rfl hsome)
  | pass hstep | refuse hstep | enter hstep =>
    -- it would have looked at the cancellation first
    rw [Traversal.step_of_cancelled w _ hview] at hstep
    cases hstep
  | wait hstate =>
    obtain ⟨q₀, h₀, hreports⟩ := hp.of_calling
    exact .waiting h₀ _ (hreports.append (reports_polled _ _))
  | answer hstate =>
    obtain ⟨q₀, h₀, hreports⟩ := hp.of_calling
    rw [← List.append_assoc]
    exact .left (.answered h₀ _ _ (hreports.append (reports_polled _ _)))
  | @finish p outcome ending hends record now ms hrecord =>
    cases hends with
    | cancelled hpending _ =>
      obtain ⟨h₀, hsame, rfl⟩ := hp.of_pending hpending
      rw [hsame] at hrecord
      exact .dismissed h₀ now ms hrecord
    | untriggered hnone =>
      obtain ⟨rfl, rfl⟩ := hp.of_awaiting
      exact .untriggered rfl hnone now ms hrecord
    | @stopped t outcome hstep =>
      rw [Traversal.step_of_cancelled w _ hview] at hstep
      cases hstep
      refine .stopped hp.left_of_traversing now ms ?_
      rw [hrecord]
      split <;> rfl
    | @crashed t node q hstate =>
      obtain ⟨q₀, h₀, hreports⟩ := hp.of_calling
      have hcrashed : (ex.poll q true s.world).1.state = .inr .crashed := by
        rw [polled, hcancelled] at hstate
        exact hstate
      rw [← List.append_assoc]
      exact .crashed h₀ (hreports.append (reports_polled _ _)) ⟨q, s.world, hcrashed⟩ now ms
        hrecord

end Turn

/-! ## After a cancellation -/

section After

variable (ex : Executors ε π ω) (registry : Registry ε) (config : EngineConfig) (world : ω)

/-- A run that is cancelled winds up. -/
lemma winding_after (acts more : List (Act ω)) (hruns : Act.DistinctRuns (acts ++ more))
    {id : String} {w : Workflow} {p₀ : Phase π}
    (hworker : Keyed.get?
      ((make registry config world : EngineState ε π ω).after ex acts).workers id = some ⟨w, p₀⟩)
    (hcancelled : ((make registry config world : EngineState ε π ω).after ex acts).isCancelled id =
      true) :
    Follows (fun p events => ∃ since, events =
        ((make registry config world : EngineState ε π ω).after ex acts).eventsOf id ++ since ∧
          Winding ex id w p₀ p since) w id
      ((make registry config world).after ex (acts ++ more)) := by
  refine follows_after ex registry config world acts more hruns hworker
    ⟨[], (List.append_nil _).symm, .same⟩ ?_
  rintro between ⟨rest, rfl⟩ q q' events turn hq hturn ⟨since, rfl, hwinding⟩
  have hstill := isCancelled_after ex registry config world acts between
    (distinctRuns_of_append (by rwa [List.append_assoc])) hcancelled hq
  exact ⟨since ++ turn, by rw [List.append_assoc], hturn.winding hstill hwinding⟩

/-- What a user who cancels a run brings about at once. -/
lemma cancel_of_true {s : EngineState ε π ω} {id : String} (h : (s.cancel id).1 = true) :
    (s.act ex (.cancel id)).isCancelled id = true ∧
      (s.act ex (.cancel id)).workers = s.workers ∧ id ∈ Keyed.keys s.active := by
  simp only [cancel] at h
  split at h
  · cases h
  next run hrun =>
  split at h
  · cases h
  next hactive =>
  have hact : s.act ex (.cancel id) =
      (s.updateActive id fun run => { run with cancelled := true }).wake [.worker id] := by
    simp only [act, cancel, hrun, if_neg hactive]
  rw [hact]
  refine ⟨?_, rfl, ?_⟩
  · simp only [isCancelled_eq, wake, updateActive, Keyed.get?_modify, if_pos, hrun]
    rfl
  · exact Keyed.mem_keys_of_get? hrun

end After

/-! ## The status of a cancelled run -/

/-- An executor at work has not answered yet. -/
def NodeRunning : Phase π → Prop
  | .calling t node _ => Traversal.IsRunning t.record node.id
  | _ => True

lemma Turn.nodeRunning {ex : Executors ε π ω} {s : EngineState ε π ω} {id : String}
    {w : Workflow} {p p' : Phase π} {events : List ExecutionEvent}
    (h : Turn ex s id w p p' events) (hp : NodeRunning p) : NodeRunning p' := by
  cases h with
  | enter hstep =>
    cases Traversal.taken_of_step hstep
    exact Traversal.isRunning_enter _ _ _
  | wait => exact hp
  | _ => trivial

lemma Journey.nodeRunning {ex : Executors ε π ω} {start : EngineState ε π ω} {id : String}
    {w : Workflow} {input : Fields} {acts : List (Act ω)} {p : Phase π}
    {events : List ExecutionEvent} (h : Journey ex start id w input acts p events) :
    NodeRunning p := by
  induction h with
  | admitted => trivial
  | stay _ _ ih => exact ih
  | turn _ _ hturn ih => exact hturn.nodeRunning ih

lemma finish_of_not_terminal {record : Execution} (h : record.status.isTerminal = false)
    (status : ExecutionStatus) (error : Option String) (now : Timestamp) :
    record.finish status error now = { record with status, error, completedAt := some now } := by
  rw [Execution.finish, h, if_neg Bool.false_ne_true]

/-- A run that was not let in when it was cancelled ends as cancelled. -/
lemma Winding.status_of_pending {ex : Executors ε π ω} {id : String} {w : Workflow} {p₀ : Phase π}
    {record : Execution} {events : List ExecutionEvent} (hsound : p₀.Sound)
    (hpending : p₀.isPending = true) (h : Winding ex id w p₀ (.storing record) events) :
    record.status = .cancelled := by
  generalize hp : Phase.storing record = p at h
  cases h with
  | same =>
    subst hp
    cases hpending
  | dismissed _ now ms hrecord =>
    cases hp
    have hstatus := hsound.pending hpending
    rw [hrecord, finish_of_not_terminal (by rw [hstatus]; rfl)]
  | untriggered h | crashed h _ _ _ _ _ =>
    subst h
    cases hpending
  | stopped h => exact absurd h (not_left_of_pending hpending)
  | _ => cases hp

/-- A run that was cancelled while an executor worked on a node ends as cancelled, unless nothing is
left to visit after that node. -/
lemma Winding.status_of_calling {ex : Executors ε π ω} {id : String} {w : Workflow} {t : Traversal}
    {node : Node} {q : π} {record : Execution} {events : List ExecutionEvent}
    (hsteady : ∀ q cancelled world, (ex.poll q cancelled world).1.state ≠ .inr .crashed)
    (hsound : t.record.status = .running) (hrunning : Traversal.IsRunning t.record node.id)
    (h : Winding ex id w (.calling t node q) (.storing record) events) :
    ∃ kind, Traversal.outcome? record node.id = some kind ∧
      record.status =
        if (w.successors node.id kind ++ t.agenda).isEmpty then .completed else .cancelled := by
  generalize hp : Phase.storing record = p at h
  cases h with
  | crashed _ _ hcrashed =>
    obtain ⟨q', world, hcrashed⟩ := hcrashed
    exact absurd hcrashed (hsteady q' true world)
  | stopped hleft now ms hrecord =>
    cases hp
    cases hleft with
    | answered h answer now' _ =>
      cases h
      -- the answer is taken as usual, so the agenda begins with the successors that it leads to
      have hstatus : (t.complete w node answer now').1.record.status.isTerminal = false := by
        rw [Traversal.status_complete, hsound]
        rfl
      refine ⟨Traversal.answerKind answer, ?_, ?_⟩
      · have houtcome : Traversal.outcome? (t.complete w node answer now').1.record node.id =
            some (Traversal.answerKind answer) := by
          rw [Traversal.outcome?_complete w hrunning, if_pos rfl]
        rw [hrecord, ← houtcome]
        split <;> rw [finish_of_not_terminal hstatus] <;> rfl
      · rw [hrecord, Traversal.agenda_complete]
        split <;> rw [finish_of_not_terminal hstatus]
    | between h | begun h _ => cases h
  | dismissed h => cases h
  | untriggered h => cases h
  | _ => cases hp

/-- **How a cancelled run ends.**  In every history with distinct ids and executors without defects:
a run that was not let in when it was cancelled ends as cancelled.  One that was cancelled while an
executor worked on a node ends as cancelled if there is a node left to visit after that one, and it
is completed if there is none, even if the executor failed because of the cancellation. -/
theorem status_of_cancelled (ex : Executors ε π ω) (registry : Registry ε) (config : EngineConfig)
    (world : ω) (before rest : List (Act ω)) (id : String) (record : Execution)
    (hsteady : ∀ q cancelled world, (ex.poll q cancelled world).1.state ≠ .inr .crashed)
    (hruns : Act.DistinctRuns (before ++ .cancel id :: rest))
    (htrue : (((make registry config world : EngineState ε π ω).after ex before).cancel id).1 =
      true)
    (hrecord : Keyed.get? ((make registry config world : EngineState ε π ω).after ex
      (before ++ .cancel id :: rest)).finished id = some record) :
    ∃ w p, Keyed.get?
        ((make registry config world : EngineState ε π ω).after ex before).workers id =
          some ⟨w, p⟩ ∧
      (p.isPending = true → record.status = .cancelled) ∧
      ∀ t node q, p = .calling t node q →
        ∃ kind, Traversal.outcome? record node.id = some kind ∧
          record.status =
            if (w.successors node.id kind ++ t.agenda).isEmpty then .completed else .cancelled := by
  have hbefore := distinctRuns_of_append hruns
  obtain ⟨hcancelled, hworkers, hactive⟩ := cancel_of_true ex htrue
  rw [active_keys_after ex registry config world before hbefore] at hactive
  obtain ⟨⟨w, p⟩, hworker⟩ := Keyed.exists_of_mem_keys hactive
  obtain ⟨input, hjourney⟩ := journey_after ex registry config world before hbefore hworker
  -- from the cancellation on the run winds up
  have hsplit : before ++ .cancel id :: rest = (before ++ [.cancel id]) ++ rest := by simp
  rw [hsplit] at hruns hrecord
  rw [← hworkers, ← after_concat] at hworker
  rw [← after_concat] at hcancelled
  have hfollows := winding_after ex registry config world _ rest hruns hworker hcancelled
  have hnone := get?_none_of_finished ex registry config world _ hruns hrecord
  obtain ⟨since, -, hwinding⟩ := hfollows.finished hnone hrecord
  rw [after_concat, hworkers] at hworker
  refine ⟨w, p, hworker, fun hpending => ?_, ?_⟩
  · exact hwinding.status_of_pending hjourney.sound hpending
  · rintro t node q rfl
    exact hwinding.status_of_calling hsteady hjourney.sound hjourney.nodeRunning

/-- Executors that wait for the cancellation of the run, and fail with it. -/
def heeding : Executors Unit Unit Unit where
  hooks := Executors.prompt.hooks
  now := Executors.prompt.now
  begin := Executors.prompt.begin
  poll _ cancelled world :=
    (if cancelled then { state := .inr (.answered (.error .cancelled)) } else { state := .inl () },
      world)

/-- The executor of the only node is at work. -/
def atWork : List (Act Unit) :=
  [.execute "run" lone [], .move (.worker "run"), .move (.worker "run"), .move (.worker "run"),
    .move (.worker "run")]

/-- The executor fails, the run ends, and its record is stored. -/
def toTheEnd : List (Act Unit) :=
  [.move (.worker "run"), .move (.worker "run"), .move (.worker "run")]

/-- A run that is cancelled while the executor of its last node is at work is completed, although
that executor saw the cancellation and failed with it. -/
theorem cancel_lastNode_completed :
    let s := (promptEngine {}).after heeding atWork
    let final := (promptEngine {}).after heeding (atWork ++ .cancel "run" :: toTheEnd)
    (s.cancel "run").1 = true ∧
      (∃ t node q, Keyed.get? s.workers "run" = some ⟨lone, .calling t node q⟩) ∧
      ∃ record, Keyed.get? final.finished "run" = some record ∧ record.status = .completed ∧
        (record.result? "start").bind NodeResult.error = some NodeError.cancelled.message :=
  ⟨rfl, ⟨_, _, _, rfl⟩, _, rfl, rfl, rfl⟩

/-- There is nothing to visit after the failure of that node. -/
theorem status_of_cancelled_lone :
    ∃ record w p, Keyed.get? ((promptEngine {}).after heeding
        (atWork ++ .cancel "run" :: toTheEnd)).finished "run" = some record ∧
      Keyed.get? ((promptEngine {}).after heeding atWork).workers "run" = some ⟨w, p⟩ ∧
      (p.isPending = true → record.status = .cancelled) ∧
      ∀ t node q, p = .calling t node q →
        ∃ kind, Traversal.outcome? record node.id = some kind ∧
          record.status =
            if (w.successors node.id kind ++ t.agenda).isEmpty then .completed else .cancelled := by
  have hsteady : ∀ q cancelled world, (heeding.poll q cancelled world).1.state ≠ .inr .crashed := by
    rintro q (_ | _) world h <;> cases h
  have hruns : Act.DistinctRuns (atWork ++ .cancel "run" :: toTheEnd) :=
    show ["run"].Nodup by decide
  have htrue : (((promptEngine {}).after heeding atWork).cancel "run").1 = true := rfl
  obtain ⟨record, hrecord⟩ : ∃ record, Keyed.get? ((promptEngine {}).after heeding
      (atWork ++ .cancel "run" :: toTheEnd)).finished "run" = some record := ⟨_, rfl⟩
  obtain ⟨w, p, hends⟩ :=
    status_of_cancelled heeding _ {} () atWork toTheEnd "run" record hsteady hruns htrue hrecord
  exact ⟨record, w, p, hrecord, hends⟩

end EngineState

end FlowGraph
