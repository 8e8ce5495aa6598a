import FlowGraph.Proofs.Engine.Stages
import FlowGraph.Proofs.Engine.Winding
import FlowGraph.Proofs.Traversal.Outcomes

/-!
# How runs come to their end

Every final record was made in the last turn of its run.  `Ending` goes back to that turn: it says
where the worker stood, what became of the traversal, and what was heard of the run.  All that is
said about final records is read off there (`ending_of_finished`).  There are two kinds of last
turns: a run that was not let in is dismissed with nothing to tell of (`Ends.of_pending`), and any
other ends as a run of its workflow does by itself (`Ends.concludes`).
-/

namespace FlowGraph

namespace EngineState

open Traversal (Running Outcome Concludes Narrates AreReports)

variable {ε π ω : Type}

/-! ## What a status says -/

/-- The status of a run that came to an outcome. -/
lemma status_verdict (outcome : Outcome) :
    ((verdict outcome).1 = .completed ↔ outcome = .returned (.ok ())) ∧
      ((verdict outcome).1 = .cancelled ↔ outcome = .returned (.error .cancelled)) ∧
      ((verdict outcome).1 = .failed ↔ outcome = .crashed ∨
        ∃ e, e ≠ EngineError.cancelled ∧ outcome = .returned (.error e)) := by
  rcases outcome with (e | ⟨⟨⟩⟩) | _
  · cases e <;> simp [verdict]
  · simp [verdict]
  · simp [verdict]

/-! ## The last turn -/

section Ends

variable {ex : Executors ε π ω} {s : EngineState ε π ω} {id : String} {w : Workflow}
variable {input : Fields} {p : Phase π} {outcome : Outcome} {reports : List ExecutionEvent}

/-- A run that ends without having been let in is cancelled while it waits. -/
lemma Ends.of_pending (h : Ends ex s id w p outcome reports)
    (hstage : Stage ex s.registry id w input (s.isCancelled id) p (s.eventsOf id))
    (hpending : p.isPending = true) :
    s.isCancelled id = true ∧ outcome = .returned (.error .cancelled) ∧ p.record.results = [] ∧
      s.eventsOf id ++ reports = [] := by
  obtain ⟨⟨made, hmade⟩, hnothing⟩ := hstage.of_pending hpending
  cases h with
  | cancelled _ hcancelled =>
    rw [hnothing]
    exact ⟨hcancelled, rfl, congrArg Execution.results hmade, rfl⟩
  | untriggered | stopped | crashed => cases hpending

/-- The events up to a moment of a run tell of its results. -/
lemma told_of_begun {r : Registry ε} {now : Timestamp} {world : ω} {m : Traversal.Moment ε π ω}
    (h : Traversal.Moment.Reached ex r w (begun id w input now world) m) : m.Told id :=
  h.told (.start w _ false world rfl rfl)

/-- A run that was let in ends as a run of its workflow, and what was heard of it tells of its
results. -/
lemma Ends.concludes (h : Ends ex s id w p outcome reports)
    (hstage : Stage ex s.registry id w input (s.isCancelled id) p (s.eventsOf id))
    (hpending : p.isPending = false) :
    p.underWay = true ∧ ∃ now started world last,
      Concludes ex s.registry w (begun id w input now world) outcome last ∧
      p.record.results = last.traversal.record.results ∧
      s.eventsOf id ++ reports = .executionStarted id w.id started :: last.events ∧
      Narrates id last.traversal.record.results last.events := by
  cases h with
  | cancelled hp _ =>
    rw [hpending] at hp
    cases hp
  | untriggered hnone =>
    obtain ⟨made, started, rfl, hstarted⟩ := hstage.of_awaiting
    rw [hstarted]
    exact ⟨rfl, made, started, s.world, _, .untriggered hnone, rfl, rfl, .nil⟩
  | stopped hstep =>
    obtain ⟨made, started, first, run, hrun, hreached⟩ := hstage.of_traversing s.world
    obtain rfl := hrun.traversal
    rw [viewOf, ← hrun.cancelled, ← hrun.world] at hstep
    exact ⟨rfl, made, started, first, run, .halted hrun.triggers (.ended hreached hstep), rfl,
      (List.append_nil _).trans hrun.events, (told_of_begun hreached).narrates⟩
  | @crashed _ node q _ =>
    obtain ⟨made, started, first, run, hrun, hreached⟩ := hstage.of_calling s.world
    obtain rfl := hrun.traversal
    obtain ⟨-, hopen, htold⟩ := told_of_begun hreached
    have hreports : AreReports id node.id (s.reports ex id node q) := reports_polled node q
    -- what the executor reported last is heard of its node
    exact ⟨rfl, made, started, first, { run with events := run.events ++ s.reports ex id node q },
      .halted hrun.triggers (.crashed hreached rfl rfl), rfl, hrun.append _,
      htold.report hopen hreports⟩

/-- Only a crash of an executor ends a run with a crash. -/
lemma Ends.of_crashed (h : Ends ex s id w p .crashed reports) :
    ∃ t node q, p = .calling t node q ∧ (s.polled ex id q).1.state = .inr .crashed := by
  cases h with
  | crashed hcrashed => exact ⟨_, _, _, rfl, hcrashed⟩

end Ends

/-! ## Endings -/

/-- A run was let in: its worker went on with a permit. -/
def LetIn (ex : Executors ε π ω) (start : EngineState ε π ω) (acts : List (Act ω)) (id : String) :
    Prop :=
  ∃ before w p, before <+: acts ∧ Keyed.get? (start.after ex before).workers id = some ⟨w, p⟩ ∧
    p.underWay = true

/-- An executor that worked for a run crashed when it was polled. -/
def Crashed (ex : Executors ε π ω) (start : EngineState ε π ω) (acts : List (Act ω))
    (id : String) : Prop :=
  ∃ before w t node p, before ++ [.move (.worker id)] <+: acts ∧
    Keyed.get? (start.after ex before).workers id = some ⟨w, .calling t node p⟩ ∧
    ((start.after ex before).polled ex id p).1.state = .inr .crashed

/-- How a run came to its end: the history before its last turn, where it stood then, and what
became of its traversal. -/
structure Ending (ex : Executors ε π ω) (start : EngineState ε π ω) (acts : List (Act ω))
    (id : String) (record : Execution) where
  before : List (Act ω)
  workflow : Workflow
  input : Fields
  phase : Phase π
  outcome : Traversal.Outcome
  /-- What the executor reported last. -/
  reports : List ExecutionEvent
  now : Timestamp
  millis : ℕ
  moved : before ++ [.move (.worker id)] <+: acts
  worker : Keyed.get? (start.after ex before).workers id = some ⟨workflow, phase⟩
  admitted : AdmittedWith ex start before id workflow input
  stage : Stage ex (start.after ex before).registry id workflow input
    ((start.after ex before).isCancelled id) phase ((start.after ex before).eventsOf id)
  ends : Ends ex (start.after ex before) id workflow phase outcome reports
  workflowId : phase.record.workflowId = workflow.id
  record_eq : record = { phase.record with
    status := (verdict outcome).1, error := (verdict outcome).2, completedAt := some now }
  events : (start.after ex acts).eventsOf id =
    (start.after ex before).eventsOf id ++
      (reports ++ [.executionFinished id record.status millis now])

section Ending

variable {ex : Executors ε π ω} {start : EngineState ε π ω} {acts : List (Act ω)} {id : String}
variable {record : Execution}

lemma Ending.prior (e : Ending ex start acts id record) : e.before <+: acts :=
  (List.prefix_append _ _).trans e.moved

/-- With a permit a run ends only where it was let in. -/
lemma Ending.letIn (e : Ending ex start acts id record) (h : e.phase.underWay = true) :
    LetIn ex start acts id :=
  ⟨e.before, e.workflow, e.phase, e.prior, e.worker, h⟩

lemma Ending.crashed (e : Ending ex start acts id record) (h : e.outcome = .crashed) :
    Crashed ex start acts id := by
  have hends := e.ends
  rw [h] at hends
  obtain ⟨t, node, q, hphase, hcrashed⟩ := hends.of_crashed
  exact ⟨e.before, e.workflow, t, node, q, e.moved, hphase ▸ e.worker, hcrashed⟩

lemma Ending.status (e : Ending ex start acts id record) : record.status = (verdict e.outcome).1 :=
  congrArg Execution.status e.record_eq

lemma Ending.results (e : Ending ex start acts id record) :
    record.results = e.phase.record.results :=
  (congrArg Execution.results e.record_eq).trans rfl

end Ending

variable (ex : Executors ε π ω) (registry : Registry ε) (config : EngineConfig) (world : ω)

/-- A record that is about to be stored was made in the last turn of its run. -/
lemma ending_of_worker (acts : List (Act ω)) (hruns : Act.DistinctRuns acts) {id : String}
    {w : Workflow} {record : Execution}
    (hworker : Keyed.get? ((make registry config world : EngineState ε π ω).after ex acts).workers
      id = some ⟨w, .storing record⟩) :
    Nonempty (Ending ex (make registry config world) acts id record) := by
  obtain ⟨before, p, outcome, reports, now, ms, hmoved, hp, hends, hrecord, hevents⟩ :=
    ending_of_storing ex registry config world acts hruns hworker
  have hbefore := distinctRuns_earlier hruns ((List.prefix_append _ _).trans hmoved)
  obtain ⟨_, hjourney⟩ := journey_after ex registry config world before hbefore hp
  have hopen := hends.not_terminal hjourney.sound
  obtain ⟨input, hadmitted, hstage⟩ :=
    stage_after ex registry config world before hbefore hp hends.not_storing
  rw [finish_of_not_terminal hopen] at hrecord
  exact ⟨⟨before, w, input, p, outcome, reports, now, ms, hmoved, hp, hadmitted, hstage, hends,
    hjourney.record.2.1, hrecord, hevents⟩⟩

/-- **Every final record was made in the last turn of its run**, and nothing has been heard of the
run since. -/
theorem ending_of_finished (acts : List (Act ω)) (hruns : Act.DistinctRuns acts) {id : String}
    {record : Execution}
    (hrecord : Keyed.get? ((make registry config world : EngineState ε π ω).after ex acts).finished
      id = some record) : Nonempty (Ending ex (make registry config world) acts id record) := by
  obtain ⟨w, stored, rest, rfl, hstoring, hevents⟩ :=
    storing_of_finished ex registry config world acts hruns hrecord
  obtain ⟨e⟩ := ending_of_worker ex registry config world stored (distinctRuns_of_append hruns)
    hstoring
  have hearlier : stored <+: stored ++ .move (.worker id) :: rest := List.prefix_append _ _
  exact ⟨{ e with moved := e.moved.trans hearlier, events := hevents.trans e.events }⟩

/-- It stays so, whatever is done later. -/
lemma ending_after (acts more : List (Act ω)) (hruns : Act.DistinctRuns (acts ++ more))
    {id : String} {record : Execution}
    (hrecord : Keyed.get? ((make registry config world : EngineState ε π ω).after ex acts).finished
      id = some record) :
    Nonempty (Ending ex (make registry config world) (acts ++ more) id record) := by
  have hacts := distinctRuns_of_append hruns
  obtain ⟨e⟩ := ending_of_finished ex registry config world acts hacts hrecord
  have hlater := absent_after ex registry config world more hruns
    (finished_asked ex registry config world acts hrecord)
    (get?_none_of_finished ex registry config world acts hacts hrecord)
  have hearlier : acts <+: acts ++ more := List.prefix_append _ _
  exact ⟨{ e with moved := e.moved.trans hearlier, events := hlater.2.trans e.events }⟩

end EngineState

end FlowGraph
