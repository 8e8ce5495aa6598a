import FlowGraph.Proofs.Engine.Permits
import FlowGraph.Proofs.Traversal.Taking

/-!
# The turns of a worker

Everything an engine does to one run is done in the turns of the run's worker.  `Turn` lists them:
from one phase to the next, with the events of the run that come out.  `runEffect_act` says that an
act leaves a run with a worker as it is, gives the worker a turn, or takes the final record away
from it.  So what holds of a run in every history is proved by going through the turns once.

Other runs get in the way only where permits are handed over: a run that leaves its traversal may
give its permit to the one that has waited longest (`Grants`).
-/

namespace FlowGraph

namespace Phase

variable {π : Type}

/-- The record of the run. -/
def record : Phase π → Execution
  | .spawned record | .queued record | .permitted record | .awaitingRegistry record
  | .storing record => record
  | .traversing t | .calling t .. => t.record

/-- The run has not been let in. -/
def isPending : Phase π → Bool
  | .spawned _ | .queued _ | .permitted _ => true
  | _ => false

end Phase

/-- A run that a shutdown has cancelled and waits for. -/
def ActiveRun.marked (run : ActiveRun) : ActiveRun :=
  { run with cancelled := true, claimed := true }

namespace EngineState

variable {ε π ω : Type}

/-- The events of a run so far. -/
def eventsOf (s : EngineState ε π ω) (id : String) : List ExecutionEvent :=
  s.emitted.filter fun e => e.executionId = id

section Turn

variable (ex : Executors ε π ω) (s : EngineState ε π ω) (id : String) (w : Workflow)

/-- What the worker of a run sees when it takes a node. -/
def viewOf : Traversal.View ε :=
  Traversal.view s.registry (s.isCancelled id) (ex.now s.world)

/-- What comes of polling an executor that works for a run. -/
def polled (p : π) : Progress π × ω := ex.poll p (s.isCancelled id) s.world

/-- What an executor reports of its node when it is polled. -/
def reports (node : Node) (p : π) : List ExecutionEvent :=
  (s.polled ex id p).1.events.map fun e => .nodeEvent id node.id e (ex.now (s.polled ex id p).2)

/-- How a run may end in a phase: the outcome, and what is reported before the end. -/
inductive Ends : Phase π → Traversal.Outcome → List ExecutionEvent → Prop
  /-- It is cancelled before it was let in. -/
  | cancelled {p : Phase π} (hp : p.isPending = true) (hcancelled : s.isCancelled id = true) :
      Ends p (.returned (.error .cancelled)) []
  /-- There is nothing to begin with. -/
  | untriggered {record : Execution} (h : w.triggers.isEmpty = true) :
      Ends (.awaitingRegistry record) (.returned (.error .noTriggerNode)) []
  /-- The traversal ends. -/
  | stopped {t : Traversal} {outcome : Except EngineError Unit}
      (h : t.step w (s.viewOf ex id) = .ended outcome) :
      Ends (.traversing t) (.returned outcome) []
  /-- The executor has a defect. -/
  | crashed {t : Traversal} {node : Node} {p : π}
      (h : (s.polled ex id p).1.state = .inr .crashed) :
      Ends (.calling t node p) .crashed (s.reports ex id node p)

/-- A turn of the worker of a run: from one phase to the next, with the events of the run. -/
inductive Turn : Phase π → Phase π → List ExecutionEvent → Prop
  | queue {record : Execution} (hcancelled : s.isCancelled id = false) :
      Turn (.spawned record) (.queued record) []
  | grant {record : Execution} : Turn (.queued record) (.permitted record) []
  | letIn {p : Phase π} (hp : p.isPending = true) (hcancelled : s.isCancelled id = false) :
      Turn p (.awaitingRegistry p.record.markRunning)
        [.executionStarted id w.id (ex.now s.world)]
  | begin {record : Execution} (h : w.triggers.isEmpty = false)
      (hlock : s.lock.holds (.worker id) = true) :
      Turn (.awaitingRegistry record)
        (.traversing (Traversal.start w record { executionId := id, input := record.input })) []
  | pass {t t' : Traversal} (h : t.step w (s.viewOf ex id) = .passed t') :
      Turn (.traversing t) (.traversing t') []
  | refuse {t t' : Traversal} {events : List ExecutionEvent}
      (h : t.step w (s.viewOf ex id) = .refused t' events) :
      Turn (.traversing t) (.traversing t') events
  | enter {t t' : Traversal} {executor : ε} {node : Node} {inputs : NodeInputs}
      {event : ExecutionEvent}
      (h : t.step w (s.viewOf ex id) = .entered executor node inputs t' event) :
      Turn (.traversing t) (.calling t' node (ex.begin executor ⟨node, inputs, t'.context⟩)) [event]
  | wait {t : Traversal} {node : Node} {p p' : π} (h : (s.polled ex id p).1.state = .inl p') :
      Turn (.calling t node p) (.calling t node p') (s.reports ex id node p)
  | answer {t : Traversal} {node : Node} {p : π} {answer : Except NodeError Fields}
      (h : (s.polled ex id p).1.state = .inr (.answered answer)) :
      Turn (.calling t node p)
        (.traversing (t.complete w node answer (ex.now (s.polled ex id p).2)).1)
        (s.reports ex id node p ++ [(t.complete w node answer (ex.now (s.polled ex id p).2)).2])
  | finish {p : Phase π} {outcome : Traversal.Outcome} {events : List ExecutionEvent}
      (h : Ends ex s id w p outcome events) {record : Execution} (now : Timestamp) (ms : ℕ)
      (hrecord : record = p.record.finish (verdict outcome).1 (verdict outcome).2 now) :
      Turn p (.storing record) (events ++ [.executionFinished id record.status ms now])

end Turn

/-! ## Other runs -/

/-- A worker stays as it is, or it is given the permit that it waits for. -/
def Grants (before after : Option (Worker π)) : Prop :=
  after = before ∨
    ∃ w record, before = some ⟨w, .queued record⟩ ∧ after = some ⟨w, .permitted record⟩

lemma Grants.trans {a b c : Option (Worker π)} (h : Grants a b) (h' : Grants b c) :
    Grants a c := by
  rcases h with rfl | ⟨w, record, rfl, rfl⟩
  · exact h'
  · rcases h' with rfl | ⟨w', record', hb, -⟩
    · exact Or.inr ⟨w, record, rfl, rfl⟩
    · cases hb

/-- What everything but a run's own turns leaves alone of the run. -/
structure Spares (id : String) (s s' : EngineState ε π ω) : Prop where
  worker : Grants (Keyed.get? s.workers id) (Keyed.get? s'.workers id)
  events : s'.eventsOf id = s.eventsOf id

variable {s s' s'' : EngineState ε π ω} {id other : String}

lemma Spares.refl (id : String) (s : EngineState ε π ω) : Spares id s s :=
  ⟨Or.inl rfl, rfl⟩

lemma Spares.trans (h : Spares id s s') (h' : Spares id s' s'') : Spares id s s'' :=
  ⟨h.worker.trans h'.worker, h'.events.trans h.events⟩

lemma spares_emit (s : EngineState ε π ω) {events : List ExecutionEvent}
    (h : ∀ e ∈ events, e.executionId ≠ id) : Spares id s (s.emit events) := by
  refine ⟨Or.inl rfl, ?_⟩
  have hnone : (events.filter fun e => e.executionId = id) = [] :=
    List.filter_eq_nil_iff.2 fun e he => by simpa using h e he
  simp only [eventsOf, emit, List.filter_append, hnone, List.append_nil]

lemma spares_setPhase (s : EngineState ε π ω) (h : other ≠ id) (p : Phase π) :
    Spares id s (s.setPhase other p) := by
  refine ⟨Or.inl ?_, rfl⟩
  simp only [setPhase, Keyed.get?_modify, if_neg h]

lemma spares_updateActive (s : EngineState ε π ω) (other : String)
    (change : ActiveRun → ActiveRun) : Spares id s (s.updateActive other change) :=
  ⟨Or.inl rfl, rfl⟩

lemma spares_releaseRegistry (s : EngineState ε π ω) (t : Task) :
    Spares id s (s.releaseRegistry t) := ⟨Or.inl rfl, rfl⟩

/-- A permit that is given back goes to a run that waits for one. -/
lemma spares_releasePermit (s : EngineState ε π ω) : Spares id s s.releasePermit := by
  unfold releasePermit
  split
  · exact ⟨Or.inl rfl, rfl⟩
  · next first permits _ =>
    dsimp only
    split
    · next w record hfirst =>
      refine ⟨?_, rfl⟩
      simp only [wake, setPhase, Keyed.get?_modify]
      split
      · next heq =>
        subst heq
        exact Or.inr ⟨w, record, hfirst, by simp only [hfirst, Option.map_some]⟩
      · exact Or.inl rfl
    · exact ⟨Or.inl rfl, rfl⟩

lemma spares_finishRun (ex : Executors ε π ω) (s : EngineState ε π ω) (h : other ≠ id)
    (record : Execution) (outcome : Traversal.Outcome) :
    Spares id s (s.finishRun ex other record outcome) := by
  refine Spares.trans (spares_emit s ?_) (spares_setPhase _ h _)
  intro e he
  rw [List.mem_singleton.1 he]
  exact h

lemma spares_leave (ex : Executors ε π ω) (s : EngineState ε π ω) (h : other ≠ id)
    (record : Execution) (outcome : Traversal.Outcome) :
    Spares id s (s.leave ex other record outcome) :=
  ((spares_releaseRegistry s _).trans (spares_releasePermit _)).trans
    (spares_finishRun ex _ h record outcome)

/-! ## The moves of a worker -/

/-- The record of each worker is that of its run. -/
def RecordsNamed (s : EngineState ε π ω) : Prop :=
  ∀ id worker, Keyed.get? s.workers id = some worker → worker.phase.record.id = id

variable (ex : Executors ε π ω)

lemma spares_heed (s : EngineState ε π ω) (h : other ≠ id) (node : Node) (progress : Progress π)
    (world : ω) : Spares id s (s.heed ex other node progress world) := by
  have hworld : Spares id s { s with world } := ⟨Or.inl rfl, rfl⟩
  have hemit : Spares id s ({ s with world }.emit
      (progress.events.map fun e => .nodeEvent other node.id e (ex.now world))) := by
    refine hworld.trans (spares_emit _ ?_)
    intro e he
    obtain ⟨event, -, rfl⟩ := List.mem_map.1 he
    exact h
  unfold heed
  dsimp only
  split
  · exact hemit.trans (spares_updateActive _ other _)
  · exact hemit

lemma spares_admitRun (s : EngineState ε π ω) (h : other ≠ id) (w : Workflow)
    (record : Execution) : Spares id s (s.admitRun ex other w record) := by
  refine Spares.trans ?_ (spares_setPhase _ h _)
  have hevent : Spares id s (s.emit [.executionStarted other w.id (ex.now s.world)]) := by
    refine spares_emit s ?_
    intro e he
    rw [List.mem_singleton.1 he]
    exact h
  exact hevent.trans ⟨Or.inl rfl, rfl⟩

lemma spares_takeNode (s : EngineState ε π ω) (h : other ≠ id) (w : Workflow) {t : Traversal}
    (hid : t.record.id = other) : Spares id s (s.takeNode ex other w t) := by
  unfold takeNode
  split
  · exact spares_leave ex s h _ _
  · exact spares_setPhase s h _
  · next t' events hstep =>
    refine (spares_emit s ?_).trans (spares_setPhase _ h _)
    intro e he
    rw [(Traversal.taken_of_step hstep).executionId e he, hid]
    exact h
  · next executor node inputs t' event hstep =>
    refine (spares_emit s ?_).trans (spares_setPhase _ h _)
    intro e he
    rw [List.mem_singleton.1 he, (Traversal.taken_of_step hstep).executionId, hid]
    exact h

lemma spares_attend (s : EngineState ε π ω) (h : other ≠ id) (w : Workflow) {t : Traversal}
    (hid : t.record.id = other) (node : Node) (p : π) :
    Spares id s (s.attend ex other w t node p) := by
  have hheed := spares_heed ex s h node (ex.poll p (s.isCancelled other) s.world).1
    (ex.poll p (s.isCancelled other) s.world).2
  unfold attend
  dsimp only
  split
  · exact hheed.trans (spares_setPhase _ h _)
  · exact hheed.trans (spares_leave ex _ h _ _)
  · refine hheed.trans ((spares_emit _ ?_).trans (spares_setPhase _ h _))
    intro e he
    rw [List.mem_singleton.1 he, Traversal.executionId_complete, hid]
    exact h

lemma spares_store (s : EngineState ε π ω) (h : other ≠ id) (record : Execution) :
    Spares id s (s.store other record) :=
  ⟨Or.inl (Keyed.get?_erase_of_ne _ (Ne.symm h)), rfl⟩

lemma spares_tell (s : EngineState ε π ω) (other : String) : Spares id s (s.tell other) := by
  unfold tell
  split
  · exact ⟨Or.inl rfl, rfl⟩
  · exact Spares.refl id s

/-- The move of another worker. -/
lemma spares_pollWorker (s : EngineState ε π ω) (h : other ≠ id) (hnamed : s.RecordsNamed) :
    Spares id s (s.pollWorker ex other) := by
  unfold pollWorker
  rcases hworker : Keyed.get? s.workers other with _ | ⟨w, phase⟩
  · exact spares_tell s other
  · have hid := hnamed other _ hworker
    have hpermits : ∀ permits, Spares id s { s with permits } :=
      fun _ => ⟨Or.inl rfl, rfl⟩
    cases phase with
    | spawned record =>
      dsimp only
      split
      · exact spares_finishRun ex s h record _
      · split
        · exact (hpermits _).trans (spares_admitRun ex _ h w record)
        · exact (hpermits _).trans (spares_setPhase _ h _)
    | queued record =>
      dsimp only
      split
      · exact (hpermits _).trans (spares_finishRun ex _ h record _)
      · exact Spares.refl id s
    | permitted record =>
      dsimp only
      split
      · exact (spares_releasePermit s).trans (spares_finishRun ex _ h record _)
      · exact spares_admitRun ex s h w record
    | awaitingRegistry record =>
      dsimp only
      split
      · unfold beginTraversal
        split
        · exact spares_leave ex s h _ _
        · exact spares_setPhase s h _
      · exact Spares.refl id s
    | traversing t => exact spares_takeNode ex s h w hid
    | calling t node p => exact spares_attend ex s h w hid node p
    | storing record => exact spares_store s h record

/-! ## The effect of an act on a run -/

/-- All that an act can do to a run that has a worker in the phase `p`. -/
inductive RunEffect (s : EngineState ε π ω) (a : Act ω) (id : String) (w : Workflow)
    (p : Phase π) : Prop where
  /-- The worker stays where it is. -/
  | stays (hworker : Keyed.get? (s.act ex a).workers id = some ⟨w, p⟩)
      (hevents : (s.act ex a).eventsOf id = s.eventsOf id)
  /-- The worker has a turn. -/
  | turns (p' : Phase π) (events : List ExecutionEvent) (hturn : Turn ex s id w p p' events)
      (hworker : Keyed.get? (s.act ex a).workers id = some ⟨w, p'⟩)
      (hevents : (s.act ex a).eventsOf id = s.eventsOf id ++ events)
  /-- The record is stored, and the worker is gone. -/
  | stores (record : Execution) (hphase : p = .storing record)
      (hact : s.act ex a = s.store id record)

variable {w : Workflow} {p : Phase π}

lemma Spares.runEffect {a : Act ω} (h : Spares id s (s.act ex a))
    (hworker : Keyed.get? s.workers id = some ⟨w, p⟩) : RunEffect ex s a id w p := by
  have hgrants := h.worker
  rw [hworker] at hgrants
  rcases hgrants with hsame | ⟨w', record, hqueued, hpermitted⟩
  · exact .stays hsame h.events
  · cases hqueued
    exact .turns _ [] .grant hpermitted (by rw [h.events, List.append_nil])

lemma get?_setPhase (s : EngineState ε π ω) (hworker : Keyed.get? s.workers id = some ⟨w, p⟩)
    (q : Phase π) : Keyed.get? (s.setPhase id q).workers id = some ⟨w, q⟩ := by
  simp only [setPhase, Keyed.get?_modify, if_pos, hworker, Option.map_some]

lemma eventsOf_emit (s : EngineState ε π ω) {events : List ExecutionEvent}
    (h : ∀ e ∈ events, e.executionId = id) :
    (s.emit events).eventsOf id = s.eventsOf id ++ events := by
  have hall : (events.filter fun e => e.executionId = id) = events :=
    List.filter_eq_self.2 fun e he => by simpa using h e he
  simp only [eventsOf, emit, List.filter_append, hall]

/-- A run ends: its record is finished in a state that the turn has come to. -/
lemma runEffect_finishRun {a : Act ω} {outcome : Traversal.Outcome}
    {events : List ExecutionEvent} (hact : s.act ex a = s'.finishRun ex id p.record outcome)
    (hends : Ends ex s id w p outcome events)
    (hworker : Keyed.get? s'.workers id = some ⟨w, p⟩)
    (hevents : s'.eventsOf id = s.eventsOf id ++ events) : RunEffect ex s a id w p := by
  refine .turns _ _ (.finish hends (ex.now s'.world)
    ((ex.now s'.world).nanosSince (p.record.finish (verdict outcome).1 (verdict outcome).2
      (ex.now s'.world)).startedAt / 1000000) rfl) ?_ ?_
  · rw [hact]
    exact get?_setPhase _ hworker _
  · rw [hact, ← List.append_assoc, ← hevents]
    exact eventsOf_emit s' (by simp [ExecutionEvent.executionId])

/-- A run that leaves its traversal ends. -/
lemma runEffect_leave {a : Act ω} {outcome : Traversal.Outcome}
    {events : List ExecutionEvent} (hact : s.act ex a = s'.leave ex id p.record outcome)
    (hends : Ends ex s id w p outcome events)
    (hworker : Keyed.get? s'.workers id = some ⟨w, p⟩) (hp : p.isQueued = false)
    (hevents : s'.eventsOf id = s.eventsOf id ++ events) : RunEffect ex s a id w p := by
  have hspares : Spares id s' (s'.releaseRegistry (.worker id)).releasePermit :=
    (spares_releaseRegistry s' _).trans (spares_releasePermit _)
  exact runEffect_finishRun ex hact hends (get?_releasePermit _ hworker hp)
    (hspares.events.trans hevents)

lemma runEffect_admitRun {a : Act ω} (permits : Permits)
    (hworker : Keyed.get? s.workers id = some ⟨w, p⟩) (hp : p.isPending = true)
    (hcancelled : s.isCancelled id = false)
    (hact : s.act ex a = { s with permits }.admitRun ex id w p.record) :
    RunEffect ex s a id w p := by
  refine .turns _ _ (.letIn hp hcancelled) ?_ ?_
  · rw [hact]
    exact get?_setPhase _ hworker _
  · rw [hact]
    exact eventsOf_emit s (by simp [ExecutionEvent.executionId])

lemma eventsOf_heed (s : EngineState ε π ω) (id : String) (node : Node) (p : π) :
    (s.heed ex id node (s.polled ex id p).1 (s.polled ex id p).2).eventsOf id =
      s.eventsOf id ++ s.reports ex id node p := by
  have hemit : ({ s with world := (s.polled ex id p).2 }.emit (s.reports ex id node p)).eventsOf id
      = s.eventsOf id ++ s.reports ex id node p := by
    refine eventsOf_emit _ fun e he => ?_
    obtain ⟨event, -, rfl⟩ := List.mem_map.1 he
    rfl
  unfold heed
  dsimp only
  split <;> exact hemit

lemma runEffect_takeNode {t : Traversal} (hid : t.record.id = id)
    (hworker : Keyed.get? s.workers id = some ⟨w, .traversing t⟩) {a : Act ω}
    (hact : s.act ex a = s.takeNode ex id w t) : RunEffect ex s a id w (.traversing t) := by
  unfold takeNode at hact
  rw [← viewOf] at hact
  split at hact
  · next outcome hstep =>
    exact runEffect_leave ex hact (.stopped hstep) hworker rfl
      (List.append_nil _).symm
  · next t' hstep =>
    refine .turns _ _ (.pass hstep) ?_ ?_
    · rw [hact]
      exact get?_setPhase s hworker _
    · rw [hact, List.append_nil]
      rfl
  · next t' events hstep =>
    refine .turns _ _ (.refuse hstep) ?_ ?_
    · rw [hact]
      exact get?_setPhase _ hworker _
    · rw [hact]
      have hnamed := (Traversal.taken_of_step hstep).executionId
      exact eventsOf_emit s fun e he => (hnamed e he).trans hid
  · next executor node inputs t' event hstep =>
    refine .turns _ _ (.enter hstep) ?_ ?_
    · rw [hact]
      exact get?_setPhase _ hworker _
    · rw [hact]
      refine eventsOf_emit s fun e he => ?_
      rw [List.mem_singleton.1 he]
      exact (Traversal.taken_of_step hstep).executionId.trans hid

lemma runEffect_attend {t : Traversal} (hid : t.record.id = id) {node : Node} {q : π}
    (hworker : Keyed.get? s.workers id = some ⟨w, .calling t node q⟩) {a : Act ω}
    (hact : s.act ex a = s.attend ex id w t node q) :
    RunEffect ex s a id w (.calling t node q) := by
  have hheed := eventsOf_heed ex s id node q
  have hworker' : Keyed.get? (s.heed ex id node (s.polled ex id q).1
      (s.polled ex id q).2).workers id = some ⟨w, .calling t node q⟩ := by
    rw [workers_heed, hworker]
  unfold attend at hact
  dsimp only at hact
  split at hact
  · next q' hstate =>
    refine .turns _ _ (.wait hstate) ?_ ?_
    · rw [hact]
      exact get?_setPhase _ hworker' _
    · rw [hact]
      exact hheed
  · next hstate =>
    exact runEffect_leave ex hact (.crashed hstate) hworker' rfl hheed
  · next answer hstate =>
    refine .turns _ _ (.answer hstate) ?_ ?_
    · rw [hact]
      exact get?_setPhase _ hworker' _
    · rw [hact, ← List.append_assoc, ← hheed]
      refine eventsOf_emit _ fun e he => ?_
      rw [List.mem_singleton.1 he, Traversal.executionId_complete, hid]

/-- The move of the worker itself. -/
lemma runEffect_pollWorker (hnamed : s.RecordsNamed)
    (hworker : Keyed.get? s.workers id = some ⟨w, p⟩) :
    RunEffect ex s (.move (.worker id)) id w p := by
  have hid := hnamed id _ hworker
  have hact : s.act ex (.move (.worker id)) = s.pollWorker ex id := rfl
  have hstays : s.pollWorker ex id = s → RunEffect ex s (.move (.worker id)) id w p := by
    intro hsame
    refine .stays ?_ ?_
    · rw [hact, hsame, hworker]
    · rw [hact, hsame]
  rw [pollWorker, hworker] at hact
  cases p with
  | spawned record =>
    dsimp only at hact
    split at hact
    · next hcancelled =>
      exact runEffect_finishRun ex hact (.cancelled rfl hcancelled) hworker
        (List.append_nil _).symm
    · next hcancelled =>
      rw [Bool.not_eq_true] at hcancelled
      split at hact
      · exact runEffect_admitRun ex _ hworker rfl hcancelled hact
      · refine .turns _ _ (.queue hcancelled) ?_ ?_
        · rw [hact]
          exact get?_setPhase _ hworker _
        · rw [hact, List.append_nil]
          rfl
  | queued record =>
    dsimp only at hact
    split at hact
    · next hcancelled =>
      exact runEffect_finishRun ex hact (.cancelled rfl hcancelled) hworker
        (List.append_nil _).symm
    · exact hstays hact
  | permitted record =>
    dsimp only at hact
    split at hact
    · next hcancelled =>
      -- the permit goes to the next in the queue, which is another run
      have hspares : Spares id s s.releasePermit := spares_releasePermit s
      exact runEffect_finishRun ex hact (.cancelled rfl hcancelled)
        (get?_releasePermit s hworker rfl)
        (hspares.events.trans (List.append_nil _).symm)
    · next hcancelled =>
      rw [Bool.not_eq_true] at hcancelled
      exact runEffect_admitRun ex s.permits hworker rfl hcancelled hact
  | awaitingRegistry record =>
    dsimp only at hact
    split at hact
    · next hlock =>
      unfold beginTraversal at hact
      split at hact
      · next hnone =>
        exact runEffect_leave ex hact (.untriggered hnone) hworker rfl
          (List.append_nil _).symm
      · next hsome =>
        rw [Bool.not_eq_true] at hsome
        refine .turns _ _ (.begin hsome hlock) ?_ ?_
        · rw [hact]
          exact get?_setPhase _ hworker _
        · rw [hact, List.append_nil]
          rfl
    · exact hstays hact
  | traversing t => exact runEffect_takeNode ex hid hworker hact
  | calling t node q => exact runEffect_attend ex hid hworker hact
  | storing record => exact .stores record rfl hact

/-! ## Acts -/

lemma spares_of_eq (hworkers : s'.workers = s.workers) (hemitted : s'.emitted = s.emitted) :
    Spares id s s' := by
  refine ⟨Or.inl ?_, ?_⟩
  · rw [hworkers]
  · rw [eventsOf, hemitted]
    rfl

/-- Calls leave the runs to themselves. A shutdown marks them, but that is seen in their turns. -/
lemma spares_pollCall (s : EngineState ε π ω) (n : ℕ) : Spares id s (s.pollCall ex n) := by
  by_cases hfirst : s.calls.lookup n = some (.made .shutdown)
  · have hsame := sameRuns_awaitRuns ex s.closeAdmission.2 n s.closeAdmission.1
    rw [pollCall_shutdown ex s n hfirst]
    exact spares_of_eq hsame.workers hsame.emitted
  · have hsame := sameRuns_pollCall ex s n hfirst
    exact spares_of_eq hsame.workers hsame.emitted

/-- Every act leaves a run alone that is not a move of its worker and does not start it. -/
lemma spares_act (hnamed : s.RecordsNamed) {a : Act ω} (hmove : a ≠ .move (.worker id))
    (hrun : a.runId? ≠ some id) : Spares id s (s.act ex a) := by
  cases a with
  | move t =>
    cases t with
    | worker other =>
      have hother : other ≠ id := by
        rintro rfl
        exact hmove rfl
      exact spares_pollWorker ex s hother hnamed
    | call n => exact spares_pollCall ex s n
  | execute other w input =>
    have hother : id ≠ other := by
      rintro rfl
      exact hrun rfl
    simp only [act, execute]
    split
    · exact Spares.refl id s
    · exact ⟨Or.inl (Keyed.get?_insert_of_ne _ _ hother), rfl⟩
  | cancel other =>
    simp only [act, cancel]
    split
    · exact Spares.refl id s
    · split
      · exact Spares.refl id s
      · exact spares_of_eq rfl rfl
  | forget other => exact spares_of_eq rfl rfl
  | request n r => exact spares_of_eq rfl rfl
  | abandon n => exact spares_of_eq rfl rfl
  | outside world => exact spares_of_eq rfl rfl

/-- **What an act does to a run.**  It leaves the run where it is, gives it a turn, or stores its
record. -/
lemma runEffect_act (hnamed : s.RecordsNamed) {a : Act ω} (hrun : a.runId? ≠ some id)
    (hworker : Keyed.get? s.workers id = some ⟨w, p⟩) : RunEffect ex s a id w p := by
  by_cases hmove : a = .move (.worker id)
  · subst hmove
    exact runEffect_pollWorker ex hnamed hworker
  · exact (spares_act ex hnamed hmove hrun).runEffect ex hworker

/-- Nothing happens to a run without a worker until it is started. -/
lemma absent_act (hnamed : s.RecordsNamed) {a : Act ω} (hrun : a.runId? ≠ some id)
    (hnone : Keyed.get? s.workers id = none) :
    Keyed.get? (s.act ex a).workers id = none ∧ (s.act ex a).eventsOf id = s.eventsOf id := by
  have hspares : Spares id s (s.act ex a) := by
    by_cases hmove : a = .move (.worker id)
    · -- without a worker the task of the run only tells those who wait for it
      subst hmove
      have htell : s.act ex (.move (.worker id)) = s.tell id := by
        simp only [act, poll, pollWorker, hnone]
      rw [htell]
      exact spares_tell s id
    · exact spares_act ex hnamed hmove hrun
  refine ⟨?_, hspares.events⟩
  rcases hspares.worker with hsame | ⟨w, record, hqueued, -⟩
  · rw [hsame, hnone]
  · rw [hnone] at hqueued
    cases hqueued

/-- A shutdown marks the runs that are not over. -/
lemma get?_closeAdmission (s : EngineState ε π ω) (id : String) :
    Keyed.get? s.closeAdmission.2.active id = (Keyed.get? s.active id).map ActiveRun.marked :=
  Keyed.get?_map s.active ActiveRun.marked id

/-- As long as a run has a worker, what users see of it only moves forward. -/
lemma seen_act {a : Act ω} (hrun : a.runId? ≠ some id) {run : ActiveRun}
    (h : Keyed.get? s.active id = some run) :
    (∃ run', Keyed.get? (s.act ex a).active id = some run' ∧ run.Precedes run') ∨
      ∃ record, s.act ex a = s.store id record := by
  have hsame : Keyed.get? (s.act ex a).active id = Keyed.get? s.active id →
      ∃ run', Keyed.get? (s.act ex a).active id = some run' ∧ run.Precedes run' :=
    fun hget => ⟨run, hget.trans h, .refl run⟩
  cases a with
  | move t =>
    cases t with
    | worker other =>
      rcases pollWorker_cases ex s other with hkeeps | ⟨w, record, -, hstore⟩
      · exact Or.inl (hkeeps.seen id run h)
      · have hact : s.act ex (.move (.worker other)) = s.store other record := hstore
        by_cases hother : other = id
        · subst hother
          exact Or.inr ⟨record, hact⟩
        · left
          refine hsame ?_
          rw [hact]
          exact Keyed.get?_erase_of_ne _ (Ne.symm hother)
    | call n =>
      left
      by_cases hfirst : s.calls.lookup n = some (.made .shutdown)
      · -- a shutdown cancels all active runs
        have hact : (s.act ex (.move (.call n))).active = s.closeAdmission.2.active := by
          simp only [act, poll, pollCall_shutdown ex s n hfirst]
          exact (sameRuns_awaitRuns ex s.closeAdmission.2 n s.closeAdmission.1).active
        refine ⟨run.marked, ?_, fun _ => rfl, fun hrunning => hrunning⟩
        rw [hact, get?_closeAdmission, h]
        rfl
      · exact hsame (congrArg (Keyed.get? · id) (sameRuns_pollCall ex s n hfirst).active)
  | execute other w input =>
    left
    have hother : id ≠ other := by
      rintro rfl
      exact hrun rfl
    refine hsame ?_
    simp only [act, execute]
    split
    · rfl
    · exact Keyed.get?_insert_of_ne _ _ hother
  | cancel other => exact Or.inl ((keeps_cancel s other).seen id run h)
  | forget other => exact Or.inl (hsame rfl)
  | request n r => exact Or.inl (hsame rfl)
  | abandon n => exact Or.inl (hsame rfl)
  | outside world => exact Or.inl (hsame rfl)

/-- A run stays cancelled as long as it has a worker. -/
lemma isCancelled_act {a : Act ω} (hrun : a.runId? ≠ some id) (h : s.isCancelled id = true) :
    (s.act ex a).isCancelled id = true ∨ ∃ record, s.act ex a = s.store id record := by
  rw [isCancelled_eq] at h ⊢
  obtain ⟨run, hget, hflag⟩ := (Option.any_eq_true _ _).1 h
  rcases seen_act ex hrun hget with ⟨run', hget', hprecedes⟩ | hstored
  · left
    rw [hget']
    exact hprecedes.cancelled hflag
  · exact Or.inr hstored

end EngineState

end FlowGraph
