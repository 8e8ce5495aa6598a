import FlowGraph.Proofs.Engine.Following
import FlowGraph.Proofs.Engine.Guarding
import FlowGraph.Proofs.Traversal.Ledger

/-!
# A run of an engine is a run of its workflow

What the worker of a run does between two nodes, and while an executor works, are the moments of a
traversal that runs by itself in a world that others change: the other runs, and the users of the
engine.  `Stage` says which moment a phase of the worker is, with the events of the run so far.  An
act leads from one stage to the next (`stage_act`), and so every worker that is not about to store
its record is at a stage (`stage_after`).  What holds at every moment of a traversal therefore holds
of the runs of an engine, too.

Two things tie the worker to one traversal.  The registry does not change as long as a run traverses
(`registry_act`), and a cancellation is never taken back, so the traversal may hear of it when the
worker looks at it (`Reached.sync`).
-/

namespace FlowGraph

namespace Traversal.Moment

variable {ε π ω : Type} {ex : Executors ε π ω} {r : Registry ε} {w : Workflow} {start : Running ω}

/-- Others may have cancelled a run and changed the world since. -/
lemma Reached.sync {m : Moment ε π ω} (h : Reached ex r w start m) {cancelled : Bool}
    (hmono : m.run.cancelled = true → cancelled = true) (world : ω) :
    Reached ex r w start (m.mapRun fun run => { run with cancelled, world }) := by
  have hor : (m.run.cancelled || cancelled) = cancelled := by
    rcases hrun : m.run.cancelled with _ | _
    · rfl
    · rw [hmono hrun]
      rfl
  have hstep := h.step (.interfere m cancelled world)
  cases m with
  | between run | entered executor node run | calling node p run =>
    have hsame : (run.cancelled || cancelled) = cancelled := hor
    simp only [mapRun, hsame] at hstep ⊢
    exact hstep

end Traversal.Moment

namespace EngineState

open Traversal (Running Moment)

variable {ε π ω : Type}

/-! ## Stages -/

/-- A run that begins its traversal in a world. -/
def begun (id : String) (w : Workflow) (input : Fields) (now : Timestamp) (world : ω) : Running ω :=
  .start w (Execution.make id w.id input now).markRunning { executionId := id, input } false world

/-- Where a run stands that is not about to store its record: the phase of its worker, and its
events so far.  The traversal hears of a cancellation no sooner than the engine. -/
inductive Stage (ex : Executors ε π ω) (r : Registry ε) (id : String) (w : Workflow)
    (input : Fields) (cancelled : Bool) : Phase π → List ExecutionEvent → Prop
  /-- It has not been let in. -/
  | pending {p : Phase π} (hp : p.isPending = true) (now : Timestamp)
      (hrecord : p.record = Execution.make id w.id input now) : Stage ex r id w input cancelled p []
  /-- It was let in. -/
  | admitted (now started : Timestamp) :
      Stage ex r id w input cancelled
        (.awaitingRegistry (Execution.make id w.id input now).markRunning)
        [.executionStarted id w.id started]
  /-- It stands between two nodes. -/
  | between (now started : Timestamp) (world : ω) {run : Running ω}
      (htriggers : w.triggers.isEmpty = false)
      (hreached : Moment.Reached ex r w (begun id w input now world) (.between run))
      (hmono : run.cancelled = true → cancelled = true) :
      Stage ex r id w input cancelled (.traversing run.traversal)
        (.executionStarted id w.id started :: run.events)
  /-- An executor works on a node. -/
  | calling (now started : Timestamp) (world : ω) {run : Running ω} {node : Node} {q : π}
      (htriggers : w.triggers.isEmpty = false)
      (hreached : Moment.Reached ex r w (begun id w input now world) (.calling node q run))
      (hmono : run.cancelled = true → cancelled = true) :
      Stage ex r id w input cancelled (.calling run.traversal node q)
        (.executionStarted id w.id started :: run.events)

section Stage

variable {ex : Executors ε π ω} {r r' : Registry ε} {id : String} {w : Workflow} {input : Fields}
variable {cancelled cancelled' : Bool} {p p' : Phase π} {events more : List ExecutionEvent}

lemma Stage.mono (h : Stage ex r id w input cancelled p events)
    (hmono : cancelled = true → cancelled' = true) : Stage ex r id w input cancelled' p events := by
  cases h with
  | pending hp now hrecord => exact .pending hp now hrecord
  | admitted now started => exact .admitted now started
  | between now started world htriggers hreached hbefore =>
    exact .between now started world htriggers hreached fun hrun => hmono (hbefore hrun)
  | calling now started world htriggers hreached hbefore =>
    exact .calling now started world htriggers hreached fun hrun => hmono (hbefore hrun)

/-- As long as a run does not traverse, the registry may change. -/
lemma Stage.congr (h : Stage ex r id w input cancelled p events)
    (hregistry : p.traverses = true → r' = r) : Stage ex r' id w input cancelled p events := by
  cases h with
  | pending hp now hrecord => exact .pending hp now hrecord
  | admitted now started => exact .admitted now started
  | between now started world htriggers hreached hmono =>
    cases hregistry rfl
    exact .between now started world htriggers hreached hmono
  | calling now started world htriggers hreached hmono =>
    cases hregistry rfl
    exact .calling now started world htriggers hreached hmono

/-- What a worker that traverses knows of its run: the traversal, whether it is cancelled, the
world, and the events so far. -/
structure Follower (id : String) (w : Workflow) (t : Traversal) (cancelled : Bool) (world : ω)
    (started : Timestamp) (events : List ExecutionEvent) (run : Running ω) : Prop where
  triggers : w.triggers.isEmpty = false
  traversal : run.traversal = t
  cancelled : run.cancelled = cancelled
  world : run.world = world
  events : events = .executionStarted id w.id started :: run.events

lemma Follower.append {t : Traversal} {world : ω} {started : Timestamp} {run : Running ω}
    (h : Follower id w t cancelled world started events run) (more : List ExecutionEvent) :
    events ++ more = .executionStarted id w.id started :: (run.events ++ more) := by
  rw [h.events]
  rfl

/-- How a run stands that takes the next node. -/
lemma Stage.of_traversing {t : Traversal}
    (h : Stage ex r id w input cancelled (.traversing t) events) (world : ω) :
    ∃ now started first run, Follower id w t cancelled world started events run ∧
      Moment.Reached ex r w (begun id w input now first) (.between run) := by
  generalize hp : Phase.traversing t = p at h
  cases h with
  | @between now started first run htriggers hreached hmono =>
    cases hp
    exact ⟨now, started, first, { run with cancelled, world }, ⟨htriggers, rfl, rfl, rfl, rfl⟩,
      hreached.sync hmono world⟩
  | pending hpending =>
    subst hp
    cases hpending
  | _ => cases hp

/-- How a run stands while an executor works. -/
lemma Stage.of_calling {t : Traversal} {node : Node} {q : π}
    (h : Stage ex r id w input cancelled (.calling t node q) events) (world : ω) :
    ∃ now started first run, Follower id w t cancelled world started events run ∧
      Moment.Reached ex r w (begun id w input now first) (.calling node q run) := by
  generalize hp : Phase.calling t node q = p at h
  cases h with
  | @calling now started first run _ _ htriggers hreached hmono =>
    cases hp
    exact ⟨now, started, first, { run with cancelled, world }, ⟨htriggers, rfl, rfl, rfl, rfl⟩,
      hreached.sync hmono world⟩
  | pending hpending =>
    subst hp
    cases hpending
  | _ => cases hp

/-- A run that was not let in has its first record. -/
lemma Stage.of_pending (h : Stage ex r id w input cancelled p events) (hp : p.isPending = true) :
    (∃ now, p.record = Execution.make id w.id input now) ∧ events = [] := by
  cases h with
  | pending _ now hrecord => exact ⟨⟨now, hrecord⟩, rfl⟩
  | _ => cases hp

lemma Stage.of_awaiting {record : Execution}
    (h : Stage ex r id w input cancelled (.awaitingRegistry record) events) :
    ∃ now started, record = (Execution.make id w.id input now).markRunning ∧
      events = [.executionStarted id w.id started] := by
  generalize hp : Phase.awaitingRegistry record = p at h
  cases h with
  | admitted now started =>
    cases hp
    exact ⟨now, started, rfl, rfl⟩
  | pending hpending =>
    subst hp
    cases hpending
  | _ => cases hp

section Turn

variable {s : EngineState ε π ω} {t t' : Traversal} {now started : Timestamp} {first : ω}
variable {run : Running ω}

/-- A run takes the next node, and stands between two nodes again, or is entered and its executor
called. -/
lemma Follower.taken (h : Follower id w t (s.isCancelled id) s.world started events run)
    (hreached : Moment.Reached ex s.registry w (begun id w input now first) (.between run))
    (hmono : s.isCancelled id = true → cancelled' = true) :
    match t.step w (s.viewOf ex id) with
    | .ended _ => True
    | .passed t' => Stage ex s.registry id w input cancelled' (.traversing t') events
    | .refused t' more =>
      Stage ex s.registry id w input cancelled' (.traversing t') (events ++ more)
    | .entered executor node inputs t' event =>
      Stage ex s.registry id w input cancelled'
        (.calling t' node (ex.begin executor ⟨node, inputs, t'.context⟩)) (events ++ [event]) := by
  -- the worker and the traversal see the same registry, cancellation and clock
  have hview : s.viewOf ex id =
      Traversal.view s.registry run.cancelled (ex.now run.world) := by
    rw [h.cancelled, h.world]
    rfl
  have hlater : run.cancelled = true → cancelled' = true :=
    fun hrun => hmono (h.cancelled.symm.trans hrun)
  obtain rfl := h.traversal
  rw [hview]
  rcases hturn : run.traversal.step w
    (Traversal.view s.registry run.cancelled (ex.now run.world)) with
    outcome | t' | ⟨t', more⟩ | ⟨executor, node, inputs, t', event⟩
  · trivial
  · cases Traversal.taken_of_step hturn with
    | passed hagenda hfree hknown =>
      have hnext := hreached.step (.pass hagenda hfree hknown)
      rw [h.events]
      exact .between now started first h.triggers hnext hlater
  · cases Traversal.taken_of_step hturn with
    | refused hagenda hfree hnew hget hin =>
      -- one turn of the worker, two steps of the traversal
      have hnext := (hreached.step (.enter hagenda hfree hnew hget)).step (.refuse hin)
      have hstage := Stage.between now started first h.triggers hnext hlater
      dsimp only
      rw [h.append, List.append_cons]
      exact hstage
  · cases Traversal.taken_of_step hturn with
    | entered hagenda hfree hnew hget hin =>
      have hnext := (hreached.step (.enter hagenda hfree hnew hget)).step (.call hin)
      have hstage := Stage.calling now started first h.triggers hnext hlater
      dsimp only
      rw [h.append]
      exact hstage

/-- A run waits for its executor, or takes the answer. -/
lemma Follower.polled {node : Node} {q : π} (hid : t.record.id = id)
    (h : Follower id w t (s.isCancelled id) s.world started events run)
    (hreached : Moment.Reached ex s.registry w (begun id w input now first) (.calling node q run))
    (hmono : s.isCancelled id = true → cancelled' = true)
    (hasks : (s.polled ex id q).1.cancels = true → cancelled' = true) :
    match (s.polled ex id q).1.state with
    | .inl q' => Stage ex s.registry id w input cancelled' (.calling t node q')
        (events ++ s.reports ex id node q)
    | .inr (.answered answer) => Stage ex s.registry id w input cancelled'
        (.traversing (t.complete w node answer (ex.now (s.polled ex id q).2)).1)
        (events ++ (s.reports ex id node q ++
          [(t.complete w node answer (ex.now (s.polled ex id q).2)).2]))
    | .inr .crashed => True := by
  have hpolled : s.polled ex id q = ex.poll q run.cancelled run.world := by
    rw [EngineState.polled, h.cancelled, h.world]
  have hlater : (run.cancelled || (ex.poll q run.cancelled run.world).1.cancels) = true →
      cancelled' = true := by
    intro hrun
    rcases Bool.or_eq_true_iff.1 hrun with hbefore | hnow
    · exact hmono (h.cancelled.symm.trans hbefore)
    · exact hasks (hpolled ▸ hnow)
  obtain rfl := h.traversal
  have hreports : s.reports ex id node q = (ex.poll q run.cancelled run.world).1.events.map
      fun e => .nodeEvent run.traversal.record.id node.id e
        (ex.now (ex.poll q run.cancelled run.world).2) := by
    rw [reports, hpolled, hid]
  rw [hreports, hpolled]
  rcases hstate : (ex.poll q run.cancelled run.world).1.state with q' | answer | _
  · have hstage := Stage.calling now started first h.triggers (hreached.step (.poll hstate)) hlater
    dsimp only
    rw [h.append]
    exact hstage
  · have hstage :=
      Stage.between now started first h.triggers (hreached.step (.answer hstate)) hlater
    dsimp only
    rw [h.append, ← List.append_assoc]
    exact hstage
  · trivial

end Turn

/-- A turn leads from one stage to the next. -/
lemma Turn.stage {s : EngineState ε π ω} (h : Turn ex s id w p p' more)
    (hp : Stage ex s.registry id w input (s.isCancelled id) p events) (hid : p.record.id = id)
    (hstoring : ∀ record, p' ≠ .storing record)
    (hmono : s.isCancelled id = true → cancelled' = true)
    (hasks : ∀ t node q, p = .calling t node q → (s.polled ex id q).1.cancels = true →
      cancelled' = true) :
    Stage ex s.registry id w input cancelled' p' (events ++ more) := by
  cases h with
  | queue _ | grant =>
    obtain ⟨⟨now, hrecord⟩, rfl⟩ := hp.of_pending rfl
    exact .pending rfl now hrecord
  | letIn hpending _ =>
    obtain ⟨⟨now, hrecord⟩, rfl⟩ := hp.of_pending hpending
    rw [hrecord]
    exact .admitted now _
  | «begin» htriggers _ =>
    obtain ⟨now, started, rfl, rfl⟩ := hp.of_awaiting
    exact .between now started s.world htriggers .start nofun
  | @pass t t' hstep =>
    obtain ⟨now, started, first, run, hrun, hreached⟩ := hp.of_traversing s.world
    have htaken := hrun.taken hreached hmono
    rw [hstep] at htaken
    rw [List.append_nil]
    exact htaken
  | refuse hstep | enter hstep =>
    obtain ⟨now, started, first, run, hrun, hreached⟩ := hp.of_traversing s.world
    have htaken := hrun.taken hreached hmono
    rw [hstep] at htaken
    exact htaken
  | wait hstate | answer hstate =>
    obtain ⟨now, started, first, run, hrun, hreached⟩ := hp.of_calling s.world
    have hpolled := hrun.polled hid hreached hmono (hasks _ _ _ rfl)
    rw [hstate] at hpolled
    exact hpolled
  | finish => exact absurd rfl (hstoring _)

end Stage

/-! ## Every worker is at a stage -/

section After

variable (ex : Executors ε π ω)

/-- An executor that asks for its run to be cancelled is heeded. -/
lemma isCancelled_attend {s : EngineState ε π ω} {id : String} (hactive : id ∈ Keyed.keys s.active)
    (w : Workflow) (t : Traversal) (node : Node) {q : π}
    (hasks : (s.polled ex id q).1.cancels = true) :
    (s.attend ex id w t node q).isCancelled id = true := by
  have hheed : (s.heed ex id node (s.polled ex id q).1 (s.polled ex id q).2).isCancelled id =
      true := by
    obtain ⟨run, hrun⟩ := Keyed.exists_of_mem_keys hactive
    unfold heed
    rw [if_pos hasks, isCancelled_eq]
    simp only [updateActive, emit, Keyed.get?_modify, if_pos, hrun]
    rfl
  unfold attend
  dsimp only
  split
  · exact hheed
  · exact (keeps_leave ex _ id _ _).cancelled id hheed
  · exact hheed

lemma Ends.not_storing {ex : Executors ε π ω} {s : EngineState ε π ω} {id : String} {w : Workflow}
    {p : Phase π} {outcome : Traversal.Outcome} {reports : List ExecutionEvent}
    (h : Ends ex s id w p outcome reports) : ∀ record, p ≠ .storing record := by
  rintro record rfl
  cases h with
  | cancelled hp => cases hp

/-- A worker in a phase from which it has a turn is not about to store its record. -/
lemma Turn.not_storing {ex : Executors ε π ω} {s : EngineState ε π ω} {id : String} {w : Workflow}
    {p p' : Phase π} {events : List ExecutionEvent} (h : Turn ex s id w p p' events) :
    ∀ record, p ≠ .storing record := by
  rintro record rfl
  cases h with
  | letIn hp => cases hp
  | finish hends => exact hends.not_storing record rfl

/-- A run was admitted in a history, with its workflow and its input. -/
def AdmittedWith (start : EngineState ε π ω) (acts : List (Act ω)) (id : String) (w : Workflow)
    (input : Fields) : Prop :=
  ∃ before rest, acts = before ++ .execute id w input :: rest ∧
    (start.after ex before).shuttingDown = false

lemma AdmittedWith.append {start : EngineState ε π ω} {acts : List (Act ω)} {id : String}
    {w : Workflow} {input : Fields} (h : AdmittedWith ex start acts id w input)
    (more : List (Act ω)) : AdmittedWith ex start (acts ++ more) id w input := by
  obtain ⟨before, rest, rfl, hopen⟩ := h
  exact ⟨before, rest ++ more, by simp, hopen⟩

/-- A run that is not about to store its record after an act was not before. -/
lemma not_storing_of_act {s : EngineState ε π ω} (hnamed : s.RecordsNamed) {a : Act ω} {id : String}
    (hrun : a.runId? ≠ some id) {w w' : Workflow} {p q : Phase π}
    (hbefore : Keyed.get? s.workers id = some ⟨w', q⟩)
    (hworker : Keyed.get? (s.act ex a).workers id = some ⟨w, p⟩)
    (hp : ∀ record, p ≠ .storing record) : ∀ record, q ≠ .storing record := by
  cases runEffect_act ex hnamed hrun hbefore with
  | stays hsame _ =>
    rw [hsame] at hworker
    cases hworker
    exact hp
  | turns q' more hturn _ _ => exact hturn.not_storing
  | stores record _ hact =>
    rw [hact, store, Keyed.get?_erase_self] at hworker
    cases hworker

/-- A move of its worker leads a run from one stage to the next. -/
lemma stage_move {s : EngineState ε π ω} (hnamed : s.RecordsNamed) {id : String}
    (hactive : id ∈ Keyed.keys s.active) {w w' : Workflow} {p q : Phase π} {input : Fields}
    (hbefore : Keyed.get? s.workers id = some ⟨w', q⟩)
    (hstage : Stage ex s.registry id w' input (s.isCancelled id) q (s.eventsOf id))
    (hworker : Keyed.get? (s.act ex (.move (.worker id))).workers id = some ⟨w, p⟩)
    (hp : ∀ record, p ≠ .storing record)
    (hmono : s.isCancelled id = true → (s.act ex (.move (.worker id))).isCancelled id = true) :
    w' = w ∧ Stage ex s.registry id w input ((s.act ex (.move (.worker id))).isCancelled id) p
      ((s.act ex (.move (.worker id))).eventsOf id) := by
  cases runEffect_pollWorker ex hnamed hbefore with
  | stays hsame hevents =>
    rw [hsame] at hworker
    cases hworker
    rw [hevents]
    exact ⟨rfl, hstage.mono hmono⟩
  | turns q' events hturn hnow hevents =>
    rw [hnow] at hworker
    cases hworker
    rw [hevents]
    refine ⟨rfl, hturn.stage hstage (hnamed id _ hbefore) hp hmono ?_⟩
    rintro t node r rfl hasks
    have hattend : s.act ex (.move (.worker id)) = s.attend ex id w t node r := by
      simp only [act, poll, pollWorker, hbefore]
    rw [hattend]
    exact isCancelled_attend ex hactive w t node hasks
  | stores record _ hact =>
    rw [hact, store, Keyed.get?_erase_self] at hworker
    cases hworker

/-- An act leads a run from one stage to the next. -/
lemma stage_act {s : EngineState ε π ω} (hnamed : s.RecordsNamed) (hguarded : Guarded none s)
    {a : Act ω} {id : String} (hrun : a.runId? ≠ some id) (hactive : id ∈ Keyed.keys s.active)
    {w w' : Workflow} {p q : Phase π} {input : Fields}
    (hbefore : Keyed.get? s.workers id = some ⟨w', q⟩)
    (hstage : Stage ex s.registry id w' input (s.isCancelled id) q (s.eventsOf id))
    (hworker : Keyed.get? (s.act ex a).workers id = some ⟨w, p⟩)
    (hp : ∀ record, p ≠ .storing record) :
    w' = w ∧ Stage ex (s.act ex a).registry id w input ((s.act ex a).isCancelled id) p
      ((s.act ex a).eventsOf id) := by
  have hmono : s.isCancelled id = true → (s.act ex a).isCancelled id = true := by
    intro hcancelled
    rcases isCancelled_act ex hrun hcancelled with hstill | ⟨record, hact⟩
    · exact hstill
    · rw [hact, store, Keyed.get?_erase_self] at hworker
      cases hworker
  by_cases hmove : a = .move (.worker id)
  · subst hmove
    have hregistry : (s.act ex (.move (.worker id))).registry = s.registry :=
      registry_pollWorker ex s id
    rw [hregistry]
    exact stage_move ex hnamed hactive hbefore hstage hworker hp hmono
  · -- somebody else has a part in it only by giving it a permit
    have hspares := spares_act ex hnamed hmove hrun
    rw [hspares.events]
    have hgrants := hspares.worker
    rw [hbefore, hworker] at hgrants
    rcases hgrants with hsame | ⟨w'', record, hqueued, hpermitted⟩
    · cases hsame
      exact ⟨rfl, (hstage.mono hmono).congr fun htraverses =>
        registry_act ex hguarded hbefore htraverses a⟩
    · cases hqueued
      cases hpermitted
      obtain ⟨⟨now, hrecord⟩, hevents⟩ := hstage.of_pending rfl
      rw [hevents]
      exact ⟨rfl, .pending rfl now hrecord⟩

variable (registry : Registry ε) (config : EngineConfig) (world : ω)

/-- **The workers go through the moments of their traversals.**  In every history with distinct ids,
a worker that is not about to store its record is at a stage of its run, which is one of the
workflow and the input that the run was admitted with. -/
theorem stage_after (acts : List (Act ω)) (hruns : Act.DistinctRuns acts) {id : String}
    {w : Workflow} {p : Phase π}
    (hworker : Keyed.get?
      ((make registry config world : EngineState ε π ω).after ex acts).workers id = some ⟨w, p⟩)
    (hp : ∀ record, p ≠ .storing record) :
    ∃ input, AdmittedWith ex (make registry config world : EngineState ε π ω) acts id w input ∧
      Stage ex ((make registry config world : EngineState ε π ω).after ex acts).registry id w
        input (((make registry config world : EngineState ε π ω).after ex acts).isCancelled id) p
        (((make registry config world : EngineState ε π ω).after ex acts).eventsOf id) := by
  induction acts using List.reverseRecOn generalizing w p with
  | nil => cases hworker
  | append_singleton acts a ih =>
    have hruns' := distinctRuns_of_append hruns
    rcases hbefore : Keyed.get?
      ((make registry config world : EngineState ε π ω).after ex acts).workers id with _ | ⟨w', q⟩
    · obtain ⟨input, rfl, hopen, rfl, hevents⟩ :=
        admitted_of_absent ex registry config world acts hruns hbefore hworker
      rw [hevents]
      exact ⟨input, ⟨acts, [], rfl, hopen⟩, .pending rfl _ rfl⟩
    have hnamed := recordsNamed_after ex registry config world acts
    have hguarded := guarded_after ex registry config world acts
    have hasked := workers_asked ex registry config world acts (Keyed.mem_keys_of_get? hbefore)
    have hrun := not_asked_of_distinct hruns hasked
    have hactive : id ∈ Keyed.keys
        ((make registry config world : EngineState ε π ω).after ex acts).active := by
      rw [active_keys_after ex registry config world acts hruns']
      exact Keyed.mem_keys_of_get? hbefore
    rw [after_concat] at hworker ⊢
    have hq := not_storing_of_act ex hnamed hrun hbefore hworker hp
    obtain ⟨input, hadmitted, hstage⟩ := ih hruns' hbefore hq
    obtain ⟨rfl, hnext⟩ := stage_act ex hnamed hguarded hrun hactive hbefore hstage hworker hp
    exact ⟨input, hadmitted.append ex _, hnext⟩

/-- Only its own moves bring a run to its end. -/
lemma move_of_storing {s : EngineState ε π ω} (hnamed : s.RecordsNamed) {a : Act ω} {id : String}
    (hrun : a.runId? ≠ some id) {w w' : Workflow} {p : Phase π} {record : Execution}
    (hbefore : Keyed.get? s.workers id = some ⟨w', p⟩) (hp : p ≠ .storing record)
    (hworker : Keyed.get? (s.act ex a).workers id = some ⟨w, .storing record⟩) :
    a = .move (.worker id) := by
  by_contra hmove
  have hgrants := (spares_act ex hnamed hmove hrun).worker
  rw [hbefore, hworker] at hgrants
  rcases hgrants with hsame | ⟨w'', queued, -, hpermitted⟩
  · cases hsame
    exact hp rfl
  · cases hpermitted

/-- A run that is about to store its record came to its end in a turn, and nothing has been heard
of it since. -/
lemma ending_of_storing (acts : List (Act ω)) (hruns : Act.DistinctRuns acts) {id : String}
    {w : Workflow} {record : Execution}
    (hworker : Keyed.get? ((make registry config world : EngineState ε π ω).after ex acts).workers
      id = some ⟨w, .storing record⟩) :
    ∃ before p outcome reports now ms, before ++ [.move (.worker id)] <+: acts ∧
      Keyed.get? ((make registry config world : EngineState ε π ω).after ex before).workers id =
        some ⟨w, p⟩ ∧
      Ends ex ((make registry config world).after ex before) id w p outcome reports ∧
      record = p.record.finish (verdict outcome).1 (verdict outcome).2 now ∧
      ((make registry config world : EngineState ε π ω).after ex acts).eventsOf id =
        ((make registry config world : EngineState ε π ω).after ex before).eventsOf id ++
          (reports ++ [.executionFinished id record.status ms now]) := by
  induction acts using List.reverseRecOn with
  | nil => cases hworker
  | append_singleton acts a ih =>
    have hruns' := distinctRuns_of_append hruns
    have harrives := arrives_after ex registry config world acts hruns hworker
    rw [after_concat] at hworker ⊢
    cases harrives with
    | admitted input _ _ hphase _ => cases hphase
    | stays hbefore hevents =>
      obtain ⟨before, p, outcome, reports, now, ms, hprior, hp, hends, hrecord, hheard⟩ :=
        ih hruns' hbefore
      exact ⟨before, p, outcome, reports, now, ms, hprior.trans (List.prefix_append _ _), hp,
        hends, hrecord, hevents.trans hheard⟩
    | turns q more hbefore hturn hevents =>
      have hnamed := recordsNamed_after ex registry config world acts
      have hasked := workers_asked ex registry config world acts (Keyed.mem_keys_of_get? hbefore)
      have hmove := move_of_storing ex hnamed (not_asked_of_distinct hruns hasked) hbefore
        (hturn.not_storing record) hworker
      cases hturn with
      | finish hends now ms hrecord =>
        subst hmove
        exact ⟨acts, q, _, _, now, ms, List.prefix_rfl, hbefore, hends, hrecord, hevents⟩

end After

end EngineState

end FlowGraph
