import FlowGraph.Proofs.Engine.Emitters
import FlowGraph.Proofs.Engine.Isolation
import FlowGraph.Proofs.Event.Subscriber

/-!
# The stream of events of a run

All that is heard of a run, whatever other runs do in between, is one sentence: the run starts, the
nodes are told block by block in the order of the record, and the run is over.  `Tale` is that
sentence, read side by side with the final record, and `tale_of_ending` reads it off the last turn
of the run.  A run that was not let in has nothing to tell of but its end, and only a crash leaves
a block open.

What is reported through emitters is heard in between.  A tale remains one as long as executors
report in time (`Tale.noted`), and a report that comes later spoils it (`not_stream_of_late`).
-/

namespace FlowGraph

namespace EngineState

open Traversal (Block Narrates Noted Results)

variable {ε π ω : Type}

/-! ## Tales -/

/-- What is heard of a run that ends with a record. -/
inductive Tale (id : String) (letIn crashed : Prop) (record : Execution) :
    List ExecutionEvent → Prop
  /-- The run was not let in. -/
  | dismissed (hresults : record.results = []) (ms : ℕ) (now : Timestamp) :
      Tale id letIn crashed record [.executionFinished id record.status ms now]
  /-- The run was let in, and it entered the nodes of the record. -/
  | told (hletIn : letIn) (started : Timestamp) {events : List ExecutionEvent}
      (hnarrates : Narrates id record.results events) {node? : Option Node}
      (hresults : Results node? record.results) (hcrashed : node? ≠ none → crashed) (ms : ℕ)
      (now : Timestamp) :
      Tale id letIn crashed record (.executionStarted id record.workflowId started ::
        (events ++ [.executionFinished id record.status ms now]))

section Tale

variable {ex : Executors ε π ω} {start : EngineState ε π ω} {acts : List (Act ω)} {id : String}
variable {record : Execution}

/-- Every way in which a run may end makes a tale. -/
lemma tale_of_ending (e : Ending ex start acts id record) :
    Tale id (LetIn ex start acts id) (Crashed ex start acts id) record
      ((start.after ex acts).eventsOf id) := by
  have hnamed : record.workflowId = e.workflow.id :=
    (congrArg Execution.workflowId e.record_eq).trans e.workflowId
  rw [e.events, ← List.append_assoc]
  rcases hpending : e.phase.isPending with _ | _
  · obtain ⟨hunderWay, now, started, first, last, hconcludes, hlast, hevents, hnarrates⟩ :=
      e.ends.concludes e.stage hpending
    obtain ⟨⟨node?, hentries, hcrashed⟩, -⟩ := hconcludes.results rfl
    rw [← e.results.trans hlast] at hnarrates hentries
    rw [hevents, ← hnamed, List.cons_append]
    exact .told (e.letIn hunderWay) started hnarrates hentries
      (fun hopen => e.crashed (hcrashed hopen)) e.millis e.now
  · obtain ⟨-, -, hnothing, hevents⟩ := e.ends.of_pending e.stage hpending
    rw [hevents, List.nil_append]
    exact .dismissed (e.results.trans hnothing) e.millis e.now

variable {letIn crashed : Prop} {events events' : List ExecutionEvent}

/-- A tale remains one when a node reports more while its block is open. -/
lemma Tale.noted (h : Tale id letIn crashed record events) (hnoted : Noted id events events') :
    Tale id letIn crashed record events' := by
  cases h with
  | dismissed hresults ms now =>
    rw [← List.nil_append [ExecutionEvent.executionFinished id record.status ms now]] at hnoted
    obtain ⟨told, hnothing, -⟩ := hnoted.of_concat rfl
    exact absurd rfl hnothing.ne_nil
  | told hletIn started hnarrates hresults hcrashed ms now =>
    obtain ⟨rest, hrest, rfl⟩ := hnoted.of_cons rfl
    obtain ⟨told, htold, rfl⟩ := hrest.of_concat rfl
    exact .told hletIn started (hnarrates.noted htold) hresults hcrashed ms now

end Tale

/-! ## What is heard only grows -/

section Grows

variable (ex : Executors ε π ω)

/-- Nothing is heard of a run when it is started. -/
lemma eventsOf_execute {s : EngineState ε π ω} {a : Act ω} {id : String}
    (hrun : a.runId? = some id) : (s.act ex a).eventsOf id = s.eventsOf id := by
  cases a with
  | execute other w input =>
    simp only [act, execute]
    split <;> rfl
  | _ => cases hrun

lemma eventsOf_act {s : EngineState ε π ω} (hnamed : s.RecordsNamed) (a : Act ω) (id : String) :
    s.eventsOf id <+: (s.act ex a).eventsOf id := by
  by_cases hrun : a.runId? = some id
  · rw [eventsOf_execute ex hrun]
  · rcases hworker : Keyed.get? s.workers id with _ | ⟨w, p⟩
    · rw [(absent_act ex hnamed hrun hworker).2]
    · cases runEffect_act ex hnamed hrun hworker with
      | stays _ hevents => rw [hevents]
      | turns _ more _ _ hevents =>
        rw [hevents]
        exact List.prefix_append _ _
      | stores record _ hact =>
        rw [hact]
        exact List.prefix_rfl

/-- Nothing is heard of a run in an act that leaves it without a worker. -/
lemma eventsOf_of_none {s : EngineState ε π ω} (hnamed : s.RecordsNamed) {a : Act ω} {id : String}
    (hnone : Keyed.get? (s.act ex a).workers id = none) :
    (s.act ex a).eventsOf id = s.eventsOf id := by
  by_cases hrun : a.runId? = some id
  · exact eventsOf_execute ex hrun
  · rcases hworker : Keyed.get? s.workers id with _ | ⟨w, p⟩
    · exact (absent_act ex hnamed hrun hworker).2
    · cases runEffect_act ex hnamed hrun hworker with
      | stays hstill _ | turns _ _ _ hstill _ =>
        rw [hnone] at hstill
        cases hstill
      | stores record _ hact =>
        rw [hact]
        rfl

variable (registry : Registry ε) (config : EngineConfig) (world : ω)

lemma eventsOf_after {before acts : List (Act ω)} (h : before <+: acts) (id : String) :
    ((make registry config world : EngineState ε π ω).after ex before).eventsOf id <+:
      ((make registry config world : EngineState ε π ω).after ex acts).eventsOf id := by
  obtain ⟨more, rfl⟩ := h
  induction more using List.reverseRecOn with
  | nil => rw [List.append_nil]
  | append_singleton more a ih =>
    have hnamed := recordsNamed_after ex registry config world (before ++ more)
    rw [← List.append_assoc, after_concat]
    exact ih.trans (eventsOf_act ex hnamed a id)

/-- When a run was let in, its start is heard. -/
lemma started_of_letIn {acts : List (Act ω)} (hruns : Act.DistinctRuns acts) {id : String}
    (h : LetIn ex (make registry config world : EngineState ε π ω) acts id) :
    ∃ workflowId now, .executionStarted id workflowId now ∈
      ((make registry config world : EngineState ε π ω).after ex acts).eventsOf id := by
  obtain ⟨before, w, p, hbefore, hworker, hp⟩ := h
  have hruns' := distinctRuns_earlier hruns hbefore
  have hopen : ∀ record, p ≠ .storing record := by
    rintro record rfl
    cases hp
  obtain ⟨input, -, hstage⟩ := stage_after ex registry config world before hruns' hworker hopen
  have hgrows := eventsOf_after ex registry config world hbefore id
  generalize ((make registry config world : EngineState ε π ω).after ex before).eventsOf id =
    events at hstage hgrows
  cases hstage with
  | pending hpending =>
    cases p with
    | spawned | queued | permitted => cases hp
    | _ => cases hpending
  | admitted now started | between now started | calling now started =>
    exact ⟨w.id, started, hgrows.subset List.mem_cons_self⟩

end Grows

/-! ## Streams -/

/-- The events of a run that is over, side by side with its record. -/
structure Stream (id : String) (letIn crashed : Prop) (record : Execution)
    (events : List ExecutionEvent) : Prop where
  /-- Only of a run that was not let in nothing is heard but its end. -/
  dismissed : ¬letIn ↔ ∃ ms now, events = [.executionFinished id record.status ms now]
  /-- Of any other its start is heard, then its nodes block by block in the order in which they were
  started, and then its end. -/
  told : letIn → ∃ started blocks ms now,
    events = .executionStarted id record.workflowId started ::
      (List.flatten blocks ++ [.executionFinished id record.status ms now]) ∧
    List.Forall₂ (Block id) record.orderedResults blocks
  sequences : record.orderedResults.map NodeResult.sequence = List.range record.results.length
  /-- A block is left open only by a crash, and it is the last one. -/
  running : ∀ r ∈ record.orderedResults, r.status = .running →
    crashed ∧ record.orderedResults.getLast? = some r
  succeeded : events.filterMap ExecutionEvent.succeeded? =
    record.orderedResults.filterMap NodeResult.succeeded?
  failed : events.filterMap ExecutionEvent.failed? =
    record.orderedResults.filterMap NodeResult.failed?
  /-- The end is heard once, with the status of the record. -/
  finished : events.filterMap ExecutionEvent.finished? = [record.status]

section Stream

variable {id : String} {letIn crashed : Prop} {record : Execution} {events : List ExecutionEvent}

lemma Tale.stream (h : Tale id letIn crashed record events)
    (hstarted : letIn → ∃ workflowId now, .executionStarted id workflowId now ∈ events) :
    Stream id letIn crashed record events := by
  cases h with
  | dismissed hresults ms now =>
    have hout : ¬letIn := by
      intro hletIn
      obtain ⟨_, _, hmem⟩ := hstarted hletIn
      cases List.mem_singleton.1 hmem
    have hempty : Results none record.results := by
      rw [hresults]
      exact Results.nil
    have hordered : record.orderedResults = [] := by
      rw [hempty.ordered, hresults]
      rfl
    refine ⟨⟨fun _ => ⟨ms, now, rfl⟩, fun _ => hout⟩, fun hletIn => absurd hletIn hout, ?_,
      hempty.running fun h => absurd rfl h, ?_, ?_, rfl⟩
    · rw [hordered, hresults]
      rfl
    · rw [hordered]
      rfl
    · rw [hordered]
      rfl
  | @told hletIn started middle hnarrates node? hresults hcrashed ms now =>
    have hordered := hresults.ordered
    have hread : ∀ {β : Type} (f : ExecutionEvent → Option β),
        f (.executionStarted id record.workflowId started) = none →
        (ExecutionEvent.executionStarted id record.workflowId started ::
          (middle ++ [.executionFinished id record.status ms now])).filterMap f =
        middle.filterMap f ++ (f (.executionFinished id record.status ms now)).toList := by
      intro β f hf
      rw [List.filterMap_cons, hf, List.filterMap_append]
      cases hlast : f (.executionFinished id record.status ms now) <;> simp [hlast]
    refine ⟨⟨fun hout => absurd hletIn hout, fun ⟨_, _, hevents⟩ => by cases hevents⟩,
      fun _ => ?_, ?_, hresults.running hcrashed, ?_, ?_, ?_⟩
    · obtain ⟨blocks, rfl, hblocks⟩ := hnarrates
      refine ⟨started, blocks, ms, now, rfl, ?_⟩
      rw [hordered, List.forall₂_map_left_iff]
      exact hblocks.imp fun _ _ hblock => hblock.2
    · rw [hordered, List.map_map]
      exact hresults.sequences
    · rw [hread _ rfl, hnarrates.succeeded, hordered]
      exact List.append_nil _
    · rw [hread _ rfl, hnarrates.failed, hordered]
      exact List.append_nil _
    · rw [hread _ rfl, hnarrates.not_finished]
      rfl

/-- A tale makes a stream also with further reports in the blocks of its nodes. -/
lemma Tale.stream_of_noted (h : Tale id letIn crashed record events)
    (hstarted : letIn → ∃ workflowId now, .executionStarted id workflowId now ∈ events)
    {events' : List ExecutionEvent} (hnoted : Relation.ReflTransGen (Noted id) events events') :
    Stream id letIn crashed record events' := by
  have htold : Tale id letIn crashed record events' ∧ events ⊆ events' := by
    induction hnoted with
    | refl => exact ⟨h, List.Subset.refl events⟩
    | tail _ hstep ih => exact ⟨ih.1.noted hstep, List.Subset.trans ih.2 hstep.subset⟩
  refine htold.1.stream fun hletIn => ?_
  obtain ⟨workflowId, now, hmem⟩ := hstarted hletIn
  exact ⟨workflowId, now, htold.2 hmem⟩

/-- The end of the run is heard last. -/
lemma Stream.last {e : ExecutionEvent} (h : Stream id letIn crashed record (events ++ [e])) :
    ∃ ms now, e = .executionFinished id record.status ms now := by
  by_cases hletIn : letIn
  · obtain ⟨started, blocks, ms, now, hevents, -⟩ := h.told hletIn
    rw [← List.cons_append] at hevents
    exact ⟨ms, now, (List.cons.inj (List.append_inj' hevents rfl).2).1⟩
  · obtain ⟨ms, now, hevents⟩ := h.dismissed.1 hletIn
    rw [← List.nil_append [ExecutionEvent.executionFinished id record.status ms now]] at hevents
    exact ⟨ms, now, (List.cons.inj (List.append_inj' hevents rfl).2).1⟩

end Stream

/-- **The stream of a run is one sentence that agrees with its record.**  In every history with
distinct ids, whatever other runs and their users do, and whatever is reported through the emitters
of other runs: let the executors of a run report in time.  When the record of the run has been
stored, a subscriber that came before anything was heard of the run and misses nothing has heard of
it either only its end, if the run was never let in, or its start, the nodes of the record block by
block in the order in which they were started, and its end.  Each block says of its node what the
record says, and a block is left open only by a crash. -/
theorem stream_after (ex : Executors ε π ω) (registry : Registry ε) (config : EngineConfig)
    (world : ω) (history more : List (Happening ω))
    (hruns : Act.DistinctRuns (Happening.acts (history ++ more))) {id : String}
    (hintime : ReportsInTime ex (make registry config world) id (history ++ more))
    {record : Execution}
    (hrecord : Keyed.get?
      ((make registry config world : EngineState ε π ω).happened ex history).finished id =
        some record)
    {first bus bus' : EventBus ExecutionEvent} (hfirst : first.kept.length ≤ first.sent)
    {name : String} {earlier sent heard : List ExecutionEvent}
    (hemitted : ((make registry config world : EngineState ε π ω).happened ex
      (history ++ more)).emitted = earlier ++ sent)
    (hearlier : ∀ e ∈ earlier, e.executionId ≠ id)
    (hhears : EventBus.Hears name (first.subscribe name) sent heard bus)
    (hnothing : bus.receive name = some (.empty, bus')) :
    Stream id
      (LetIn ex (make registry config world : EngineState ε π ω)
        (Happening.acts (history ++ more)) id)
      (Crashed ex (make registry config world : EngineState ε π ω)
        (Happening.acts (history ++ more)) id) record
      (heard.filter fun e => e.executionId = id) := by
  have hheard : (heard.filter fun e => e.executionId = id) =
      ((make registry config world : EngineState ε π ω).happened ex
        (history ++ more)).eventsOf id := by
    have hnone : (earlier.filter fun e => e.executionId = id) = [] :=
      List.filter_eq_nil_iff.2 fun e he => by simpa using hearlier e he
    rw [EventBus.heard_all hfirst hhears hnothing, eventsOf, hemitted, List.filter_append, hnone,
      List.nil_append]
  have hnoted := noted_of_happened ex registry config world hruns hintime
  rw [hheard]
  rw [happened_eq] at hrecord
  simp only [Happening.acts, List.filterMap_append] at hruns hnoted ⊢
  obtain ⟨e⟩ := ending_after ex registry config world _ _ hruns hrecord
  exact (tale_of_ending e).stream_of_noted (started_of_letIn ex registry config world hruns) hnoted

/-- A subscriber that reads when everything is over hears of a run whose executor crashed, among two
others: the block of its node, in which the executor has reported something, stays open.  Somebody
uses an emitter of another run that waits for its permit, for a node that it does not have. -/
theorem stream_after_crashing :
    let before := (crashing ++ .execute "run" lone [] :: among.take 5).map Happening.act
    let history := before ++ [.report ⟨"crashed", "bad"⟩ (.info "at work")] ++
      [.report ⟨"run", "nowhere"⟩ (.warning "lost")] ++ (among.drop 5).map Happening.act
    let heard := (narrowEngine.happened brittle history).emitted
    ∃ record, Keyed.get? (narrowEngine.happened brittle history).finished "crashed" = some record ∧
      record.results.map (fun entry => entry.2.status) = [.running] ∧
      (narrowEngine.happened brittle before).WorksOn "crashed" "bad" ∧ heard.length = 10 ∧
      Stream "crashed" (LetIn brittle narrowEngine (Happening.acts (history ++ [])) "crashed")
        (Crashed brittle narrowEngine (Happening.acts (history ++ [])) "crashed") record
        (heard.filter fun e => e.executionId = "crashed") := by
  intro before history heard
  obtain ⟨record, hrecord, hstatuses⟩ : ∃ record,
      Keyed.get? (narrowEngine.happened brittle history).finished "crashed" = some record ∧
      record.results.map (fun entry => entry.2.status) = [.running] := ⟨_, rfl, rfl⟩
  have hworks : (narrowEngine.happened brittle before).WorksOn "crashed" "bad" :=
    ⟨_, _, _, _, rfl, rfl⟩
  have hintime : ReportsInTime brittle narrowEngine "crashed" (history ++ []) := by
    rw [List.append_nil]
    have hbefore : ReportsInTime brittle narrowEngine "crashed" ([] ++ before) :=
      ReportsInTime.start.acts (crashing ++ .execute "run" lone [] :: among.take 5)
    have hreport := hbefore.report ⟨"crashed", "bad"⟩ (fun _ => hworks) (.info "at work")
    have hother := hreport.report ⟨"run", "nowhere"⟩ (fun h => absurd h (by decide))
      (.warning "lost")
    exact hother.acts (among.drop 5)
  have hruns : Act.DistinctRuns (Happening.acts (history ++ [])) :=
    show ["crashed", "run", "dropped"].Nodup by decide
  have hemitted : (narrowEngine.happened brittle (history ++ [])).emitted = [] ++ heard := rfl
  let bus := ((EventBus.make 16).subscribe "user").sendAll heard
  have hheard : EventBus.Hears "user" ((EventBus.make 16).subscribe "user") heard heard
      (bus.drain "user").2.2 := (EventBus.hears_sendAll "user" _ heard).drain rfl
  have hnothing := EventBus.receive_of_heard_all (by decide) hheard
  exact ⟨record, hrecord, hstatuses, hworks, rfl, stream_after brittle narrowEngine.registry
    { maxConcurrent := 1 } () history [] hruns hintime hrecord (by decide) hemitted nofun hheard
    hnothing⟩

/-- An emitter that is used for a run that is over spoils its stream, so it does matter that
executors report in time. -/
theorem not_stream_of_late (ex : Executors ε π ω) (s : EngineState ε π ω) {emitter : Emitter}
    {id : String} (hrun : emitter.executionId = id) (event : NodeEvent) (letIn crashed : Prop)
    (record : Execution) :
    ¬Stream id letIn crashed record ((s.happen ex (.report emitter event)).eventsOf id) := by
  intro h
  rw [happen, eventsOf_emit _ fun e he => (List.mem_singleton.1 he) ▸ hrun] at h
  obtain ⟨_, _, hlast⟩ := h.last
  cases hlast

end EngineState

end FlowGraph
