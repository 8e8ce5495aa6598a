import FlowGraph.Proofs.Engine.Permits
import FlowGraph.Proofs.Engine.Turns

/-!
# The way of a run through a history

A run is admitted, its worker has turns, and in the end its record is stored.  `Journey` is the way
of a run up to the phase its worker has come to: what is proved about turns is carried along it by
induction.  `journey_after` says that every worker has come its way, and `journey_of_finished` that
every record that can be looked up was left by one.
-/

namespace FlowGraph

namespace Phase

variable {π : Type}

/-- The status of the record fits the phase. -/
def Sound : Phase π → Prop
  | .spawned record | .queued record | .permitted record => record.status = .pending
  | .awaitingRegistry record => record.status = .running
  | .traversing t | .calling t .. => t.record.status = .running
  | .storing record => record.status.isTerminal = true ∧ record.completedAt.isSome = true

lemma Sound.pending {p : Phase π} (h : p.Sound) (hp : p.isPending = true) :
    p.record.status = .pending := by
  cases p with
  | spawned | queued | permitted => exact h
  | _ => cases hp

end Phase

namespace EngineState

variable {ε π ω : Type}

/-! ## What a turn keeps -/

section Turn

variable {ex : Executors ε π ω} {s : EngineState ε π ω} {id : String} {w : Workflow}
variable {p p' : Phase π} {events : List ExecutionEvent}

/-- A turn keeps the record that of the run. -/
lemma Turn.sameRun (h : Turn ex s id w p p' events) : SameRun p.record p'.record := by
  cases h with
  | pass hstep =>
    cases Traversal.taken_of_step hstep
    exact SameRun.refl _
  | refuse hstep =>
    cases Traversal.taken_of_step hstep
    exact (Traversal.sameRun_enter _ _ _ _).trans (Traversal.sameRun_complete _ _ _ _ _)
  | enter hstep =>
    cases Traversal.taken_of_step hstep
    exact Traversal.sameRun_enter _ _ _ _
  | answer => exact Traversal.sameRun_complete _ _ _ _ _
  | finish _ now ms hrecord =>
    rw [hrecord]
    exact SameRun.finish _ _ _ _
  | _ => exact ⟨rfl, rfl, rfl, rfl⟩

/-- A phase in which a run may end is one of a run that is not over. -/
lemma Ends.not_terminal {outcome : Traversal.Outcome} (h : Ends ex s id w p outcome events)
    (hp : p.Sound) : p.record.status.isTerminal = false := by
  cases h with
  | cancelled hpending _ =>
    rw [hp.pending hpending]
    rfl
  | untriggered _ | stopped _ | crashed _ =>
    have hrunning : _ = ExecutionStatus.running := hp
    simp only [Phase.record, hrunning]
    rfl

/-- After a turn the status fits the phase again. -/
lemma Turn.sound (h : Turn ex s id w p p' events) (hp : p.Sound) : p'.Sound := by
  cases h with
  | pass hstep =>
    cases Traversal.taken_of_step hstep
    exact hp
  | refuse hstep =>
    cases Traversal.taken_of_step hstep
    exact (Traversal.status_complete _ _ _ _ _).trans hp
  | enter hstep =>
    cases Traversal.taken_of_step hstep
    exact hp
  | answer => exact (Traversal.status_complete _ _ _ _ _).trans hp
  | finish hends now ms hrecord =>
    subst hrecord
    refine ⟨finish_isFinal (π := π) _ _ _, ?_⟩
    rw [Execution.finish, if_neg (by simp [hends.not_terminal hp])]
    rfl
  | letIn => rfl
  | _ => exact hp

end Turn

/-! ## Records name their runs -/

variable (ex : Executors ε π ω) (registry : Registry ε) (config : EngineConfig) (world : ω)

lemma RecordsNamed.act {s : EngineState ε π ω} (h : s.RecordsNamed) (a : Act ω) :
    (s.act ex a).RecordsNamed := by
  rintro id ⟨w, p⟩ hworker
  by_cases hrun : a.runId? = some id
  · -- the run is started
    cases a with
    | execute other w' input =>
      cases hrun
      simp only [EngineState.act, EngineState.execute] at hworker
      split at hworker
      · exact h id _ hworker
      · simp only [wake, Keyed.get?_insert_self, Option.some.injEq, Worker.mk.injEq] at hworker
        rw [← hworker.2]
        rfl
    | _ => cases hrun
  · rcases hbefore : Keyed.get? s.workers id with _ | ⟨w', q⟩
    · have habsent := (absent_act ex h hrun hbefore).1
      rw [habsent] at hworker
      cases hworker
    · have hid := h id _ hbefore
      cases runEffect_act ex h hrun hbefore with
      | stays hsame _ =>
        rw [hsame] at hworker
        cases hworker
        exact hid
      | turns q' events hturn hnow _ =>
        rw [hnow] at hworker
        cases hworker
        exact hturn.sameRun.id.trans hid
      | stores record _ hact =>
        rw [hact, store, Keyed.get?_erase_self] at hworker
        cases hworker

lemma recordsNamed_after (acts : List (Act ω)) :
    ((make registry config world : EngineState ε π ω).after ex acts).RecordsNamed := by
  induction acts using List.reverseRecOn with
  | nil =>
    intro id worker hworker
    cases hworker
  | append_singleton acts a ih =>
    rw [after_concat]
    exact ih.act ex a

/-! ## Journeys -/

/-- The way of a run through a history: the phase that its worker has come to, and the events of
the run so far. -/
inductive Journey (ex : Executors ε π ω) (start : EngineState ε π ω) (id : String) (w : Workflow)
    (input : Fields) : List (Act ω) → Phase π → List ExecutionEvent → Prop
  /-- The run is admitted. -/
  | admitted {acts : List (Act ω)} (hopen : (start.after ex acts).shuttingDown = false) :
      Journey ex start id w input (acts ++ [.execute id w input])
        (.spawned (Execution.make id w.id input (ex.now (start.after ex acts).world))) []
  /-- Something else happens. -/
  | stay {acts : List (Act ω)} {p : Phase π} {events : List ExecutionEvent} (a : Act ω)
      (h : Journey ex start id w input acts p events) :
      Journey ex start id w input (acts ++ [a]) p events
  /-- The worker has a turn. -/
  | turn {acts : List (Act ω)} {p p' : Phase π} {events more : List ExecutionEvent} (a : Act ω)
      (h : Journey ex start id w input acts p events)
      (hturn : Turn ex (start.after ex acts) id w p p' more) :
      Journey ex start id w input (acts ++ [a]) p' (events ++ more)

section Journey

variable {ex} {start : EngineState ε π ω} {id : String} {w : Workflow} {input : Fields}
variable {acts : List (Act ω)} {p : Phase π} {events : List ExecutionEvent}

lemma Journey.sound (h : Journey ex start id w input acts p events) : p.Sound := by
  induction h with
  | admitted _ => rfl
  | stay _ _ ih => exact ih
  | turn _ _ hturn ih => exact hturn.sound ih

/-- The record keeps the identity that the run was admitted with. -/
lemma Journey.record (h : Journey ex start id w input acts p events) :
    p.record.id = id ∧ p.record.workflowId = w.id ∧ p.record.input = input := by
  induction h with
  | admitted _ => exact ⟨rfl, rfl, rfl⟩
  | stay _ _ ih => exact ih
  | turn _ _ hturn ih =>
    obtain ⟨hid, hworkflow, hinput⟩ := ih
    have hsame := hturn.sameRun
    exact ⟨hsame.id.trans hid, hsame.workflowId.trans hworkflow, hsame.input.trans hinput⟩

/-- The way begins with the admission of the run. -/
lemma Journey.admission (h : Journey ex start id w input acts p events) :
    ∃ before rest, acts = before ++ .execute id w input :: rest ∧
      (start.after ex before).shuttingDown = false := by
  induction h with
  | @admitted acts hopen => exact ⟨acts, [], rfl, hopen⟩
  | stay a _ ih =>
    obtain ⟨before, rest, rfl, hopen⟩ := ih
    exact ⟨before, rest ++ [a], by simp, hopen⟩
  | turn a _ _ ih =>
    obtain ⟨before, rest, rfl, hopen⟩ := ih
    exact ⟨before, rest ++ [a], by simp, hopen⟩

end Journey

/-! ## Every worker has come its way -/

/-- The last act of a history asks for a run that was not asked for before. -/
lemma not_asked_of_distinct {acts : List (Act ω)} {a : Act ω} {id : String}
    (hruns : Act.DistinctRuns (acts ++ [a])) (hasked : id ∈ acts.filterMap Act.runId?) :
    a.runId? ≠ some id := by
  rw [Act.DistinctRuns, List.filterMap_append, List.nodup_append] at hruns
  intro hrun
  refine hruns.2.2 id hasked id ?_ rfl
  rw [List.filterMap_cons, hrun]
  exact List.mem_cons_self

lemma distinctRuns_of_append {acts more : List (Act ω)} (hruns : Act.DistinctRuns (acts ++ more)) :
    Act.DistinctRuns acts := by
  rw [Act.DistinctRuns, List.filterMap_append, List.nodup_append] at hruns
  exact hruns.1

lemma distinctRuns_earlier {before acts : List (Act ω)} (hruns : Act.DistinctRuns acts)
    (h : before <+: acts) : Act.DistinctRuns before := by
  obtain ⟨rest, rfl⟩ := h
  exact distinctRuns_of_append hruns

/-- A run that was not asked for has no worker. -/
lemma absent_of_not_asked {acts : List (Act ω)} {id : String}
    (h : id ∉ acts.filterMap Act.runId?) :
    Keyed.get? ((make registry config world : EngineState ε π ω).after ex acts).workers id =
      none := by
  rw [Keyed.get?_eq_none_iff]
  exact fun hid => h (workers_asked ex registry config world acts hid)

/-- Nothing is heard of a run that was not asked for. -/
lemma eventsOf_of_not_asked (acts : List (Act ω)) {id : String}
    (h : id ∉ acts.filterMap Act.runId?) :
    ((make registry config world : EngineState ε π ω).after ex acts).eventsOf id = [] := by
  induction acts using List.reverseRecOn with
  | nil => rfl
  | append_singleton acts a ih =>
    rw [List.filterMap_append, List.mem_append, not_or] at h
    have hrun : a.runId? ≠ some id := by
      intro hrun
      exact h.2 (by simp [hrun])
    have hnamed := recordsNamed_after ex registry config world acts
    have habsent := absent_of_not_asked ex registry config world h.1
    rw [after_concat, (absent_act ex hnamed hrun habsent).2, ih h.1]

/-- A worker that was not there before is that of a run that is admitted now. -/
lemma admitted_of_absent (acts : List (Act ω)) {a : Act ω} (hruns : Act.DistinctRuns (acts ++ [a]))
    {id : String} {w : Workflow} {p : Phase π}
    (hnone : Keyed.get?
      ((make registry config world : EngineState ε π ω).after ex acts).workers id = none)
    (hworker : Keyed.get? ((make registry config world : EngineState ε π ω).after ex
      (acts ++ [a])).workers id = some ⟨w, p⟩) :
    ∃ input, a = .execute id w input ∧
      ((make registry config world : EngineState ε π ω).after ex acts).shuttingDown = false ∧
      p = .spawned (Execution.make id w.id input
        (ex.now ((make registry config world : EngineState ε π ω).after ex acts).world)) ∧
      ((make registry config world : EngineState ε π ω).after ex (acts ++ [a])).eventsOf id =
        [] := by
  have hnamed := recordsNamed_after ex registry config world acts
  rw [after_concat] at hworker ⊢
  -- nothing but an admission makes a worker
  have hrun : a.runId? = some id := by
    by_contra hrun
    rw [(absent_act ex hnamed hrun hnone).1] at hworker
    cases hworker
  have hnew : id ∉ acts.filterMap Act.runId? :=
    fun hasked => not_asked_of_distinct hruns hasked hrun
  cases a with
  | execute other w' input =>
    cases hrun
    have hevents := eventsOf_of_not_asked ex registry config world acts hnew
    simp only [act, execute] at hworker ⊢
    split at hworker
    · rw [hnone] at hworker
      cases hworker
    · next hopen =>
      rw [if_neg hopen]
      rw [Bool.not_eq_true] at hopen
      simp only [wake, Keyed.get?_insert_self, Option.some.injEq, Worker.mk.injEq] at hworker
      obtain ⟨rfl, rfl⟩ := hworker
      exact ⟨input, rfl, hopen, rfl, hevents⟩
  | _ => cases hrun

/-- How a run has come to the phase `p` by the last act of a history. -/
inductive Arrives (s : EngineState ε π ω) (a : Act ω) (id : String) (w : Workflow) (p : Phase π) :
    Prop where
  /-- It is admitted. -/
  | admitted (input : Fields) (ha : a = .execute id w input) (hopen : s.shuttingDown = false)
      (hphase : p = .spawned (Execution.make id w.id input (ex.now s.world)))
      (hevents : (s.act ex a).eventsOf id = [])
  /-- It was there. -/
  | stays (hbefore : Keyed.get? s.workers id = some ⟨w, p⟩)
      (hevents : (s.act ex a).eventsOf id = s.eventsOf id)
  /-- Its worker had a turn. -/
  | turns (q : Phase π) (more : List ExecutionEvent)
      (hbefore : Keyed.get? s.workers id = some ⟨w, q⟩) (hturn : Turn ex s id w q p more)
      (hevents : (s.act ex a).eventsOf id = s.eventsOf id ++ more)

lemma arrives_after (acts : List (Act ω)) {a : Act ω} (hruns : Act.DistinctRuns (acts ++ [a]))
    {id : String} {w : Workflow} {p : Phase π}
    (hworker : Keyed.get? ((make registry config world : EngineState ε π ω).after ex
      (acts ++ [a])).workers id = some ⟨w, p⟩) :
    Arrives ex ((make registry config world).after ex acts) a id w p := by
  rcases hbefore : Keyed.get?
    ((make registry config world : EngineState ε π ω).after ex acts).workers id with _ | ⟨w', q⟩
  · obtain ⟨input, ha, hopen, hphase, hevents⟩ :=
      admitted_of_absent ex registry config world acts hruns hbefore hworker
    rw [after_concat] at hevents
    exact .admitted input ha hopen hphase hevents
  · have hnamed := recordsNamed_after ex registry config world acts
    have hasked := workers_asked ex registry config world acts (Keyed.mem_keys_of_get? hbefore)
    rw [after_concat] at hworker
    cases runEffect_act ex hnamed (not_asked_of_distinct hruns hasked) hbefore with
    | stays hsame hevents =>
      rw [hsame] at hworker
      cases hworker
      exact .stays hbefore hevents
    | turns q' more hturn hnow hevents =>
      rw [hnow] at hworker
      cases hworker
      exact .turns q more hbefore hturn hevents
    | stores record _ hact =>
      rw [hact, store, Keyed.get?_erase_self] at hworker
      cases hworker

/-- Every worker has come to its phase on its way from the admission of the run. -/
lemma journey_after (acts : List (Act ω)) (hruns : Act.DistinctRuns acts) {id : String}
    {w : Workflow} {p : Phase π}
    (hworker : Keyed.get?
      ((make registry config world : EngineState ε π ω).after ex acts).workers id = some ⟨w, p⟩) :
    ∃ input, Journey ex (make registry config world) id w input acts p
      (((make registry config world : EngineState ε π ω).after ex acts).eventsOf id) := by
  induction acts using List.reverseRecOn generalizing p with
  | nil => cases hworker
  | append_singleton acts a ih =>
    have hruns' := distinctRuns_of_append hruns
    have harrives := arrives_after ex registry config world acts hruns hworker
    rw [after_concat]
    cases harrives with
    | admitted input ha hopen hphase hevents =>
      subst ha hphase
      exact ⟨input, hevents ▸ .admitted hopen⟩
    | stays hbefore hevents =>
      obtain ⟨input, hjourney⟩ := ih hruns' hbefore
      exact ⟨input, hevents ▸ hjourney.stay a⟩
    | turns q more hbefore hturn hevents =>
      obtain ⟨input, hjourney⟩ := ih hruns' hbefore
      exact ⟨input, hevents ▸ hjourney.turn a hturn⟩

/-- Records that can be looked up belong to runs that were asked for. -/
lemma finished_asked (acts : List (Act ω)) {id : String} {record : Execution}
    (hrecord : Keyed.get? ((make registry config world : EngineState ε π ω).after ex acts).finished
      id = some record) : id ∈ acts.filterMap Act.runId? := by
  induction acts using List.reverseRecOn with
  | nil => cases hrecord
  | append_singleton acts a ih =>
    rw [List.filterMap_append, List.mem_append]
    left
    rw [after_concat] at hrecord
    rcases finished_act ex hrecord with hold | ⟨w, -, hstoring, -⟩
    · exact ih hold
    · exact workers_asked ex registry config world acts (Keyed.mem_keys_of_get? hstoring)

end EngineState

end FlowGraph
