import FlowGraph.Proofs.Engine.Cut

/-!
# Runs that find no executors

A run keeps the registry from the moment it gets hold of it until its traversal is over.  If the
executors are not initialized by then, they will not be as long as the run traverses, and so the
traversal ends where the first executor would be called.  `Unserved` says how such a run stands from
then on; every act leads from one such state to another (`Unserved.act`), and two more moves of its
worker bring the run to its end.
-/

namespace FlowGraph

namespace EngineState

variable {ε π ω : Type} {ex : Executors ε π ω} {s : EngineState ε π ω} {id : String} {w : Workflow}
variable {free : Prop} {record : Execution} {t : Traversal}

/-- The record of a run that found no executors: it has no result, and it says what was missing if
the run had a trigger and was free to go on. -/
structure Blank (w : Workflow) (free : Prop) (record : Execution) : Prop where
  results : record.results = []
  failed : w.triggers ≠ [] → free → record.status = .failed ∧
    record.error = some EngineError.registryNotInitialized.message

/-- How a run stands that found no executors. -/
inductive Unserved (w : Workflow) (id : String) (free : Prop) (s : EngineState ε π ω) : Prop
  /-- It stands before its first node. -/
  | waiting (t : Traversal) (hworker : Keyed.get? s.workers id = some ⟨w, .traversing t⟩)
      (hagenda : t.agenda ≠ []) (hresults : t.record.results = [])
      (hstatus : t.record.status = .running) (hregistry : s.registry.initialized = false)
  /-- It is over. -/
  | storing (record : Execution) (hworker : Keyed.get? s.workers id = some ⟨w, .storing record⟩)
      (hblank : Blank w free record)
  /-- Its record was stored. -/
  | stored (hworker : Keyed.get? s.workers id = none)
      (hblank : ∀ found, Keyed.get? s.finished id = some found → Blank w free found)

/-- As long as the run has a worker, no executor works for it, and it has no result. -/
lemma Unserved.worker {worker : Worker π} (h : Unserved w id free s)
    (hworker : Keyed.get? s.workers id = some worker) :
    (∀ t node p, worker.phase ≠ .calling t node p) ∧ worker.phase.record.results = [] := by
  cases h with
  | waiting t hwaiting _ hresults _ _ =>
    rw [hworker] at hwaiting
    cases hwaiting
    exact ⟨fun _ _ _ hcalling => (by cases hcalling), hresults⟩
  | storing record hstoring hblank =>
    rw [hworker] at hstoring
    cases hstoring
    exact ⟨fun _ _ _ hcalling => (by cases hcalling), hblank.results⟩
  | stored hgone _ =>
    rw [hworker] at hgone
    cases hgone

/-- Once the run has no worker, its record is known. -/
lemma Unserved.found (h : Unserved w id free s) (hgone : Keyed.get? s.workers id = none)
    (hfound : Keyed.get? s.finished id = some record) : Blank w free record := by
  cases h with
  | waiting _ hworker _ _ _ _ | storing _ hworker _ =>
    rw [hgone] at hworker
    cases hworker
  | stored _ hblank => exact hblank record hfound

/-! ## The first node -/

/-- Without executors the traversal ends before its first node. -/
lemma step_of_not_initialized (ex : Executors ε π ω) (id : String) (w : Workflow)
    (hagenda : t.agenda ≠ []) (hresults : t.record.results = [])
    (hregistry : s.registry.initialized = false) :
    t.step w (s.viewOf ex id) =
      .ended (.error (if s.isCancelled id then .cancelled else .registryNotInitialized)) := by
  obtain ⟨node, rest, hnext⟩ := List.exists_cons_of_ne_nil hagenda
  have hget := Registry.get_of_not_initialized hregistry node.nodeType
  have hnew : Keyed.contains t.record.results node.id = false := by
    rw [hresults]
    rfl
  rcases hcancelled : s.isCancelled id with _ | _ <;>
    simp [Traversal.step, Traversal.view, viewOf, hnext, hnew, hget, hcancelled]

/-- The record of a run that ends before its first node. -/
lemma blank_finish (hresults : record.results = []) (hstatus : record.status = .running)
    {cancelled : Bool} (hfree : free → cancelled = false) (now : Timestamp) :
    let failure : EngineError := if cancelled then .cancelled else .registryNotInitialized
    Blank w free (record.finish (verdict (.returned (.error failure))).1
      (verdict (.returned (.error failure))).2 now) := by
  have hopen : record.status.isTerminal = false := by
    rw [hstatus]
    rfl
  intro failure
  constructor
  · simp only [Execution.finish, hopen, Bool.false_eq_true, if_false, hresults]
  · intro _ hisFree
    simp only [failure, hfree hisFree, Execution.finish, hopen, Bool.false_eq_true, if_false,
      verdict, and_self]

/-- A worker that leaves its traversal is about to store its record. -/
lemma get?_leave {p : Phase π} (hworker : Keyed.get? s.workers id = some ⟨w, p⟩)
    (hqueued : p.isQueued = false) (record : Execution) (outcome : Traversal.Outcome) :
    ∃ now, Keyed.get? (s.leave ex id record outcome).workers id =
      some ⟨w, .storing (record.finish (verdict outcome).1 (verdict outcome).2 now)⟩ :=
  ⟨_, get?_setPhase _ (get?_releasePermit (s.releaseRegistry (.worker id)) hworker hqueued) _⟩

/-- A worker gets hold of the registry while the executors are not initialized. -/
lemma unserved_begin (hworker : Keyed.get? s.workers id = some ⟨w, .awaitingRegistry record⟩)
    (hlock : s.lock.holds (.worker id) = true) (hregistry : s.registry.initialized = false)
    (hresults : record.results = []) (hstatus : record.status = .running) :
    Unserved w id free (s.act ex (.move (.worker id))) := by
  have hact : s.act ex (.move (.worker id)) = s.beginTraversal ex id w record := by
    simp only [act, poll, pollWorker, hworker, hlock, if_true]
  rw [hact, beginTraversal]
  split
  · next hnone =>
    obtain ⟨now, hstoring⟩ := get?_leave hworker rfl record (.returned (.error .noTriggerNode))
    refine .storing _ hstoring ⟨?_, fun hsome => absurd (List.isEmpty_iff.1 hnone) hsome⟩
    simp only [Execution.finish, hstatus, ExecutionStatus.isTerminal, Bool.false_eq_true, if_false,
      hresults]
  · next hsome =>
    rw [Bool.not_eq_true] at hsome
    exact .waiting _ (get?_setPhase s hworker _) (List.isEmpty_eq_false_iff.1 hsome) hresults
      hstatus hregistry

/-- The move with which the traversal ends. -/
lemma unserved_stop (ex : Executors ε π ω)
    (hworker : Keyed.get? s.workers id = some ⟨w, .traversing t⟩)
    (hagenda : t.agenda ≠ []) (hresults : t.record.results = [])
    (hstatus : t.record.status = .running) (hregistry : s.registry.initialized = false)
    (hfree : free → s.isCancelled id = false) :
    ∃ record, Keyed.get? (s.act ex (.move (.worker id))).workers id = some ⟨w, .storing record⟩ ∧
      Blank w free record := by
  have hstep := step_of_not_initialized ex id w hagenda hresults hregistry
  have hact : s.act ex (.move (.worker id)) = s.takeNode ex id w t := by
    simp only [act, poll, pollWorker, hworker]
  rw [hact, takeNode, ← viewOf, hstep]
  obtain ⟨now, hstoring⟩ := get?_leave hworker rfl t.record
    (.returned (.error (if s.isCancelled id then .cancelled else .registryNotInitialized)))
  exact ⟨_, hstoring, blank_finish hresults hstatus hfree now⟩

/-! ## Acts -/

/-- A run that found no executors goes on without. -/
lemma Unserved.act (h : Unserved w id free s) (hnamed : s.RecordsNamed)
    (hguarded : Guarded none s) {a : Act ω} (hrun : a.runId? ≠ some id)
    (hfree : free → s.isCancelled id = false) : Unserved w id free (s.act ex a) := by
  cases h with
  | waiting t hworker hagenda hresults hstatus hregistry =>
    by_cases hmove : a = .move (.worker id)
    · subst hmove
      obtain ⟨record, hstoring, hblank⟩ :=
        unserved_stop ex hworker hagenda hresults hstatus hregistry hfree
      exact .storing record hstoring hblank
    · -- the others leave it where it is, and the registry as it is while it traverses
      rcases (spares_act ex hnamed hmove hrun).worker with hsame | ⟨w', record, hqueued, -⟩
      · refine .waiting t (hsame.trans hworker) hagenda hresults hstatus ?_
        rw [registry_act ex hguarded hworker rfl a]
        exact hregistry
      · rw [hworker] at hqueued
        cases hqueued
  | storing record hworker hblank =>
    cases runEffect_act ex hnamed hrun hworker with
    | stays hsame _ => exact .storing record hsame hblank
    | turns q' more hturn _ _ => exact absurd rfl (hturn.not_storing record)
    | stores record' hphase hact =>
      cases hphase
      rw [hact]
      refine .stored (Keyed.get?_erase_self _ _) fun found hfound => ?_
      rw [store, Keyed.get?_insert_self, Option.some.injEq] at hfound
      exact hfound ▸ hblank
  | stored hworker hblank =>
    refine .stored (absent_act ex hnamed hrun hworker).1 fun found hfound => ?_
    rcases finished_act ex hfound with hold | ⟨w', -, hstoring, -⟩
    · exact hblank found hold
    · rw [hworker] at hstoring
      cases hstoring

variable (ex) (registry : Registry ε) (config : EngineConfig) (world : ω)

/-- What becomes of a run that gets hold of the registry while the executors are not initialized. -/
lemma unserved_after (free : Prop) (before more : List (Act ω))
    (hruns : Act.DistinctRuns ((before ++ [.move (.worker id)]) ++ more))
    (hworker : Keyed.get? ((make registry config world : EngineState ε π ω).after ex
      before).workers id = some ⟨w, .awaitingRegistry record⟩)
    (hlock : ((make registry config world : EngineState ε π ω).after ex before).lock.holds
      (.worker id) = true)
    (hregistry : ((make registry config world : EngineState ε π ω).after ex
      before).registry.initialized = false)
    (hfree : free → ∀ between, between <+: more →
      ((make registry config world : EngineState ε π ω).after ex
        ((before ++ [.move (.worker id)]) ++ between)).isCancelled id = false) :
    Unserved w id free ((make registry config world : EngineState ε π ω).after ex
      ((before ++ [.move (.worker id)]) ++ more)) := by
  have hruns' := distinctRuns_of_append hruns
  induction more using List.reverseRecOn with
  | nil =>
    obtain ⟨input, -, hstage⟩ := stage_after ex registry config world before
      (distinctRuns_of_append hruns') hworker nofun
    obtain ⟨now, started, rfl, -⟩ := hstage.of_awaiting
    rw [List.append_nil, after_concat]
    exact unserved_begin hworker hlock hregistry rfl rfl
  | append_singleton more a ih =>
    rw [← List.append_assoc] at hruns ⊢
    have hbefore := ih (distinctRuns_of_append hruns) fun hisFree between hbetween =>
      hfree hisFree between (hbetween.trans (List.prefix_append more [a]))
    have hasked : id ∈ ((before ++ [Act.move (.worker id)]) ++ more).filterMap Act.runId? := by
      rw [List.append_assoc, List.filterMap_append]
      exact List.mem_append_left _
        (workers_asked ex registry config world before (Keyed.mem_keys_of_get? hworker))
    rw [after_concat]
    exact hbefore.act (recordsNamed_after ex registry config world _)
      (guarded_after ex registry config world _) (not_asked_of_distinct hruns hasked)
      fun hisFree => hfree hisFree more (List.prefix_append more [a])

/-- Two more moves of its worker end a run that found no executors. -/
lemma gone_of_unserved (before first second rest : List (Act ω))
    (hruns : Act.DistinctRuns ((before ++ [.move (.worker id)]) ++
      (first ++ .move (.worker id) :: (second ++ .move (.worker id) :: rest))))
    (hworker : Keyed.get? ((make registry config world : EngineState ε π ω).after ex
      before).workers id = some ⟨w, .awaitingRegistry record⟩)
    (hlock : ((make registry config world : EngineState ε π ω).after ex before).lock.holds
      (.worker id) = true)
    (hregistry : ((make registry config world : EngineState ε π ω).after ex
      before).registry.initialized = false) :
    Keyed.get? ((make registry config world : EngineState ε π ω).after ex
      ((before ++ [.move (.worker id)]) ++
        (first ++ .move (.worker id) :: (second ++ .move (.worker id) :: rest)))).workers id =
          none := by
  have hsplit : (before ++ [.move (.worker id)]) ++
      (first ++ .move (.worker id) :: (second ++ .move (.worker id) :: rest)) =
        (((before ++ [.move (.worker id)]) ++ first) ++ [.move (.worker id)]) ++
          (second ++ .move (.worker id) :: rest) := by
    simp
  rw [hsplit] at hruns ⊢
  have hruns₂ := distinctRuns_of_append hruns
  have hruns₁ := distinctRuns_of_append hruns₂
  have hasked : ∀ more, id ∈ ((before ++ [Act.move (.worker id)]) ++ more).filterMap
      Act.runId? := by
    intro more
    rw [List.append_assoc, List.filterMap_append]
    exact List.mem_append_left _
      (workers_asked ex registry config world before (Keyed.mem_keys_of_get? hworker))
  -- with the first of them the traversal is over
  have hover : IsOver w id ((make registry config world : EngineState ε π ω).after ex
      (((before ++ [.move (.worker id)]) ++ first) ++ [.move (.worker id)])) := by
    cases unserved_after ex registry config world False before first hruns₁ hworker hlock
      hregistry False.elim with
    | waiting t hwaiting hagenda hresults hstatus hnone =>
      obtain ⟨record, hstoring, -⟩ :=
        unserved_stop ex hwaiting hagenda hresults hstatus hnone False.elim
      rw [after_concat]
      exact Or.inr ⟨record, hstoring⟩
    | storing record hstoring _ =>
      exact isOver_after ex registry config world _ _ hruns₂ (hasked first)
        (Or.inr ⟨record, hstoring⟩)
    | stored hgone _ =>
      exact isOver_after ex registry config world _ _ hruns₂ (hasked first) (Or.inl hgone)
  refine gone_of_isOver ex registry config world _ second rest hruns ?_ hover
  rw [List.append_assoc]
  exact hasked _

/-! ## The run as a whole -/

/-- A run gets hold of the registry with the next move of its worker, and the executors are not
initialized. -/
structure FindsNone (s : EngineState ε π ω) (id : String) (w : Workflow) : Prop where
  worker : ∃ record, Keyed.get? s.workers id = some ⟨w, .awaitingRegistry record⟩
  holds : s.lock.holds (.worker id) = true
  registry : s.registry.initialized = false

/-- What becomes of a run that found no executors after the history `acts`, by the time that `more`
has happened. -/
structure EndsUnserved (ex : Executors ε π ω) (start : EngineState ε π ω) (acts more : List (Act ω))
    (id : String) (w : Workflow) : Prop where
  uncalled : ∀ w' t node p,
    Keyed.get? (start.after ex (acts ++ more)).workers id ≠ some ⟨w', .calling t node p⟩
  resultless : ∀ worker, Keyed.get? (start.after ex (acts ++ more)).workers id = some worker →
    worker.phase.record.results = []
  blank : ∀ record, Keyed.get? (start.after ex (acts ++ more)).finished id = some record →
    record.results = []
  /-- If it has a trigger and nobody cancels it, it fails for want of executors. -/
  failed : w.triggers ≠ [] →
    (∀ between, between <+: more → (start.after ex (acts ++ between)).isCancelled id = false) →
    ∀ record, Keyed.get? (start.after ex (acts ++ more)).finished id = some record →
      record.status = .failed ∧ record.error = some EngineError.registryNotInitialized.message
  /-- It comes to its end when its worker has moved twice more. -/
  ends : ∀ first second rest,
    more = first ++ .move (.worker id) :: (second ++ .move (.worker id) :: rest) →
    id ∈ Keyed.keys (start.after ex (acts ++ more)).finished ∨ start.Forgotten ex (acts ++ more) id

lemma endsUnserved_after (before more : List (Act ω))
    (hruns : Act.DistinctRuns ((before ++ [.move (.worker id)]) ++ more))
    (h : FindsNone ((make registry config world : EngineState ε π ω).after ex before) id w) :
    EndsUnserved ex (make registry config world) (before ++ [.move (.worker id)]) more id w := by
  obtain ⟨⟨record, hworker⟩, hlock, hregistry⟩ := h
  have hunserved := fun free hfree => unserved_after ex registry config world free before more
    hruns hworker hlock hregistry hfree
  have hgone : ∀ {found}, Keyed.get? ((make registry config world : EngineState ε π ω).after ex
      ((before ++ [.move (.worker id)]) ++ more)).finished id = some found → _ := fun hfound =>
    get?_none_of_finished ex registry config world _ hruns hfound
  refine ⟨fun w' t node p hcalling => ?_, fun worker hstill => ?_, fun found hfound => ?_,
    fun htriggers hfree found hfound => ?_, fun first second rest hmore => ?_⟩
  · exact ((hunserved False False.elim).worker hcalling).1 t node p rfl
  · exact ((hunserved False False.elim).worker hstill).2
  · exact ((hunserved False False.elim).found (hgone hfound) hfound).results
  · exact ((hunserved True fun _ => hfree).found (hgone hfound) hfound).failed htriggers trivial
  · subst hmore
    have hnone := gone_of_unserved ex registry config world before first second rest hruns hworker
      hlock hregistry
    have hsplit : ∀ more : List (Act ω), (before ++ [.move (.worker id)]) ++ more =
        before ++ (.move (.worker id) :: more) := fun more => by simp
    rw [hsplit] at hruns hnone ⊢
    exact finished_of_gone ex registry config world before _ hruns hworker hnone

end EngineState

end FlowGraph
