import FlowGraph.Proofs.Engine.Tables

/-!
# Following a run

From any point of a history on, a run that has a worker goes through turns until its record is
stored.  `Follows P` says that a property of phases and events has been carried along, and
`follows_after` is the induction that carries it: it is enough that every turn keeps the property.
A run that is cancelled stays so on the way (`isCancelled_after`).
-/

namespace FlowGraph

namespace EngineState

variable {ε π ω : Type}

/-- A run has a property, or it had it when its record was stored. -/
def Follows (P : Phase π → List ExecutionEvent → Prop) (w : Workflow) (id : String)
    (s : EngineState ε π ω) : Prop :=
  (∃ p, Keyed.get? s.workers id = some ⟨w, p⟩ ∧ P p (s.eventsOf id)) ∨
    Keyed.get? s.workers id = none ∧ ∃ record, P (.storing record) (s.eventsOf id) ∧
      ∀ found, Keyed.get? s.finished id = some found → found = record

lemma Follows.finished {P : Phase π → List ExecutionEvent → Prop} {w : Workflow} {id : String}
    {s : EngineState ε π ω} (h : Follows P w id s) (hnone : Keyed.get? s.workers id = none)
    {record : Execution} (hrecord : Keyed.get? s.finished id = some record) :
    P (.storing record) (s.eventsOf id) := by
  rcases h with ⟨p, hworker, -⟩ | ⟨-, final, hP, hfound⟩
  · rw [hnone] at hworker
    cases hworker
  · rw [hfound record hrecord]
    exact hP

variable (ex : Executors ε π ω)

/-- What every turn keeps is kept by every act. -/
lemma Follows.act {P : Phase π → List ExecutionEvent → Prop} {w : Workflow} {id : String}
    {s : EngineState ε π ω} (h : Follows P w id s) (hnamed : s.RecordsNamed) {a : Act ω}
    (hrun : a.runId? ≠ some id)
    (hturn : ∀ q q' events turn, Keyed.get? s.workers id = some ⟨w, q⟩ →
      Turn ex s id w q q' turn → P q events → P q' (events ++ turn)) :
    Follows P w id (s.act ex a) := by
  rcases h with ⟨q, hq, hPq⟩ | ⟨hnone, record, hPrecord, hfound⟩
  · cases runEffect_act ex hnamed hrun hq with
    | stays hsame hevents => exact Or.inl ⟨q, hsame, hevents ▸ hPq⟩
    | turns q' events hnext hnow hevents =>
      refine Or.inl ⟨q', hnow, ?_⟩
      rw [hevents]
      exact hturn q q' _ events hq hnext hPq
    | stores record hphase hact =>
      subst hphase
      right
      rw [hact]
      refine ⟨Keyed.get?_erase_self _ _, record, hPq, fun found hfound => ?_⟩
      rw [store, Keyed.get?_insert_self, Option.some.injEq] at hfound
      exact hfound.symm
  · -- the record is stored, and it stays or is dropped
    obtain ⟨habsent, hevents⟩ := absent_act ex hnamed hrun hnone
    refine Or.inr ⟨habsent, record, hevents ▸ hPrecord, fun found hlater => ?_⟩
    rcases finished_act ex hlater with hold | ⟨w', -, hstoring, -⟩
    · exact hfound found hold
    · rw [hnone] at hstoring
      cases hstoring

variable (registry : Registry ε) (config : EngineConfig) (world : ω)

/-- What every turn keeps holds along the whole way of a run. -/
lemma follows_after (acts more : List (Act ω)) (hruns : Act.DistinctRuns (acts ++ more))
    {id : String} {w : Workflow} {p : Phase π}
    (hworker : Keyed.get?
      ((make registry config world : EngineState ε π ω).after ex acts).workers id = some ⟨w, p⟩)
    {P : Phase π → List ExecutionEvent → Prop}
    (hP : P p (((make registry config world : EngineState ε π ω).after ex acts).eventsOf id))
    (hturn : ∀ between, between <+: more → ∀ q q' events turn,
      Keyed.get? ((make registry config world : EngineState ε π ω).after ex
        (acts ++ between)).workers id = some ⟨w, q⟩ →
      Turn ex ((make registry config world).after ex (acts ++ between)) id w q q' turn →
      P q events → P q' (events ++ turn)) :
    Follows P w id ((make registry config world).after ex (acts ++ more)) := by
  induction more using List.reverseRecOn with
  | nil =>
    rw [List.append_nil]
    exact Or.inl ⟨p, hworker, hP⟩
  | append_singleton more a ih =>
    rw [← List.append_assoc] at hruns ⊢
    have hnamed := recordsNamed_after ex registry config world (acts ++ more)
    have hasked : id ∈ (acts ++ more).filterMap Act.runId? := by
      rw [List.filterMap_append, List.mem_append]
      exact Or.inl (workers_asked ex registry config world acts (Keyed.mem_keys_of_get? hworker))
    have hrun := not_asked_of_distinct hruns hasked
    have hbefore := ih (distinctRuns_of_append hruns) fun between hbetween =>
      hturn between (hbetween.trans (List.prefix_append more [a]))
    rw [after_concat]
    exact hbefore.act ex hnamed hrun (hturn more (List.prefix_append more [a]))

/-- A run that has a worker had it before, since it was asked for. -/
lemma worker_before (acts : List (Act ω)) (a : Act ω) {id : String}
    (hruns : Act.DistinctRuns (acts ++ [a])) (hasked : id ∈ acts.filterMap Act.runId?)
    {worker : Worker π}
    (hworker : Keyed.get? ((make registry config world : EngineState ε π ω).after ex
      (acts ++ [a])).workers id = some worker) :
    ∃ before, Keyed.get?
      ((make registry config world : EngineState ε π ω).after ex acts).workers id =
        some before := by
  rcases hbefore : Keyed.get?
    ((make registry config world : EngineState ε π ω).after ex acts).workers id with _ | before
  · have habsent := absent_after ex registry config world [a] hruns hasked hbefore
    rw [habsent.1] at hworker
    cases hworker
  · exact ⟨before, rfl⟩

/-- As long as a run is active, what users see of it only moves forward. -/
lemma seen_after (acts more : List (Act ω)) (hruns : Act.DistinctRuns (acts ++ more))
    {id : String} {run run' : ActiveRun}
    (hrun : Keyed.get? ((make registry config world : EngineState ε π ω).after ex acts).active id =
      some run)
    (hrun' : Keyed.get? ((make registry config world : EngineState ε π ω).after ex
      (acts ++ more)).active id = some run') : run.Precedes run' := by
  have hasked : id ∈ acts.filterMap Act.runId? := by
    refine workers_asked ex registry config world acts ?_
    rw [← active_keys_after ex registry config world acts (distinctRuns_of_append hruns)]
    exact Keyed.mem_keys_of_get? hrun
  induction more using List.reverseRecOn generalizing run' with
  | nil =>
    rw [List.append_nil, hrun] at hrun'
    cases hrun'
    exact .refl run
  | append_singleton more a ih =>
    rw [← List.append_assoc] at hruns hrun'
    have hruns' := distinctRuns_of_append hruns
    have hasked' : id ∈ (acts ++ more).filterMap Act.runId? := by
      rw [List.filterMap_append, List.mem_append]
      exact Or.inl hasked
    have hworker := Keyed.mem_keys_of_get? hrun'
    rw [active_keys_after ex registry config world _ hruns] at hworker
    obtain ⟨worker, hworker⟩ := Keyed.exists_of_mem_keys hworker
    obtain ⟨before, hbefore⟩ :=
      worker_before ex registry config world (acts ++ more) a hruns hasked' hworker
    have hactive := Keyed.mem_keys_of_get? hbefore
    rw [← active_keys_after ex registry config world _ hruns'] at hactive
    obtain ⟨now, hnow⟩ := Keyed.exists_of_mem_keys hactive
    rw [after_concat] at hrun'
    rcases seen_act ex (not_asked_of_distinct hruns hasked') hnow with
      ⟨next, hnext, hprecedes⟩ | ⟨record, hact⟩
    · rw [hrun'] at hnext
      cases hnext
      exact (ih hruns' hnow).trans hprecedes
    · rw [hact, store, Keyed.get?_erase_self] at hrun'
      cases hrun'

/-- As long as a cancelled run has a worker, it stays cancelled. -/
lemma isCancelled_after (acts more : List (Act ω)) (hruns : Act.DistinctRuns (acts ++ more))
    {id : String}
    (hcancelled : ((make registry config world : EngineState ε π ω).after ex acts).isCancelled id =
      true) {worker : Worker π}
    (hworker : Keyed.get? ((make registry config world : EngineState ε π ω).after ex
      (acts ++ more)).workers id = some worker) :
    ((make registry config world : EngineState ε π ω).after ex (acts ++ more)).isCancelled id =
      true := by
  rw [isCancelled_eq] at hcancelled ⊢
  obtain ⟨run, hrun, hflag⟩ := (Option.any_eq_true _ _).1 hcancelled
  have hactive := Keyed.mem_keys_of_get? hworker
  rw [← active_keys_after ex registry config world _ hruns] at hactive
  obtain ⟨run', hrun'⟩ := Keyed.exists_of_mem_keys hactive
  rw [hrun']
  exact (seen_after ex registry config world acts more hruns hrun hrun').cancelled hflag

end EngineState

end FlowGraph
