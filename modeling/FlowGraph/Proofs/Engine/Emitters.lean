import FlowGraph.Proofs.Engine.Endings
import FlowGraph.Proofs.Engine.Mimicry
import Mathlib.Logic.Relation

/-!
# Reports through emitters

Emitters are in the hands of executors, and of whoever these give them to.  So reports may come at
any time and about any node, and nothing in an engine keeps them in their place.  They have no
influence on what the engine does (`happened_eq`), but they are heard among its own events.
Executors are expected to report of a node while they work on it.  When those of a run do so
(`ReportsInTime`), every report falls into the open block of its node, and what is heard of the run
is what would be heard without the reports, with some blocks longer (`noted_of_happened`).
-/

namespace FlowGraph

namespace EngineState

open Traversal (Noted OpenAt)

variable {ε π ω : Type}

/-- An executor works on a node of a run. -/
def WorksOn (s : EngineState ε π ω) (id nodeId : String) : Prop :=
  ∃ w t node p, Keyed.get? s.workers id = some ⟨w, .calling t node p⟩ ∧ node.id = nodeId

/-- A history in which the executors of a run do with their emitters what is expected of them: they
report of a node while they work on it.  Emitters of other runs may be used in any way. -/
inductive ReportsInTime (ex : Executors ε π ω) (start : EngineState ε π ω) (id : String) :
    List (Happening ω) → Prop
  | start : ReportsInTime ex start id []
  | act {history : List (Happening ω)} (h : ReportsInTime ex start id history) (a : Act ω) :
      ReportsInTime ex start id (history ++ [.act a])
  | report {history : List (Happening ω)} (h : ReportsInTime ex start id history)
      (emitter : Emitter) (hworks : emitter.executionId = id →
        (start.happened ex history).WorksOn id emitter.nodeId) (event : NodeEvent) :
      ReportsInTime ex start id (history ++ [.report emitter event])

lemma ReportsInTime.acts {ex : Executors ε π ω} {start : EngineState ε π ω} {id : String}
    {history : List (Happening ω)} (h : ReportsInTime ex start id history) (acts : List (Act ω)) :
    ReportsInTime ex start id (history ++ acts.map .act) := by
  induction acts using List.reverseRecOn with
  | nil => rwa [List.map_nil, List.append_nil]
  | append_singleton acts a ih =>
    rw [List.map_append, ← List.append_assoc]
    exact ih.act a

section Happened

variable (ex : Executors ε π ω)

lemma happened_concat (s : EngineState ε π ω) (history : List (Happening ω)) (h : Happening ω) :
    s.happened ex (history ++ [h]) = (s.happened ex history).happen ex h := by
  rw [happened, happened, List.foldl_append]
  rfl

lemma acts_concat (history : List (Happening ω)) (h : Happening ω) :
    Happening.acts (history ++ [h]) = Happening.acts history ++ h.act?.toList := by
  cases h with
  | act a | report emitter event =>
    rw [Happening.acts, List.filterMap_append]
    rfl

/-- Reports make no difference but to what is heard. -/
lemma happened_eq (s : EngineState ε π ω) (history : List (Happening ω)) :
    s.happened ex history = { s.after ex (Happening.acts history) with
      emitted := (s.happened ex history).emitted } := by
  induction history using List.reverseRecOn with
  | nil => rfl
  | append_singleton history h ih =>
    rw [happened_concat, acts_concat]
    cases h with
    | act a =>
      obtain ⟨more, hmore⟩ := act_heard ex (s.after ex (Happening.acts history)) a
      have hact := hmore (s.happened ex history).emitted
      rw [← ih] at hact
      simp only [happen, Happening.act?, Option.toList_some, after_concat, hact]
    | report emitter event =>
      rw [Happening.act?, Option.toList_none, List.append_nil, happen, ih]
      rfl

/-- An act adds the same events to what is heard of a run, with the reports and without. -/
lemma noted_act {s : EngineState ε π ω} {heard : List ExecutionEvent} {id : String}
    (h : Relation.ReflTransGen (Noted id) (s.eventsOf id)
      (({ s with emitted := heard } : EngineState ε π ω).eventsOf id)) (a : Act ω) :
    Relation.ReflTransGen (Noted id) ((s.act ex a).eventsOf id)
      ((({ s with emitted := heard } : EngineState ε π ω).act ex a).eventsOf id) := by
  obtain ⟨more, hmore⟩ := act_heard ex s a
  rw [hmore heard, show s.act ex a = _ from hmore s.emitted]
  simp only [eventsOf, List.filter_append] at h ⊢
  exact h.lift (· ++ more.filter _) fun _ _ hnoted => hnoted.append _

/-- A report of a node whose block is open is heard in that block. -/
lemma noted_report {events heard : List ExecutionEvent} {id : String}
    (h : Relation.ReflTransGen (Noted id) events heard) {nodeId : String}
    (hopen : OpenAt id nodeId events) (event : NodeEvent) (now : Timestamp) :
    Relation.ReflTransGen (Noted id) events (heard ++ [.nodeEvent id nodeId event now]) := by
  -- The report is put among `events` before the others are: there the block is known to be open.
  have hfirst : Noted id events (events ++ [.nodeEvent id nodeId event now]) := by
    have hnoted := Noted.intro hopen event now []
    rwa [List.append_nil] at hnoted
  exact .head hfirst
    (h.lift (· ++ [.nodeEvent id nodeId event now]) fun _ _ hnoted => hnoted.append _)

variable (registry : Registry ε) (config : EngineConfig) (world : ω)

/-- While an executor works on a node, its block is open. -/
lemma openAt_of_worksOn {acts : List (Act ω)} (hruns : Act.DistinctRuns acts) {id nodeId : String}
    (hworks : ((make registry config world : EngineState ε π ω).after ex acts).WorksOn id nodeId) :
    OpenAt id nodeId
      (((make registry config world : EngineState ε π ω).after ex acts).eventsOf id) := by
  obtain ⟨w, t, node, p, hworker, rfl⟩ := hworks
  obtain ⟨input, -, hstage⟩ := stage_after ex registry config world acts hruns hworker nofun
  obtain ⟨now, started, first, run, hrun, hreached⟩ := hstage.of_calling world
  obtain ⟨-, hentries, hnarrates⟩ := told_of_begun hreached
  obtain ⟨results, begun, hresults, -, -⟩ := hentries.split
  rw [hresults] at hnarrates
  obtain ⟨told, nodeType, reports, -, hreports, hevents⟩ := hnarrates.split
  have htold : run.events = told ++ .nodeStarted id node.id nodeType begun :: reports := hevents
  refine ⟨.executionStarted id w.id started :: told, nodeType, begun, reports, hreports, ?_⟩
  rw [hrun.events, htold]
  rfl

/-- **Reports that come in time fall into open blocks.**  What is heard of a run whose executors
report in time is what would be heard without the reports, with further reports in the blocks of
their nodes. -/
theorem noted_of_happened {history : List (Happening ω)}
    (hruns : Act.DistinctRuns (Happening.acts history)) {id : String}
    (hintime : ReportsInTime ex (make registry config world) id history) :
    Relation.ReflTransGen (Noted id)
      (((make registry config world : EngineState ε π ω).after ex
        (Happening.acts history)).eventsOf id)
      (((make registry config world : EngineState ε π ω).happened ex history).eventsOf id) := by
  induction hintime with
  | start => exact .refl
  | @act history _ a ih =>
    rw [acts_concat, Happening.act?, Option.toList_some] at hruns ⊢
    have hnoted := ih (distinctRuns_of_append hruns)
    rw [happened_eq] at hnoted
    rw [happened_concat, happen, after_concat, happened_eq]
    exact noted_act ex hnoted a
  | @report history _ emitter hworks event ih =>
    rw [acts_concat, Happening.act?, Option.toList_none, List.append_nil] at hruns ⊢
    have hnoted := ih hruns
    rw [happened_concat, happen]
    by_cases hrun : emitter.executionId = id
    · have hworking := hworks hrun
      rw [happened_eq] at hworking
      have hopen := openAt_of_worksOn ex registry config world hruns hworking
      rw [eventsOf_emit _ fun e he => (List.mem_singleton.1 he) ▸ hrun, Emitter.event, hrun]
      exact noted_report hnoted hopen event _
    · rw [(spares_emit _ fun e he => (List.mem_singleton.1 he) ▸ hrun).events]
      exact hnoted

end Happened

end EngineState

end FlowGraph
