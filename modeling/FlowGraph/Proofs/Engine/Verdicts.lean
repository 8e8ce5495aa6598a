import FlowGraph.Proofs.Engine.Streams

/-!
# The verdicts of an engine

The status of a final record says what became of the run: whether its traversal succeeded, was
cancelled or failed, or whether the run was cancelled before it was let in.  All of it is read off
the last turn of the worker.  What is before that turn is a run of the workflow by itself, so that
what `Contained` says of such runs holds of the runs of an engine, too.
-/

namespace FlowGraph

namespace EngineState

open Traversal (Running Concludes Contained Results)

variable {ε π ω : Type}

section Verdict

variable {ex : Executors ε π ω} {start : EngineState ε π ω} {acts : List (Act ω)} {id : String}
variable {record : Execution}

/-- What a final record says of its run. -/
structure Classified (e : Ending ex start acts id record) : Prop where
  /-- A run is not let in only when it is cancelled while it waits for a permit. -/
  dismissed : ¬LetIn ex start acts id ↔
    e.phase.isPending = true ∧ (start.after ex e.before).isCancelled id = true
  /-- Once let in, it is a run of its workflow on a fresh record. -/
  ran : LetIn ex start acts id → ∃ now world last,
    Concludes ex (start.after ex e.before).registry e.workflow
      (begun id e.workflow e.input now world) e.outcome last ∧
    Contained ex (start.after ex e.before).registry e.workflow
      (begun id e.workflow e.input now world) e.outcome last ∧
    record.results = last.traversal.record.results
  completed : record.status = .completed ↔
    LetIn ex start acts id ∧ e.outcome = .returned (.ok ())
  cancelled : record.status = .cancelled ↔
    ¬LetIn ex start acts id ∨ e.outcome = .returned (.error .cancelled)
  failed : record.status = .failed ↔ LetIn ex start acts id ∧ (e.outcome = .crashed ∨
    ∃ error, error ≠ EngineError.cancelled ∧ e.outcome = .returned (.error error))
  crashed : e.outcome = .crashed → Crashed ex start acts id
  fits : ∀ entry ∈ record.results, entry.2.Fits
  /-- Only the result of the node entered last may be running, after a crash. -/
  running : ∀ result ∈ record.orderedResults, result.status = .running →
    e.outcome = .crashed ∧ record.orderedResults.getLast? = some result

end Verdict

section Classified

variable {ex : Executors ε π ω} {registry : Registry ε} {config : EngineConfig} {world : ω}
variable {acts : List (Act ω)} {id : String} {record : Execution}

lemma Ending.dismissed (e : Ending ex (make registry config world) acts id record)
    (hruns : Act.DistinctRuns acts) (hpending : e.phase.isPending = true) :
    ¬LetIn ex (make registry config world) acts id := by
  intro hletIn
  obtain ⟨_, _, hstarted⟩ := started_of_letIn ex registry config world hruns hletIn
  obtain ⟨-, -, -, hnothing⟩ := e.ends.of_pending e.stage hpending
  rw [e.events, ← List.append_assoc, hnothing, List.nil_append] at hstarted
  cases List.mem_singleton.1 hstarted

lemma Ending.classified (e : Ending ex (make registry config world) acts id record)
    (hruns : Act.DistinctRuns acts) : Classified e := by
  obtain ⟨hcompleted, hcancelled, hfailed⟩ := status_verdict e.outcome
  rw [← e.status] at hcompleted hcancelled hfailed
  rcases hpending : e.phase.isPending with _ | _
  · obtain ⟨hunderWay, now, _, first, last, hconcludes, hlast, -⟩ :=
      e.ends.concludes e.stage hpending
    have hletIn := e.letIn hunderWay
    have hleft : record.results = last.traversal.record.results := e.results.trans hlast
    obtain ⟨⟨node?, hentries, hcrashed⟩, hfits⟩ := hconcludes.results rfl
    rw [← hleft] at hentries hfits
    exact
      { dismissed := ⟨fun hout => absurd hletIn hout, fun h => by simp [hpending] at h⟩
        ran := fun _ => ⟨now, first, last, hconcludes, hconcludes.contained rfl, hleft⟩
        completed := hcompleted.trans (and_iff_right hletIn).symm
        cancelled := hcancelled.trans (or_iff_right (not_not_intro hletIn)).symm
        failed := hfailed.trans (and_iff_right hletIn).symm
        crashed := e.crashed
        fits := hfits
        running := hentries.running hcrashed }
  · obtain ⟨hflag, houtcome, hnothing, -⟩ := e.ends.of_pending e.stage hpending
    have hout := e.dismissed hruns hpending
    have hempty : record.results = [] := e.results.trans hnothing
    have hentries : Results none record.results := by
      rw [hempty]
      exact Results.nil
    exact
      { dismissed := ⟨fun _ => ⟨hpending, hflag⟩, fun _ => hout⟩
        ran := fun hletIn => absurd hletIn hout
        completed := hcompleted.trans
          ⟨fun h => (by simp [houtcome] at h), fun h => absurd h.1 hout⟩
        cancelled := hcancelled.trans ⟨fun _ => .inl hout, fun _ => houtcome⟩
        failed := hfailed.trans ⟨fun h => (by simp [houtcome] at h), fun h => absurd h.1 hout⟩
        crashed := e.crashed
        fits := fun entry hentry => (by simp [hempty] at hentry)
        running := hentries.running fun h => absurd rfl h }

end Classified

/-- **Failures are contained, and the final record classifies them.**  Whatever nodes fail, with
whatever errors, and whenever somebody cancels: a run of a workflow on a fresh record, by itself or
among others, comes to one of few outcomes, which the workflow and the registry decide unless it is
cancelled or crashes.  The status of every record that an engine has stored says which one it
was, or that the run was cancelled while it waited for a permit. -/
theorem contained_and_classified (ex : Executors ε π ω) :
    (∀ (r : Registry ε) (w : Workflow) (record : Execution) (context : Context) (cancelled : Bool)
      (world : ω), record.results = [] →
      (∀ outcome last, Concludes ex r w (.start w record context cancelled world) outcome last →
        Contained ex r w (.start w record context cancelled world) outcome last) ∧
      ∀ patience, Concludes ex r w (.start w record context cancelled world)
        (Traversal.run ex r w patience record context cancelled world).1
        (Traversal.run ex r w patience record context cancelled world).2) ∧
    ∀ (registry : Registry ε) (config : EngineConfig) (world : ω) (acts : List (Act ω)),
      Act.DistinctRuns acts → ∀ id record,
      Keyed.get? ((make registry config world : EngineState ε π ω).after ex acts).finished id =
        some record →
      ∃ e : Ending ex (make registry config world) acts id record, Classified e := by
  constructor
  · intro r w record context cancelled world hfresh
    exact ⟨fun outcome last h => h.contained hfresh, fun patience =>
      Traversal.run_concludes ex r w patience record context cancelled world⟩
  · intro registry config world acts hruns id record hrecord
    obtain ⟨e⟩ := ending_of_finished ex registry config world acts hruns hrecord
    exact ⟨e, e.classified hruns⟩

/-- A run stops before a node without an executor; and a run of an engine crashes among others. -/
theorem contained_and_classified_crashing :
    let registry : Registry Unit :=
      { executor? := fun t => if t = .output then none else some (), initialized := true }
    let first : Running Unit := .start Traversal.fork (Execution.make "exec" "fork" [] default)
      { executionId := "exec", input := [] } false ()
    let final := Traversal.run Executors.prompt registry Traversal.fork 1
      (Execution.make "exec" "fork" [] default) { executionId := "exec", input := [] } false ()
    let acts := crashing ++ .execute "run" lone [] :: among
    (final.1 = .returned (.error (.noExecutor .output)) ∧
      Keyed.keys final.2.traversal.record.results = ["start"] ∧
      Contained Executors.prompt registry Traversal.fork first final.1 final.2) ∧
    ∃ record, Keyed.get? (narrowEngine.after brittle acts).finished "crashed" = some record ∧
      record.status = .failed ∧
      ∃ e : Ending brittle narrowEngine acts "crashed" record, Classified e := by
  intro registry first final acts
  obtain ⟨record, hrecord, hstatus⟩ : ∃ record,
      Keyed.get? (narrowEngine.after brittle acts).finished "crashed" = some record ∧
      record.status = .failed := ⟨_, rfl, rfl⟩
  have hruns : Act.DistinctRuns acts := show ["crashed", "run", "dropped"].Nodup by decide
  have hprompt := (contained_and_classified Executors.prompt).1 registry Traversal.fork
    (Execution.make "exec" "fork" [] default) { executionId := "exec", input := [] } false () rfl
  exact ⟨⟨rfl, rfl, hprompt.1 _ _ (hprompt.2 1)⟩, record, hrecord, hstatus,
    (contained_and_classified brittle).2 narrowEngine.registry { maxConcurrent := 1 } () acts hruns
      "crashed" record hrecord⟩

end EngineState

end FlowGraph
