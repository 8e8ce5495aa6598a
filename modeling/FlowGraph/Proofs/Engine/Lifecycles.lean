import FlowGraph.Proofs.Engine.Mimicry
import FlowGraph.Proofs.Engine.Unserved

/-!
# Lifecycles and calls

Users may start and stop the executors at any time, in any order and any number of times, while
runs come and go.  The lock of the registry keeps the two apart.  A run calls only executors whose
last hook was a start that succeeded (`Registry.Ready`), and until its traversal is over no hook of
any executor is called.  A run that comes too early, or after the executors were stopped, calls
none.  `Orderly` puts this together.

To speak of the last hook of an executor, the executors are made to remember their hooks
(`remembering`), which makes no difference to what the engine does.
-/

namespace FlowGraph

variable {ε π ω : Type}

/-- A node that was entered has an executor. -/
lemma Traversal.Moment.Reached.served {ex : Executors ε π ω} {r : Registry ε} {w : Workflow}
    {start : Running ω} {m : Moment ε π ω} (h : Reached ex r w start m) {node : Node}
    (hnode : m.node? = some node) : ∃ executor, r.get node.nodeType = .ok executor := by
  induction h with
  | start => cases hnode
  | @step m _ _ hstep ih =>
    cases hstep with
    | pass | refuse | answer => cases hnode
    | enter _ _ _ hget =>
      cases hnode
      exact ⟨_, hget⟩
    | call | poll => exact ih hnode
    | interfere cancel world =>
      cases m with
      | between run => cases hnode
      | entered executor node run | calling node p run => exact ih hnode

namespace EngineState

/-! ## What an act does to the executors -/

/-- Nothing happens to the executors, or all are started, or all are stopped. -/
inductive RegistryEffect (ex : Executors ε π ω) (s s' : EngineState ε π ω) : Prop where
  | same (h : s'.registry = s.registry)
  | started (h : s'.registry = (s.registry.startAll ex.hooks s.world).2.1)
  | stopped (h : s'.registry = (s.registry.stopAll ex.hooks s.world).2.1)

variable (ex : Executors ε π ω)

lemma registryEffect_useRegistry (s : EngineState ε π ω) (n : ℕ) (r : Request) :
    RegistryEffect ex s (s.useRegistry ex n r) := by
  cases r with
  | start => exact .started rfl
  | shutdown => exact .stopped rfl
  | get id | nodeTypes => exact .same rfl

lemma registryEffect_askRegistry (s : EngineState ε π ω) (n : ℕ) (r : Request) :
    RegistryEffect ex s (s.askRegistry ex n r) := by
  unfold askRegistry
  dsimp only
  split
  · cases r with
    | start => exact .started rfl
    | shutdown => exact .stopped rfl
    | get id | nodeTypes => exact .same rfl
  · exact .same rfl

lemma registryEffect_awaitRuns (s : EngineState ε π ω) (n : ℕ) (ids : List String) :
    RegistryEffect ex s (s.awaitRuns ex n ids) := by
  unfold awaitRuns
  split
  · exact registryEffect_askRegistry ex s n .shutdown
  · exact .same rfl

lemma registryEffect_pollCall (s : EngineState ε π ω) (n : ℕ) :
    RegistryEffect ex s (s.pollCall ex n) := by
  unfold pollCall
  split
  · exact .same rfl
  · -- to close the admission leaves the executors alone
    cases registryEffect_awaitRuns ex s.closeAdmission.2 n s.closeAdmission.1 with
    | same h => exact .same h
    | started h => exact .started h
    | stopped h => exact .stopped h
  · refine .same ?_
    unfold awaitRun
    split
    · rfl
    · split <;> rfl
  · exact registryEffect_askRegistry ex s n _
  · exact registryEffect_awaitRuns ex s n _
  · refine .same ?_
    unfold resumeGet
    split <;> rfl
  · split
    · exact registryEffect_useRegistry ex s n _
    · exact .same rfl

lemma registryEffect_act (s : EngineState ε π ω) (a : Act ω) :
    RegistryEffect ex s (s.act ex a) := by
  cases a with
  | move t =>
    cases t with
    | worker id => exact .same (registry_pollWorker ex s id)
    | call n => exact registryEffect_pollCall ex s n
  | execute id w input =>
    refine .same ?_
    simp only [act, execute]
    split <;> rfl
  | cancel id => exact .same (keeps_cancel s id).registry
  | forget id => exact .same rfl
  | request n r => exact .same rfl
  | abandon n => exact .same rfl
  | outside world => exact .same rfl

/-! ## The engine that remembers -/

variable (registry : Registry ε) (config : EngineConfig) (world : ω)

/-- An engine after a history, whose executors remember their hooks. -/
def remembering (acts : List (Act ω)) : EngineState (Chronicled ε) π ω :=
  (make registry.chronicled config world).after ex.chronicled acts

/-- Whatever happens, the executors were started with success while they count as initialized. -/
lemma ready_after (hnew : registry.initialized = false) (acts : List (Act ω)) :
    (remembering ex registry config world acts).registry.Ready := by
  unfold remembering
  induction acts using List.reverseRecOn with
  | nil =>
    intro hinitialized
    rw [show registry.initialized = true from hinitialized] at hnew
    cases hnew
  | append_singleton acts a ih =>
    rw [after_concat]
    cases registryEffect_act ex.chronicled ((make registry.chronicled config world).after
      ex.chronicled acts) a with
    | same h =>
      rw [h]
      exact ih
    | started h =>
      rw [h]
      exact ih.startAll ex.hooks _
    | stopped h =>
      rw [h]
      exact Registry.ready_stopAll ex.hooks _ _

/-- How the lifecycle of the executors and the runs of an engine go together in a history. -/
structure Orderly (acts : List (Act ω)) : Prop where
  /-- That the executors remember their hooks makes no difference. -/
  plain : (remembering ex registry config world acts).mapExecutors Chronicled.executor =
    (make registry config world : EngineState ε π ω).after ex acts
  /-- An executor that is called was started last, and with success. -/
  called : ∀ before a, before ++ [a] <+: acts → ∀ id w t node p,
    Keyed.get? (remembering ex registry config world (before ++ [a])).workers id =
      some ⟨w, .calling t node p⟩ →
    (∀ w' t' node' q, Keyed.get? (remembering ex registry config world before).workers id ≠
      some ⟨w', .calling t' node' q⟩) →
    ∃ executor inputs, (remembering ex registry config world before).registry.executor?
        node.nodeType = some executor ∧ executor.IsStarted ∧
      node.resolveInputs t.context.input = .ok inputs ∧
      p = ex.begin executor.executor ⟨node, inputs, t.context⟩
  /-- As long as a run traverses, and so while an executor works for it, no hook of any executor is
  called. -/
  undisturbed : ∀ before a, before ++ [a] <+: acts → ∀ id w p,
    Keyed.get? (remembering ex registry config world before).workers id = some ⟨w, p⟩ →
    p.traverses = true →
    (remembering ex registry config world (before ++ [a])).registry =
      (remembering ex registry config world before).registry
  /-- As long as an executor works, its last hook is that start. -/
  working : ∀ before, before <+: acts → ∀ id w t node p,
    Keyed.get? (remembering ex registry config world before).workers id =
      some ⟨w, .calling t node p⟩ →
    ∃ executor, (remembering ex registry config world before).registry.executor?
      node.nodeType = some executor ∧ executor.IsStarted
  /-- A run that gets hold of the registry while the executors are not initialized does without. -/
  unserved : ∀ before more id w, acts = (before ++ [.move (.worker id)]) ++ more →
    FindsNone ((make registry config world : EngineState ε π ω).after ex before) id w →
    EndsUnserved ex (make registry config world) (before ++ [.move (.worker id)]) more id w

/-- **Lifecycles and calls keep apart.**  In every history with distinct ids of an engine whose
executors were not initialized at first, however the users start and stop them: an executor is
called only when it was started last, and with success; no hook is called while it works; and a run
that finds the executors uninitialized calls none of them, leaves no result, and fails for want of
them if it has a trigger and is not cancelled. -/
theorem orderly_after (acts : List (Act ω)) (hruns : Act.DistinctRuns acts)
    (hnew : registry.initialized = false) : Orderly ex registry config world acts where
  plain := after_chronicled ex registry config world acts
  called before a hbefore id w t node p hcalling hfirst := by
    obtain ⟨rest, rfl⟩ := hbefore
    have hready := ready_after ex registry config world hnew before
    cases arrives_after ex.chronicled registry.chronicled config world before
      (distinctRuns_of_append hruns) hcalling with
    | admitted _ _ _ hphase _ => cases hphase
    | stays hbefore _ => exact absurd hbefore (hfirst w t node p)
    | turns q more hbefore hturn _ =>
      cases hturn with
      | wait => exact absurd hbefore (hfirst _ _ _ _)
      | enter hstep =>
        cases Traversal.taken_of_step hstep with
        | entered _ _ _ hget hin =>
          obtain ⟨hexecutor, hstarted⟩ := hready.get hget
          exact ⟨_, _, hexecutor, hstarted, hin, rfl⟩
  undisturbed before a _ id w p hworker htraverses := by
    have hguarded := guarded_after ex.chronicled registry.chronicled config world before
    rw [remembering, after_concat]
    exact registry_act ex.chronicled hguarded hworker htraverses a
  working before hbefore id w t node p hcalling := by
    obtain ⟨rest, rfl⟩ := hbefore
    obtain ⟨input, -, hstage⟩ := stage_after ex.chronicled registry.chronicled config world before
      (distinctRuns_of_append hruns) hcalling (by simp)
    obtain ⟨_, _, _, _, -, hreached⟩ := hstage.of_calling world
    obtain ⟨executor, hget⟩ := hreached.served rfl
    exact ⟨executor, (ready_after ex registry config world hnew before).get hget⟩
  unserved before more id w hacts hfinds := by
    subst hacts
    exact endsUnserved_after ex registry config world before more hruns hfinds

/-- A run comes before the executors are started, and another is at work when they are to be
stopped. -/
def earlyAndLate : List (Act Unit) :=
  [.execute "early" lone [], .move (.worker "early"), .move (.worker "early"),
    .move (.worker "early"), .move (.worker "early"), .request 0 .start, .move (.call 0),
    .execute "late" lone [], .move (.worker "late"), .move (.worker "late"), .move (.worker "late"),
    .request 1 .shutdown, .move (.call 1), .move (.worker "late"), .move (.worker "late"),
    .move (.worker "late"), .move (.call 1)]

/-- The early run fails, and the late one is served before the executors are stopped. -/
theorem orderly_after_earlyAndLate :
    let registry : Registry Unit := { executor? := fun _ => some () }
    let start : EngineState Unit Unit Unit := make registry {} ()
    FindsNone (start.after Executors.prompt (earlyAndLate.take 2)) "early" lone ∧
      (∃ record, Keyed.get? (start.after Executors.prompt earlyAndLate).finished "early" =
        some record ∧ record.status = .failed) ∧
      (∃ w t node p, Keyed.get? (start.after Executors.prompt (earlyAndLate.take 11)).workers
        "late" = some ⟨w, .calling t node p⟩) ∧
      (start.after Executors.prompt earlyAndLate).answers.length = 2 ∧
      Orderly Executors.prompt registry {} () earlyAndLate := by
  refine ⟨⟨⟨_, rfl⟩, rfl, rfl⟩, ⟨_, rfl, rfl⟩, ⟨_, _, _, _, rfl⟩, rfl, ?_⟩
  have hruns : Act.DistinctRuns earlyAndLate := show ["early", "late"].Nodup by decide
  exact orderly_after Executors.prompt _ {} () earlyAndLate hruns rfl

end EngineState

end FlowGraph
