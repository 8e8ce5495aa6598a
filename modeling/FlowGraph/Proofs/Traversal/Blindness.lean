import FlowGraph.Proofs.Traversal.Ledger

/-!
# Runs whose executors do not look

An executor is *blind* when it goes on in the same way whether its run is cancelled or not.  A run
with blind executors that is cancelled goes through the same moments as one that is not, up to the
point between two nodes where it looks at the cancellation itself (`Reached.uncancelled`).  There it
stops, while the other run goes on and only adds to what both have written (`cut_continues`).
-/

namespace FlowGraph

/-- The executors do not look whether their run is cancelled. -/
def Executors.Blind {ε π ω : Type} (ex : Executors ε π ω) : Prop :=
  ∀ p cancelled world, ex.poll p cancelled world = ex.poll p false world

/-- The same executors, but they never ask for their run to be cancelled. -/
def Executors.withoutCancels {ε π ω : Type} (ex : Executors ε π ω) : Executors ε π ω where
  hooks := ex.hooks
  now := ex.now
  begin := ex.begin
  poll p cancelled world :=
    ({ (ex.poll p cancelled world).1 with cancels := false }, (ex.poll p cancelled world).2)

namespace Traversal

variable {ε π ω : Type} {ex : Executors ε π ω} {r : Registry ε} {w : Workflow}

/-- What a run has done, as if nobody had cancelled it. -/
def Running.uncancelled (run : Running ω) : Running ω := { run with cancelled := false }

/-- What a blind executor does when it is polled, as if nobody had cancelled the run. -/
lemma uncancelled_polled (hblind : ex.Blind) (id nodeId : String) (p : π) (run : Running ω) :
    ({ run with toScene := run.toScene.polled ex id nodeId p } : Running ω).uncancelled =
      { run.uncancelled with
        toScene := run.uncancelled.toScene.polled ex.withoutCancels id nodeId p } := by
  simp only [Running.uncancelled, Scene.polled, Executors.withoutCancels,
    hblind p run.cancelled run.world, Bool.or_false]

namespace Moment

/-- Every step of a run is one of the run that nobody cancels. -/
lemma Step.uncancelled (hblind : ex.Blind) {m m' : Moment ε π ω} (h : Step ex r w m m') :
    Step ex.withoutCancels r w (m.mapRun Running.uncancelled) (m'.mapRun Running.uncancelled) := by
  have hstate : ∀ p cancelled world, (ex.withoutCancels.poll p false world).1.state =
      (ex.poll p cancelled world).1.state := by
    intro p cancelled world
    rw [hblind p cancelled world]
    rfl
  cases h with
  | pass hagenda _ hknown => exact .pass hagenda rfl hknown
  | enter hagenda _ hnew hget => exact .enter hagenda rfl hnew hget
  | refuse hin => exact .refuse hin
  | call hin => exact .call hin
  | @poll run node p p' h =>
    -- the executor does the same, but nobody heeds it when it asks for a cancellation
    simp only [mapRun]
    rw [uncancelled_polled hblind]
    exact .poll ((hstate p run.cancelled run.world).trans h)
  | @answer run node p answer h =>
    have hanswer : Step ex.withoutCancels r w (.calling node p run.uncancelled) _ :=
      .answer ((hstate p run.cancelled run.world).trans h)
    rw [← uncancelled_polled hblind run.uncancelled.traversal.record.id] at hanswer
    exact hanswer
  | interfere m cancel world =>
    cases m with
    | between run => exact .interfere (.between run.uncancelled) false world
    | entered executor node run =>
      exact .interfere (.entered executor node run.uncancelled) false world
    | calling node p run => exact .interfere (.calling node p run.uncancelled) false world

/-- Every moment of a run is one of the run that nobody cancels. -/
lemma Reached.uncancelled (hblind : ex.Blind) {start : Running ω} {m : Moment ε π ω}
    (h : Reached ex r w start m) :
    Reached ex.withoutCancels r w start.uncancelled (m.mapRun Running.uncancelled) := by
  induction h with
  | start => exact .start
  | step _ hstep ih => exact ih.step (hstep.uncancelled hblind)

end Moment

/-- What the nodes have published in a run is what its context holds. -/
def Published (run : Running ω) : Prop :=
  run.traversal.context.results =
    Keyed.ofEntries (published run.calls run.traversal.record.results)

/-- **What a run has written between two nodes is a beginning of all that it may still write.** -/
theorem cut_continues {record : Execution} {context : Context} {world : ω}
    (hrecord : record.results = []) (hresults : context.results = [])
    (herrors : context.errors = []) {cut : Running ω}
    (hcut : Moment.Reached ex r w (.start w record context false world) (.between cut)) :
    Published cut ∧ ∀ m, Relation.ReflTransGen (Moment.Step ex r w) (.between cut) m →
      Published m.run ∧ Continues cut m.run := by
  have hwritten := hcut.written (Moment.Written.start w false world hrecord hresults herrors)
  refine ⟨hwritten.ledger.outputs, fun m hm => ?_⟩
  obtain ⟨hlater, hcontinues⟩ := continues_of_leads ex r w hwritten hm
  exact ⟨hlater.ledger.outputs, hcontinues⟩

end Traversal

end FlowGraph
