import FlowGraph.Proofs.Chronicle
import FlowGraph.Proofs.Engine.Moves

/-!
# Engines whose executors stand for others

An engine touches its executors only through their hooks and their calls, and it never looks back at
its events.  So when the executors of one engine mimic those of another, the two engines do the same
in every history, whatever has been heard before: `recast`, which puts the executors that are stood
for in the place of those that stand for them, commutes with every act (`recast_act`).  In
particular, an engine whose executors remember their hooks does what it would do without the memory
(`after_chronicled`), and an act does the same whatever has been heard (`act_heard`).
-/

namespace FlowGraph

variable {ε ε' π ω : Type}

namespace Traversal

/-- What taking the next node comes to, with the executor that is stood for. -/
def Turn.map (f : ε' → ε) : Turn ε' → Turn ε
  | .ended outcome => .ended outcome
  | .passed next => .passed next
  | .refused next events => .refused next events
  | .entered executor node inputs next event => .entered (f executor) node inputs next event

lemma step_map (f : ε' → ε) (w : Workflow) (r : Registry ε') (cancelled : Bool) (now : Timestamp)
    (t : Traversal) :
    t.step w (view (r.map f) cancelled now) = (t.step w (view r cancelled now)).map f := by
  rcases hagenda : t.agenda with _ | ⟨node, rest⟩
  · simp only [step, hagenda, Turn.map]
  simp only [step, view, hagenda, Registry.get_map]
  cases cancelled
  · cases Keyed.contains t.record.results node.id
    · rcases r.get node.nodeType with failure | executor
      · rfl
      · rcases node.resolveInputs t.context.input with failure | inputs <;> rfl
    · rfl
  · rfl

end Traversal

namespace EngineState

/-- The engine with the executors that those of an engine stand for. -/
def mapExecutors (f : ε' → ε) (s : EngineState ε' π ω) : EngineState ε π ω :=
  { s with registry := s.registry.map f }

/-- The engine with the executors that those of an engine stand for, and with earlier events before
its own. -/
def recast (f : ε' → ε) (earlier : List ExecutionEvent) (s : EngineState ε' π ω) :
    EngineState ε π ω :=
  { s with registry := s.registry.map f, emitted := earlier ++ s.emitted }

variable (f : ε' → ε) (earlier : List ExecutionEvent) (s : EngineState ε' π ω)
variable {ex' : Executors ε' π ω} {ex : Executors ε π ω}

@[simp] lemma recast_lock : (s.recast f earlier).lock = s.lock := rfl
@[simp] lemma recast_permits : (s.recast f earlier).permits = s.permits := rfl
@[simp] lemma recast_shuttingDown : (s.recast f earlier).shuttingDown = s.shuttingDown := rfl
@[simp] lemma recast_active : (s.recast f earlier).active = s.active := rfl
@[simp] lemma recast_finished : (s.recast f earlier).finished = s.finished := rfl
@[simp] lemma recast_untold : (s.recast f earlier).untold = s.untold := rfl
@[simp] lemma recast_workers : (s.recast f earlier).workers = s.workers := rfl
@[simp] lemma recast_calls : (s.recast f earlier).calls = s.calls := rfl
@[simp] lemma recast_world : (s.recast f earlier).world = s.world := rfl
@[simp] lemma recast_isCancelled (id : String) :
    (s.recast f earlier).isCancelled id = s.isCancelled id := rfl

lemma recast_setPhase (id : String) (phase : Phase π) :
    (s.setPhase id phase).recast f earlier = (s.recast f earlier).setPhase id phase := rfl

lemma recast_emit (events : List ExecutionEvent) :
    (s.emit events).recast f earlier = (s.recast f earlier).emit events := by
  simp only [emit, recast, List.append_assoc]

/-! ## Moves of workers -/

lemma recast_releasePermit :
    s.releasePermit.recast f earlier = (s.recast f earlier).releasePermit := by
  rcases hrelease : s.permits.release with ⟨_ | id, permits⟩
  · simp only [releasePermit, recast_permits, hrelease]
    rfl
  · simp only [releasePermit, recast_permits, recast_workers, hrelease]
    rcases Keyed.get? s.workers id with _ | ⟨w, phase⟩
    · rfl
    · cases phase <;> rfl

variable {f earlier}

lemma recast_finishRun (h : ex'.Mimics f ex) (id : String) (record : Execution)
    (outcome : Traversal.Outcome) :
    (s.finishRun ex' id record outcome).recast f earlier =
      (s.recast f earlier).finishRun ex id record outcome := by
  simp only [finishRun, h.now, recast_setPhase, recast_emit]
  rfl

lemma recast_leave (h : ex'.Mimics f ex) (id : String) (record : Execution)
    (outcome : Traversal.Outcome) :
    (s.leave ex' id record outcome).recast f earlier =
      (s.recast f earlier).leave ex id record outcome := by
  rw [leave, recast_finishRun _ h, recast_releasePermit]
  rfl

lemma recast_takeNode (h : ex'.Mimics f ex) (id : String) (w : Workflow) (t : Traversal) :
    (s.takeNode ex' id w t).recast f earlier = (s.recast f earlier).takeNode ex id w t := by
  have hstep : t.step w (Traversal.view (s.recast f earlier).registry
      ((s.recast f earlier).isCancelled id) (ex.now (s.recast f earlier).world)) =
      (t.step w (Traversal.view s.registry (s.isCancelled id) (ex'.now s.world))).map f := by
    rw [h.now]
    exact Traversal.step_map f w s.registry _ _ t
  rw [takeNode, takeNode, hstep]
  rcases t.step w (Traversal.view s.registry (s.isCancelled id) (ex'.now s.world)) with
    outcome | next | ⟨next, events⟩ | ⟨executor, node, inputs, next, event⟩
  · exact recast_leave s h id _ _
  · rfl
  · simp only [Traversal.Turn.map, recast_setPhase, recast_emit]
  · simp only [Traversal.Turn.map, h.begin, recast_setPhase, recast_emit]

lemma recast_heed (h : ex'.Mimics f ex) (id : String) (node : Node) (progress : Progress π)
    (world : ω) :
    (s.heed ex' id node progress world).recast f earlier =
      (s.recast f earlier).heed ex id node progress world := by
  simp only [heed, h.now]
  cases progress.cancels
  · exact recast_emit f earlier { s with world } _
  · exact congrArg (fun s : EngineState ε π ω =>
      s.updateActive id fun run => { run with cancelled := true })
      (recast_emit f earlier { s with world } _)

lemma recast_attend (h : ex'.Mimics f ex) (id : String) (w : Workflow) (t : Traversal)
    (node : Node) (p : π) :
    (s.attend ex' id w t node p).recast f earlier =
      (s.recast f earlier).attend ex id w t node p := by
  simp only [attend, recast_isCancelled, recast_world, h.poll, h.now, ← recast_heed s h]
  rcases (ex'.poll p (s.isCancelled id) s.world).1.state with p' | answer | _
  · rfl
  · simp only [recast_setPhase, recast_emit]
  · exact recast_leave _ h id _ _

lemma recast_beginTraversal (h : ex'.Mimics f ex) (id : String) (w : Workflow)
    (record : Execution) :
    (s.beginTraversal ex' id w record).recast f earlier =
      (s.recast f earlier).beginTraversal ex id w record := by
  unfold beginTraversal
  cases w.triggers.isEmpty
  · rfl
  · exact recast_leave s h id _ _

lemma recast_admitRun (h : ex'.Mimics f ex) (id : String) (w : Workflow)
    (record : Execution) :
    (s.admitRun ex' id w record).recast f earlier =
      (s.recast f earlier).admitRun ex id w record := by
  simp only [admitRun, h.now]
  exact congrArg (fun s : EngineState ε π ω =>
    { s with lock := s.lock.request (.worker id) .read }.setPhase id
      (.awaitingRegistry record.markRunning)) (recast_emit f earlier (s.updateActive id _) _)

lemma recast_tell (f : ε' → ε) (earlier : List ExecutionEvent) (id : String) :
    (s.tell id).recast f earlier = (s.recast f earlier).tell id := by
  rcases htold : s.untold.contains id with _ | _ <;>
    simp only [tell, recast_untold, htold] <;> rfl

lemma recast_pollWorker (h : ex'.Mimics f ex) (id : String) :
    (s.pollWorker ex' id).recast f earlier = (s.recast f earlier).pollWorker ex id := by
  rw [pollWorker, pollWorker, recast_workers, recast_isCancelled]
  rcases Keyed.get? s.workers id with _ | ⟨w, phase⟩
  · exact recast_tell s f earlier id
  cases phase with
  | spawned record =>
    rcases s.isCancelled id with _ | _
    · simp only [recast_permits, Bool.false_eq_true, if_false]
      rcases s.permits.acquire id with ⟨_ | _, permits⟩
      · rfl
      · exact recast_admitRun { s with permits } h id w record
    · simp only [if_true]
      exact recast_finishRun s h id record _
  | queued record =>
    rcases s.isCancelled id with _ | _
    · rfl
    · simp only [if_true]
      exact recast_finishRun { s with permits := s.permits.leave id } h id record _
  | permitted record =>
    rcases s.isCancelled id with _ | _
    · exact recast_admitRun s h id w record
    · simp only [if_true]
      rw [recast_finishRun _ h, recast_releasePermit]
  | awaitingRegistry record =>
    rcases hholds : s.lock.holds (.worker id) with _ | _
    · simp only [recast_lock, hholds]
      rfl
    · simp only [recast_lock, hholds, if_true]
      exact recast_beginTraversal s h id w record
  | traversing t => exact recast_takeNode s h id w t
  | calling t node p => exact recast_attend s h id w t node p
  | storing record => rfl

/-! ## Moves of calls -/

lemma recast_useRegistry (h : ex'.Mimics f ex) (n : ℕ) (r : Request) :
    (s.useRegistry ex' n r).recast f earlier = (s.recast f earlier).useRegistry ex n r := by
  cases r with
  | start =>
    have hstart := Registry.startAll_map h.hooks s.registry s.world
    simp only [useRegistry, recast, hstart]
    rfl
  | shutdown =>
    have hstop := Registry.stopAll_map h.hooks s.registry s.world
    simp only [useRegistry, recast, hstop]
    rfl
  | nodeTypes =>
    simp only [useRegistry, recast, Registry.nodeTypes_map]
    rfl
  | get id => rfl

lemma recast_askRegistry (h : ex'.Mimics f ex) (n : ℕ) (r : Request) :
    (s.askRegistry ex' n r).recast f earlier = (s.recast f earlier).askRegistry ex n r := by
  rcases hholds : (s.lock.request (.call n) (Request.access r)).holds (.call n) with _ | _
  · simp only [askRegistry, recast_lock, hholds]
    rfl
  · simp only [askRegistry, recast_lock, hholds, if_true]
    exact recast_useRegistry
      { s with lock := s.lock.request (.call n) (Request.access r) } h n r

lemma recast_awaitRuns (h : ex'.Mimics f ex) (n : ℕ) (ids : List String) :
    (s.awaitRuns ex' n ids).recast f earlier = (s.recast f earlier).awaitRuns ex n ids := by
  rw [awaitRuns, awaitRuns, recast_workers]
  rcases ids.filter fun id => Keyed.contains s.workers id with _ | ⟨id, rest⟩
  · exact recast_askRegistry s h n .shutdown
  · rfl

lemma recast_awaitRun (f : ε' → ε) (earlier : List ExecutionEvent) (n : ℕ) (id : String) :
    (s.awaitRun n id).recast f earlier = (s.recast f earlier).awaitRun n id := by
  rcases hfinished : Keyed.get? s.finished id with _ | record
  · rcases hactive : Keyed.contains s.active id with _ | _ <;>
      simp only [awaitRun, recast_finished, recast_active, hfinished, hactive] <;> rfl
  · simp only [awaitRun, recast_finished, hfinished]
    rfl

lemma recast_resumeGet (f : ε' → ε) (earlier : List ExecutionEvent) (n : ℕ) (id : String) :
    (s.resumeGet n id).recast f earlier = (s.recast f earlier).resumeGet n id := by
  rcases hwaits : Keyed.contains s.active id || s.untold.contains id with _ | _ <;>
    simp only [resumeGet, recast_finished, recast_active, recast_untold,
      hwaits] <;> rfl

lemma recast_pollCall (h : ex'.Mimics f ex) (n : ℕ) :
    (s.pollCall ex' n).recast f earlier = (s.recast f earlier).pollCall ex n := by
  rw [pollCall, pollCall, recast_calls]
  rcases s.calls.lookup n with _ | state
  · rfl
  cases state with
  | made r =>
    cases r with
    | start => exact recast_askRegistry s h n .start
    | shutdown => exact recast_awaitRuns s.closeAdmission.2 h n s.closeAdmission.1
    | get id => exact recast_awaitRun s f earlier n id
    | nodeTypes => exact recast_askRegistry s h n .nodeTypes
  | waitingForRuns ids => exact recast_awaitRuns s h n ids
  | waitingForRegistry r =>
    rcases hholds : s.lock.holds (.call n) with _ | _
    · simp only [recast_lock, hholds]
      rfl
    · simp only [recast_lock, hholds, if_true]
      exact recast_useRegistry s h n r
  | waitingForRun id => exact recast_resumeGet s f earlier n id

/-! ## Acts -/

/-- Engines whose executors mimic one another do the same in every act. -/
lemma recast_act (h : ex'.Mimics f ex) (a : Act ω) :
    (s.act ex' a).recast f earlier = (s.recast f earlier).act ex a := by
  cases a with
  | move t =>
    cases t with
    | worker id => exact recast_pollWorker s h id
    | call n => exact recast_pollCall s h n
  | execute id w input =>
    simp only [act, execute, recast_shuttingDown, recast_world, h.now]
    cases s.shuttingDown <;> rfl
  | cancel id =>
    rcases hactive : Keyed.get? s.active id with _ | run
    · simp only [act, cancel, recast_active, hactive]
    · rcases hterminal : run.status.isTerminal with _ | _ <;>
        simp only [act, cancel, recast_active, hactive, hterminal] <;> rfl
  | forget id => rfl
  | request n r => rfl
  | abandon n => rfl
  | outside world => rfl

/-- Engines whose executors mimic one another do the same in every history. -/
lemma recast_after (h : ex'.Mimics f ex) (acts : List (Act ω)) :
    (s.after ex' acts).recast f earlier = (s.recast f earlier).after ex acts := by
  induction acts using List.reverseRecOn with
  | nil => rfl
  | append_singleton acts a ih =>
    rw [after_concat, after_concat, recast_act _ h, ih]

/-- Executors that remember their hooks make no difference to an engine. -/
lemma after_chronicled (ex : Executors ε π ω) (registry : Registry ε) (config : EngineConfig)
    (world : ω) (acts : List (Act ω)) :
    ((make registry.chronicled config world).after ex.chronicled acts).mapExecutors
      Chronicled.executor = (make registry config world).after ex acts := by
  show ((make registry.chronicled config world).after ex.chronicled acts).recast
    Chronicled.executor [] = _
  rw [recast_after _ ex.chronicled_mimics]
  simp only [make, recast, Registry.map_chronicled, List.append_nil]

/-- What has been heard makes no difference to an engine. -/
lemma act_heard (ex : Executors ε π ω) (s : EngineState ε π ω) (a : Act ω) :
    ∃ more, ∀ heard, ({ s with emitted := heard } : EngineState ε π ω).act ex a =
      { s.act ex a with emitted := heard ++ more } := by
  have hmimics : ex.Mimics id ex := ⟨⟨fun _ _ => rfl, fun _ _ => rfl⟩, rfl, fun _ _ => rfl, rfl⟩
  let silent : EngineState ε π ω := { s with emitted := [] }
  have hact (heard : List ExecutionEvent) :
      ({ s with emitted := heard } : EngineState ε π ω).act ex a =
        { silent.act ex a with emitted := heard ++ (silent.act ex a).emitted } := by
    have hrecast : (silent.act ex a).recast id heard = (silent.recast id heard).act ex a :=
      recast_act silent hmimics a
    simp only [recast, Registry.map_id, silent, List.append_nil] at hrecast
    exact hrecast.symm
  refine ⟨(silent.act ex a).emitted, fun heard => ?_⟩
  rw [hact heard, show s.act ex a = _ from hact s.emitted]

end EngineState

end FlowGraph
