import FlowGraph.Engine.History
import Mathlib.Data.List.Induction
import Mathlib.Tactic.Common

/-!
# What a move leaves alone

The moves of an engine are made of small operations, each of which touches few parts of the state.
`Keeps` collects what a worker leaves alone as long as it does not store its record: the tables of
calls and answers, the finished records, and which runs there are and which of them a shutdown
waits for.  `pollWorker_cases` splits the moves of a worker accordingly.
-/

namespace FlowGraph

/-- The request that a call stands for. -/
def CallState.request : CallState → Request
  | .made r | .waitingForRegistry r => r
  | .waitingForRuns _ => .shutdown
  | .waitingForRun id => .get id

/-- When a worker is to store its record, the record is final. -/
def Phase.IsFinal {π : Type} : Phase π → Prop
  | .storing record => record.status.isTerminal = true
  | _ => True

/-- What users see of a run only moves forward: a cancellation is never taken back, and a run that
shows as running goes on doing so. -/
structure ActiveRun.Precedes (run run' : ActiveRun) : Prop where
  cancelled : run.cancelled = true → run'.cancelled = true
  running : run.status = .running → run'.status = .running

lemma ActiveRun.Precedes.refl (run : ActiveRun) : run.Precedes run := ⟨fun h => h, fun h => h⟩

lemma ActiveRun.Precedes.trans {a b c : ActiveRun} (h : a.Precedes b) (h' : b.Precedes c) :
    a.Precedes c :=
  ⟨fun ha => h'.cancelled (h.cancelled ha), fun ha => h'.running (h.running ha)⟩

namespace EngineState

variable {ε π ω : Type}

/-! ## What stays the same -/

/-- The runs that are not over, each with whether a shutdown waits for it. -/
def claims (s : EngineState ε π ω) : List (String × Bool) :=
  s.active.map fun entry => (entry.1, entry.2.claimed)

/-- What a worker leaves alone as long as it does not store its record. -/
structure Keeps (s s' : EngineState ε π ω) : Prop where
  config : s'.config = s.config
  registry : s'.registry = s.registry
  shuttingDown : s'.shuttingDown = s.shuttingDown
  claims : s'.claims = s.claims
  finished : s'.finished = s.finished
  workers : Keyed.keys s'.workers = Keyed.keys s.workers
  calls : s'.calls = s.calls
  answers : s'.answers = s.answers
  phases : ∀ entry ∈ s'.workers, entry ∈ s.workers ∨ entry.2.phase.IsFinal
  seen : ∀ id run, Keyed.get? s.active id = some run →
    ∃ run', Keyed.get? s'.active id = some run' ∧ run.Precedes run'

namespace Keeps

variable {s s' s'' : EngineState ε π ω}

lemma refl (s : EngineState ε π ω) : Keeps s s :=
  ⟨rfl, rfl, rfl, rfl, rfl, rfl, rfl, rfl, fun _ h => Or.inl h, fun _ run h => ⟨run, h, .refl run⟩⟩

lemma trans (h : Keeps s s') (h' : Keeps s' s'') : Keeps s s'' where
  config := h'.config.trans h.config
  registry := h'.registry.trans h.registry
  shuttingDown := h'.shuttingDown.trans h.shuttingDown
  claims := h'.claims.trans h.claims
  finished := h'.finished.trans h.finished
  workers := h'.workers.trans h.workers
  calls := h'.calls.trans h.calls
  answers := h'.answers.trans h.answers
  phases := by
    intro entry hentry
    rcases h'.phases entry hentry with hentry | hfinal
    · exact h.phases entry hentry
    · exact Or.inr hfinal
  seen id run hrun := by
    obtain ⟨run', hrun', hfirst⟩ := h.seen id run hrun
    obtain ⟨run'', hrun'', hsecond⟩ := h'.seen id run' hrun'
    exact ⟨run'', hrun'', hfirst.trans hsecond⟩

lemma active (h : Keeps s s') : Keyed.keys s'.active = Keyed.keys s.active := by
  have hclaims := congrArg (List.map Prod.fst) h.claims
  simp only [EngineState.claims, List.map_map] at hclaims
  exact hclaims

end Keeps

/-- Whatever is not of the runs or the calls may change. -/
lemma keeps_aside (s : EngineState ε π ω) (lock : RegistryLock) (permits : Permits)
    (untold : List String) (emitted : List ExecutionEvent) (woken : List Task) (world : ω) :
    Keeps s { s with lock, permits, untold, emitted, woken, world } :=
  ⟨rfl, rfl, rfl, rfl, rfl, rfl, rfl, rfl, fun _ h => Or.inl h, fun _ run h => ⟨run, h, .refl run⟩⟩

lemma keeps_emit (s : EngineState ε π ω) (events : List ExecutionEvent) :
    Keeps s (s.emit events) := keeps_aside s _ _ _ _ _ _

lemma keeps_wake (s : EngineState ε π ω) (tasks : List Task) : Keeps s (s.wake tasks) :=
  keeps_aside s _ _ _ _ _ _

lemma keeps_setPhase (s : EngineState ε π ω) (id : String) {phase : Phase π}
    (h : phase.IsFinal) : Keeps s (s.setPhase id phase) := by
  refine ⟨rfl, rfl, rfl, rfl, rfl, by rw [setPhase, Keyed.keys_modify], rfl, rfl, ?_,
    fun _ run h => ⟨run, h, .refl run⟩⟩
  intro entry hentry
  simp only [setPhase, Keyed.modify, List.mem_map] at hentry
  obtain ⟨old, hold, rfl⟩ := hentry
  split
  · exact Or.inr h
  · exact Or.inl hold

lemma isCancelled_eq (s : EngineState ε π ω) (id : String) :
    s.isCancelled id = (Keyed.get? s.active id).any ActiveRun.cancelled := by
  unfold isCancelled
  split
  · next run hrun =>
    rw [hrun]
    rfl
  · next hnone =>
    rw [hnone]
    rfl

/-- A run that is cancelled stays so. -/
lemma Keeps.cancelled {s s' : EngineState ε π ω} (h : Keeps s s') (id : String)
    (hcancelled : s.isCancelled id = true) : s'.isCancelled id = true := by
  rw [isCancelled_eq] at hcancelled ⊢
  obtain ⟨run, hrun, hflag⟩ := (Option.any_eq_true _ _).1 hcancelled
  obtain ⟨run', hrun', hprecedes⟩ := h.seen id run hrun
  rw [hrun']
  exact hprecedes.cancelled hflag

/-- A change of a run that leaves alone whether a shutdown waits for it, and only moves forward what
users see. -/
lemma keeps_updateActive (s : EngineState ε π ω) (id : String) (change : ActiveRun → ActiveRun)
    (h : ∀ run, (change run).claimed = run.claimed)
    (hseen : ∀ run : ActiveRun, run.Precedes (change run)) :
    Keeps s (s.updateActive id change) := by
  refine ⟨rfl, rfl, rfl, ?_, rfl, rfl, rfl, rfl, fun _ h => Or.inl h, fun other run hrun => ?_⟩
  · simp only [claims, updateActive, Keyed.modify, List.map_map]
    refine List.map_congr_left fun entry _ => ?_
    simp only [Function.comp_apply]
    split
    · rw [h]
    · rfl
  · simp only [updateActive, Keyed.get?_modify, hrun]
    split
    · exact ⟨change run, rfl, hseen run⟩
    · exact ⟨run, rfl, .refl run⟩

lemma keeps_releaseRegistry (s : EngineState ε π ω) (t : Task) : Keeps s (s.releaseRegistry t) :=
  keeps_aside s _ _ _ _ _ _

lemma keeps_releasePermit (s : EngineState ε π ω) : Keeps s s.releasePermit := by
  unfold releasePermit
  split
  · exact keeps_aside s _ _ _ _ _ _
  · next id permits _ =>
    have hpermits : Keeps s { s with permits } :=
      keeps_aside s _ _ _ _ _ _
    dsimp only
    split
    · refine Keeps.trans ?_ (keeps_wake _ _)
      exact hpermits.trans (keeps_setPhase _ id trivial)
    · exact hpermits.trans (keeps_wake _ _)

/-- The record of a run is final once it was finished. -/
lemma finish_isFinal (record : Execution) (outcome : Traversal.Outcome) (now : Timestamp) :
    (Phase.storing (π := π)
      (record.finish (verdict outcome).1 (verdict outcome).2 now)).IsFinal := by
  have hverdict : (verdict outcome).1.isTerminal = true := by
    rcases outcome with (e | _) | _
    · cases e <;> rfl
    · rfl
    · rfl
  simp only [Phase.IsFinal, Execution.finish]
  split
  · assumption
  · exact hverdict

lemma keeps_finishRun (ex : Executors ε π ω) (s : EngineState ε π ω) (id : String)
    (record : Execution) (outcome : Traversal.Outcome) :
    Keeps s (s.finishRun ex id record outcome) :=
  (keeps_emit s _).trans (keeps_setPhase _ id (finish_isFinal record outcome _))

lemma keeps_leave (ex : Executors ε π ω) (s : EngineState ε π ω) (id : String)
    (record : Execution) (outcome : Traversal.Outcome) : Keeps s (s.leave ex id record outcome) :=
  ((keeps_releaseRegistry s _).trans (keeps_releasePermit _)).trans
    (keeps_finishRun ex _ id record outcome)

lemma keeps_takeNode (ex : Executors ε π ω) (s : EngineState ε π ω) (id : String) (w : Workflow)
    (t : Traversal) : Keeps s (s.takeNode ex id w t) := by
  unfold takeNode
  split
  · exact keeps_leave ex s id _ _
  · exact keeps_setPhase s id trivial
  · exact (keeps_emit s _).trans (keeps_setPhase _ id trivial)
  · exact (keeps_emit s _).trans (keeps_setPhase _ id trivial)

lemma keeps_beginTraversal (ex : Executors ε π ω) (s : EngineState ε π ω) (id : String)
    (w : Workflow) (record : Execution) : Keeps s (s.beginTraversal ex id w record) := by
  unfold beginTraversal
  split
  · exact keeps_leave ex s id _ _
  · exact keeps_setPhase s id trivial

lemma keeps_admitRun (ex : Executors ε π ω) (s : EngineState ε π ω) (id : String) (w : Workflow)
    (record : Execution) : Keeps s (s.admitRun ex id w record) := by
  refine Keeps.trans ?_ (keeps_setPhase _ id trivial)
  exact (keeps_updateActive s id (fun run => { run with status := .running })
    (fun _ => rfl) fun _ => ⟨fun h => h, fun _ => rfl⟩).trans (keeps_aside _ _ _ _ _ _ _)

lemma keeps_heed (ex : Executors ε π ω) (s : EngineState ε π ω) (id : String) (node : Node)
    (progress : Progress π) (world : ω) : Keeps s (s.heed ex id node progress world) := by
  have hworld : Keeps s { s with world } :=
    keeps_aside s _ _ _ _ _ _
  unfold heed
  dsimp only
  split
  · exact (hworld.trans (keeps_emit _ _)).trans (keeps_updateActive _ id _ (fun _ => rfl)
      fun _ => ⟨fun _ => rfl, fun h => h⟩)
  · exact hworld.trans (keeps_emit _ _)

lemma workers_heed (ex : Executors ε π ω) (s : EngineState ε π ω) (id : String) (node : Node)
    (progress : Progress π) (world : ω) :
    (s.heed ex id node progress world).workers = s.workers := by
  unfold heed
  dsimp only
  split <;> rfl

lemma keeps_attend (ex : Executors ε π ω) (s : EngineState ε π ω) (id : String) (w : Workflow)
    (t : Traversal) (node : Node) (p : π) : Keeps s (s.attend ex id w t node p) := by
  unfold attend
  dsimp only
  split
  · exact (keeps_heed ex s id node _ _).trans (keeps_setPhase _ id trivial)
  · exact (keeps_heed ex s id node _ _).trans (keeps_leave ex _ id _ _)
  · exact ((keeps_heed ex s id node _ _).trans (keeps_emit _ _)).trans
      (keeps_setPhase _ id trivial)

lemma keeps_tell (s : EngineState ε π ω) (id : String) : Keeps s (s.tell id) := by
  unfold tell
  split
  · exact keeps_aside s _ _ _ _ _ _
  · exact Keeps.refl s

/-- A worker leaves the tables alone unless its record is final, which it then stores. -/
lemma pollWorker_cases (ex : Executors ε π ω) (s : EngineState ε π ω) (id : String) :
    Keeps s (s.pollWorker ex id) ∨
      ∃ w record, Keyed.get? s.workers id = some ⟨w, .storing record⟩ ∧
        s.pollWorker ex id = s.store id record := by
  unfold pollWorker
  rcases hworker : Keyed.get? s.workers id with _ | ⟨w, phase⟩
  · exact Or.inl (keeps_tell s id)
  · cases phase with
    | spawned record =>
      left
      dsimp only
      split
      · exact keeps_finishRun ex s id record _
      · have hpermits : ∀ permits, Keeps s { s with permits } :=
          fun _ => keeps_aside s _ _ _ _ _ _
        split
        · exact (hpermits _).trans (keeps_admitRun ex _ id w record)
        · exact (hpermits _).trans (keeps_setPhase _ id trivial)
    | queued record =>
      left
      dsimp only
      split
      · have hpermits : Keeps s { s with permits := s.permits.leave id } :=
          keeps_aside s _ _ _ _ _ _
        exact hpermits.trans (keeps_finishRun ex _ id record _)
      · exact Keeps.refl s
    | permitted record =>
      left
      dsimp only
      split
      · exact (keeps_releasePermit s).trans (keeps_finishRun ex _ id record _)
      · exact keeps_admitRun ex s id w record
    | awaitingRegistry record =>
      left
      dsimp only
      split
      · exact keeps_beginTraversal ex s id w record
      · exact Keeps.refl s
    | traversing t => exact Or.inl (keeps_takeNode ex s id w t)
    | calling t node p => exact Or.inl (keeps_attend ex s id w t node p)
    | storing record => exact Or.inr ⟨w, record, rfl, rfl⟩

lemma registry_pollWorker (ex : Executors ε π ω) (s : EngineState ε π ω) (id : String) :
    (s.pollWorker ex id).registry = s.registry := by
  rcases pollWorker_cases ex s id with hkeeps | ⟨w, record, -, hstore⟩
  · exact hkeeps.registry
  · rw [hstore]
    rfl

/-! ## Workers disappear -/

/-- What everything but an admission and a call leaves alone: no worker and no claim is added, and
the workers stay those of the active runs. -/
structure Declines (s s' : EngineState ε π ω) : Prop where
  config : s'.config = s.config
  shuttingDown : s'.shuttingDown = s.shuttingDown
  calls : s'.calls = s.calls
  answers : s'.answers = s.answers
  claims : ∀ c ∈ s'.claims, c ∈ s.claims
  workers : ∀ id ∈ Keyed.keys s'.workers, id ∈ Keyed.keys s.workers
  keys : Keyed.keys s.active = Keyed.keys s.workers →
    Keyed.keys s'.active = Keyed.keys s'.workers

lemma Keeps.declines {s s' : EngineState ε π ω} (h : Keeps s s') : Declines s s' where
  config := h.config
  shuttingDown := h.shuttingDown
  calls := h.calls
  answers := h.answers
  claims := by
    rw [h.claims]
    exact fun _ hc => hc
  workers := by
    rw [h.workers]
    exact fun _ hid => hid
  keys hkeys := by rw [h.active, h.workers, hkeys]

lemma declines_store (s : EngineState ε π ω) (id : String) (record : Execution) :
    Declines s (s.store id record) where
  config := rfl
  shuttingDown := rfl
  calls := rfl
  answers := rfl
  claims := by
    intro c hc
    simp only [claims, store, Keyed.erase, List.mem_map, List.mem_filter] at hc ⊢
    obtain ⟨entry, ⟨hentry, -⟩, rfl⟩ := hc
    exact ⟨entry, hentry, rfl⟩
  workers := by
    intro other hother
    simp only [store, Keyed.keys_erase, List.mem_filter] at hother
    exact hother.1
  keys hkeys := by simp only [store, Keyed.keys_erase, hkeys]

lemma declines_pollWorker (ex : Executors ε π ω) (s : EngineState ε π ω) (id : String) :
    Declines s (s.pollWorker ex id) := by
  rcases pollWorker_cases ex s id with h | ⟨w, record, -, h⟩
  · exact h.declines
  · rw [h]
    exact declines_store s id record

lemma declines_forget (s : EngineState ε π ω) (id : String) : Declines s (s.forget id).2 :=
  ⟨rfl, rfl, rfl, rfl, fun _ hc => hc, fun _ hid => hid, fun hkeys => hkeys⟩

/-! ## Calls -/

/-- What a call leaves alone, unless it is a shutdown that closes the admission. -/
structure SameRuns (s s' : EngineState ε π ω) : Prop where
  config : s'.config = s.config
  permits : s'.permits = s.permits
  shuttingDown : s'.shuttingDown = s.shuttingDown
  active : s'.active = s.active
  finished : s'.finished = s.finished
  workers : s'.workers = s.workers
  emitted : s'.emitted = s.emitted

lemma SameRuns.refl (s : EngineState ε π ω) : SameRuns s s :=
  ⟨rfl, rfl, rfl, rfl, rfl, rfl, rfl⟩

lemma sameRuns_useRegistry (ex : Executors ε π ω) (s : EngineState ε π ω) (n : ℕ) (r : Request) :
    SameRuns s (s.useRegistry ex n r) := by
  cases r <;> exact ⟨rfl, rfl, rfl, rfl, rfl, rfl, rfl⟩

lemma sameRuns_askRegistry (ex : Executors ε π ω) (s : EngineState ε π ω) (n : ℕ) (r : Request) :
    SameRuns s (s.askRegistry ex n r) := by
  unfold askRegistry
  dsimp only
  split
  · cases r <;> exact ⟨rfl, rfl, rfl, rfl, rfl, rfl, rfl⟩
  · exact ⟨rfl, rfl, rfl, rfl, rfl, rfl, rfl⟩

lemma sameRuns_awaitRuns (ex : Executors ε π ω) (s : EngineState ε π ω) (n : ℕ)
    (ids : List String) : SameRuns s (s.awaitRuns ex n ids) := by
  unfold awaitRuns
  split
  · exact sameRuns_askRegistry ex s n .shutdown
  · exact ⟨rfl, rfl, rfl, rfl, rfl, rfl, rfl⟩

lemma sameRuns_awaitRun (s : EngineState ε π ω) (n : ℕ) (id : String) :
    SameRuns s (s.awaitRun n id) := by
  unfold awaitRun
  split
  · exact ⟨rfl, rfl, rfl, rfl, rfl, rfl, rfl⟩
  · split <;> exact ⟨rfl, rfl, rfl, rfl, rfl, rfl, rfl⟩

lemma sameRuns_resumeGet (s : EngineState ε π ω) (n : ℕ) (id : String) :
    SameRuns s (s.resumeGet n id) := by
  unfold resumeGet
  split <;> exact ⟨rfl, rfl, rfl, rfl, rfl, rfl, rfl⟩

/-- A call changes no run, unless it is a shutdown on its first move. -/
lemma sameRuns_pollCall (ex : Executors ε π ω) (s : EngineState ε π ω) (n : ℕ)
    (h : s.calls.lookup n ≠ some (.made .shutdown)) : SameRuns s (s.pollCall ex n) := by
  unfold pollCall
  split
  · exact SameRuns.refl s
  · next hlookup => exact absurd hlookup h
  · exact sameRuns_awaitRun s n _
  · exact sameRuns_askRegistry ex s n _
  · exact sameRuns_awaitRuns ex s n _
  · exact sameRuns_resumeGet s n _
  · split
    · exact sameRuns_useRegistry ex s n _
    · exact SameRuns.refl s

lemma pollCall_shutdown (ex : Executors ε π ω) (s : EngineState ε π ω) (n : ℕ)
    (h : s.calls.lookup n = some (.made .shutdown)) :
    s.pollCall ex n = s.closeAdmission.2.awaitRuns ex n s.closeAdmission.1 := by
  rw [pollCall, h]

/-! ## What an act does to the runs -/

/-- No run comes or goes: the tables stay as they are, except that workers change their phases. -/
structure SameTables (s s' : EngineState ε π ω) : Prop where
  config : s'.config = s.config
  shuttingDown : s.shuttingDown = true → s'.shuttingDown = true
  finished : s'.finished = s.finished
  workers : Keyed.keys s'.workers = Keyed.keys s.workers
  phases : ∀ entry ∈ s'.workers, entry ∈ s.workers ∨ entry.2.phase.IsFinal

lemma Keeps.sameTables {s s' : EngineState ε π ω} (h : Keeps s s') : SameTables s s' where
  config := h.config
  shuttingDown hshut := h.shuttingDown.trans hshut
  finished := h.finished
  workers := h.workers
  phases := h.phases

lemma SameRuns.sameTables {s s' : EngineState ε π ω} (h : SameRuns s s') : SameTables s s' where
  config := h.config
  shuttingDown hshut := h.shuttingDown.trans hshut
  finished := h.finished
  workers := by rw [h.workers]
  phases := by
    rw [h.workers]
    exact fun _ hentry => Or.inl hentry

/-- A call adds no worker and no record, and it never opens the engine again. -/
lemma sameTables_pollCall (ex : Executors ε π ω) (s : EngineState ε π ω) (k : ℕ) :
    SameTables s (s.pollCall ex k) := by
  by_cases hfirst : s.calls.lookup k = some (.made .shutdown)
  · rw [pollCall_shutdown ex s k hfirst]
    have hsame := (sameRuns_awaitRuns ex s.closeAdmission.2 k s.closeAdmission.1).sameTables
    exact ⟨hsame.config, fun _ => hsame.shuttingDown rfl, hsame.finished, hsame.workers,
      hsame.phases⟩
  · exact (sameRuns_pollCall ex s k hfirst).sameTables

lemma keeps_cancel (s : EngineState ε π ω) (id : String) : Keeps s (s.cancel id).2 := by
  unfold cancel
  split
  · exact Keeps.refl s
  · split
    · exact Keeps.refl s
    · exact (keeps_updateActive s id (fun run => { run with cancelled := true })
        (fun _ => rfl) fun _ => ⟨fun _ => rfl, fun h => h⟩).trans (keeps_wake _ _)

/-- All that an act can do to the workers and the records. -/
inductive Effect (ex : Executors ε π ω) (s : EngineState ε π ω) (a : Act ω) : Prop where
  /-- No run comes or goes. -/
  | quiet (hsame : SameTables s (s.act ex a))
  /-- A worker stores its record and goes. -/
  | stored (id : String) (w : Workflow) (record : Execution) (ha : a = .move (.worker id))
      (hworker : Keyed.get? s.workers id = some ⟨w, .storing record⟩)
      (hact : s.act ex a = s.store id record)
  /-- A run is admitted and gets a worker. -/
  | admitted (id : String) (w : Workflow) (input : Fields) (record : Execution)
      (ha : a = .execute id w input) (hopen : s.shuttingDown = false)
      (hconfig : (s.act ex a).config = s.config) (hfinished : (s.act ex a).finished = s.finished)
      (hworkers : (s.act ex a).workers = Keyed.insert s.workers id ⟨w, .spawned record⟩)
  /-- A record is dropped. -/
  | forgot (id : String) (ha : a = .forget id)

lemma effect_act (ex : Executors ε π ω) (s : EngineState ε π ω) (a : Act ω) : Effect ex s a := by
  have hsame : SameRuns s (s.act ex a) → Effect ex s a := fun hruns => .quiet hruns.sameTables
  cases a with
  | move t =>
    cases t with
    | worker id =>
      rcases pollWorker_cases ex s id with hkeeps | ⟨w, record, hworker, hstore⟩
      · exact .quiet hkeeps.sameTables
      · exact .stored id w record rfl hworker hstore
    | call k => exact .quiet (sameTables_pollCall ex s k)
  | execute id w input =>
    by_cases hshut : s.shuttingDown = true
    · refine hsame ?_
      simp only [act, execute, hshut, if_true]
      exact SameRuns.refl s
    · rw [Bool.not_eq_true] at hshut
      refine .admitted id w input (Execution.make id w.id input (ex.now s.world)) rfl hshut ?_ ?_ ?_
      all_goals simp only [act, execute, hshut, Bool.false_eq_true, if_false, wake]
  | cancel id => exact .quiet (keeps_cancel s id).sameTables
  | forget id => exact .forgot id rfl
  | request k r => exact hsame ⟨rfl, rfl, rfl, rfl, rfl, rfl, rfl⟩
  | abandon k => exact hsame ⟨rfl, rfl, rfl, rfl, rfl, rfl, rfl⟩
  | outside world => exact hsame ⟨rfl, rfl, rfl, rfl, rfl, rfl, rfl⟩

/-- A record that can be looked up could be before the act, or the worker of its run has just stored
it. -/
lemma finished_act (ex : Executors ε π ω) {s : EngineState ε π ω} {a : Act ω} {id : String}
    {record : Execution} (h : Keyed.get? (s.act ex a).finished id = some record) :
    Keyed.get? s.finished id = some record ∨ ∃ w, a = .move (.worker id) ∧
      Keyed.get? s.workers id = some ⟨w, .storing record⟩ ∧ s.act ex a = s.store id record := by
  cases effect_act ex s a with
  | quiet hsame =>
    rw [hsame.finished] at h
    exact Or.inl h
  | stored other w stored ha hworker hact =>
    rw [hact, store] at h
    by_cases hother : id = other
    · subst hother
      rw [Keyed.get?_insert_self, Option.some.injEq] at h
      subst h
      exact Or.inr ⟨w, ha, hworker, hact⟩
    · rw [Keyed.get?_insert_of_ne _ _ hother] at h
      exact Or.inl h
  | admitted other w input admitted ha hopen hconfig hfinished hworkers =>
    rw [hfinished] at h
    exact Or.inl h
  | forgot other ha =>
    subst ha
    simp only [act, forget] at h
    by_cases hother : id = other
    · subst hother
      rw [Keyed.get?_erase_self] at h
      cases h
    · rw [Keyed.get?_erase_of_ne _ hother] at h
      exact Or.inl h

/-- Only the move of a call answers a call. -/
lemma answers_act (ex : Executors ε π ω) (s : EngineState ε π ω) {a : Act ω}
    (h : ∀ k, a ≠ .move (.call k)) : (s.act ex a).answers = s.answers := by
  cases a with
  | move t =>
    cases t with
    | worker id => exact (declines_pollWorker ex s id).answers
    | call k => exact absurd rfl (h k)
  | execute id w input =>
    simp only [act, execute]
    split <;> rfl
  | cancel id => exact (keeps_cancel s id).answers
  | forget id => rfl
  | request k r => rfl
  | abandon k => rfl
  | outside world => rfl

/-! ## Histories -/

@[simp] lemma after_nil (ex : Executors ε π ω) (s : EngineState ε π ω) : s.after ex [] = s := rfl

lemma after_append (ex : Executors ε π ω) (s : EngineState ε π ω) (acts more : List (Act ω)) :
    s.after ex (acts ++ more) = (s.after ex acts).after ex more := List.foldl_append

lemma after_cons (ex : Executors ε π ω) (s : EngineState ε π ω) (a : Act ω)
    (acts : List (Act ω)) : s.after ex (a :: acts) = (s.act ex a).after ex acts := rfl

lemma after_concat (ex : Executors ε π ω) (s : EngineState ε π ω) (acts : List (Act ω))
    (a : Act ω) : s.after ex (acts ++ [a]) = (s.after ex acts).act ex a :=
  after_append ex s acts [a]

/-- The configuration stays as it is. -/
lemma config_act (ex : Executors ε π ω) (s : EngineState ε π ω) (a : Act ω) :
    (s.act ex a).config = s.config := by
  cases effect_act ex s a with
  | quiet hsame => exact hsame.config
  | stored id w record ha hworker hact => rw [hact, store]
  | admitted id w input record ha hopen hconfig hfinished hworkers => exact hconfig
  | forgot id ha =>
    subst ha
    rfl

/-! ## A small engine -/

/-- A workflow of a trigger and nothing else. -/
def lone : Workflow where
  id := "lone"
  nodes := [{ id := "start", nodeType := .trigger }]

/-- An engine whose executors answer at once. -/
def promptEngine (config : EngineConfig) : EngineState Unit Unit Unit :=
  make { executor? := fun _ => some (), initialized := true } config ()

end EngineState

end FlowGraph
