import FlowGraph.Proofs.Engine.Calls
import FlowGraph.Proofs.Engine.Lock

/-!
# The registry while runs traverse

The executors may change only when nobody reads the registry: a call that initializes them or shuts
them down asks for it to write.  `Guarded` says that every run that traverses holds the registry for
reading and that a call wants the access its request is for.  So the registry stays as it is as long
as any run traverses (`registry_act`).
-/

namespace FlowGraph

/-- The run stands between two nodes, or an executor is at work. -/
def Phase.traverses {π : Type} : Phase π → Bool
  | .traversing _ | .calling .. => true
  | _ => false

namespace EngineState

variable {ε π ω : Type}

/-- The lock of the registry is held by those who need it, but for one task that is on its way. -/
structure Guarded (moving : Option Task) (s : EngineState ε π ω) : Prop where
  workers : ∀ id access, s.lock.Wants (.worker id) access → access = .read
  calls : ∀ n access, s.lock.Wants (.call n) access → moving ≠ some (.call n) →
    ∃ r, s.calls.lookup n = some (.waitingForRegistry r) ∧ Request.access r = access
  alone : s.lock.Alone
  reading : ∀ id w p, Keyed.get? s.workers id = some ⟨w, p⟩ → p.traverses = true →
    moving ≠ some (.worker id) → .worker id ∈ s.lock.readers

variable {s s' : EngineState ε π ω} {moving : Option Task} {id : String} {n : ℕ}

lemma Guarded.congr (h : Guarded moving s) (hlock : s'.lock = s.lock) (hcalls : s'.calls = s.calls)
    (hworkers : s'.workers = s.workers) : Guarded moving s' where
  workers := by
    rw [hlock]
    exact h.workers
  calls := by
    rw [hlock, hcalls]
    exact h.calls
  alone := by
    rw [hlock]
    exact h.alone
  reading := by
    rw [hlock, hworkers]
    exact h.reading

/-! ## Workers -/

/-- A worker changes its phase; when it traverses then, it reads the registry. -/
lemma Guarded.setPhase (h : Guarded moving s) (hmoving : moving = none ∨ moving = some (.worker id))
    {q : Phase π} (hq : q.traverses = true → .worker id ∈ s.lock.readers) :
    Guarded none (s.setPhase id q) where
  workers := h.workers
  calls m access hwants _ := by
    refine h.calls m access hwants ?_
    rcases hmoving with rfl | rfl <;> simp
  alone := h.alone
  reading other w p hworker htraverses _ := by
    simp only [EngineState.setPhase, Keyed.get?_modify] at hworker
    by_cases hother : id = other
    · subst hother
      rw [if_pos rfl, Option.map_eq_some_iff] at hworker
      obtain ⟨worker, -, hphase⟩ := hworker
      cases hphase
      exact hq htraverses
    · rw [if_neg hother] at hworker
      refine h.reading other w p hworker htraverses ?_
      rcases hmoving with rfl | rfl
      · simp
      · simpa using hother

/-- A permit is handed over to a run that does not traverse. -/
lemma Guarded.releasePermit (h : Guarded moving s) : Guarded moving s.releasePermit := by
  unfold EngineState.releasePermit
  split
  · exact h.congr rfl rfl rfl
  · next first permits _ =>
    dsimp only
    split
    · refine ⟨h.workers, h.calls, h.alone, fun other w p hworker htraverses hne => ?_⟩
      simp only [wake, EngineState.setPhase, Keyed.get?_modify] at hworker
      by_cases hother : first = other
      · rw [if_pos hother, Option.map_eq_some_iff] at hworker
        obtain ⟨worker, -, hphase⟩ := hworker
        cases hphase
        cases htraverses
      · rw [if_neg hother] at hworker
        exact h.reading other w p hworker htraverses hne
    · exact h.congr rfl rfl rfl

/-- A worker that gives up the registry is about to change its phase. -/
lemma Guarded.releaseWorker (h : Guarded none s) (id : String) :
    Guarded (some (.worker id)) (s.releaseRegistry (.worker id)) where
  workers other access hwants := h.workers other access (RegistryLock.wants_release hwants).2
  calls m access hwants _ := h.calls m access (RegistryLock.wants_release hwants).2 (by simp)
  alone := h.alone.release _
  reading other w p hworker htraverses hne := by
    have hother : Task.worker other ≠ .worker id := by
      intro heq
      exact hne (congrArg some heq.symm)
    exact RegistryLock.mem_readers_release
      (h.reading other w p hworker htraverses (by simp)) hother

variable (ex : Executors ε π ω)

lemma Guarded.finishRun (h : Guarded moving s)
    (hmoving : moving = none ∨ moving = some (.worker id)) (record : Execution)
    (outcome : Traversal.Outcome) : Guarded none (s.finishRun ex id record outcome) := by
  have hemit : ∀ events, Guarded moving (s.emit events) := fun _ => h.congr rfl rfl rfl
  exact (hemit _).setPhase hmoving nofun

lemma Guarded.leave (h : Guarded none s) (record : Execution) (outcome : Traversal.Outcome) :
    Guarded none (s.leave ex id record outcome) :=
  (h.releaseWorker id).releasePermit.finishRun ex (Or.inr rfl) record outcome

lemma Guarded.takeNode (h : Guarded none s) {w : Workflow} {t : Traversal}
    (hworker : Keyed.get? s.workers id = some ⟨w, .traversing t⟩) :
    Guarded none (s.takeNode ex id w t) := by
  have hreads := h.reading id w _ hworker rfl (by simp)
  have hemit : ∀ events, Guarded none (s.emit events) := fun _ => h.congr rfl rfl rfl
  unfold EngineState.takeNode
  split
  · exact h.leave ex _ _
  · exact h.setPhase (Or.inl rfl) fun _ => hreads
  · exact (hemit _).setPhase (Or.inl rfl) fun _ => hreads
  · exact (hemit _).setPhase (Or.inl rfl) fun _ => hreads

lemma Guarded.heed (h : Guarded none s) (id : String) (node : Node) (progress : Progress π)
    (world : ω) : Guarded none (s.heed ex id node progress world) ∧
      (s.heed ex id node progress world).lock = s.lock := by
  unfold EngineState.heed
  dsimp only
  split <;> exact ⟨h.congr rfl rfl rfl, rfl⟩

lemma Guarded.attend (h : Guarded none s) {w : Workflow} {t : Traversal} {node : Node} {p : π}
    (hworker : Keyed.get? s.workers id = some ⟨w, .calling t node p⟩) :
    Guarded none (s.attend ex id w t node p) := by
  have hreads := h.reading id w _ hworker rfl (by simp)
  obtain ⟨hheed, hlock⟩ := h.heed ex id node (ex.poll p (s.isCancelled id) s.world).1
    (ex.poll p (s.isCancelled id) s.world).2
  rw [← hlock] at hreads
  unfold EngineState.attend
  dsimp only
  split
  · exact hheed.setPhase (Or.inl rfl) fun _ => hreads
  · exact hheed.leave ex _ _
  · next answer _ =>
    have hemit : Guarded none ((s.heed ex id node (ex.poll p (s.isCancelled id) s.world).1
        (ex.poll p (s.isCancelled id) s.world).2).emit [(t.complete w node answer
          (ex.now (ex.poll p (s.isCancelled id) s.world).2)).2]) := hheed.congr rfl rfl rfl
    exact hemit.setPhase (Or.inl rfl) fun _ => hreads

/-- A worker that is let in asks for the registry to read. -/
lemma Guarded.admitRun (h : Guarded none s) (id : String) (w : Workflow) (record : Execution) :
    Guarded none (s.admitRun ex id w record) := by
  have hasked : Guarded none { s with lock := s.lock.request (.worker id) .read } := by
    refine ⟨fun other access hwants => ?_, fun m access hwants _ => ?_, h.alone.request _ _,
      fun other w p hworker htraverses hne => ?_⟩
    · rcases RegistryLock.wants_request hwants with hold | ⟨-, rfl⟩
      · exact h.workers other access hold
      · rfl
    · rcases RegistryLock.wants_request hwants with hold | ⟨hcall, -⟩
      · exact h.calls m access hold (by simp)
      · cases hcall
    · exact RegistryLock.mem_readers_request (h.reading other w p hworker htraverses hne) _ _
  have hemit : Guarded none
      { (s.updateActive id fun run => { run with status := .running }).emit
        [.executionStarted id w.id (ex.now s.world)] with
        lock := s.lock.request (.worker id) .read } := hasked.congr rfl rfl rfl
  exact hemit.setPhase (Or.inl rfl) nofun

/-- A worker that may read begins its traversal. -/
lemma Guarded.beginTraversal (h : Guarded none s) (hlock : s.lock.holds (.worker id) = true)
    (w : Workflow) (record : Execution) : Guarded none (s.beginTraversal ex id w record) := by
  unfold EngineState.beginTraversal
  split
  · exact h.leave ex _ _
  · refine h.setPhase (Or.inl rfl) fun _ => ?_
    rcases (RegistryLock.holds_iff _ _).1 hlock with hreads | hwrites
    · exact hreads
    · -- a worker never writes
      have hread := h.workers id _ (.of_writer hwrites)
      cases hread

lemma Guarded.pollWorker (h : Guarded none s) (id : String) :
    Guarded none (s.pollWorker ex id) := by
  have hpermits : ∀ permits, Guarded none { s with permits } := fun _ => h.congr rfl rfl rfl
  unfold EngineState.pollWorker
  rcases hworker : Keyed.get? s.workers id with _ | ⟨w, phase⟩
  · unfold tell
    dsimp only
    split
    · exact h.congr rfl rfl rfl
    · exact h
  · cases phase with
    | spawned record =>
      dsimp only
      split
      · exact h.finishRun ex (Or.inl rfl) record _
      · split
        · exact (hpermits _).admitRun ex id w record
        · exact (hpermits _).setPhase (Or.inl rfl) nofun
    | queued record =>
      dsimp only
      split
      · exact (hpermits _).finishRun ex (Or.inl rfl) record _
      · exact h
    | permitted record =>
      dsimp only
      split
      · exact h.releasePermit.finishRun ex (Or.inl rfl) record _
      · exact h.admitRun ex id w record
    | awaitingRegistry record =>
      dsimp only
      split
      · next hlock => exact h.beginTraversal ex hlock w record
      · exact h
    | traversing t => exact h.takeNode ex hworker
    | calling t node p => exact h.attend ex hworker
    | storing record =>
      refine ⟨h.workers, h.calls, h.alone, fun other w p hget htraverses hne => ?_⟩
      simp only [store] at hget
      by_cases hother : other = id
      · subst hother
        rw [Keyed.get?_erase_self] at hget
        cases hget
      · rw [Keyed.get?_erase_of_ne _ hother] at hget
        exact h.reading other w p hget htraverses hne

/-! ## Calls -/

lemma lookup_answer (s : EngineState ε π ω) {m : ℕ} (hm : m ≠ n) (a : CallAnswer) :
    (s.answer n a).calls.lookup m = s.calls.lookup m := by
  simp only [answer]
  induction s.calls with
  | nil => rfl
  | cons call rest ih =>
    obtain ⟨k, state⟩ := call
    by_cases hk : k = n
    · subst hk
      simpa [List.lookup_cons, beq_eq_false_iff_ne.2 hm] using ih
    · by_cases hkm : m = k
      · subst hkm
        simp [hk]
      · simpa [hk, List.lookup_cons, beq_eq_false_iff_ne.2 hkm] using ih

lemma lookup_setCall (s : EngineState ε π ω) (m : ℕ) (state : CallState) :
    (s.setCall n state).calls.lookup m =
      if m = n then (s.calls.lookup m).map fun _ => state else s.calls.lookup m := by
  simp only [setCall]
  induction s.calls with
  | nil => simp
  | cons call rest ih =>
    obtain ⟨k, old⟩ := call
    by_cases hkm : m = k
    · subst hkm
      by_cases hmn : m = n <;> simp [hmn]
    · have hne : (m == k) = false := beq_eq_false_iff_ne.2 hkm
      by_cases hkn : k = n
      · subst hkn
        simpa [List.lookup_cons, hne] using ih
      · simpa [List.lookup_cons, hne, hkn] using ih

/-- A call asks for the registry. -/
lemma Guarded.requestCall (h : Guarded none s) (n : ℕ) (access : Access) :
    Guarded (some (.call n)) { s with lock := s.lock.request (.call n) access } where
  workers id asked hwants := by
    rcases RegistryLock.wants_request hwants with hold | ⟨hcall, -⟩
    · exact h.workers id asked hold
    · cases hcall
  calls m asked hwants hne := by
    rcases RegistryLock.wants_request hwants with hold | ⟨hcall, -⟩
    · exact h.calls m asked hold (by simp)
    · cases hcall
      exact absurd rfl hne
  alone := h.alone.request _ _
  reading id w p hworker htraverses _ :=
    RegistryLock.mem_readers_request (h.reading id w p hworker htraverses (by simp)) _ _

/-- A call gives up the registry, or stops waiting for it. -/
lemma Guarded.releaseCall (h : Guarded moving s)
    (hmoving : moving = none ∨ moving = some (.call n)) :
    Guarded none (s.releaseRegistry (.call n)) ∧
      ∀ access, ¬(s.releaseRegistry (.call n)).lock.Wants (.call n) access := by
  have hkept : ∀ id w p, Keyed.get? s.workers id = some ⟨w, p⟩ → p.traverses = true →
      .worker id ∈ s.lock.readers := by
    intro id w p hworker htraverses
    refine h.reading id w p hworker htraverses ?_
    rcases hmoving with rfl | rfl <;> simp
  refine ⟨⟨fun id access hwants => h.workers id access (RegistryLock.wants_release hwants).2,
    fun m access hwants _ => ?_, h.alone.release _, fun id w p hworker htraverses _ => ?_⟩, ?_⟩
  · obtain ⟨hne, hold⟩ := RegistryLock.wants_release hwants
    refine h.calls m access hold ?_
    rcases hmoving with rfl | rfl
    · simp
    · exact fun heq => hne (Option.some.inj heq).symm
  · exact RegistryLock.mem_readers_release (hkept id w p hworker htraverses) (by simp)
  · exact fun access hwants => (RegistryLock.wants_release hwants).1 rfl

/-- A call that does not want the registry is answered. -/
lemma Guarded.answer (h : Guarded none s) (hfree : ∀ access, ¬s.lock.Wants (.call n) access)
    (a : CallAnswer) : Guarded none (s.answer n a) where
  workers := h.workers
  calls m access hwants hne := by
    have hm : m ≠ n := by
      rintro rfl
      exact hfree access hwants
    rw [lookup_answer s hm]
    exact h.calls m access hwants hne
  alone := h.alone
  reading := h.reading

/-- A call that does not want the registry goes on waiting for something else. -/
lemma Guarded.setCall (h : Guarded none s) (hfree : ∀ access, ¬s.lock.Wants (.call n) access)
    (state : CallState) : Guarded none (s.setCall n state) where
  workers := h.workers
  calls m access hwants hne := by
    have hm : m ≠ n := by
      rintro rfl
      exact hfree access hwants
    rw [lookup_setCall, if_neg hm]
    exact h.calls m access hwants hne
  alone := h.alone
  reading := h.reading

lemma Guarded.useRegistry (h : Guarded moving s)
    (hmoving : moving = none ∨ moving = some (.call n)) (r : Request) :
    Guarded none (s.useRegistry ex n r) := by
  have hreleased : ∀ registry world, Guarded none
      (({ s with registry, world } : EngineState ε π ω).releaseRegistry (.call n)) ∧
      ∀ access, ¬(({ s with registry, world } : EngineState ε π ω).releaseRegistry
        (.call n)).lock.Wants (.call n) access := by
    intro registry world
    have hsame : Guarded moving { s with registry, world } := h.congr rfl rfl rfl
    exact hsame.releaseCall hmoving
  obtain ⟨hguarded, hfree⟩ := h.releaseCall hmoving
  cases r with
  | start => exact (hreleased _ _).1.answer (hreleased _ _).2 _
  | shutdown => exact (hreleased _ _).1.answer (hreleased _ _).2 _
  | get id => exact hguarded
  | nodeTypes => exact hguarded.answer hfree _

/-- A call that does not want the registry yet asks for it. -/
lemma Guarded.askRegistry (h : Guarded none s) (hfree : ∀ access, ¬s.lock.Wants (.call n) access)
    (hcall : (s.calls.lookup n).isSome) (r : Request) : Guarded none (s.askRegistry ex n r) := by
  have hasked := h.requestCall n (Request.access r)
  unfold EngineState.askRegistry
  dsimp only
  split
  · exact hasked.useRegistry ex (Or.inr rfl) r
  · refine ⟨hasked.workers, fun m access hwants _ => ?_, hasked.alone,
      fun id w p hworker htraverses _ => hasked.reading id w p hworker htraverses (by simp)⟩
    rw [lookup_setCall]
    by_cases hm : m = n
    · subst hm
      obtain ⟨state, hstate⟩ := Option.isSome_iff_exists.1 hcall
      rw [if_pos rfl, hstate]
      rcases RegistryLock.wants_request hwants with hold | ⟨-, rfl⟩
      · exact absurd hold (hfree access)
      · exact ⟨r, rfl, rfl⟩
    · rw [if_neg hm]
      exact hasked.calls m access hwants (by simpa using Ne.symm hm)

lemma Guarded.awaitRuns (h : Guarded none s) (hfree : ∀ access, ¬s.lock.Wants (.call n) access)
    (hcall : (s.calls.lookup n).isSome) (ids : List String) :
    Guarded none (s.awaitRuns ex n ids) := by
  unfold EngineState.awaitRuns
  split
  · exact h.askRegistry ex hfree hcall .shutdown
  · exact h.setCall hfree _

/-- A call that is not waiting for the registry does not want it. -/
lemma Guarded.not_wants (h : Guarded none s) {state : CallState}
    (hlookup : s.calls.lookup n = some state) (hstate : ∀ r, state ≠ .waitingForRegistry r)
    (access : Access) : ¬s.lock.Wants (.call n) access := by
  intro hwants
  obtain ⟨r, hr, -⟩ := h.calls n access hwants (by simp)
  rw [hlookup, Option.some.injEq] at hr
  exact hstate r hr

lemma Guarded.pollCall (h : Guarded none s) (n : ℕ) : Guarded none (s.pollCall ex n) := by
  have hsome : ∀ {state}, s.calls.lookup n = some state → (s.calls.lookup n).isSome :=
    fun hlookup => by rw [hlookup]; rfl
  unfold EngineState.pollCall
  split
  · exact h
  · next hlookup =>
    have hclosed : Guarded none s.closeAdmission.2 := h.congr rfl rfl rfl
    exact hclosed.awaitRuns ex (h.not_wants hlookup nofun) (hsome hlookup) _
  · next hlookup =>
    have hfree := h.not_wants hlookup nofun
    unfold awaitRun
    split
    · exact h.answer hfree _
    · split
      · exact h.setCall hfree _
      · exact h.answer hfree _
  · next hlookup => exact h.askRegistry ex (h.not_wants hlookup nofun) (hsome hlookup) _
  · next hlookup => exact h.awaitRuns ex (h.not_wants hlookup nofun) (hsome hlookup) _
  · next hlookup =>
    unfold resumeGet
    split
    · exact h
    · exact h.answer (h.not_wants hlookup nofun) _
  · split
    · exact h.useRegistry ex (Or.inl rfl) _
    · exact h

/-! ## Acts -/

lemma Guarded.act (h : Guarded none s) (a : Act ω) : Guarded none (s.act ex a) := by
  cases a with
  | move t =>
    cases t with
    | worker id => exact h.pollWorker ex id
    | call n => exact h.pollCall ex n
  | execute id w input =>
    simp only [EngineState.act, execute]
    split
    · exact h
    · refine ⟨h.workers, h.calls, h.alone, fun other w' p hworker htraverses hne => ?_⟩
      simp only [wake, Keyed.get?_insert] at hworker
      split at hworker
      · cases hworker
        cases htraverses
      · exact h.reading other w' p hworker htraverses hne
  | cancel id =>
    simp only [EngineState.act, cancel]
    split
    · exact h
    · split
      · exact h
      · exact h.congr rfl rfl rfl
  | forget id => exact h.congr rfl rfl rfl
  | request k r =>
    refine ⟨h.workers, fun m access hwants hne => ?_, h.alone, h.reading⟩
    obtain ⟨r', hlookup, haccess⟩ := h.calls m access hwants hne
    refine ⟨r', ?_, haccess⟩
    simp only [EngineState.act, makeCall, wake, List.lookup_append, hlookup, Option.some_or]
  | abandon k =>
    obtain ⟨hguarded, hfree⟩ := h.releaseCall (n := k) (Or.inl rfl)
    have hanswer := hguarded.answer hfree (.done (.ok ()))
    exact ⟨hanswer.workers, hanswer.calls, hanswer.alone, hanswer.reading⟩
  | outside world => exact h.congr rfl rfl rfl

lemma guarded_after (registry : Registry ε) (config : EngineConfig) (world : ω)
    (acts : List (Act ω)) :
    Guarded none ((make registry config world : EngineState ε π ω).after ex acts) := by
  induction acts using List.reverseRecOn with
  | nil =>
    -- nobody wants the registry yet
    have hnobody : ∀ t access,
        ¬(make registry config world : EngineState ε π ω).lock.Wants t access := by
      rintro t access (hwaits | ⟨-, hreads⟩ | ⟨-, hwrites⟩)
      · cases hwaits
      · cases hreads
      · cases hwrites
    refine ⟨fun id access hwants => absurd hwants (hnobody _ _),
      fun m access hwants _ => absurd hwants (hnobody _ _), fun t ht => (by cases ht),
      fun id w p hworker => (by cases hworker)⟩
  | append_singleton acts a ih =>
    rw [after_concat]
    exact ih.act ex a

/-! ## The registry stays as it is -/

lemma registry_useRegistry (s : EngineState ε π ω) (n : ℕ) {r : Request}
    (hr : Request.access r = .read) : (s.useRegistry ex n r).registry = s.registry := by
  cases r with
  | start => cases hr
  | shutdown => cases hr
  | get id => rfl
  | nodeTypes => rfl

/-- A call that does not want the registry yet leaves it alone while somebody reads. -/
lemma Guarded.registry_askRegistry (h : Guarded none s) {t : Task} (hreads : t ∈ s.lock.readers)
    (hfree : ∀ access, ¬s.lock.Wants (.call n) access) (r : Request) :
    (s.askRegistry ex n r).registry = s.registry := by
  unfold EngineState.askRegistry
  dsimp only
  split
  · next hholds =>
    cases haccess : Request.access r with
    | read => rw [registry_useRegistry ex _ n haccess]
    | write =>
      -- to write, the call would have to be alone
      exfalso
      rw [haccess] at hholds
      rcases (RegistryLock.holds_iff _ _).1 hholds with hreader | hwriter
      · rcases RegistryLock.wants_request (.of_reader hreader) with hold | ⟨-, heq⟩
        · exact hfree _ hold
        · cases heq
      · have hnone := h.alone.request (.call n) .write _ hwriter
        have hstill := RegistryLock.mem_readers_request hreads (.call n) .write
        rw [hnone] at hstill
        cases hstill
  · rfl

lemma Guarded.registry_awaitRuns (h : Guarded none s) {t : Task} (hreads : t ∈ s.lock.readers)
    (hfree : ∀ access, ¬s.lock.Wants (.call n) access) (ids : List String) :
    (s.awaitRuns ex n ids).registry = s.registry := by
  unfold EngineState.awaitRuns
  split
  · exact h.registry_askRegistry ex hreads hfree .shutdown
  · rfl

lemma Guarded.registry_pollCall (h : Guarded none s) {t : Task} (hreads : t ∈ s.lock.readers)
    (n : ℕ) : (s.pollCall ex n).registry = s.registry := by
  unfold EngineState.pollCall
  split
  · rfl
  · next hlookup =>
    have hclosed : Guarded none s.closeAdmission.2 := h.congr rfl rfl rfl
    exact hclosed.registry_awaitRuns ex hreads (h.not_wants hlookup nofun) _
  · unfold awaitRun
    split
    · rfl
    · split <;> rfl
  · next hlookup => exact h.registry_askRegistry ex hreads (h.not_wants hlookup nofun) _
  · next hlookup => exact h.registry_awaitRuns ex hreads (h.not_wants hlookup nofun) _
  · unfold resumeGet
    split <;> rfl
  · next r hlookup =>
    split
    · next hholds =>
      refine registry_useRegistry ex s n ?_
      -- a call that writes would be the only one at the registry
      rcases (RegistryLock.holds_iff _ _).1 hholds with hreader | hwriter
      · obtain ⟨r', hr', haccess⟩ := h.calls n _ (.of_reader hreader) (by simp)
        rw [hlookup] at hr'
        cases hr'
        exact haccess
      · rw [h.alone _ hwriter] at hreads
        cases hreads
    · rfl

/-- **The registry does not change while a run traverses.** -/
theorem registry_act (h : Guarded none s) {w : Workflow} {p : Phase π}
    (hworker : Keyed.get? s.workers id = some ⟨w, p⟩) (htraverses : p.traverses = true)
    (a : Act ω) : (s.act ex a).registry = s.registry := by
  have hreads := h.reading id w p hworker htraverses (by simp)
  cases a with
  | move t =>
    cases t with
    | worker other => exact registry_pollWorker ex s other
    | call n => exact h.registry_pollCall ex hreads n
  | execute other w' input =>
    simp only [EngineState.act, execute]
    split <;> rfl
  | cancel other => exact (keeps_cancel s other).registry
  | forget other => rfl
  | request n r => rfl
  | abandon n => rfl
  | outside world => rfl

end EngineState

end FlowGraph
