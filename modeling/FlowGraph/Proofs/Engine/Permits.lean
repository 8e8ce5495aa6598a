import FlowGraph.Proofs.Engine.Moves

/-!
# Permits and running runs

A run holds a permit from the moment it is let in until it leaves its traversal.  `Accounts` says
that no permit is lost or made up: the free ones and the held ones add up to the limit of the
configuration, and those who queue for one are the runs in that phase.

What users see lags behind.  A run that has left its traversal and given back its permit still
shows as running until its record is stored, so that the next run may show as running, too.
`runningCount_eq` counts exactly: the runs that show as running are those that are under way, of
which there are never more than the limit, and those that are departing.
-/

namespace FlowGraph

/-! ## Phases -/

namespace Phase

variable {π : Type}

/-- The run was let in and has not left its traversal. -/
def underWay : Phase π → Bool
  | .awaitingRegistry _ | .traversing _ | .calling .. => true
  | _ => false

/-- The worker holds a permit. -/
def holds : Phase π → Bool
  | .permitted _ => true
  | phase => phase.underWay

/-- The worker waits for a permit. -/
def isQueued : Phase π → Bool
  | .queued _ => true
  | _ => false

/-- The run has left its traversal, and its record is not stored yet. -/
def isStoring : Phase π → Bool
  | .storing _ => true
  | _ => false

/-- A run in this phase can be seen with a status. -/
def Shows : Phase π → ExecutionStatus → Prop
  | .spawned _, status | .queued _, status | .permitted _, status => status = .pending
  | .awaitingRegistry _, status | .traversing _, status | .calling .., status =>
    status = .running
  | .storing _, status => status = .pending ∨ status = .running

/-- A run shows as running while it is under way, and possibly while its record is stored. -/
lemma Shows.running_eq {phase : Phase π} {status : ExecutionStatus} (h : phase.Shows status) :
    (status == .running).toNat =
      phase.underWay.toNat + (phase.isStoring && some status == some .running).toNat := by
  cases phase with
  | storing record =>
    rcases h with rfl | rfl
    · rfl
    · rfl
  | _ =>
    cases h
    rfl

end Phase

/-! ## Counting in tables -/

section Count

variable {α : Type}

/-- A change of one value changes the count by what it does to that value. -/
lemma countP_modify {table : Keyed α} (h : Keyed.Distinct table) {key : String} {value : α}
    (hvalue : Keyed.get? table key = some value) (change : α → α) (p : α → Bool) :
    ((Keyed.modify table key change).countP fun entry => p entry.2) + (p value).toNat =
      (table.countP fun entry => p entry.2) + (p (change value)).toNat := by
  induction table with
  | nil => cases hvalue
  | cons entry rest ih =>
    obtain ⟨k, v⟩ := entry
    simp only [Keyed.Distinct, Keyed.keys, List.map_cons, List.nodup_cons] at h
    have hmodify : Keyed.modify ((k, v) :: rest) key change =
        (if k = key then (k, change v) else (k, v)) :: Keyed.modify rest key change := rfl
    rw [hmodify, List.countP_cons, List.countP_cons]
    rw [Keyed.get?_cons] at hvalue
    by_cases hk : k = key
    · subst hk
      rw [if_pos rfl] at hvalue
      cases hvalue
      rw [if_pos rfl, Keyed.modify_of_not_mem change h.1]
      cases p value <;> cases p (change value) <;> simp
    · rw [if_neg hk] at hvalue
      have hrest := ih h.2 hvalue
      rw [if_neg hk]
      omega

/-- Removing a value that does not count. -/
lemma countP_erase {table : Keyed α} (h : Keyed.Distinct table) {key : String} {value : α}
    (hvalue : Keyed.get? table key = some value) {p : α → Bool} (hp : p value = false) :
    ((Keyed.erase table key).countP fun entry => p entry.2) =
      table.countP fun entry => p entry.2 := by
  rw [Keyed.erase, List.countP_filter]
  refine List.countP_congr fun entry hentry => ?_
  by_cases hkey : entry.1 = key
  · obtain ⟨k, v⟩ := entry
    subst hkey
    have hv := h.get?_of_mem hentry
    rw [hvalue] at hv
    cases hv
    simp [hp]
  · simp [hkey]

/-- Counting the values of a table by its keys. -/
lemma countP_keys {table : Keyed α} (h : Keyed.Distinct table) (p : String → α → Bool) :
    (table.countP fun entry => p entry.1 entry.2) =
      (Keyed.keys table).countP fun key => (Keyed.get? table key).any (p key) := by
  rw [Keyed.keys, List.countP_map]
  refine List.countP_congr fun entry hentry => ?_
  rw [Function.comp_apply, h.get?_of_mem hentry]
  rfl

/-- A count of what is one of two, but never both. -/
lemma countP_add_of_disjoint {l : List α} {p q r : α → Bool}
    (h : ∀ x ∈ l, (p x).toNat = (q x).toNat + (r x).toNat) :
    l.countP p = l.countP q + l.countP r := by
  induction l with
  | nil => rfl
  | cons x l ih =>
    have hx := h x List.mem_cons_self
    have hl := ih fun y hy => h y (List.mem_cons_of_mem _ hy)
    simp only [List.countP_cons]
    cases hp : p x <;> cases hq : q x <;> cases hr : r x <;>
      simp only [hp, hq, hr, Bool.toNat_true, Bool.toNat_false] at hx ⊢ <;>
      simp only [Bool.false_eq_true, if_true, if_false] <;> omega

end Count

namespace EngineState

variable {ε π ω : Type}

/-! ## The accounts -/

/-- What users see of the runs that are not over. -/
def statuses (s : EngineState ε π ω) : Keyed ExecutionStatus :=
  s.active.map fun entry => (entry.1, entry.2.status)

/-- How many permits are held. -/
def holders (s : EngineState ε π ω) : ℕ := s.workers.countP fun entry => entry.2.phase.holds

/-- The permits are accounted for, up to `spare` ones that were given back by a worker that is
about to change its phase. -/
structure Accounts (spare : ℕ) (s : EngineState ε π ω) : Prop where
  keys : Keyed.keys s.statuses = Keyed.keys s.workers
  distinct : Keyed.Distinct s.workers
  balance : s.permits.free + s.holders = s.config.limit + spare
  queue : ∀ id, id ∈ s.permits.queue ↔
    ∃ worker, Keyed.get? s.workers id = some worker ∧ worker.phase.isQueued = true
  queueDistinct : s.permits.queue.Nodup
  shows : ∀ id worker, Keyed.get? s.workers id = some worker →
    ∃ status, Keyed.get? s.statuses id = some status ∧ worker.phase.Shows status

variable {s s' : EngineState ε π ω} {spare : ℕ}

/-- The accounts read the statuses, the workers, the permits and the limit. -/
lemma Accounts.congr (h : Accounts spare s) (hstatuses : s'.statuses = s.statuses)
    (hworkers : s'.workers = s.workers) (hpermits : s'.permits = s.permits)
    (hconfig : s'.config = s.config) : Accounts spare s' where
  keys := by rw [hstatuses, hworkers, h.keys]
  distinct := by
    rw [hworkers]
    exact h.distinct
  balance := by
    rw [holders, hworkers, hpermits, hconfig]
    exact h.balance
  queue := by
    rw [hworkers, hpermits]
    exact h.queue
  queueDistinct := by
    rw [hpermits]
    exact h.queueDistinct
  shows := by
    rw [hstatuses, hworkers]
    exact h.shows

/-- A run is in the queue when its worker waits for a permit. -/
lemma Accounts.mem_queue_iff (h : Accounts spare s) {id : String} {worker : Worker π}
    (hworker : Keyed.get? s.workers id = some worker) :
    id ∈ s.permits.queue ↔ worker.phase.isQueued = true := by
  rw [h.queue, hworker]
  constructor
  · rintro ⟨other, hother, hqueued⟩
    cases hother
    exact hqueued
  · exact fun hqueued => ⟨worker, rfl, hqueued⟩

/-- The queue stays as it is when a worker that did not wait for a permit still does not. -/
lemma Accounts.mem_queue_of_not_queued (h : Accounts spare s) {id : String} {w : Workflow}
    {p q : Phase π} (hworker : Keyed.get? s.workers id = some ⟨w, p⟩) (hp : p.isQueued = false)
    (hq : q.isQueued = false) (other : String) :
    other ∈ s.permits.queue ↔
      if other = id then q.isQueued = true else other ∈ s.permits.queue := by
  split
  · next hother =>
    subst hother
    rw [h.mem_queue_iff hworker, hp, hq]
  · rfl

/-- One worker changes its phase, from `p` to `q`. -/
lemma Accounts.change (h : Accounts spare s) {id : String} {w : Workflow} {p q : Phase π}
    {spare' : ℕ} (f : ExecutionStatus → ExecutionStatus)
    (hworker : Keyed.get? s.workers id = some ⟨w, p⟩)
    (hworkers : s'.workers = Keyed.modify s.workers id fun worker => { worker with phase := q })
    (hstatuses : s'.statuses = Keyed.modify s.statuses id f)
    (hconfig : s'.config = s.config)
    (hshows : ∀ status, p.Shows status → q.Shows (f status))
    (hfree : s'.permits.free + q.holds.toNat + spare = s.permits.free + p.holds.toNat + spare')
    (hqueue : ∀ other, other ∈ s'.permits.queue ↔
      if other = id then q.isQueued = true else other ∈ s.permits.queue)
    (hdistinct : s'.permits.queue.Nodup) : Accounts spare' s' where
  keys := by rw [hstatuses, hworkers, Keyed.keys_modify, Keyed.keys_modify, h.keys]
  distinct := by
    rw [hworkers, Keyed.Distinct, Keyed.keys_modify]
    exact h.distinct
  balance := by
    have hbalance := h.balance
    have hholders := countP_modify h.distinct hworker
      (fun worker => { worker with phase := q }) fun worker => worker.phase.holds
    dsimp only at hholders
    rw [holders] at hbalance ⊢
    rw [hworkers, hconfig]
    omega
  queue := by
    intro other
    rw [hqueue, hworkers, Keyed.get?_modify]
    by_cases hother : other = id
    · subst hother
      simp [hworker]
    · rw [if_neg hother, if_neg (Ne.symm hother), h.queue]
  queueDistinct := hdistinct
  shows := by
    intro other worker hget
    rw [hworkers, Keyed.get?_modify] at hget
    rw [hstatuses, Keyed.get?_modify]
    by_cases hother : id = other
    · subst hother
      rw [if_pos rfl, hworker] at hget
      cases hget
      obtain ⟨status, hstatus, hshow⟩ := h.shows id _ hworker
      exact ⟨f status, by rw [if_pos rfl, hstatus]; rfl, hshows status hshow⟩
    · rw [if_neg hother] at hget ⊢
      exact h.shows other worker hget

/-- One worker changes its phase, and neither the permits nor what users see change. -/
lemma Accounts.setPhase (h : Accounts spare s) {id : String} {w : Workflow} {p q : Phase π}
    (hworker : Keyed.get? s.workers id = some ⟨w, p⟩)
    (hshows : ∀ status, p.Shows status → q.Shows status)
    (hholds : q.holds = p.holds) (hqueued : p.isQueued = false ∧ q.isQueued = false) :
    Accounts spare (s.setPhase id q) := by
  refine h.change (fun status => status) hworker rfl (Keyed.modify_id _ _).symm rfl hshows ?_
    (h.mem_queue_of_not_queued hworker hqueued.1 hqueued.2) h.queueDistinct
  rw [hholds]
  rfl

/-! ## Giving a permit back -/

/-- A permit that is given back is spare until the phase of the worker says so, too. -/
lemma Accounts.releasePermit (h : Accounts spare s) : Accounts (spare + 1) s.releasePermit := by
  unfold EngineState.releasePermit Permits.release
  rcases hqueue : s.permits.queue with _ | ⟨id, rest⟩
  · -- nobody waits for it
    have hbalance := h.balance
    refine ⟨h.keys, h.distinct, ?_, ?_, List.Pairwise.nil, h.shows⟩
    · show s.permits.free + 1 + s.holders = s.config.limit + (spare + 1)
      omega
    · intro id
      show id ∈ [] ↔ ∃ worker, Keyed.get? s.workers id = some worker ∧ _
      rw [← hqueue]
      exact h.queue id
  · -- it goes to the first in the queue
    obtain ⟨⟨w, p⟩, hworker, hqueued⟩ := (h.queue id).1 (by rw [hqueue]; exact List.mem_cons_self)
    have hdistinct := h.queueDistinct
    rw [hqueue, List.nodup_cons] at hdistinct
    cases p with
    | queued record =>
      dsimp only
      rw [hworker]
      refine h.change (fun status => status) hworker rfl (Keyed.modify_id _ _).symm rfl
        (fun _ hshow => hshow) ?_ ?_ hdistinct.2
      · show s.permits.free + 1 + spare = s.permits.free + 0 + (spare + 1)
        omega
      · intro other
        show other ∈ rest ↔ _
        rw [hqueue, List.mem_cons]
        by_cases hother : other = id
        · subst hother
          simp [hdistinct.1, Phase.isQueued]
        · simp [hother]
    | _ => cases hqueued

/-- Giving a permit back does not touch the workers that do not wait for one. -/
lemma get?_releasePermit (s : EngineState ε π ω) {id : String} {worker : Worker π}
    (hworker : Keyed.get? s.workers id = some worker) (hqueued : worker.phase.isQueued = false) :
    Keyed.get? s.releasePermit.workers id = some worker := by
  unfold EngineState.releasePermit
  split
  · exact hworker
  · next other permits _ =>
    dsimp only
    split
    · next w record hother =>
      simp only [wake, EngineState.setPhase, Keyed.get?_modify]
      split
      · next heq =>
        subst heq
        rw [hworker] at hother
        cases hother
        cases hqueued
      · exact hworker
    · exact hworker

/-! ## Moves of workers -/

variable (ex : Executors ε π ω)

/-- A run ends without a permit. -/
lemma Accounts.finishRun (h : Accounts spare s) {id : String} {w : Workflow} {p : Phase π}
    {spare' : ℕ} (hworker : Keyed.get? s.workers id = some ⟨w, p⟩)
    (hspare : spare = p.holds.toNat + spare') (hqueued : p.isQueued = false) (record : Execution)
    (outcome : Traversal.Outcome) : Accounts spare' (s.finishRun ex id record outcome) := by
  refine h.change (fun status => status) hworker rfl (Keyed.modify_id _ _).symm rfl ?_ ?_
    (h.mem_queue_of_not_queued hworker hqueued rfl) h.queueDistinct
  · cases p <;> simp_all [Phase.Shows]
  · show s.permits.free + 0 + spare = _
    omega

/-- A run gives its permit back and ends. -/
lemma Accounts.leave (h : Accounts 0 s) {id : String} {w : Workflow} {p : Phase π}
    (hworker : Keyed.get? s.workers id = some ⟨w, p⟩) (hholds : p.holds = true)
    (record : Execution) (outcome : Traversal.Outcome) :
    Accounts 0 (s.leave ex id record outcome) := by
  have hqueued : p.isQueued = false := by cases p <;> first | rfl | cases hholds
  have hregistry : Accounts 0 (s.releaseRegistry (.worker id)) := h.congr rfl rfl rfl rfl
  exact hregistry.releasePermit.finishRun ex (get?_releasePermit _ hworker hqueued)
    (by rw [hholds]; rfl) hqueued record outcome

lemma Accounts.takeNode (h : Accounts 0 s) {id : String} {w : Workflow} {t : Traversal}
    (hworker : Keyed.get? s.workers id = some ⟨w, .traversing t⟩) :
    Accounts 0 (s.takeNode ex id w t) := by
  unfold EngineState.takeNode
  split
  · exact h.leave ex hworker rfl _ _
  · exact h.setPhase hworker (fun _ hshow => hshow) rfl ⟨rfl, rfl⟩
  · next next events _ =>
    have hemit : Accounts 0 (s.emit events) := h.congr rfl rfl rfl rfl
    exact hemit.setPhase hworker (fun _ hshow => hshow) rfl ⟨rfl, rfl⟩
  · next event _ =>
    have hemit : Accounts 0 (s.emit [event]) := h.congr rfl rfl rfl rfl
    exact hemit.setPhase hworker (fun _ hshow => hshow) rfl ⟨rfl, rfl⟩

/-- Cancelling a run changes nothing that users see of it. -/
lemma statuses_updateActive (s : EngineState ε π ω) (id : String) {f : ActiveRun → ActiveRun}
    (h : ∀ run, (f run).status = run.status) : (s.updateActive id f).statuses = s.statuses := by
  simp only [statuses, updateActive, Keyed.modify, List.map_map]
  refine List.map_congr_left fun entry _ => ?_
  simp only [Function.comp_apply]
  split
  · rw [h]
  · rfl

lemma Accounts.heed (h : Accounts spare s) (id : String) (node : Node) (progress : Progress π)
    (world : ω) : Accounts spare (s.heed ex id node progress world) := by
  unfold EngineState.heed
  dsimp only
  split
  · exact h.congr (statuses_updateActive _ id fun _ => rfl) rfl rfl rfl
  · exact h.congr rfl rfl rfl rfl

lemma Accounts.attend (h : Accounts 0 s) {id : String} {w : Workflow} {t : Traversal}
    {node : Node} {p : π} (hworker : Keyed.get? s.workers id = some ⟨w, .calling t node p⟩) :
    Accounts 0 (s.attend ex id w t node p) := by
  unfold EngineState.attend
  dsimp only
  rw [← workers_heed ex s id node (ex.poll p (s.isCancelled id) s.world).1
    (ex.poll p (s.isCancelled id) s.world).2] at hworker
  have hheed := h.heed ex id node (ex.poll p (s.isCancelled id) s.world).1
    (ex.poll p (s.isCancelled id) s.world).2
  split
  · exact hheed.setPhase hworker (fun _ hshow => hshow) rfl ⟨rfl, rfl⟩
  · exact hheed.leave ex hworker rfl _ _
  · next answer _ =>
    have hemit : Accounts 0 ((s.heed ex id node (ex.poll p (s.isCancelled id) s.world).1
        (ex.poll p (s.isCancelled id) s.world).2).emit [(t.complete w node answer
          (ex.now (ex.poll p (s.isCancelled id) s.world).2)).2]) := hheed.congr rfl rfl rfl rfl
    exact hemit.setPhase hworker (fun _ hshow => hshow) rfl ⟨rfl, rfl⟩

lemma statuses_setRunning (s : EngineState ε π ω) (id : String) :
    (s.updateActive id fun run => { run with status := .running }).statuses =
      Keyed.modify s.statuses id fun _ => .running := by
  simp only [statuses, updateActive, Keyed.modify, List.map_map]
  refine List.map_congr_left fun entry _ => ?_
  simp only [Function.comp_apply]
  split <;> rfl

/-- A worker that has its permit is let in. -/
lemma Accounts.admitRun (h : Accounts 0 s) {id : String} {w w' : Workflow} {p : Phase π}
    (permits : Permits) (hworker : Keyed.get? s.workers id = some ⟨w, p⟩)
    (hfree : permits.free + 1 = s.permits.free + p.holds.toNat)
    (hqueue : permits.queue = s.permits.queue) (hqueued : p.isQueued = false)
    (record : Execution) : Accounts 0 ({ s with permits }.admitRun ex id w' record) := by
  refine h.change (fun _ => .running) hworker rfl (statuses_setRunning s id) rfl
    (fun _ _ => rfl) hfree ?_ ?_
  · intro other
    show other ∈ permits.queue ↔ _
    rw [hqueue]
    exact h.mem_queue_of_not_queued hworker hqueued rfl other
  · show permits.queue.Nodup
    rw [hqueue]
    exact h.queueDistinct

lemma Accounts.beginTraversal (h : Accounts 0 s) {id : String} {w w' : Workflow}
    {record record' : Execution}
    (hworker : Keyed.get? s.workers id = some ⟨w, .awaitingRegistry record⟩) :
    Accounts 0 (s.beginTraversal ex id w' record') := by
  unfold EngineState.beginTraversal
  split
  · exact h.leave ex hworker rfl _ _
  · exact h.setPhase hworker (fun _ hshow => hshow) rfl ⟨rfl, rfl⟩

/-- A run that asks for a permit is let in at once, or queues. -/
lemma Accounts.acquire (h : Accounts 0 s) {id : String} {w : Workflow} {record : Execution}
    (hworker : Keyed.get? s.workers id = some ⟨w, .spawned record⟩) :
    Accounts 0 (match s.permits.acquire id with
      | (true, permits) => { s with permits }.admitRun ex id w record
      | (false, permits) => { s with permits }.setPhase id (.queued record)) := by
  have hnew : id ∉ s.permits.queue := by
    rw [h.mem_queue_iff hworker]
    exact Bool.false_ne_true
  unfold Permits.acquire
  split
  · next permits hacquire =>
    split at hacquire
    · next hfree =>
      -- one of the free permits is taken
      cases hacquire
      refine h.admitRun ex { s.permits with free := s.permits.free - 1 } hworker ?_ rfl rfl record
      show s.permits.free - 1 + 1 = s.permits.free + 0
      omega
    · cases hacquire
  · next permits hacquire =>
    split at hacquire
    · cases hacquire
    · cases hacquire
      refine h.change (fun status => status) hworker rfl (Keyed.modify_id _ _).symm rfl
        (fun _ hshow => hshow) rfl ?_ ?_
      · intro other
        show other ∈ s.permits.queue ++ [id] ↔ _
        rw [List.mem_append, List.mem_singleton]
        by_cases hother : other = id
        · simp [hother, Phase.isQueued]
        · simp [hother]
      · show (s.permits.queue ++ [id]).Nodup
        rw [List.nodup_append]
        refine ⟨h.queueDistinct, by simp, ?_⟩
        intro a ha b hb
        rw [List.mem_singleton] at hb
        rintro rfl
        exact hnew (hb ▸ ha)

/-- A worker that waits for a permit gives up. -/
lemma Accounts.giveUp (h : Accounts 0 s) {id : String} {w : Workflow} {record : Execution}
    (hworker : Keyed.get? s.workers id = some ⟨w, .queued record⟩) (outcome : Traversal.Outcome) :
    Accounts 0 ({ s with permits := s.permits.leave id }.finishRun ex id record outcome) := by
  refine h.change (fun status => status) hworker rfl (Keyed.modify_id _ _).symm rfl
    (fun _ hshow => Or.inl hshow) rfl ?_ ?_
  · intro other
    show other ∈ s.permits.queue.filter (· ≠ id) ↔ _
    rw [List.mem_filter]
    by_cases hother : other = id
    · simp [hother, Phase.isQueued]
    · simp [hother]
  · exact h.queueDistinct.filter _

/-- A worker whose record is stored held no permit. -/
lemma Accounts.store (h : Accounts 0 s) {id : String} {w : Workflow} {record : Execution}
    (hworker : Keyed.get? s.workers id = some ⟨w, .storing record⟩) :
    Accounts 0 (s.store id record) := by
  have hstatuses : (s.store id record).statuses = Keyed.erase s.statuses id := by
    simp only [statuses, EngineState.store, Keyed.erase, List.filter_map]
    rfl
  have hworkers : (s.store id record).workers = Keyed.erase s.workers id := rfl
  refine ⟨?_, ?_, ?_, ?_, h.queueDistinct, ?_⟩
  · rw [hstatuses, hworkers, Keyed.keys_erase, Keyed.keys_erase, h.keys]
  · rw [hworkers, Keyed.Distinct, Keyed.keys_erase]
    exact List.Pairwise.filter _ h.distinct
  · rw [holders, hworkers, countP_erase h.distinct hworker (p := fun worker => worker.phase.holds)
      rfl]
    exact h.balance
  · intro other
    show other ∈ s.permits.queue ↔ _
    rw [h.queue, hworkers]
    by_cases hother : other = id
    · subst hother
      rw [hworker, Keyed.get?_erase_self]
      simp [Phase.isQueued]
    · rw [Keyed.get?_erase_of_ne _ hother]
  · intro other worker hget
    rw [hworkers] at hget
    rw [hstatuses]
    by_cases hother : other = id
    · subst hother
      rw [Keyed.get?_erase_self] at hget
      cases hget
    · rw [Keyed.get?_erase_of_ne _ hother] at hget ⊢
      exact h.shows other worker hget

lemma Accounts.tell (h : Accounts spare s) (id : String) : Accounts spare (s.tell id) := by
  unfold EngineState.tell
  split
  · exact h.congr rfl rfl rfl rfl
  · exact h

lemma Accounts.pollWorker (h : Accounts 0 s) (id : String) : Accounts 0 (s.pollWorker ex id) := by
  unfold EngineState.pollWorker
  rcases hworker : Keyed.get? s.workers id with _ | ⟨w, phase⟩
  · exact h.tell id
  · cases phase with
    | spawned record =>
      dsimp only
      split
      · exact h.finishRun ex hworker rfl rfl record _
      · exact h.acquire ex hworker
    | queued record =>
      dsimp only
      split
      · exact h.giveUp ex hworker _
      · exact h
    | permitted record =>
      dsimp only
      split
      · exact h.releasePermit.finishRun ex (get?_releasePermit s hworker rfl) rfl rfl record _
      · exact h.admitRun ex s.permits hworker rfl rfl rfl record
    | awaitingRegistry record =>
      dsimp only
      split
      · exact h.beginTraversal ex hworker
      · exact h
    | traversing t => exact h.takeNode ex hworker
    | calling t node p => exact h.attend ex hworker
    | storing record => exact h.store hworker

/-! ## Acts -/

lemma Accounts.pollCall (h : Accounts 0 s) (k : ℕ) : Accounts 0 (s.pollCall ex k) := by
  by_cases hfirst : s.calls.lookup k = some (.made .shutdown)
  · rw [pollCall_shutdown ex s k hfirst]
    have hsame := sameRuns_awaitRuns ex s.closeAdmission.2 k s.closeAdmission.1
    refine h.congr ?_ hsame.workers hsame.permits hsame.config
    rw [statuses, hsame.active]
    simp only [closeAdmission, wake, statuses, List.map_map]
    rfl
  · have hsame := sameRuns_pollCall ex s k hfirst
    exact h.congr (by rw [statuses, hsame.active]; rfl) hsame.workers hsame.permits hsame.config

lemma statuses_insert (active : Keyed ActiveRun) (id : String) (run : ActiveRun) :
    ((Keyed.insert active id run).map fun entry => (entry.1, entry.2.status)) =
      Keyed.insert (active.map fun entry => (entry.1, entry.2.status)) id run.status := by
  induction active with
  | nil => rfl
  | cons entry rest ih =>
    obtain ⟨key, other⟩ := entry
    rw [Keyed.insert, List.map_cons, Keyed.insert]
    split
    · rfl
    · rw [List.map_cons, ih]

/-- A run that is started under a new id has no permit yet. -/
lemma Accounts.execute (h : Accounts 0 s) {id : String} (hnew : id ∉ Keyed.keys s.workers)
    (w : Workflow) (input : Fields) : Accounts 0 (s.execute ex id w input).2 := by
  have hnone := Keyed.get?_eq_none_iff.2 hnew
  unfold EngineState.execute
  split
  · exact h
  · refine ⟨?_, h.distinct.insert _ _, ?_, ?_, h.queueDistinct, ?_⟩
    · simp only [statuses, wake, statuses_insert, Keyed.keys_insert]
      have hkeys := h.keys
      rw [statuses] at hkeys
      rw [hkeys]
    · have hbalance := h.balance
      rw [holders] at hbalance ⊢
      simp only [wake, Keyed.insert_of_not_mem _ hnew, List.countP_append]
      exact hbalance
    · intro other
      simp only [wake, Keyed.get?_insert]
      rw [h.queue]
      by_cases hother : id = other
      · subst hother
        simp [hnone, Phase.isQueued]
      · rw [if_neg hother]
    · intro other worker hget
      simp only [wake, Keyed.get?_insert] at hget
      simp only [statuses, wake, statuses_insert, Keyed.get?_insert]
      by_cases hother : id = other
      · rw [if_pos hother] at hget ⊢
        cases hget
        exact ⟨_, rfl, rfl⟩
      · rw [if_neg hother] at hget ⊢
        exact h.shows other worker hget

lemma Accounts.act (h : Accounts 0 s) {a : Act ω}
    (hnew : ∀ id ∈ Keyed.keys s.workers, a.runId? ≠ some id) : Accounts 0 (s.act ex a) := by
  cases a with
  | move t =>
    cases t with
    | worker id => exact h.pollWorker ex id
    | call k => exact h.pollCall ex k
  | execute id w input => exact h.execute ex (fun hid => hnew id hid rfl) w input
  | cancel id =>
    simp only [EngineState.act, EngineState.cancel]
    split
    · exact h
    split
    · exact h
    · exact h.congr (statuses_updateActive s id (f := fun run => { run with cancelled := true })
        fun _ => rfl) rfl rfl rfl
  | forget id => exact h.congr rfl rfl rfl rfl
  | request k r => exact h.congr rfl rfl rfl rfl
  | abandon k => exact h.congr rfl rfl rfl rfl
  | outside world => exact h.congr rfl rfl rfl rfl

/-- Workers belong to runs that were asked for. -/
lemma workers_asked (registry : Registry ε) (config : EngineConfig) (world : ω)
    (acts : List (Act ω)) {id : String}
    (hid : id ∈
      Keyed.keys ((make registry config world : EngineState ε π ω).after ex acts).workers) :
    id ∈ acts.filterMap Act.runId? := by
  induction acts using List.reverseRecOn with
  | nil => cases hid
  | append_singleton acts a ih =>
    rw [List.filterMap_append, List.mem_append]
    rw [after_concat] at hid
    cases effect_act ex _ a with
    | quiet hsame =>
      rw [hsame.workers] at hid
      exact Or.inl (ih hid)
    | stored other w record ha hworker hact =>
      rw [hact] at hid
      exact Or.inl (ih ((declines_store _ other record).workers id hid))
    | admitted other w input record ha hopen hconfig hfinished hworkers =>
      subst ha
      rw [hworkers, Keyed.keys_insert] at hid
      split at hid
      · exact Or.inl (ih hid)
      · rcases List.mem_append.1 hid with hold | hnew
        · exact Or.inl (ih hold)
        · exact Or.inr hnew
    | forgot other ha =>
      subst ha
      exact Or.inl (ih hid)

/-- In every history the permits are accounted for. -/
lemma accounts_after (registry : Registry ε) (config : EngineConfig) (world : ω)
    (acts : List (Act ω)) (hruns : Act.DistinctRuns acts) :
    Accounts 0 ((make registry config world : EngineState ε π ω).after ex acts) := by
  induction acts using List.reverseRecOn with
  | nil =>
    refine ⟨rfl, List.Pairwise.nil, rfl, fun id => ?_, List.Pairwise.nil, fun id worker hget => ?_⟩
    · simp [make]
    · cases hget
  | append_singleton acts a ih =>
    rw [Act.DistinctRuns, List.filterMap_append, List.nodup_append] at hruns
    obtain ⟨hacts, -, hfresh⟩ := hruns
    rw [after_concat]
    refine (ih hacts).act ex fun id hid hrun => ?_
    refine hfresh id (workers_asked ex registry config world acts hid) id ?_ rfl
    rw [List.filterMap_cons, hrun]
    exact List.mem_cons_self

/-! ## Counting the runs that show as running -/

/-- How many runs were let in and have not left their traversal. -/
def underWayCount (s : EngineState ε π ω) : ℕ :=
  s.workers.countP fun entry => entry.2.phase.underWay

/-- How many runs have left their traversal and still show as running. -/
def departingCount (s : EngineState ε π ω) : ℕ :=
  s.workers.countP fun entry =>
    entry.2.phase.isStoring && Keyed.get? s.statuses entry.1 == some .running

lemma Accounts.runningCount_eq (h : Accounts spare s) :
    s.runningCount = s.underWayCount + s.departingCount := by
  have hstatuses : Keyed.Distinct s.statuses := by
    rw [Keyed.Distinct, h.keys]
    exact h.distinct
  have hrunning : s.runningCount = s.statuses.countP fun entry => entry.2 == .running := by
    rw [runningCount, statuses, List.countP_map]
    rfl
  rw [hrunning, countP_keys hstatuses fun _ status => status == .running, h.keys, underWayCount,
    countP_keys h.distinct fun _ worker => worker.phase.underWay, departingCount,
    countP_keys h.distinct fun id worker =>
      worker.phase.isStoring && Keyed.get? s.statuses id == some .running]
  refine countP_add_of_disjoint fun id hid => ?_
  obtain ⟨worker, hworker⟩ := Keyed.exists_of_mem_keys hid
  obtain ⟨status, hstatus, hshow⟩ := h.shows id worker hworker
  rw [hworker, hstatus]
  exact hshow.running_eq

lemma Accounts.underWayCount_le (h : Accounts 0 s) : s.underWayCount ≤ s.config.limit := by
  have hbalance := h.balance
  have hle : s.underWayCount ≤ s.holders := by
    refine List.countP_mono_left fun entry _ hentry => ?_
    cases hphase : entry.2.phase <;> simp_all [Phase.underWay, Phase.holds]
  omega

lemma config_after (registry : Registry ε) (config : EngineConfig) (world : ω)
    (acts : List (Act ω)) :
    ((make registry config world : EngineState ε π ω).after ex acts).config = config := by
  induction acts using List.reverseRecOn with
  | nil => rfl
  | append_singleton acts a ih =>
    rw [after_concat, config_act, ih]

/-- **The runs that show as running are counted exactly.**  In every history they are the runs
that are under way, of which there are never more than the limit, and those that have given back
their permit and wait for their record to be stored. -/
theorem runningCount_after (ex : Executors ε π ω) (registry : Registry ε) (config : EngineConfig)
    (world : ω) (acts : List (Act ω)) (hruns : Act.DistinctRuns acts) :
    let s : EngineState ε π ω := (make registry config world).after ex acts
    s.runningCount = s.underWayCount + s.departingCount ∧ s.underWayCount ≤ config.limit := by
  have haccounts := accounts_after ex registry config world acts hruns
  refine ⟨haccounts.runningCount_eq, ?_⟩
  have hle := haccounts.underWayCount_le
  rwa [config_after] at hle

/-- Two runs with one permit: the second is let in while the first still shows as running. -/
def handOver : List (Act Unit) :=
  [.execute "first" lone [], .execute "second" lone [], .move (.worker "first"),
    .move (.worker "first"), .move (.worker "first"), .move (.worker "first"),
    .move (.worker "first"), .move (.worker "second")]

theorem runningCount_handOver :
    let s := (promptEngine { maxConcurrent := 1 }).after Executors.prompt handOver
    s.config.limit = 1 ∧ s.runningCount = 2 := ⟨rfl, rfl⟩

/-- One of the two is under way, and the other is departing. -/
theorem runningCount_after_handOver :
    let s := (promptEngine { maxConcurrent := 1 }).after Executors.prompt handOver
    s.departingCount = 1 ∧ s.runningCount = s.underWayCount + s.departingCount ∧
      s.underWayCount ≤ 1 :=
  ⟨rfl, runningCount_after Executors.prompt _ { maxConcurrent := 1 } () handOver
    (show ["first", "second"].Nodup by decide)⟩

end EngineState

end FlowGraph
