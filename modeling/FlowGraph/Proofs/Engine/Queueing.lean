import FlowGraph.Proofs.Engine.Winding
import Mathlib.Data.List.Sublists

/-!
# No permit is lost

Permits are handed out in the order in which runs ask for them.  `PermitMove` lists what an act can
do with them: each time at most one run gets a permit, either a free one when nobody waits, or one
that is given back and goes to the first in the queue.  So a permit is never free while a run
waits (`Thrifty`), and who waits behind a run gets none before it: that is `Ahead`, carried along
the history by `ahead_after`.

When no worker can move, every run waits in the queue or for something that its own traversal needs
(`Waiting`), and then the runs that show as running are as many as there can be.
-/

namespace FlowGraph

namespace Permits

/-- No permit is free while a run waits for one. -/
def Thrifty (p : Permits) : Prop := 0 < p.free → p.queue = []

variable {p p' : Permits} {id : String}

/-- A permit is given at once only when nobody waits. -/
lemma of_acquire_true (h : p.acquire id = (true, p')) : p.queue = [] ∧ p'.queue = [] := by
  unfold acquire at h
  split at h
  · next hfree =>
    rw [← (Prod.mk.inj h).2]
    exact ⟨hfree.2, hfree.2⟩
  · cases h

/-- Who gets no permit at once comes last in the queue. -/
lemma of_acquire_false (h : p.acquire id = (false, p')) :
    ¬(0 < p.free ∧ p.queue = []) ∧ p'.free = p.free ∧ p'.queue = p.queue ++ [id] := by
  unfold acquire at h
  split at h
  · cases h
  · next hfree =>
    rw [← (Prod.mk.inj h).2]
    exact ⟨hfree, rfl, rfl⟩

end Permits

namespace EngineState

variable {ε π ω : Type}

/-- A run holds a permit. -/
def Holds (s : EngineState ε π ω) (id : String) : Prop :=
  ∃ worker, Keyed.get? s.workers id = some worker ∧ worker.phase.holds = true

/-- A run waits for a permit. -/
def Queued (s : EngineState ε π ω) (id : String) : Prop :=
  ∃ worker, Keyed.get? s.workers id = some worker ∧ worker.phase.isQueued = true

/-! ## What can happen to the permits -/

/-- What an act can do with the permits, and who may get one. -/
inductive PermitMove (s s' : EngineState ε π ω) : Prop where
  | stays (hpermits : s'.permits = s.permits) (hholds : ∀ id, s'.Holds id → s.Holds id)
  /-- A run asks for a permit and gets it. -/
  | takes (id : String) (hacquire : s.permits.acquire id = (true, s'.permits))
      (hholds : ∀ other, s'.Holds other → s.Holds other ∨ other = id)
  /-- A run asks for a permit and has to wait. -/
  | queues (id : String) (hacquire : s.permits.acquire id = (false, s'.permits))
      (hholds : ∀ other, s'.Holds other → s.Holds other)
  /-- A cancelled run waits no more. -/
  | leaves (id : String) (hcancelled : s.isCancelled id = true)
      (hpermits : s'.permits = s.permits.leave id)
      (hholds : ∀ other, s'.Holds other → s.Holds other)
  /-- A permit is given back. -/
  | returns (hpermits : s'.permits = s.permits.release.2)
      (hholds : ∀ id, s'.Holds id → s.Holds id ∨ s.permits.release.1 = some id)

section Moves

variable {s s' s'' : EngineState ε π ω} {id other : String} {w : Workflow} {p q : Phase π}

lemma holds_congr (hworkers : s'.workers = s.workers) (h : s'.Holds id) : s.Holds id := by
  rwa [Holds, hworkers] at h

lemma holds_setPhase (h : (s.setPhase id q).Holds other) :
    s.Holds other ∨ other = id ∧ q.holds = true := by
  obtain ⟨worker, hworker, hholds⟩ := h
  simp only [setPhase, Keyed.get?_modify] at hworker
  split at hworker
  · next heq =>
    obtain ⟨before, -, rfl⟩ := Option.map_eq_some_iff.1 hworker
    exact Or.inr ⟨heq.symm, hholds⟩
  · exact Or.inl ⟨worker, hworker, hholds⟩

/-- A worker that holds a permit in its new phase held it before. -/
lemma holds_setPhase_of_holds (hworker : Keyed.get? s.workers id = some ⟨w, p⟩)
    (hp : q.holds = true → p.holds = true) (h : (s.setPhase id q).Holds other) : s.Holds other := by
  rcases holds_setPhase h with hbefore | ⟨rfl, hq⟩
  · exact hbefore
  · exact ⟨_, hworker, hp hq⟩

lemma holds_releasePermit (h : s.releasePermit.Holds id) :
    s.Holds id ∨ s.permits.release.1 = some id := by
  unfold releasePermit at h
  split at h
  · exact Or.inl h
  · next first permits hrelease =>
    dsimp only at h
    split at h
    · rcases holds_setPhase (s := { s with permits }) h with hbefore | ⟨rfl, -⟩
      · exact Or.inl hbefore
      · exact Or.inr (congrArg Prod.fst hrelease)
    · exact Or.inl h

lemma permits_releasePermit (s : EngineState ε π ω) :
    s.releasePermit.permits = s.permits.release.2 := by
  unfold releasePermit
  split
  · next permits hrelease => rw [hrelease]
  · next first permits hrelease =>
    rw [hrelease]
    dsimp only
    split <;> rfl

variable (ex : Executors ε π ω)

lemma holds_finishRun {record : Execution} {outcome : Traversal.Outcome}
    (h : (s.finishRun ex id record outcome).Holds other) : s.Holds other := by
  rcases holds_setPhase h with hbefore | ⟨-, hholds⟩
  · exact hbefore
  · cases hholds

/-- A run that ends without giving back a permit. -/
lemma permitMove_finishRun (s : EngineState ε π ω) (id : String) (record : Execution)
    (outcome : Traversal.Outcome) : PermitMove s (s.finishRun ex id record outcome) :=
  .stays rfl fun _ => holds_finishRun ex

/-- A run that leaves its traversal gives its permit back. -/
lemma permitMove_leave (hpermits : s'.permits = s.permits) (hworkers : s'.workers = s.workers)
    (id : String) (record : Execution) (outcome : Traversal.Outcome) :
    PermitMove s (s'.leave ex id record outcome) := by
  have hrelease := permits_releasePermit (s'.releaseRegistry (.worker id))
  refine .returns (hrelease.trans (by rw [← hpermits]; rfl)) fun other hother => ?_
  rw [← hpermits]
  exact (holds_releasePermit (holds_finishRun ex hother)).imp_left (holds_congr hworkers)

lemma permitMove_takeNode {t : Traversal}
    (hworker : Keyed.get? s.workers id = some ⟨w, .traversing t⟩) :
    PermitMove s (s.takeNode ex id w t) := by
  unfold takeNode
  split
  · exact permitMove_leave ex rfl rfl id _ _
  · exact .stays rfl fun _ => holds_setPhase_of_holds hworker fun _ => rfl
  · next events _ =>
    exact .stays rfl fun _ => holds_setPhase_of_holds (s := s.emit events) hworker fun _ => rfl
  · next event _ =>
    exact .stays rfl fun _ => holds_setPhase_of_holds (s := s.emit [event]) hworker fun _ => rfl

lemma permits_heed (s : EngineState ε π ω) (id : String) (node : Node) (progress : Progress π)
    (world : ω) : (s.heed ex id node progress world).permits = s.permits := by
  unfold heed
  dsimp only
  split <;> rfl

lemma permitMove_attend {t : Traversal} {node : Node} {r : π}
    (hworker : Keyed.get? s.workers id = some ⟨w, .calling t node r⟩) :
    PermitMove s (s.attend ex id w t node r) := by
  have hpermits := permits_heed ex s id node (ex.poll r (s.isCancelled id) s.world).1
    (ex.poll r (s.isCancelled id) s.world).2
  have hworkers := workers_heed ex s id node (ex.poll r (s.isCancelled id) s.world).1
    (ex.poll r (s.isCancelled id) s.world).2
  have hheeded : ∀ {q : Phase π} {s' : EngineState ε π ω}, q.holds = true → s'.permits = s.permits →
      s'.workers = s.workers → PermitMove s (s'.setPhase id q) := by
    intro q s' hq hsame hworkers'
    refine .stays hsame fun other hother => ?_
    rw [← hworkers'] at hworker
    exact holds_congr hworkers' (holds_setPhase_of_holds hworker (fun _ => rfl) hother)
  unfold attend
  dsimp only
  split
  · exact hheeded rfl hpermits hworkers
  · exact permitMove_leave ex hpermits hworkers id _ _
  · exact hheeded rfl hpermits hworkers

lemma permitMove_beginTraversal {record record' : Execution} {w' : Workflow}
    (hworker : Keyed.get? s.workers id = some ⟨w, .awaitingRegistry record⟩) :
    PermitMove s (s.beginTraversal ex id w' record') := by
  unfold beginTraversal
  split
  · exact permitMove_leave ex rfl rfl id _ _
  · exact .stays rfl fun _ => holds_setPhase_of_holds hworker fun _ => rfl

lemma permitMove_tell (s : EngineState ε π ω) (id : String) : PermitMove s (s.tell id) := by
  unfold tell
  split <;> exact .stays rfl fun _ hother => hother

/-- What the move of a worker does with the permits. -/
lemma permitMove_pollWorker (s : EngineState ε π ω) (id : String) :
    PermitMove s (s.pollWorker ex id) := by
  unfold pollWorker
  rcases hworker : Keyed.get? s.workers id with _ | ⟨w, phase⟩
  · exact permitMove_tell s id
  · cases phase with
    | spawned record =>
      dsimp only
      split
      · exact permitMove_finishRun ex s id record _
      · split
        · next permits hacquire =>
          refine .takes id hacquire fun other hother => ?_
          exact (holds_setPhase hother).imp_right fun h => h.1
        · next permits hacquire =>
          refine .queues id hacquire fun other hother => ?_
          rcases holds_setPhase (s := { s with permits }) hother with hbefore | ⟨-, hholds⟩
          · exact hbefore
          · cases hholds
    | queued record =>
      dsimp only
      split
      · next hcancelled =>
        refine .leaves id hcancelled rfl fun other hother => ?_
        have hwaiting := holds_finishRun ex (s := { s with permits := s.permits.leave id }) hother
        exact hwaiting
      · exact .stays rfl fun _ hother => hother
    | permitted record =>
      dsimp only
      split
      · refine .returns (permits_releasePermit s) fun other hother => ?_
        exact holds_releasePermit (holds_finishRun ex hother)
      · exact .stays rfl fun other hother => holds_setPhase_of_holds hworker (fun _ => rfl) hother
    | awaitingRegistry record =>
      dsimp only
      split
      · exact permitMove_beginTraversal ex hworker
      · exact .stays rfl fun _ hother => hother
    | traversing t => exact permitMove_takeNode ex hworker
    | calling t node r => exact permitMove_attend ex hworker
    | storing record =>
      refine .stays rfl fun other hother => ?_
      obtain ⟨worker, hget, hholds⟩ := hother
      have herased : Keyed.get? (Keyed.erase s.workers id) other = some worker := hget
      by_cases hsame : other = id
      · subst hsame
        rw [Keyed.get?_erase_self] at herased
        cases herased
      · rw [Keyed.get?_erase_of_ne _ hsame] at herased
        exact ⟨worker, herased, hholds⟩

lemma permitMove_pollCall (s : EngineState ε π ω) (k : ℕ) : PermitMove s (s.pollCall ex k) := by
  by_cases hfirst : s.calls.lookup k = some (.made .shutdown)
  · have hsame := sameRuns_awaitRuns ex s.closeAdmission.2 k s.closeAdmission.1
    rw [pollCall_shutdown ex s k hfirst]
    exact .stays hsame.permits fun _ => holds_congr hsame.workers
  · have hsame := sameRuns_pollCall ex s k hfirst
    exact .stays hsame.permits fun _ => holds_congr hsame.workers

/-- **What an act does with the permits.** -/
lemma permitMove_act (s : EngineState ε π ω) (a : Act ω) : PermitMove s (s.act ex a) := by
  cases a with
  | move t =>
    cases t with
    | worker id => exact permitMove_pollWorker ex s id
    | call k => exact permitMove_pollCall ex s k
  | execute id w input =>
    simp only [act, execute]
    split
    · exact .stays rfl fun _ hother => hother
    · refine .stays rfl fun other hother => ?_
      obtain ⟨worker, hget, hholds⟩ := hother
      simp only [wake, Keyed.get?_insert] at hget
      split at hget
      · cases hget
        cases hholds
      · exact ⟨worker, hget, hholds⟩
  | cancel id =>
    simp only [act, cancel]
    split
    · exact .stays rfl fun _ hother => hother
    · split <;> exact .stays rfl fun _ hother => hother
  | forget id => exact .stays rfl fun _ hother => hother
  | request k r => exact .stays rfl fun _ hother => hother
  | abandon k => exact .stays rfl fun _ hother => hother
  | outside world => exact .stays rfl fun _ hother => hother

end Moves

/-! ## No permit is free while a run waits -/

lemma PermitMove.thrifty {s s' : EngineState ε π ω} (h : PermitMove s s')
    (hs : s.permits.Thrifty) : s'.permits.Thrifty := by
  cases h with
  | stays hpermits _ => rwa [hpermits]
  | takes id hacquire _ => exact fun _ => (Permits.of_acquire_true hacquire).2
  | queues id hacquire _ =>
    obtain ⟨hnone, hfree, -⟩ := Permits.of_acquire_false hacquire
    intro hpositive
    rw [hfree] at hpositive
    exact absurd ⟨hpositive, hs hpositive⟩ hnone
  | leaves id _ hpermits _ =>
    intro hfree
    rw [hpermits] at hfree ⊢
    rw [Permits.leave, hs hfree]
    rfl
  | returns hpermits _ =>
    rw [hpermits]
    unfold Permits.release
    split
    · next hqueue => exact fun _ => hqueue
    · next id rest hqueue =>
      intro hfree
      rw [hs hfree] at hqueue
      cases hqueue

section After

variable (ex : Executors ε π ω) (registry : Registry ε) (config : EngineConfig) (world : ω)

lemma thrifty_after (acts : List (Act ω)) :
    ((make registry config world : EngineState ε π ω).after ex acts).permits.Thrifty := by
  induction acts using List.reverseRecOn with
  | nil => exact fun _ => rfl
  | append_singleton acts a ih =>
    rw [after_concat]
    exact (permitMove_act ex _ a).thrifty ih

/-! ## First come, first served -/

/-- A run has asked for a permit in a history. -/
def Asked (ex : Executors ε π ω) (start : EngineState ε π ω) (acts : List (Act ω)) (id : String) :
    Prop :=
  ∃ before, before <+: acts ∧ ((start.after ex before).Queued id ∨ (start.after ex before).Holds id)

/-- A run was given a permit in a history. -/
def Granted (ex : Executors ε π ω) (start : EngineState ε π ω) (acts : List (Act ω))
    (id : String) : Prop :=
  ∃ before, before <+: acts ∧ (start.after ex before).Holds id

/-- A run was cancelled while it waited for a permit. -/
def GaveUp (ex : Executors ε π ω) (start : EngineState ε π ω) (acts : List (Act ω)) (id : String) :
    Prop :=
  ∃ before, before <+: acts ∧ (start.after ex before).Queued id ∧
    (start.after ex before).isCancelled id = true

section

variable {ex} {start : EngineState ε π ω} {acts : List (Act ω)} {a : Act ω} {id : String}

lemma Granted.append (h : Granted ex start acts id) (more : List (Act ω)) :
    Granted ex start (acts ++ more) id := by
  obtain ⟨before, hbefore, hholds⟩ := h
  exact ⟨before, hbefore.trans (List.prefix_append _ _), hholds⟩

lemma GaveUp.append (h : GaveUp ex start acts id) (more : List (Act ω)) :
    GaveUp ex start (acts ++ more) id := by
  obtain ⟨before, hbefore, hqueued⟩ := h
  exact ⟨before, hbefore.trans (List.prefix_append _ _), hqueued⟩

/-- A run is given a permit in the last act of a history, or it was given one before. -/
lemma granted_concat (h : Granted ex start (acts ++ [a]) id) :
    Granted ex start acts id ∨ (start.after ex (acts ++ [a])).Holds id := by
  obtain ⟨before, hbefore, hholds⟩ := h
  rcases List.prefix_concat_iff.1 hbefore with rfl | hearlier
  · exact Or.inr hholds
  · exact Or.inl ⟨before, hearlier, hholds⟩

end

/-- One run stands before another in a queue, if the other stands there, too. -/
def Ahead (queue : List String) (id other : String) : Prop :=
  id ∈ queue ∧ (other ∈ queue → [id, other].Sublist queue)

/-- Who stands before another is not overtaken. -/
lemma PermitMove.ahead {s s' : EngineState ε π ω} (h : PermitMove s s')
    (hdistinct : s.permits.queue.Nodup) {id other : String}
    (hs : Ahead s.permits.queue id other) (hstill : id ∈ s'.permits.queue) :
    Ahead s'.permits.queue id other := by
  obtain ⟨hid, hahead⟩ := hs
  refine ⟨hstill, fun hother => ?_⟩
  cases h with
  | stays hpermits _ =>
    rw [hpermits] at hother ⊢
    exact hahead hother
  | takes x hacquire _ =>
    rw [(Permits.of_acquire_true hacquire).1] at hid
    cases hid
  | queues x hacquire _ =>
    obtain ⟨-, -, hqueue⟩ := Permits.of_acquire_false hacquire
    rw [hqueue] at hother ⊢
    rcases List.mem_append.1 hother with hbefore | hlast
    · exact (hahead hbefore).trans (List.sublist_append_left _ _)
    · -- the other one comes last
      rw [List.mem_singleton.1 hlast]
      exact (List.singleton_sublist.2 hid).append (List.Sublist.refl [x])
  | leaves x _ hpermits _ =>
    have hqueue : s'.permits.queue = s.permits.queue.filter (· ≠ x) := by rw [hpermits]; rfl
    rw [hqueue] at hother hstill ⊢
    rw [List.mem_filter] at hother hstill
    have hboth : [id, other].filter (· ≠ x) = [id, other] := List.filter_eq_self.2
      (List.forall_mem_cons.2 ⟨hstill.2, List.forall_mem_singleton.2 hother.2⟩)
    rw [← hboth]
    exact (hahead hother.1).filter _
  | returns hpermits _ =>
    rcases hqueue : s.permits.queue with _ | ⟨first, rest⟩
    · rw [hqueue] at hid
      cases hid
    · have hrest : s'.permits.queue = rest := by rw [hpermits, Permits.release, hqueue]
      rw [hqueue] at hahead hdistinct
      rw [hrest] at hother hstill ⊢
      -- the first one is gone, and it is not the one that still waits
      have hsub := hahead (List.mem_cons_of_mem _ hother)
      cases hsub with
      | cons _ hsub => exact hsub
      | cons_cons _ _ => exact absurd hstill (List.nodup_cons.1 hdistinct).1

/-- Who stands behind another is given no permit. -/
lemma PermitMove.not_holds {s s' : EngineState ε π ω} (h : PermitMove s s')
    (hdistinct : s.permits.queue.Nodup) {id other : String} (hne : id ≠ other)
    (hs : Ahead s.permits.queue id other) (hother : ¬s.Holds other) : ¬s'.Holds other := by
  obtain ⟨hid, hahead⟩ := hs
  intro hholds'
  cases h with
  | stays _ hholds | queues _ _ hholds | leaves _ _ _ hholds => exact hother (hholds _ hholds')
  | takes x hacquire _ =>
    rw [(Permits.of_acquire_true hacquire).1] at hid
    cases hid
  | returns hpermits hholds =>
    rcases hholds _ hholds' with hbefore | hfirst
    · exact hother hbefore
    · rcases hqueue : s.permits.queue with _ | ⟨first, rest⟩
      · rw [hqueue] at hid
        cases hid
      · rw [Permits.release, hqueue] at hfirst
        cases hfirst
        rw [hqueue] at hahead hdistinct
        have hsub := hahead List.mem_cons_self
        cases hsub with
        | cons _ hsub =>
          have hlater := hsub.subset (List.mem_cons_of_mem _ (List.mem_singleton_self _))
          exact (List.nodup_cons.1 hdistinct).1 hlater
        | cons_cons _ _ => exact hne rfl

/-- A run that waits for a permit waits until it is given one, unless it is cancelled. -/
lemma queued_after (acts more : List (Act ω)) (hruns : Act.DistinctRuns (acts ++ more))
    {id : String} (h : ((make registry config world : EngineState ε π ω).after ex acts).Queued id)
    (hgranted : ¬Granted ex (make registry config world : EngineState ε π ω) (acts ++ more) id)
    (hgaveUp : ¬GaveUp ex (make registry config world : EngineState ε π ω) (acts ++ more) id) :
    ((make registry config world : EngineState ε π ω).after ex (acts ++ more)).Queued id := by
  induction more using List.reverseRecOn with
  | nil => rwa [List.append_nil]
  | append_singleton more a ih =>
    rw [← List.append_assoc] at hruns hgranted hgaveUp ⊢
    have hbefore := ih (distinctRuns_of_append hruns) (fun h => hgranted (h.append _))
      (fun h => hgaveUp (h.append _))
    have hwaits := hbefore
    obtain ⟨⟨w, p⟩, hworker, hqueued⟩ := hbefore
    have hnamed := recordsNamed_after ex registry config world (acts ++ more)
    have hasked := workers_asked ex registry config world _ (Keyed.mem_keys_of_get? hworker)
    have hlater : ∀ q : Phase π, Keyed.get? ((make registry config world : EngineState ε π ω).after
        ex (acts ++ more ++ [a])).workers id = some ⟨w, q⟩ → q.holds = false := by
      intro q hq
      rw [← Bool.not_eq_true]
      exact fun hholds => hgranted ⟨_, List.prefix_rfl, _, hq, hholds⟩
    rw [after_concat] at hlater ⊢
    cases runEffect_act ex hnamed (not_asked_of_distinct hruns hasked) hworker with
    | stays hsame _ => exact ⟨_, hsame, hqueued⟩
    | turns q events hturn hnow _ =>
      cases hturn with
      | grant => cases hlater _ hnow
      | letIn _ _ => cases hlater _ hnow
      | finish hends _ _ _ =>
        cases hends with
        | cancelled _ hcancelled =>
          exact absurd ⟨_, List.prefix_append _ _, hwaits, hcancelled⟩ hgaveUp
        | _ => cases hqueued
      | _ => cases hqueued
    | stores record hphase _ =>
      subst hphase
      cases hqueued

lemma mem_queue_of_queued {s : EngineState ε π ω} (h : Accounts 0 s) {id : String}
    (hqueued : s.Queued id) : id ∈ s.permits.queue :=
  (h.queue id).2 hqueued

/-- Who stands behind another in the queue is not given a permit by the next act. -/
lemma not_granted_concat {acts : List (Act ω)}
    (haccounts : Accounts 0 ((make registry config world : EngineState ε π ω).after ex acts))
    {id other : String} (hne : id ≠ other)
    (hahead : Ahead ((make registry config world : EngineState ε π ω).after ex acts).permits.queue
      id other)
    (hnone : ¬Granted ex (make registry config world : EngineState ε π ω) acts other) (a : Act ω) :
    ¬Granted ex (make registry config world : EngineState ε π ω) (acts ++ [a]) other := by
  intro hlater
  rcases granted_concat hlater with hbefore | hholds
  · exact hnone hbefore
  · have hmove := permitMove_act ex
      ((make registry config world : EngineState ε π ω).after ex acts) a
    rw [after_concat] at hholds
    exact hmove.not_holds haccounts.queueDistinct hne hahead
      (fun hnow => hnone ⟨_, List.prefix_rfl, hnow⟩) hholds

/-- A run has been in the queue since it asked, if it was not given a permit and did not give up. -/
lemma mem_queue_of_asked (first more : List (Act ω)) (hruns : Act.DistinctRuns (first ++ more))
    {id : String} (hasked : Asked ex (make registry config world : EngineState ε π ω) first id)
    (hgranted : ¬Granted ex (make registry config world : EngineState ε π ω) (first ++ more) id)
    (hgaveUp : ¬GaveUp ex (make registry config world : EngineState ε π ω) (first ++ more) id) :
    id ∈ ((make registry config world : EngineState ε π ω).after ex
      (first ++ more)).permits.queue := by
  obtain ⟨before, ⟨later, rfl⟩, hasked⟩ := hasked
  rw [List.append_assoc] at hruns hgranted hgaveUp ⊢
  have hwaits : ((make registry config world : EngineState ε π ω).after ex before).Queued id :=
    hasked.resolve_right fun hholds => hgranted ⟨before, List.prefix_append _ _, hholds⟩
  exact mem_queue_of_queued (accounts_after ex registry config world _ hruns)
    (queued_after ex registry config world before _ hruns hwaits hgranted hgaveUp)

/-- As long as a run waits, no run that had not asked before it is given a permit. -/
lemma ahead_after (first more : List (Act ω)) (hruns : Act.DistinctRuns (first ++ more))
    {id other : String}
    (hasked : Asked ex (make registry config world : EngineState ε π ω) first id)
    (hother : ¬Asked ex (make registry config world : EngineState ε π ω) first other)
    (hgranted : ¬Granted ex (make registry config world : EngineState ε π ω) (first ++ more) id)
    (hgaveUp : ¬GaveUp ex (make registry config world : EngineState ε π ω) (first ++ more) id) :
    Ahead ((make registry config world : EngineState ε π ω).after ex
        (first ++ more)).permits.queue id other ∧
      ¬Granted ex (make registry config world : EngineState ε π ω) (first ++ more) other := by
  have hne : id ≠ other := by
    rintro rfl
    exact hother hasked
  induction more using List.reverseRecOn with
  | nil =>
    have hfirst := mem_queue_of_asked ex registry config world first [] hruns hasked hgranted hgaveUp
    rw [List.append_nil] at hruns hfirst ⊢
    have haccounts := accounts_after ex registry config world first hruns
    refine ⟨⟨hfirst, fun hmem => ?_⟩, fun ⟨before, hbefore, hholds⟩ => ?_⟩
    · exact absurd ⟨first, List.prefix_rfl, Or.inl ((haccounts.queue other).1 hmem)⟩ hother
    · exact hother ⟨before, hbefore, Or.inr hholds⟩
  | append_singleton more a ih =>
    have hstill := mem_queue_of_asked ex registry config world first _ hruns hasked hgranted hgaveUp
    rw [← List.append_assoc] at hruns hgranted hgaveUp hstill ⊢
    have hbefore := distinctRuns_of_append hruns
    obtain ⟨hahead, hnone⟩ := ih hbefore (fun h => hgranted (h.append _))
      (fun h => hgaveUp (h.append _))
    have haccounts := accounts_after ex registry config world _ hbefore
    have hmove := permitMove_act ex
      ((make registry config world : EngineState ε π ω).after ex (first ++ more)) a
    rw [after_concat] at hstill
    refine ⟨?_, not_granted_concat ex registry config world haccounts hne hahead hnone a⟩
    rw [after_concat]
    exact hmove.ahead haccounts.queueDistinct hahead hstill

/-! ## When no worker can move -/

/-- A worker in this phase waits: for a permit, for the registry, or for its executor. -/
def Waiting (ex : Executors ε π ω) (s : EngineState ε π ω) (id : String) : Phase π → Prop
  | .queued _ => s.isCancelled id = false
  | .awaitingRegistry _ => s.lock.holds (.worker id) = false
  | .calling _ _ p => (s.polled ex id p).1.state.isLeft = true
  | _ => False

instance (s : EngineState ε π ω) (id : String) : ∀ p : Phase π, Decidable (Waiting ex s id p)
  | .queued _ | .awaitingRegistry _ | .calling .. => inferInstanceAs (Decidable (_ = _))
  | .spawned _ | .permitted _ | .traversing _ | .storing _ => inferInstanceAs (Decidable False)

/-- No worker can move. -/
def Still (ex : Executors ε π ω) (s : EngineState ε π ω) : Prop :=
  ∀ entry ∈ s.workers, Waiting ex s entry.1 entry.2.phase

instance (s : EngineState ε π ω) : Decidable (Still ex s) :=
  inferInstanceAs (Decidable (∀ entry ∈ s.workers, Waiting ex s entry.1 entry.2.phase))

/-- A worker that waits stays where it is when it moves; its executor may go on. -/
lemma Waiting.move {s : EngineState ε π ω} {id : String} {w : Workflow} {p : Phase π}
    (h : Waiting ex s id p) (hworker : Keyed.get? s.workers id = some ⟨w, p⟩) :
    ∃ q, Keyed.get? (s.act ex (.move (.worker id))).workers id = some ⟨w, q⟩ ∧
      (q = p ∨ ∃ t node r r', p = .calling t node r ∧ q = .calling t node r') := by
  simp only [act, poll, pollWorker, hworker]
  cases p with
  | queued record =>
    have hcancelled : s.isCancelled id = false := h
    simp only [hcancelled, Bool.false_eq_true, if_false]
    exact ⟨_, hworker, Or.inl rfl⟩
  | awaitingRegistry record =>
    have hlock : s.lock.holds (.worker id) = false := h
    simp only [hlock, Bool.false_eq_true, if_false]
    exact ⟨_, hworker, Or.inl rfl⟩
  | calling t node r =>
    obtain ⟨r', hstate⟩ := Sum.isLeft_iff.1 h
    rw [polled] at hstate
    refine ⟨.calling t node r', ?_, Or.inr ⟨t, node, r, r', rfl, rfl⟩⟩
    simp only [attend, hstate]
    refine get?_setPhase (p := .calling t node r) _ ?_ _
    rw [workers_heed, hworker]
  | _ => exact h.elim

/-- A worker that waits is in the queue, or it has a permit and is under way. -/
lemma Waiting.cases {s : EngineState ε π ω} {id : String} {p : Phase π} (h : Waiting ex s id p) :
    p.isQueued.toNat + p.holds.toNat = 1 ∧ p.holds = p.underWay ∧ p.isStoring = false := by
  cases p with
  | queued | awaitingRegistry | calling => exact ⟨rfl, rfl, rfl⟩
  | _ => exact h.elim

/-- When no worker can move, as many runs show as running as there can be. -/
lemma runningCount_of_still {s : EngineState ε π ω} (h : Accounts 0 s)
    (hthrifty : s.permits.Thrifty) (hstill : Still ex s) :
    s.runningCount = min s.config.limit s.activeIds.length := by
  have hdeparting : s.departingCount = 0 := by
    refine List.countP_eq_zero.2 fun entry hentry => ?_
    rw [(hstill entry hentry).cases.2.2]
    exact Bool.false_ne_true
  have hunderWay : s.underWayCount = s.holders := by
    refine List.countP_congr fun entry hentry => ?_
    rw [(hstill entry hentry).cases.2.1]
  have hactive : s.activeIds.length = s.workers.length := by
    rw [activeIds, ← keys_statuses, h.keys, Keyed.keys, List.length_map]
  -- who does not wait in the queue holds a permit
  have hall : s.workers.length =
      (s.workers.countP fun entry => entry.2.phase.isQueued) + s.holders := by
    have hsum := countP_add_of_disjoint (p := fun _ => true)
      (q := fun entry : String × Worker π => entry.2.phase.isQueued)
      (r := fun entry => entry.2.phase.holds)
      fun entry hentry => (hstill entry hentry).cases.1.symm
    rwa [List.countP_true] at hsum
  have hbalance := h.balance
  rw [h.runningCount_eq, hdeparting, hunderWay, hactive, Nat.add_zero]
  rcases Nat.eq_zero_or_pos s.permits.free with hfree | hfree
  · -- all permits are taken
    omega
  · -- nobody has to wait for one
    have hnobody : (s.workers.countP fun entry => entry.2.phase.isQueued) = 0 := by
      refine List.countP_eq_zero.2 fun entry hentry hqueued => ?_
      have hmem := (h.queue entry.1).2 ⟨entry.2, h.distinct.get?_of_mem hentry, hqueued⟩
      rw [hthrifty hfree] at hmem
      cases hmem
    omega

/-- What holds of the permits after the history `acts`. -/
structure Capacity (ex : Executors ε π ω) (start : EngineState ε π ω) (acts : List (Act ω)) :
    Prop where
  /-- Every permit is free or held. -/
  balance : (start.after ex acts).permits.free + (start.after ex acts).holders = start.config.limit
  running : Still ex (start.after ex acts) → (start.after ex acts).runningCount =
    min start.config.limit (start.after ex acts).activeIds.length
  queued : Still ex (start.after ex acts) → ∀ id ∈ (start.after ex acts).activeIds,
    (start.after ex acts).status? id ≠ some .running →
      (start.after ex acts).Queued id ∧ (start.after ex acts).isCancelled id = false
  /-- A run that has asked for a permit and waits for it, not being cancelled, is not overtaken:
  nobody who asks later is given one, and the next to be given one is not either. -/
  order : ∀ first id other a, first <+: acts → Asked ex start first id →
    ¬Asked ex start first other → ¬Granted ex start acts id → ¬GaveUp ex start acts id →
      ¬Granted ex start (acts ++ [a]) other

/-- **No capacity is lost.**  In every history with distinct ids, however the runs end: every permit
is free or held by one run.  In a state in which no worker can move, as many runs show as running as
there are permits, or all active ones if these are fewer, and any other active run waits in the
queue without being cancelled.  Runs are given permits in the order in which they asked for one, and
only those are skipped that were cancelled while they waited. -/
theorem capacity_after (ex : Executors ε π ω) (registry : Registry ε) (config : EngineConfig)
    (world : ω) (acts : List (Act ω)) (hruns : Act.DistinctRuns acts) :
    Capacity ex (make registry config world : EngineState ε π ω) acts where
  balance := by
    have hbalance := (accounts_after ex registry config world acts hruns).balance
    rwa [config_after] at hbalance
  running hstill := by
    have hrunning := runningCount_of_still ex (accounts_after ex registry config world acts hruns)
      (thrifty_after ex registry config world acts) hstill
    rwa [config_after] at hrunning
  queued hstill id hactive hstatus := by
    have hkeys := active_keys_after ex registry config world acts hruns
    rw [activeIds, hkeys] at hactive
    obtain ⟨⟨w, p⟩, hworker⟩ := Keyed.exists_of_mem_keys hactive
    obtain ⟨status, hseen, hshows⟩ := status_of_worker ex registry config world acts hruns hworker
    have hwaiting : Waiting ex _ id p := hstill _ (Keyed.mem_of_get? hworker)
    cases p with
    | queued record => exact ⟨⟨_, hworker, rfl⟩, hwaiting⟩
    | awaitingRegistry | calling =>
      have hrunning : status = .running := hshows
      rw [hseen, hrunning] at hstatus
      exact absurd rfl hstatus
    | _ => exact hwaiting.elim
  order first id other a hfirst hasked hother hgranted hgaveUp := by
    obtain ⟨more, rfl⟩ := hfirst
    have hne : id ≠ other := by
      rintro rfl
      exact hother hasked
    obtain ⟨hahead, hnone⟩ :=
      ahead_after ex registry config world first more hruns hasked hother hgranted hgaveUp
    exact not_granted_concat ex registry config world
      (accounts_after ex registry config world _ hruns) hne hahead hnone a

end After

/-- Two runs wait for the only permit, and the first of them is cancelled. -/
def lineUp : List (Act Unit) :=
  [.execute "first" lone [], .execute "second" lone [], .execute "third" lone [],
    .move (.worker "first"), .move (.worker "second"), .move (.worker "third"),
    .move (.worker "first"), .move (.worker "first"), .cancel "second", .move (.worker "second"),
    .move (.worker "second")]

/-- No worker can move: one run waits for its executor, and the other one for its permit. -/
theorem capacity_after_lineUp :
    let start : EngineState Unit Unit Unit :=
      make { executor? := fun _ => some (), initialized := true } { maxConcurrent := 1 } ()
    let s := start.after heeding lineUp
    Still heeding s ∧ s.runningCount = 1 ∧ s.activeIds = ["first", "third"] ∧
      Asked heeding start lineUp "third" ∧ GaveUp heeding start lineUp "second" ∧
      Capacity heeding start lineUp := by
  intro start s
  have hstill : Still heeding s := by decide +kernel
  have hthird : s.Queued "third" := Option.map_eq_some_iff.1 (by decide +kernel :
    (Keyed.get? s.workers "third").map (fun worker => worker.phase.isQueued) = some true)
  have hsecond : (start.after heeding (lineUp.take 9)).Queued "second" :=
    Option.map_eq_some_iff.1 (by decide +kernel : (Keyed.get? (start.after heeding
      (lineUp.take 9)).workers "second").map (fun worker => worker.phase.isQueued) = some true)
  have hcancelled : (start.after heeding (lineUp.take 9)).isCancelled "second" = true := by
    decide +kernel
  have hruns : Act.DistinctRuns lineUp := show ["first", "second", "third"].Nodup by decide
  refine ⟨hstill, by decide +kernel, by decide +kernel, ⟨lineUp, List.prefix_rfl, Or.inl hthird⟩,
    ⟨_, List.take_prefix _ _, hsecond, hcancelled⟩, ?_⟩
  exact capacity_after heeding _ { maxConcurrent := 1 } () lineUp hruns

end EngineState

end FlowGraph
