import FlowGraph.Proofs.Engine.Calls
import FlowGraph.Proofs.Engine.Journeys
import FlowGraph.Proofs.Engine.Records

/-!
# The table of runs

A run that was admitted is active, or its record can be looked up, or its record was dropped.  It is
never two of these (`apart_after`, `gone_after`), and it goes through them in this order only.  So a
user who waits for a run, from whatever moment on, is given its final record, or learns that the
record was dropped.  All of this is `runTable_after`.
-/

namespace FlowGraph

namespace EngineState

variable {ε π ω : Type}
variable (ex : Executors ε π ω) (registry : Registry ε) (config : EngineConfig) (world : ω)

lemma keys_statuses (s : EngineState ε π ω) : Keyed.keys s.statuses = Keyed.keys s.active := by
  simp only [statuses, Keyed.keys, List.map_map]
  rfl

/-- The active runs are those with a worker. -/
lemma active_keys_after (acts : List (Act ω)) (hruns : Act.DistinctRuns acts) :
    Keyed.keys ((make registry config world : EngineState ε π ω).after ex acts).active =
      Keyed.keys ((make registry config world : EngineState ε π ω).after ex acts).workers := by
  rw [← keys_statuses]
  exact (accounts_after ex registry config world acts hruns).keys

/-! ## Nowhere twice -/

/-- The record of a run with a worker cannot be looked up. -/
lemma apart_after (acts : List (Act ω)) (hruns : Act.DistinctRuns acts) {id : String}
    (hworker : id ∈
      Keyed.keys ((make registry config world : EngineState ε π ω).after ex acts).workers) :
    Keyed.get? ((make registry config world : EngineState ε π ω).after ex acts).finished id =
      none := by
  induction acts using List.reverseRecOn with
  | nil => cases hworker
  | append_singleton acts a ih =>
    have hnamed := recordsNamed_after ex registry config world acts
    rw [after_concat] at hworker ⊢
    rw [Option.eq_none_iff_forall_ne_some]
    intro record hrecord
    rcases finished_act ex hrecord with hold | ⟨w, -, -, hact⟩
    · have hasked := finished_asked ex registry config world acts hold
      have hrun := not_asked_of_distinct hruns hasked
      by_cases hbefore : id ∈ Keyed.keys
          ((make registry config world : EngineState ε π ω).after ex acts).workers
      · rw [ih (distinctRuns_of_append hruns) hbefore] at hold
        cases hold
      · -- the run was asked for, so it gets no worker now
        have habsent := absent_act ex hnamed hrun (Keyed.get?_eq_none_iff.2 hbefore)
        exact Keyed.get?_eq_none_iff.1 habsent.1 hworker
    · -- with its record the worker is gone
      rw [hact] at hworker
      exact Keyed.get?_eq_none_iff.1 (Keyed.get?_erase_self _ _) hworker

/-- A run whose record can be looked up has no worker. -/
lemma get?_none_of_finished (acts : List (Act ω)) (hruns : Act.DistinctRuns acts) {id : String}
    {record : Execution}
    (hrecord : Keyed.get? ((make registry config world : EngineState ε π ω).after ex acts).finished
      id = some record) :
    Keyed.get? ((make registry config world : EngineState ε π ω).after ex acts).workers id =
      none := by
  rw [Keyed.get?_eq_none_iff]
  intro hworker
  rw [apart_after ex registry config world acts hruns hworker] at hrecord
  cases hrecord

lemma forgotten_asked {acts : List (Act ω)} {id : String}
    (h : (make registry config world : EngineState ε π ω).Forgotten ex acts id) :
    id ∈ acts.filterMap Act.runId? := by
  obtain ⟨before, rest, record, rfl, hrecord⟩ := h
  rw [List.filterMap_append, List.mem_append]
  exact Or.inl (finished_asked ex registry config world before hrecord)

/-- A run whose record was dropped has neither a worker nor a record again. -/
lemma gone_after (acts : List (Act ω)) (hruns : Act.DistinctRuns acts) {id : String}
    (hforgotten : (make registry config world : EngineState ε π ω).Forgotten ex acts id) :
    id ∉ Keyed.keys ((make registry config world : EngineState ε π ω).after ex acts).workers ∧
      Keyed.get? ((make registry config world : EngineState ε π ω).after ex acts).finished id =
        none := by
  induction acts using List.reverseRecOn with
  | nil =>
    obtain ⟨before, rest, record, heq, -⟩ := hforgotten
    simp at heq
  | append_singleton acts a ih =>
    have hruns' := distinctRuns_of_append hruns
    rw [after_concat]
    obtain ⟨before, rest, record, heq, hrecord⟩ := hforgotten
    rcases concat_eq_append heq with ⟨rest', rfl⟩ | ⟨rfl, rfl⟩
    · -- it was dropped before
      have hdropped : (make registry config world : EngineState ε π ω).Forgotten ex
          (before ++ .forget id :: rest') id := ⟨before, rest', record, rfl, hrecord⟩
      have hasked := forgotten_asked ex registry config world hdropped
      have hrun := not_asked_of_distinct hruns hasked
      obtain ⟨hworker, hfinished⟩ := ih hruns' hdropped
      have hnone := Keyed.get?_eq_none_iff.2 hworker
      have hnamed := recordsNamed_after ex registry config world (before ++ .forget id :: rest')
      refine ⟨Keyed.get?_eq_none_iff.1 (absent_act ex hnamed hrun hnone).1, ?_⟩
      rw [Option.eq_none_iff_forall_ne_some]
      intro stored hstored
      rcases finished_act ex hstored with hold | ⟨w, -, hstoring, -⟩
      · rw [hfinished] at hold
        cases hold
      · rw [hnone] at hstoring
        cases hstoring
    · -- it is dropped now
      refine ⟨fun hworker => ?_, Keyed.get?_erase_self _ _⟩
      have hnone := apart_after ex registry config world acts hruns' hworker
      have hsome : Keyed.get? ((make registry config world : EngineState ε π ω).after ex
          acts).finished id = some record := hrecord
      rw [hnone] at hsome
      cases hsome

/-- A run that was asked for and has no worker never gets one. -/
lemma absent_after {acts : List (Act ω)} (more : List (Act ω))
    (hruns : Act.DistinctRuns (acts ++ more)) {id : String}
    (hasked : id ∈ acts.filterMap Act.runId?)
    (hnone : Keyed.get? ((make registry config world : EngineState ε π ω).after ex acts).workers id
      = none) :
    Keyed.get? ((make registry config world : EngineState ε π ω).after ex (acts ++ more)).workers id
        = none ∧
      ((make registry config world : EngineState ε π ω).after ex (acts ++ more)).eventsOf id =
        ((make registry config world : EngineState ε π ω).after ex acts).eventsOf id := by
  induction more using List.reverseRecOn with
  | nil =>
    rw [List.append_nil]
    exact ⟨hnone, rfl⟩
  | append_singleton more a ih =>
    rw [← List.append_assoc] at hruns ⊢
    obtain ⟨habsent, hevents⟩ := ih (distinctRuns_of_append hruns)
    have hnamed := recordsNamed_after ex registry config world (acts ++ more)
    have hrun : a.runId? ≠ some id := by
      refine not_asked_of_distinct hruns ?_
      rw [List.filterMap_append]
      exact List.mem_append_left _ hasked
    rw [after_concat]
    obtain ⟨hworker, hsame⟩ := absent_act ex hnamed hrun habsent
    exact ⟨hworker, hsame.trans hevents⟩

/-- A record that can be looked up was stored by the worker of its run, and nothing was heard of
the run since. -/
lemma storing_of_finished (acts : List (Act ω)) (hruns : Act.DistinctRuns acts) {id : String}
    {record : Execution}
    (hrecord : Keyed.get? ((make registry config world : EngineState ε π ω).after ex acts).finished
      id = some record) :
    ∃ w before rest, acts = before ++ .move (.worker id) :: rest ∧
      Keyed.get? ((make registry config world : EngineState ε π ω).after ex before).workers id =
        some ⟨w, .storing record⟩ ∧
      ((make registry config world : EngineState ε π ω).after ex acts).eventsOf id =
        ((make registry config world : EngineState ε π ω).after ex before).eventsOf id := by
  induction acts using List.reverseRecOn with
  | nil => cases hrecord
  | append_singleton acts a ih =>
    have hruns' := distinctRuns_of_append hruns
    rw [after_concat] at hrecord ⊢
    rcases finished_act ex hrecord with hold | ⟨w, ha, hstoring, hact⟩
    · obtain ⟨w, before, rest, hacts, hworker, hevents⟩ := ih hruns' hold
      -- the run is over, and nothing is heard of it any more
      have hnone := get?_none_of_finished ex registry config world acts hruns' hold
      have hsame := absent_after ex registry config world [a] hruns
        (finished_asked ex registry config world acts hold) hnone
      rw [after_concat] at hsame
      exact ⟨w, before, rest ++ [a], by rw [hacts]; simp, hworker, hsame.2.trans hevents⟩
    · -- it is stored now
      exact ⟨w, acts, [], by rw [ha], hstoring, by rw [hact]; rfl⟩

/-- A record that can be looked up was left by the run at the end of its way. -/
lemma journey_of_finished (acts : List (Act ω)) (hruns : Act.DistinctRuns acts) {id : String}
    {record : Execution}
    (hrecord : Keyed.get? ((make registry config world : EngineState ε π ω).after ex acts).finished
      id = some record) :
    ∃ w input before rest, acts = before ++ .move (.worker id) :: rest ∧
      Journey ex (make registry config world) id w input before (.storing record)
        (((make registry config world : EngineState ε π ω).after ex acts).eventsOf id) := by
  obtain ⟨w, before, rest, hacts, hworker, hevents⟩ :=
    storing_of_finished ex registry config world acts hruns hrecord
  rw [hacts] at hruns
  obtain ⟨input, hjourney⟩ :=
    journey_after ex registry config world before (distinctRuns_of_append hruns) hworker
  exact ⟨w, input, before, rest, hacts, hevents ▸ hjourney⟩

/-! ## Answers to those who wait -/

/-- A request that is looked after by a call was made. -/
lemma calls_asked (acts : List (Act ω)) {n : ℕ} {state : CallState}
    (hcall : (n, state) ∈ ((make registry config world : EngineState ε π ω).after ex acts).calls) :
    .request n state.request ∈ acts := by
  induction acts using List.reverseRecOn generalizing n state with
  | nil => cases hcall
  | append_singleton acts a ih =>
    rw [after_concat] at hcall
    rcases mem_calls_act ex hcall with hold | ⟨k, r, rfl, hnew⟩ | ⟨k, rfl, hmoved⟩
    · exact List.mem_append_left _ (ih hold)
    · obtain ⟨rfl, rfl⟩ := Prod.mk.inj hnew
      exact List.mem_append_right _ (List.mem_singleton_self _)
    · rcases mem_calls_pollCall hmoved with hold | ⟨before, hbefore, hn, hrequest⟩
      · exact List.mem_append_left _ (ih hold)
      · simp only at hn hrequest
        rw [hrequest, hn]
        exact List.mem_append_left _ (ih hbefore)

/-- A user who waits for a record is answered with what can be looked up then, and is told that
there is none only when the run is not active. -/
structure LooksUp (s : EngineState ε π ω) (n : ℕ) (answer : Option Execution) (id : String) :
    Prop where
  call : ∃ state, (n, state) ∈ s.calls ∧ state.request = .get id
  found : answer = Keyed.get? s.finished id
  inactive : answer = none → id ∉ Keyed.keys s.active

lemma record_answer {s : EngineState ε π ω} {k m : ℕ} {a : CallAnswer} {answer : Option Execution}
    (h : (m, .record answer) ∈ (s.answer k a).answers) :
    (m, .record answer) ∈ s.answers ∨ m = k ∧ a = .record answer := by
  rcases List.mem_append.1 h with hold | hnew
  · exact Or.inl hold
  · obtain ⟨hm, ha⟩ := Prod.mk.inj (List.mem_singleton.1 hnew)
    exact Or.inr ⟨hm, ha.symm⟩

lemma record_useRegistry {s : EngineState ε π ω} {k m : ℕ} {r : Request}
    {answer : Option Execution} (h : (m, .record answer) ∈ (s.useRegistry ex k r).answers) :
    (m, .record answer) ∈ s.answers := by
  cases r with
  | start =>
    rcases record_answer (a := .done (s.registry.startAll ex.hooks s.world).1) h with hold | ⟨-, ha⟩
    · exact hold
    · cases ha
  | shutdown =>
    rcases record_answer (a := .done (s.registry.stopAll ex.hooks s.world).1) h with hold | ⟨-, ha⟩
    · exact hold
    · cases ha
  | get id => exact h
  | nodeTypes =>
    rcases record_answer (a := .nodeTypes s.registry.nodeTypes) h with hold | ⟨-, ha⟩
    · exact hold
    · cases ha

lemma record_askRegistry {s : EngineState ε π ω} {k m : ℕ} {r : Request}
    {answer : Option Execution} (h : (m, .record answer) ∈ (s.askRegistry ex k r).answers) :
    (m, .record answer) ∈ s.answers := by
  unfold askRegistry at h
  dsimp only at h
  split at h
  · have hold := record_useRegistry ex h
    exact hold
  · exact h

lemma record_awaitRuns {s : EngineState ε π ω} {k m : ℕ} {ids : List String}
    {answer : Option Execution} (h : (m, .record answer) ∈ (s.awaitRuns ex k ids).answers) :
    (m, .record answer) ∈ s.answers := by
  unfold awaitRuns at h
  split at h
  · exact record_askRegistry ex h
  · exact h

lemma record_pollCall {s : EngineState ε π ω} {k m : ℕ} {answer : Option Execution}
    (h : (m, .record answer) ∈ (s.pollCall ex k).answers) :
    (m, .record answer) ∈ s.answers ∨ m = k ∧ ∃ id, LooksUp s m answer id := by
  unfold pollCall at h
  split at h
  · exact Or.inl h
  · have hclosed : (m, .record answer) ∈
        (s.closeAdmission.2.awaitRuns ex k s.closeAdmission.1).answers := h
    have hold := record_awaitRuns ex hclosed
    exact Or.inl hold
  · next id hlookup =>
    have hcall := mem_calls_of_lookup hlookup
    unfold awaitRun at h
    split at h
    · next record hrecord =>
      rcases record_answer h with hold | ⟨rfl, ha⟩
      · exact Or.inl hold
      · cases ha
        exact Or.inr ⟨rfl, id, ⟨_, hcall, rfl⟩, hrecord.symm, nofun⟩
    · next hnone =>
      split at h
      · exact Or.inl h
      · next hinactive =>
        rcases record_answer h with hold | ⟨rfl, ha⟩
        · exact Or.inl hold
        · cases ha
          refine Or.inr ⟨rfl, id, ⟨_, hcall, rfl⟩, hnone.symm, fun _ hactive => hinactive ?_⟩
          exact (Keyed.mem_keys_iff _ _).1 hactive
  · exact Or.inl (record_askRegistry ex h)
  · exact Or.inl (record_awaitRuns ex h)
  · next id hlookup =>
    have hcall := mem_calls_of_lookup hlookup
    unfold resumeGet at h
    split at h
    · exact Or.inl h
    · next hover =>
      rcases record_answer h with hold | ⟨rfl, ha⟩
      · exact Or.inl hold
      · cases ha
        refine Or.inr ⟨rfl, id, ⟨_, hcall, rfl⟩, rfl, fun _ hactive => hover ?_⟩
        have hcontains : Keyed.contains s.active id = true := (Keyed.mem_keys_iff _ _).1 hactive
        rw [hcontains, Bool.true_or]
  · split at h
    · exact Or.inl (record_useRegistry ex h)
    · exact Or.inl h

/-- An answer with a record, or with none, that is new was given in a move that looked the record
up. -/
lemma looksUp_of_new_answer (acts more : List (Act ω)) {n : ℕ} {answer : Option Execution}
    (h : (n, .record answer) ∈
      ((make registry config world : EngineState ε π ω).after ex (acts ++ more)).answers)
    (hnew : (n, .record answer) ∉
      ((make registry config world : EngineState ε π ω).after ex acts).answers) :
    ∃ before rest id, more = before ++ .move (.call n) :: rest ∧
      LooksUp ((make registry config world : EngineState ε π ω).after ex (acts ++ before)) n answer
        id := by
  induction more using List.reverseRecOn with
  | nil =>
    rw [List.append_nil] at h
    exact absurd h hnew
  | append_singleton more a ih =>
    have hold : (n, .record answer) ∈
        ((make registry config world : EngineState ε π ω).after ex (acts ++ more)).answers →
        ∃ before rest id, more ++ [a] = before ++ .move (.call n) :: rest ∧
          LooksUp ((make registry config world : EngineState ε π ω).after ex (acts ++ before)) n
            answer id := by
      intro hanswer
      obtain ⟨before, rest, id, rfl, hlooks⟩ := ih hanswer
      exact ⟨before, rest ++ [a], id, by simp, hlooks⟩
    rw [← List.append_assoc, after_concat] at h
    by_cases hmove : ∃ k, a = .move (.call k)
    · obtain ⟨k, rfl⟩ := hmove
      rcases record_pollCall ex h with hanswer | ⟨rfl, id, hlooks⟩
      · exact hold hanswer
      · exact ⟨more, [], id, rfl, hlooks⟩
    · have hsame := answers_act ex
        ((make registry config world : EngineState ε π ω).after ex (acts ++ more))
        (fun k hk => hmove ⟨k, hk⟩)
      exact hold (hsame ▸ h)

/-- Every answer with a record, or with none, was given in a move that looked the record up. -/
lemma looksUp_of_answer (acts : List (Act ω)) {n : ℕ} {answer : Option Execution}
    (h : (n, .record answer) ∈
      ((make registry config world : EngineState ε π ω).after ex acts).answers) :
    ∃ before rest id, acts = before ++ .move (.call n) :: rest ∧
      LooksUp ((make registry config world : EngineState ε π ω).after ex before) n answer id :=
  looksUp_of_new_answer ex registry config world [] acts h (nofun)

/-! ## The table -/

/-- One of three holds, and no other. -/
def ExactlyOne (p q r : Prop) : Prop :=
  (p ∧ ¬q ∧ ¬r) ∨ (¬p ∧ q ∧ ¬r) ∨ (¬p ∧ ¬q ∧ r)

/-- What holds of the table of runs after the history `acts`. -/
structure RunTable (ex : Executors ε π ω) (start : EngineState ε π ω) (acts : List (Act ω)) :
    Prop where
  /-- A run that was admitted is in exactly one place. -/
  placed : ∀ id, start.Admitted ex acts id →
    ExactlyOne (id ∈ Keyed.keys (start.after ex acts).active)
      (id ∈ Keyed.keys (start.after ex acts).finished) (start.Forgotten ex acts id)
  /-- A run that is not active any more does not become active again. -/
  left : ∀ before more id, acts = before ++ more → start.Admitted ex before id →
    id ∉ Keyed.keys (start.after ex before).active → id ∉ Keyed.keys (start.after ex acts).active
  /-- A record that can be looked up is final, and it is that of the run as it was admitted. -/
  finished : ∀ id record, Keyed.get? (start.after ex acts).finished id = some record →
    record.status.isTerminal = true ∧ record.completedAt.isSome = true ∧ record.id = id ∧
      ∃ before w input rest admitted, acts = before ++ .execute id w input :: rest ∧
        ((start.after ex before).execute ex id w input).1 = .ok admitted ∧
        record.workflowId = w.id ∧ record.input = input
  /-- A run that is active can be seen to be pending or running. -/
  active : ∀ id ∈ Keyed.keys (start.after ex acts).active,
    (start.after ex acts).status? id = some .pending ∨
      (start.after ex acts).status? id = some .running
  /-- A user who asked for a record is given a final one of that run.  If the run was admitted and
  there is none, the record was dropped, and the run counts as lost only then. -/
  answered : ∀ n answer, (n, .record answer) ∈ (start.after ex acts).answers →
    ∃ before rest id, acts = before ++ .move (.call n) :: rest ∧ .request n (.get id) ∈ before ∧
      (∀ record, answer = some record → record.status.isTerminal = true ∧ record.id = id) ∧
      (answer = none → start.Admitted ex before id → start.Forgotten ex before id) ∧
      (completion id answer = .error (.executionLost id) → start.Admitted ex before id →
        start.Forgotten ex before id)

lemma admitted_asked {start : EngineState ε π ω} {acts : List (Act ω)} {id : String}
    (h : start.Admitted ex acts id) : id ∈ acts.filterMap Act.runId? := by
  obtain ⟨before, w, input, rest, record, rfl, -⟩ := h
  simp [Act.runId?]

/-- A run that was admitted is somewhere, and never in two places. -/
lemma placed_after (acts : List (Act ω)) (hruns : Act.DistinctRuns acts) {id : String}
    (hadmitted : (make registry config world : EngineState ε π ω).Admitted ex acts id) :
    ExactlyOne
      (id ∈ Keyed.keys ((make registry config world : EngineState ε π ω).after ex acts).active)
      (id ∈ Keyed.keys ((make registry config world : EngineState ε π ω).after ex acts).finished)
      ((make registry config world : EngineState ε π ω).Forgotten ex acts id) := by
  have hgone := @gone_after ε π ω ex registry config world acts hruns id
  have hapart := @apart_after ε π ω ex registry config world acts hruns id
  rw [active_keys_after ex registry config world acts hruns]
  rcases accounted ex registry config world acts id hadmitted with hworker | hrecorded | hforgotten
  · refine Or.inl ⟨hworker, Keyed.get?_eq_none_iff.1 (hapart hworker), fun hforgotten => ?_⟩
    exact (hgone hforgotten).1 hworker
  · obtain ⟨record, hrecord, -⟩ := hrecorded
    refine Or.inr (Or.inl ⟨?_, ?_, fun hforgotten => ?_⟩)
    · have hnone := get?_none_of_finished ex registry config world acts hruns hrecord
      exact Keyed.get?_eq_none_iff.1 hnone
    · exact Keyed.mem_keys_of_get? hrecord
    · rw [(hgone hforgotten).2] at hrecord
      cases hrecord
  · obtain ⟨hworker, hnone⟩ := hgone hforgotten
    exact Or.inr (Or.inr ⟨hworker, Keyed.get?_eq_none_iff.1 hnone, hforgotten⟩)

/-- What users see of a run fits the phase of its worker. -/
lemma status_of_worker (acts : List (Act ω)) (hruns : Act.DistinctRuns acts) {id : String}
    {worker : Worker π}
    (hworker : Keyed.get?
      ((make registry config world : EngineState ε π ω).after ex acts).workers id = some worker) :
    ∃ status, ((make registry config world : EngineState ε π ω).after ex acts).status? id =
      some status ∧ worker.phase.Shows status := by
  have haccounts := accounts_after ex registry config world acts hruns
  have hnone := apart_after ex registry config world acts hruns (Keyed.mem_keys_of_get? hworker)
  obtain ⟨status, hstatus, hshows⟩ := haccounts.shows id worker hworker
  refine ⟨status, ?_, hshows⟩
  rw [status?, hnone, ← hstatus]
  exact (Keyed.get?_map _ ActiveRun.status id).symm

/-- A run that is active shows as pending or as running. -/
lemma status_of_active (acts : List (Act ω)) (hruns : Act.DistinctRuns acts) {id : String}
    (hactive : id ∈
      Keyed.keys ((make registry config world : EngineState ε π ω).after ex acts).active) :
    ((make registry config world : EngineState ε π ω).after ex acts).status? id = some .pending ∨
      ((make registry config world : EngineState ε π ω).after ex acts).status? id =
        some .running := by
  rw [active_keys_after ex registry config world acts hruns] at hactive
  obtain ⟨worker, hworker⟩ := Keyed.exists_of_mem_keys hactive
  obtain ⟨status, hseen, hshows⟩ := status_of_worker ex registry config world acts hruns hworker
  rw [hseen]
  cases hphase : worker.phase with
  | spawned | queued | permitted =>
    rw [hphase] at hshows
    exact Or.inl (congrArg some hshows)
  | awaitingRegistry | traversing | calling =>
    rw [hphase] at hshows
    exact Or.inr (congrArg some hshows)
  | storing =>
    rw [hphase] at hshows
    exact hshows.imp (congrArg some) (congrArg some)

lemma execute_open {s : EngineState ε π ω} {id : String} {w : Workflow} {input : Fields}
    (hopen : s.shuttingDown = false) :
    (s.execute ex id w input).1 = .ok (Execution.make id w.id input (ex.now s.world)) := by
  simp only [execute, hopen, Bool.false_eq_true, if_false]

lemma worker_execute {s : EngineState ε π ω} (hopen : s.shuttingDown = false) (id : String)
    (w : Workflow) (input : Fields) :
    Keyed.get? (s.act ex (.execute id w input)).workers id =
      some ⟨w, .spawned (Execution.make id w.id input (ex.now s.world))⟩ := by
  simp only [act, execute, hopen, Bool.false_eq_true, if_false, wake, Keyed.get?_insert_self]

/-- A record that can be looked up is the final one of its run. -/
lemma record_of_finished (acts : List (Act ω)) (hruns : Act.DistinctRuns acts) {id : String}
    {record : Execution}
    (hrecord : Keyed.get? ((make registry config world : EngineState ε π ω).after ex acts).finished
      id = some record) :
    record.status.isTerminal = true ∧ record.completedAt.isSome = true ∧ record.id = id ∧
      ∃ before w input rest admitted, acts = before ++ .execute id w input :: rest ∧
        (((make registry config world : EngineState ε π ω).after ex before).execute ex id w
          input).1 = .ok admitted ∧ record.workflowId = w.id ∧ record.input = input := by
  obtain ⟨w, input, upTo, later, hacts, hjourney⟩ :=
    journey_of_finished ex registry config world acts hruns hrecord
  obtain ⟨hterminal, hcompleted⟩ := hjourney.sound
  obtain ⟨hid, hworkflow, hinput⟩ := hjourney.record
  obtain ⟨before, rest, hupTo, hopen⟩ := hjourney.admission
  have hsplit : acts = before ++ .execute id w input :: (rest ++ .move (.worker id) :: later) := by
    rw [hacts, hupTo]
    simp
  exact ⟨hterminal, hcompleted, hid, before, w, input, _, _, hsplit, execute_open ex hopen,
    hworkflow, hinput⟩

/-- **The table of runs is consistent, and no record is lost.**  In every history with distinct
ids, whatever the runs, the calls and the order of all moves are: a run that was admitted is active,
finished or forgotten, and only one of these; it never becomes active again; what can be looked up
are final records; and those who wait for a record are given it, unless it was forgotten. -/
theorem runTable_after (ex : Executors ε π ω) (registry : Registry ε) (config : EngineConfig)
    (world : ω) (acts : List (Act ω)) (hruns : Act.DistinctRuns acts) :
    RunTable ex (make registry config world) acts where
  placed id hadmitted := placed_after ex registry config world acts hruns hadmitted
  left before more id hacts hadmitted hinactive := by
    subst hacts
    have hbefore := distinctRuns_of_append hruns
    rw [active_keys_after ex registry config world before hbefore,
      ← Keyed.get?_eq_none_iff] at hinactive
    rw [active_keys_after ex registry config world _ hruns, ← Keyed.get?_eq_none_iff]
    exact (absent_after ex registry config world more hruns (admitted_asked ex hadmitted)
      hinactive).1
  finished id record hrecord := record_of_finished ex registry config world acts hruns hrecord
  active id hactive := status_of_active ex registry config world acts hruns hactive
  answered n answer hanswer := by
    -- the answer was looked up at some point, where the run was in one of the three places
    obtain ⟨before, rest, id, rfl, hlooks⟩ :=
      looksUp_of_answer ex registry config world acts hanswer
    have hbefore := distinctRuns_of_append hruns
    obtain ⟨state, hcall, hrequest⟩ := hlooks.call
    have hasked := calls_asked ex registry config world before hcall
    have hnone : answer = none →
        (make registry config world : EngineState ε π ω).Admitted ex before id →
        (make registry config world : EngineState ε π ω).Forgotten ex before id := by
      intro hanswer hadmitted
      have hinactive := hlooks.inactive hanswer
      have hunfinished := Keyed.get?_eq_none_iff.1 (hlooks.found.symm.trans hanswer)
      rcases placed_after ex registry config world before hbefore hadmitted with
        ⟨hactive, -⟩ | ⟨-, hfinished, -⟩ | ⟨-, -, hforgotten⟩
      · exact absurd hactive hinactive
      · exact absurd hfinished hunfinished
      · exact hforgotten
    refine ⟨before, rest, id, rfl, hrequest ▸ hasked, ?_, hnone, fun hlost => hnone ?_⟩
    · intro record hrecord
      have hfinal := record_of_finished ex registry config world before hbefore
        (hlooks.found.symm.trans hrecord)
      exact ⟨hfinal.1, hfinal.2.2.1⟩
    · cases answer with
      | none => rfl
      | some record => cases hlost

/-- A user waits for a run, moves while its record is stored and nobody has been told yet, and is
answered.  Then the record is dropped, and another user asks for it. -/
def waitedFor : List (Act Unit) :=
  [.execute "run" lone [], .request 0 (.get "run"), .move (.call 0), .move (.worker "run"),
    .move (.worker "run"), .move (.worker "run"), .move (.worker "run"), .move (.worker "run"),
    .move (.worker "run"), .move (.call 0), .move (.worker "run"), .move (.call 0),
    .forget "run", .request 1 (.get "run"), .move (.call 1)]

/-- The first user is given the record, and the second one learns that there is none. -/
theorem runTable_after_waitedFor :
    let s := (promptEngine {}).after Executors.prompt waitedFor
    (∃ record, s.answers = [(0, .record (some record)), (1, .record none)]) ∧
      RunTable Executors.prompt (promptEngine {}) waitedFor := by
  refine ⟨⟨_, rfl⟩, ?_⟩
  have hruns : Act.DistinctRuns waitedFor := show ["run"].Nodup by decide
  exact runTable_after Executors.prompt _ {} () waitedFor hruns

end EngineState

end FlowGraph
