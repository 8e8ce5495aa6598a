import FlowGraph.Proofs.Engine.Shutdown
import FlowGraph.Proofs.Engine.Streams

/-!
# What users see of a run

Users learn of a run in many ways: they ask for its status, wait for its record, drop it, cancel the
run, count the runs, or hear its events.  What they are told comes from two tables, of the runs that
are active and of those that are over, and a run goes over from one to the other while they look.
The key fact is that the worker of a run makes one record only (`Settled.unique`), which is the one
that is stored, handed out and announced; and that as long as the run is active, what is seen of it
moves forward (`seen_after`).
-/

namespace FlowGraph

/-- How far a run is. -/
def ExecutionStatus.rank : ExecutionStatus → ℕ
  | pending => 0
  | running => 1
  | completed | failed | cancelled => 2

lemma ExecutionStatus.rank_le_of_isTerminal {status : ExecutionStatus}
    (h : status.isTerminal = true) (other : ExecutionStatus) : other.rank ≤ status.rank := by
  cases status with
  | pending | running => cases h
  | completed | failed | cancelled => cases other <;> decide

namespace EngineState

variable {ε π ω : Type}

/-! ## The record of a run -/

/-- The worker of a run came to its end with a record. -/
def Settled (ex : Executors ε π ω) (start : EngineState ε π ω) (acts : List (Act ω)) (id : String)
    (record : Execution) : Prop :=
  ∃ before w, before <+: acts ∧
    Keyed.get? (start.after ex before).workers id = some ⟨w, .storing record⟩

section Settled

variable {ex : Executors ε π ω} {registry : Registry ε} {config : EngineConfig} {world : ω}
variable {acts : List (Act ω)} {id : String} {record record' : Execution}

lemma Settled.mono {start : EngineState ε π ω} {acts' : List (Act ω)}
    (h : Settled ex start acts id record) (hacts : acts <+: acts') :
    Settled ex start acts' id record := by
  obtain ⟨before, w, hbefore, hworker⟩ := h
  exact ⟨before, w, hbefore.trans hacts, hworker⟩

/-- From its end on a run has no other record. -/
lemma eq_of_storing {before later : List (Act ω)} (hruns : Act.DistinctRuns later)
    (hearlier : before <+: later) {w w' : Workflow}
    (hbefore : Keyed.get? ((make registry config world : EngineState ε π ω).after ex
      before).workers id = some ⟨w, .storing record⟩)
    (hlater : Keyed.get? ((make registry config world : EngineState ε π ω).after ex
      later).workers id = some ⟨w', .storing record'⟩) : record' = record := by
  obtain ⟨rest, rfl⟩ := hearlier
  have hfollows := follows_after ex registry config world before rest hruns hbefore
    (P := fun p _ => p = .storing record) rfl fun _ _ q q' _ _ _ hturn hq =>
      absurd hq (hturn.not_storing record)
  rcases hfollows with ⟨p, hp, hstoring⟩ | ⟨hnone, -⟩
  · rw [hlater] at hp
    cases hp
    cases hstoring
    rfl
  · rw [hlater] at hnone
    cases hnone

/-- **A run comes to its end with one record.** -/
lemma Settled.unique (hruns : Act.DistinctRuns acts)
    (h : Settled ex (make registry config world) acts id record)
    (h' : Settled ex (make registry config world) acts id record') : record' = record := by
  obtain ⟨before, w, hbefore, hworker⟩ := h
  obtain ⟨before', w', hbefore', hworker'⟩ := h'
  rcases List.prefix_or_prefix_of_prefix hbefore hbefore' with hearlier | hearlier
  · exact eq_of_storing (distinctRuns_earlier hruns hbefore') hearlier hworker hworker'
  · exact (eq_of_storing (distinctRuns_earlier hruns hbefore) hearlier hworker' hworker).symm

/-- What can be looked up is the record that the run came to its end with. -/
lemma settled_of_finished (hruns : Act.DistinctRuns acts)
    (h : Keyed.get? ((make registry config world : EngineState ε π ω).after ex acts).finished id =
      some record) : Settled ex (make registry config world) acts id record := by
  obtain ⟨w, before, rest, rfl, hworker, -⟩ :=
    storing_of_finished ex registry config world acts hruns h
  exact ⟨before, w, List.prefix_append _ _, hworker⟩

/-- The status of a run is read off its record or, while there is none, off the active run. -/
lemma status_cases {s : EngineState ε π ω} {status : ExecutionStatus}
    (h : s.status? id = some status) :
    (∃ record, Keyed.get? s.finished id = some record ∧ record.status = status) ∨
      ∃ run, Keyed.get? s.active id = some run ∧ run.status = status := by
  unfold status? at h
  split at h
  · next record hrecord => exact .inl ⟨record, hrecord, Option.some.inj h⟩
  · exact .inr (Option.map_eq_some_iff.1 h)

/-- A run that shows as over has a record that can be looked up. -/
lemma finished_of_terminal (hruns : Act.DistinctRuns acts) {status : ExecutionStatus}
    (h : ((make registry config world : EngineState ε π ω).after ex acts).status? id = some status)
    (hterminal : status.isTerminal = true) :
    ∃ record, Keyed.get? ((make registry config world : EngineState ε π ω).after ex
      acts).finished id = some record ∧ record.status = status := by
  rcases status_cases h with hfinished | ⟨run, hrun, -⟩
  · exact hfinished
  · rcases status_of_active ex registry config world acts hruns (Keyed.mem_keys_of_get? hrun) with
      hpending | hrunning
    · rw [hpending] at h
      cases h
      cases hterminal
    · rw [hrunning] at h
      cases h
      cases hterminal

/-- A run that does not show as over is active. -/
lemma active_of_not_terminal (hruns : Act.DistinctRuns acts) {status : ExecutionStatus}
    (h : ((make registry config world : EngineState ε π ω).after ex acts).status? id = some status)
    (hopen : status.isTerminal = false) :
    ∃ run, Keyed.get? ((make registry config world : EngineState ε π ω).after ex
      acts).active id = some run ∧ run.status = status := by
  rcases status_cases h with ⟨record, hrecord, rfl⟩ | hactive
  · rw [(record_of_finished ex registry config world acts hruns hrecord).1] at hopen
    cases hopen
  · exact hactive

end Settled

/-! ## What is heard -/

section Heard

/-- Before its end nobody hears that a run is over. -/
lemma Stage.not_finished {ex : Executors ε π ω} {r : Registry ε} {id : String} {w : Workflow}
    {input : Fields} {cancelled : Bool} {p : Phase π} {events : List ExecutionEvent}
    (h : Stage ex r id w input cancelled p events) :
    events.filterMap ExecutionEvent.finished? = [] := by
  cases h with
  | pending | admitted => rfl
  | between _ _ _ _ hreached _ | calling _ _ _ _ hreached _ =>
    exact (told_of_begun hreached).narrates.not_finished

variable (ex : Executors ε π ω) (registry : Registry ε) (config : EngineConfig) (world : ω)

/-- When the end of a run is heard that has a worker, its record is about to be stored. -/
lemma storing_of_heard {acts : List (Act ω)} (hruns : Act.DistinctRuns acts) {id : String}
    {w : Workflow} {p : Phase π}
    (hworker : Keyed.get? ((make registry config world : EngineState ε π ω).after ex acts).workers
      id = some ⟨w, p⟩) {status : ExecutionStatus}
    (hheard : status ∈ (((make registry config world : EngineState ε π ω).after ex acts).eventsOf
      id).filterMap ExecutionEvent.finished?) :
    ∃ record, p = .storing record ∧ record.status = status := by
  by_cases hstoring : ∃ record, p = .storing record
  · obtain ⟨record, rfl⟩ := hstoring
    obtain ⟨e⟩ := ending_of_worker ex registry config world acts hruns hworker
    have hstream := (tale_of_ending e).stream (started_of_letIn ex registry config world hruns)
    rw [hstream.finished] at hheard
    exact ⟨record, rfl, (List.mem_singleton.1 hheard).symm⟩
  · have hopen : ∀ record, p ≠ .storing record := fun record hp => hstoring ⟨record, hp⟩
    obtain ⟨input, -, hstage⟩ := stage_after ex registry config world acts hruns hworker hopen
    rw [hstage.not_finished] at hheard
    cases hheard

/-- What is heard of the end of a run is what its record says. -/
lemma settled_of_heard (acts : List (Act ω)) (hruns : Act.DistinctRuns acts) {id : String}
    {status : ExecutionStatus}
    (hheard : status ∈ (((make registry config world : EngineState ε π ω).after ex acts).eventsOf
      id).filterMap ExecutionEvent.finished?) :
    ∃ record, Settled ex (make registry config world) acts id record ∧ record.status = status := by
  induction acts using List.reverseRecOn with
  | nil => cases hheard
  | append_singleton acts a ih =>
    rcases hworker : Keyed.get? ((make registry config world : EngineState ε π ω).after ex
      (acts ++ [a])).workers id with _ | ⟨w, p⟩
    · rw [after_concat] at hworker hheard
      rw [eventsOf_of_none ex (recordsNamed_after ex registry config world acts) hworker] at hheard
      obtain ⟨record, hsettled, hstatus⟩ := ih (distinctRuns_of_append hruns) hheard
      exact ⟨record, hsettled.mono (List.prefix_append _ _), hstatus⟩
    · obtain ⟨record, rfl, hstatus⟩ :=
        storing_of_heard ex registry config world hruns hworker hheard
      exact ⟨record, ⟨_, w, List.prefix_rfl, hworker⟩, hstatus⟩

end Heard

/-! ## What a user is told of a run that is over -/

section Inactive

variable {ex : Executors ε π ω} {registry : Registry ε} {config : EngineConfig} {world : ω}
variable {earlier later : List (Act ω)} {id : String}

/-- What users are told of a run that is not active. -/
structure Inactive (id : String) (s : EngineState ε π ω) : Prop where
  listed : id ∉ s.activeIds
  /-- It is none of those that are counted. -/
  counted : s.runningCount =
    s.active.countP fun entry => decide (entry.1 ≠ id) && decide (entry.2.status = .running)
  cancelled : (s.cancel id).1 = false

lemma inactive_of_none {s : EngineState ε π ω} (h : Keyed.get? s.active id = none) :
    Inactive id s where
  listed := Keyed.get?_eq_none_iff.1 h
  counted := by
    refine List.countP_congr fun entry hentry => ?_
    have hother : entry.1 ≠ id := by
      rintro rfl
      exact Keyed.get?_eq_none_iff.1 h (List.mem_map_of_mem hentry)
    simp [hother]
  cancelled := by simp only [cancel, h]

/-- What users are told of a run that nobody knows of any more. -/
structure Unknown (id : String) (s : EngineState ε π ω) : Prop extends Inactive id s where
  status : s.status? id = none
  forgotten : (s.forget id).1 = none

/-- A run that shows as over is not active any more. -/
lemma inactive_after (hruns : Act.DistinctRuns later) (hearlier : earlier <+: later)
    {status : ExecutionStatus}
    (h : ((make registry config world : EngineState ε π ω).after ex earlier).status? id =
      some status) (hterminal : status.isTerminal = true) :
    Inactive id ((make registry config world : EngineState ε π ω).after ex later) := by
  obtain ⟨more, rfl⟩ := hearlier
  obtain ⟨record, hrecord, -⟩ := finished_of_terminal (distinctRuns_of_append hruns) h hterminal
  have hnone := (absent_after ex registry config world more hruns
    (finished_asked ex registry config world earlier hrecord)
    (get?_none_of_finished ex registry config world earlier (distinctRuns_of_append hruns)
      hrecord)).1
  refine inactive_of_none (Keyed.get?_eq_none_iff.2 ?_)
  rw [active_keys_after ex registry config world _ hruns]
  exact Keyed.get?_eq_none_iff.1 hnone

/-- The status of a run that is over stays as it is. -/
lemma status_of_over (hruns : Act.DistinctRuns later) (hearlier : earlier <+: later)
    {status status' : ExecutionStatus}
    (h : ((make registry config world : EngineState ε π ω).after ex earlier).status? id =
      some status) (hterminal : status.isTerminal = true)
    (h' : ((make registry config world : EngineState ε π ω).after ex later).status? id =
      some status') : status' = status := by
  have hbefore := distinctRuns_earlier hruns hearlier
  obtain ⟨record, hrecord, rfl⟩ := finished_of_terminal hbefore h hterminal
  rcases status_cases h' with ⟨record', hrecord', rfl⟩ | ⟨run, hrun, -⟩
  · have hsettled := (settled_of_finished hbefore hrecord).mono hearlier
    rw [hsettled.unique hruns (settled_of_finished hruns hrecord')]
  · have hinactive := inactive_after hruns hearlier h hterminal
    exact absurd (Keyed.mem_keys_of_get? hrun) hinactive.listed

/-- The status of a run only moves forward. -/
lemma rank_le_after (hruns : Act.DistinctRuns later) (hearlier : earlier <+: later)
    {status status' : ExecutionStatus}
    (h : ((make registry config world : EngineState ε π ω).after ex earlier).status? id =
      some status)
    (h' : ((make registry config world : EngineState ε π ω).after ex later).status? id =
      some status') : status.rank ≤ status'.rank := by
  rcases hterminal : status.isTerminal with _ | _
  · rcases hterminal' : status'.isTerminal with _ | _
    · obtain ⟨more, rfl⟩ := hearlier
      obtain ⟨run, hrun, rfl⟩ := active_of_not_terminal (distinctRuns_of_append hruns) h hterminal
      obtain ⟨run', hrun', rfl⟩ := active_of_not_terminal hruns h' hterminal'
      have hprecedes := seen_after ex registry config world earlier more hruns hrun hrun'
      cases hstatus : run.status with
      | pending => exact Nat.zero_le _
      | running => rw [hprecedes.running hstatus]
      | completed | failed | cancelled =>
        rw [hstatus] at hterminal
        cases hterminal
    · exact ExecutionStatus.rank_le_of_isTerminal hterminal' status
  · rw [status_of_over hruns hearlier h hterminal h']

/-- Nobody knows of a run any more whose record was handed out and dropped. -/
lemma unknown_after (hruns : Act.DistinctRuns later) (hdropped : earlier ++ [.forget id] <+: later)
    (h : (((make registry config world : EngineState ε π ω).after ex earlier).forget id).1.isSome =
      true) :
    Unknown id ((make registry config world : EngineState ε π ω).after ex later) := by
  obtain ⟨rest, rfl⟩ := hdropped
  obtain ⟨record, hrecord⟩ := Option.isSome_iff_exists.1 h
  have hforgotten : (make registry config world : EngineState ε π ω).Forgotten ex
      (earlier ++ [.forget id] ++ rest) id := ⟨earlier, rest, record, by simp, hrecord⟩
  obtain ⟨hworker, hfinished⟩ := gone_after ex registry config world _ hruns hforgotten
  rw [← active_keys_after ex registry config world _ hruns] at hworker
  have hnone := Keyed.get?_eq_none_iff.2 hworker
  refine ⟨inactive_of_none hnone, ?_, hfinished⟩
  rw [status?, hfinished, hnone]
  rfl

/-- A call for the record of a run looks this run up. -/
lemma eq_of_looksUp {acts before : List (Act ω)} (hcalls : Act.DistinctCalls acts)
    (hbefore : before <+: acts) {n : ℕ} (hrequest : .request n (.get id) ∈ acts)
    {answer : Option Execution} {other : String}
    (h : LooksUp ((make registry config world : EngineState ε π ω).after ex before) n answer
      other) : other = id := by
  obtain ⟨state, hcall, hstate⟩ := h.call
  have hasked := hbefore.subset (calls_asked ex registry config world before hcall)
  rw [hstate] at hasked
  cases eq_of_callNumber hcalls hrequest hasked rfl rfl
  rfl

end Inactive

/-! ## What users are told -/

/-- What the users of an engine are told of a run in a history. -/
structure Observed (ex : Executors ε π ω) (start : EngineState ε π ω) (acts : List (Act ω))
    (id : String) (record : Execution) : Prop where
  /-- The status only moves forward, and it stays as it is when the run is over. -/
  forward : ∀ earlier later, earlier <+: later → later <+: acts → ∀ status status',
    (start.after ex earlier).status? id = some status →
    (start.after ex later).status? id = some status' →
    status.rank ≤ status'.rank ∧ (status.isTerminal = true → status' = status)
  /-- When the run is over, one record says all there is to say. -/
  status : ∀ before, before <+: acts → ∀ status,
    (start.after ex before).status? id = some status → status.isTerminal = true →
    status = record.status
  answered : ∀ n found, .request n (.get id) ∈ acts →
    (n, .record (some found)) ∈ (start.after ex acts).answers → found = record
  handed : ∀ before, before <+: acts → ∀ found,
    ((start.after ex before).forget id).1 = some found → found = record
  heard : ∀ status ms now, .executionFinished id status ms now ∈ (start.after ex acts).emitted →
    status = record.status
  /-- A run that was seen to be over is neither listed, nor counted, nor cancelled any more. -/
  inactive : ∀ earlier later, earlier <+: later → later <+: acts → ∀ status,
    (start.after ex earlier).status? id = some status → status.isTerminal = true →
    Inactive id (start.after ex later)
  /-- Once its record was handed out and dropped, nobody knows of the run. -/
  forgotten : ∀ before later, before ++ [.forget id] <+: later → later <+: acts →
    ((start.after ex before).forget id).1.isSome = true → Unknown id (start.after ex later)
  lost : ∀ before, before ++ [.forget id] <+: acts →
    ((start.after ex before).forget id).1.isSome = true → ∀ n answer,
    .request n (.get id) ∈ acts → (n, .record answer) ∈ (start.after ex acts).answers →
    (n, .record answer) ∉ (start.after ex (before ++ [.forget id])).answers → answer = none

section Observed

variable {ex : Executors ε π ω} {registry : Registry ε} {config : EngineConfig} {world : ω}
variable {acts : List (Act ω)} {id : String} {record : Execution}

/-- All that is said of a run when it is over is said by the record it came to its end with. -/
lemma observed_of_settled (hruns : Act.DistinctRuns acts) (hcalls : Act.DistinctCalls acts)
    (hrecord : ∀ found, Settled ex (make registry config world) acts id found → found = record) :
    Observed ex (make registry config world) acts id record where
  forward earlier later hearlier hlater status status' h h' := by
    have hruns' := distinctRuns_earlier hruns hlater
    exact ⟨rank_le_after hruns' hearlier h h',
      fun hterminal => status_of_over hruns' hearlier h hterminal h'⟩
  status before hbefore status h hterminal := by
    have hruns' := distinctRuns_earlier hruns hbefore
    obtain ⟨found, hfound, rfl⟩ := finished_of_terminal hruns' h hterminal
    rw [hrecord found ((settled_of_finished hruns' hfound).mono hbefore)]
  answered n found hrequest h := by
    obtain ⟨before, rest, other, rfl, hlooks⟩ :=
      looksUp_of_answer ex registry config world acts h
    have hbefore : before <+: before ++ .move (.call n) :: rest := List.prefix_append _ _
    cases eq_of_looksUp hcalls hbefore hrequest hlooks
    have hruns' := distinctRuns_earlier hruns hbefore
    exact hrecord found ((settled_of_finished hruns' hlooks.found.symm).mono hbefore)
  handed before hbefore found h :=
    hrecord found ((settled_of_finished (distinctRuns_earlier hruns hbefore) h).mono hbefore)
  heard status ms now h := by
    have hheard : status ∈ (((make registry config world : EngineState ε π ω).after ex
        acts).eventsOf id).filterMap ExecutionEvent.finished? :=
      List.mem_filterMap.2 ⟨_, List.mem_filter.2 ⟨h, decide_eq_true rfl⟩, rfl⟩
    obtain ⟨found, hsettled, rfl⟩ := settled_of_heard ex registry config world acts hruns hheard
    rw [hrecord found hsettled]
  inactive earlier later hearlier hlater status h hterminal :=
    inactive_after (distinctRuns_earlier hruns hlater) hearlier h hterminal
  forgotten before later hdropped hlater h :=
    unknown_after (distinctRuns_earlier hruns hlater) hdropped h
  lost before hdropped h n answer hrequest hanswer hnew := by
    obtain ⟨more, rfl⟩ := hdropped
    -- the record was looked up after it had been dropped
    obtain ⟨since, rest, other, rfl, hlooks⟩ :=
      looksUp_of_new_answer ex registry config world _ more hanswer hnew
    have hbefore : before ++ [.forget id] ++ since <+:
        before ++ [.forget id] ++ (since ++ .move (.call n) :: rest) := by
      rw [← List.append_assoc]
      exact List.prefix_append _ _
    cases eq_of_looksUp hcalls hbefore hrequest hlooks
    have hunknown :=
      unknown_after (distinctRuns_earlier hruns hbefore) (List.prefix_append _ since) h
    exact hlooks.found.trans hunknown.forgotten

end Observed

/-- **What users see of a run only moves forward, and all of it agrees.**  In every history with
distinct ids and distinct calls, whatever the workers and the callers do and in which order: the
status of a run never goes back; when the run is over, its status, the records handed out, and the
announced end all say what one record says; the run is not listed, counted or cancelled any more;
and once its record was dropped nobody knows of it. -/
theorem observed_after (ex : Executors ε π ω) (registry : Registry ε) (config : EngineConfig)
    (world : ω) (acts : List (Act ω)) (hruns : Act.DistinctRuns acts)
    (hcalls : Act.DistinctCalls acts) (id : String) :
    ∃ record, Observed ex (make registry config world) acts id record := by
  by_cases hsettled : ∃ record, Settled ex (make registry config world) acts id record
  · obtain ⟨record, hrecord⟩ := hsettled
    exact ⟨record, observed_of_settled hruns hcalls fun found => hrecord.unique hruns⟩
  · exact ⟨default, observed_of_settled hruns hcalls fun found hfound =>
      absurd ⟨found, hfound⟩ hsettled⟩

/-- A run is pending, running and completed, and then its record is handed out and dropped. -/
theorem observed_after_waitedFor :
    let seen := fun n => ((promptEngine {}).after Executors.prompt (waitedFor.take n)).status? "run"
    [seen 0, seen 1, seen 4, seen 8, seen 9, seen 12, seen 13] =
      [none, some .pending, some .running, some .running, some .completed, some .completed, none] ∧
    ∃ record, Observed Executors.prompt (promptEngine {}) waitedFor "run" record := by
  have hruns : Act.DistinctRuns waitedFor := show ["run"].Nodup by decide
  have hcalls : Act.DistinctCalls waitedFor := show [0, 1].Nodup by decide
  exact ⟨rfl, observed_after Executors.prompt _ {} () waitedFor hruns hcalls "run"⟩

end EngineState

end FlowGraph
