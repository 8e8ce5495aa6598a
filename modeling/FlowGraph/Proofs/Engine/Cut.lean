import FlowGraph.Proofs.Engine.Endings
import FlowGraph.Proofs.Traversal.Blindness

/-!
# A cancellation is a clean cut

A cancellation takes effect between two nodes.  From then on no node is entered (`WindsDown`), and a
run that was not let in is dismissed without a trace (`Dismissed`).  With blind executors, a run
that ends as cancelled is one that was cut short: there is a point between two nodes, the
`CutPoint`, to which the run comes without a cancellation, too.  What the cancelled run has written
is what is written at that point, and so it is a beginning of all that the run writes without a
cancellation.

The point is found by going back from the final record to the turn in which the run ended; there
the worker stood at a `Stage`, and its moment is also one of the run that nobody cancels
(`Reached.uncancelled`).
-/

namespace FlowGraph

/-- The event says that a run or a node begins. -/
def ExecutionEvent.begins : ExecutionEvent → Bool
  | executionStarted .. | nodeStarted .. => true
  | _ => false

namespace EngineState

open Traversal (Running Moment Published Continues)

variable {ε π ω : Type}

/-! ## No node is entered -/

/-- What a run has come to since it was cancelled in the phase `p₀`, with the events since then. -/
structure WindsDown (w : Workflow) (p₀ p : Phase π) (since : List ExecutionEvent) : Prop where
  /-- Nothing begins. -/
  begins : ∀ e ∈ since, e.begins = false
  /-- No node has a result that was not entered before. -/
  keys : Keyed.keys p.record.results = Keyed.keys p₀.record.results
  /-- An executor is at work only on the node on which one was at work. -/
  calls : ∀ t node q, p = .calling t node q → ∃ q₀, p₀ = .calling t node q₀
  /-- Nothing is recorded but the answer of that executor, and that is recorded as usual. -/
  recorded : p.record.results = p₀.record.results ∨
    ∃ t node q answer now, p₀ = .calling t node q ∧ (t.complete w node answer now).2 ∈ since ∧
      (p = .traversing (t.complete w node answer now).1 ∨
        ∃ record, p = .storing record ∧
          record.results = (t.complete w node answer now).1.record.results)

section WindsDown

variable {id : String} {w : Workflow} {p₀ p : Phase π} {events : List ExecutionEvent}

lemma results_finish (record : Execution) (status : ExecutionStatus) (error : Option String)
    (now : Timestamp) : (record.finish status error now).results = record.results := by
  unfold Execution.finish
  split <;> rfl

lemma Reports.begins {node : Node} (h : Reports id node events) :
    ∀ e ∈ events, e.begins = false := by
  intro e he
  obtain ⟨report, now, rfl⟩ := h e he
  rfl

lemma begins_append {more : List ExecutionEvent} (h : ∀ e ∈ events, e.begins = false)
    (h' : ∀ e ∈ more, e.begins = false) : ∀ e ∈ events ++ more, e.begins = false := by
  intro e he
  rcases List.mem_append.1 he with hold | hnew
  · exact h e hold
  · exact h' e hnew

lemma begins_finished (status : ExecutionStatus) (ms : ℕ) (now : Timestamp) :
    ∀ e ∈ [ExecutionEvent.executionFinished id status ms now], e.begins = false := by
  intro e he
  rw [List.mem_singleton.1 he]
  rfl

/-- A run that records nothing more. -/
lemma WindsDown.of_same (hbegins : ∀ e ∈ events, e.begins = false)
    (hresults : p.record.results = p₀.record.results)
    (hcalls : ∀ t node q, p = .calling t node q → ∃ q₀, p₀ = .calling t node q₀) :
    WindsDown w p₀ p events :=
  ⟨hbegins, congrArg Keyed.keys hresults, hcalls, Or.inl hresults⟩

lemma Left.windsDown {t : Traversal} (h : Left id w p₀ t events) :
    WindsDown w p₀ (.traversing t) events := by
  cases h with
  | between h =>
    subst h
    exact .of_same nofun rfl fun _ _ _ => nofun
  | begun h _ =>
    subst h
    exact .of_same nofun rfl fun _ _ _ => nofun
  | @answered t node q events h answer now hevents =>
    subst h
    have hcompleted : (t.complete w node answer now).2.begins = false := by
      cases answer <;> rfl
    refine ⟨begins_append hevents.begins ?_, ?_, fun _ _ _ => nofun,
      Or.inr ⟨t, node, q, answer, now, rfl, by simp, Or.inl rfl⟩⟩
    · intro e he
      rw [List.mem_singleton.1 he]
      exact hcompleted
    · obtain ⟨seconds, hresults⟩ := Traversal.results_complete w node answer now t
      simp only [Phase.record, hresults, Keyed.keys_modify]

/-- A run that stops between two nodes records nothing more. -/
lemma WindsDown.stop {t : Traversal} (h : WindsDown w p₀ (.traversing t) events)
    {record : Execution} (hrecord : record.results = t.record.results) (status : ExecutionStatus)
    (ms : ℕ) (now : Timestamp) :
    WindsDown w p₀ (.storing record) (events ++ [.executionFinished id status ms now]) := by
  refine ⟨begins_append h.begins (begins_finished _ _ _), ?_, fun _ _ _ => nofun, ?_⟩
  · exact (congrArg Keyed.keys hrecord).trans h.keys
  · rcases h.recorded with hsame | ⟨t', node, q, answer, now', h₀, hevent, hp⟩
    · exact Or.inl (hrecord.trans hsame)
    · refine Or.inr ⟨t', node, q, answer, now', h₀, List.mem_append_left _ hevent,
        Or.inr ⟨record, rfl, ?_⟩⟩
      rcases hp with hp | ⟨_, hp, -⟩
      · cases hp
        exact hrecord
      · cases hp

lemma Winding.windsDown {ex : Executors ε π ω} (h : Winding ex id w p₀ p events) :
    WindsDown w p₀ p events := by
  cases h with
  | same => exact .of_same nofun rfl fun t node q hp => ⟨q, hp⟩
  | granted h =>
    subst h
    exact .of_same nofun rfl fun _ _ _ => nofun
  | dismissed _ now ms hrecord =>
    subst hrecord
    exact .of_same (begins_finished _ _ _) (results_finish _ _ _ _) fun _ _ _ => nofun
  | untriggered h _ now ms hrecord =>
    subst h hrecord
    exact .of_same (begins_finished _ _ _) (results_finish _ _ _ _) fun _ _ _ => nofun
  | @waiting t node q _ h q' hevents =>
    subst h
    refine .of_same hevents.begins rfl fun t' node' q'' hp => ?_
    cases hp
    exact ⟨q, rfl⟩
  | crashed h hevents _ now ms hrecord =>
    subst h hrecord
    exact .of_same (begins_append hevents.begins (begins_finished _ _ _))
      (results_finish _ _ _ _) fun _ _ _ => nofun
  | left h => exact h.windsDown
  | @stopped t events h record now ms hrecord =>
    refine h.windsDown.stop ?_ _ _ _
    rw [hrecord]
    split <;> exact results_finish _ _ _ _

end WindsDown

/-! ## Runs that were not let in -/

/-- A run that was cancelled before it was let in: it still waits, or it is over.  It has no result,
and nothing is heard of it but its end. -/
inductive Dismissed (id : String) : Phase π → List ExecutionEvent → Prop
  | waits {p : Phase π} (hp : p.isPending = true) (hresults : p.record.results = []) :
      Dismissed id p []
  | ended {record : Execution} (hstatus : record.status = .cancelled)
      (herror : record.error = some EngineError.cancelled.message)
      (hresults : record.results = []) (ms : ℕ) (now : Timestamp) :
      Dismissed id (.storing record) [.executionFinished id .cancelled ms now]

lemma Dismissed.waits_or_over {id : String} {p : Phase π} {events : List ExecutionEvent}
    (h : Dismissed id p events) : p.isPending = true ∨ ∃ record, p = .storing record := by
  cases h with
  | waits hp _ => exact Or.inl hp
  | ended => exact Or.inr ⟨_, rfl⟩

lemma Winding.isDismissed {ex : Executors ε π ω} {id : String} {w : Workflow} {p₀ p : Phase π}
    {events : List ExecutionEvent} (h : Winding ex id w p₀ p events)
    (hpending : p₀.isPending = true) (hsound : p₀.Sound) (hresults : p₀.record.results = []) :
    Dismissed id p events := by
  cases h with
  | same => exact .waits hpending hresults
  | granted h =>
    subst h
    exact .waits rfl hresults
  | @dismissed _ record now ms hrecord =>
    have hopen : p₀.record.status.isTerminal = false := by
      rw [hsound.pending hpending]
      rfl
    rw [finish_of_not_terminal hopen] at hrecord
    have hstatus : record.status = .cancelled := by rw [hrecord]
    have herror : record.error = some EngineError.cancelled.message := by rw [hrecord]
    have hnone : record.results = [] := by
      rw [hrecord]
      exact hresults
    rw [hstatus]
    exact .ended hstatus herror hnone ms now
  | untriggered h | waiting h | crashed h =>
    subst h
    cases hpending
  | left h | stopped h => exact absurd h (not_left_of_pending hpending)

section Moves

variable {ex : Executors ε π ω} {s : EngineState ε π ω} {id : String} {w : Workflow}

/-- A cancelled run that was not let in ends when its worker moves. -/
lemma storing_of_pending {p : Phase π} (hworker : Keyed.get? s.workers id = some ⟨w, p⟩)
    (hp : p.isPending = true) (hcancelled : s.isCancelled id = true) :
    ∃ record, Keyed.get? (s.act ex (.move (.worker id))).workers id =
      some ⟨w, .storing record⟩ := by
  have hact : s.act ex (.move (.worker id)) = s.pollWorker ex id := rfl
  rw [pollWorker, hworker] at hact
  cases p with
  | spawned record =>
    dsimp only at hact
    rw [if_pos hcancelled] at hact
    rw [hact]
    exact ⟨_, get?_setPhase _ hworker _⟩
  | queued record =>
    dsimp only at hact
    rw [if_pos hcancelled] at hact
    rw [hact]
    exact ⟨_, get?_setPhase _ hworker _⟩
  | permitted record =>
    dsimp only at hact
    rw [if_pos hcancelled] at hact
    rw [hact]
    exact ⟨_, get?_setPhase _ (get?_releasePermit s hworker rfl) _⟩
  | _ => cases hp

/-- A run whose record is final is gone when its worker moves. -/
lemma none_of_storing {record : Execution}
    (hworker : Keyed.get? s.workers id = some ⟨w, .storing record⟩) :
    Keyed.get? (s.act ex (.move (.worker id))).workers id = none := by
  have hact : s.act ex (.move (.worker id)) = s.store id record := by
    simp only [act, poll, pollWorker, hworker]
  rw [hact]
  exact Keyed.get?_erase_self _ _

end Moves

section After

variable (ex : Executors ε π ω) (registry : Registry ε) (config : EngineConfig) (world : ω)

lemma Follows.imp {P Q : Phase π → List ExecutionEvent → Prop} {w : Workflow} {id : String}
    {s : EngineState ε π ω} (h : Follows P w id s) (himp : ∀ p events, P p events → Q p events) :
    Follows Q w id s := by
  rcases h with ⟨p, hworker, hp⟩ | ⟨hnone, record, hp, hfound⟩
  · exact Or.inl ⟨p, hworker, himp _ _ hp⟩
  · exact Or.inr ⟨hnone, record, himp _ _ hp, hfound⟩

/-- A run that is about to store its record, or has done so. -/
def IsOver (w : Workflow) (id : String) (s : EngineState ε π ω) : Prop :=
  Keyed.get? s.workers id = none ∨
    ∃ record, Keyed.get? s.workers id = some ⟨w, .storing record⟩

lemma isOver_after (acts more : List (Act ω)) (hruns : Act.DistinctRuns (acts ++ more))
    {id : String} {w : Workflow} (hasked : id ∈ acts.filterMap Act.runId?)
    (h : IsOver w id ((make registry config world : EngineState ε π ω).after ex acts)) :
    IsOver w id ((make registry config world : EngineState ε π ω).after ex (acts ++ more)) := by
  rcases h with hnone | ⟨record, hstoring⟩
  · exact Or.inl (absent_after ex registry config world more hruns hasked hnone).1
  · have hfollows := follows_after ex registry config world acts more hruns hstoring
      (P := fun p _ => ∃ record, p = .storing record) ⟨record, rfl⟩ (by
        rintro between - q q' events turn - hturn ⟨final, rfl⟩
        exact absurd rfl (hturn.not_storing final))
    rcases hfollows with ⟨p, hworker, final, rfl⟩ | ⟨hnone, -⟩
    · exact Or.inr ⟨final, hworker⟩
    · exact Or.inl hnone

/-- Once a run is over, its worker is gone with its next move. -/
lemma gone_of_isOver (acts between rest : List (Act ω)) {id : String} {w : Workflow}
    (hruns : Act.DistinctRuns (acts ++ (between ++ .move (.worker id) :: rest)))
    (hasked : id ∈ acts.filterMap Act.runId?)
    (h : IsOver w id ((make registry config world : EngineState ε π ω).after ex acts)) :
    Keyed.get? ((make registry config world : EngineState ε π ω).after ex
      (acts ++ (between ++ .move (.worker id) :: rest))).workers id = none := by
  have hsplit : acts ++ (between ++ .move (.worker id) :: rest) =
      ((acts ++ between) ++ [.move (.worker id)]) ++ rest := by
    simp
  rw [hsplit] at hruns ⊢
  have hruns' := distinctRuns_of_append hruns
  have hlater := isOver_after ex registry config world acts between
    (distinctRuns_of_append hruns') hasked h
  have hstill : id ∈ (acts ++ between).filterMap Act.runId? := by
    rw [List.filterMap_append]
    exact List.mem_append_left _ hasked
  have hnone : Keyed.get? ((make registry config world : EngineState ε π ω).after ex
      ((acts ++ between) ++ [.move (.worker id)])).workers id = none := by
    rcases hlater with hnone | ⟨record, hstoring⟩
    · exact (absent_after ex registry config world _ hruns' hstill hnone).1
    · rw [after_concat]
      exact none_of_storing hstoring
  refine (absent_after ex registry config world rest hruns ?_ hnone).1
  rw [List.filterMap_append]
  exact List.mem_append_left _ hstill

/-- A run whose worker is gone is finished, unless its record was dropped. -/
lemma finished_of_gone (acts more : List (Act ω)) (hruns : Act.DistinctRuns (acts ++ more))
    {id : String} {w : Workflow} {p : Phase π}
    (hworker : Keyed.get?
      ((make registry config world : EngineState ε π ω).after ex acts).workers id = some ⟨w, p⟩)
    (hnone : Keyed.get? ((make registry config world : EngineState ε π ω).after ex
      (acts ++ more)).workers id = none) :
    id ∈ Keyed.keys ((make registry config world : EngineState ε π ω).after ex
        (acts ++ more)).finished ∨
      (make registry config world : EngineState ε π ω).Forgotten ex (acts ++ more) id := by
  obtain ⟨input, hjourney⟩ :=
    journey_after ex registry config world acts (distinctRuns_of_append hruns) hworker
  obtain ⟨earlier, later, rfl, hadmitting⟩ := hjourney.admission
  rcases placed_after ex registry config world _ hruns
    ⟨earlier, w, input, _, _, List.append_assoc _ _ _, execute_open ex hadmitting⟩ with
    ⟨hactive, -⟩ | ⟨-, hfinished, -⟩ | ⟨-, -, hforgotten⟩
  · rw [active_keys_after ex registry config world _ hruns] at hactive
    exact absurd hactive (Keyed.get?_eq_none_iff.1 hnone)
  · exact Or.inl hfinished
  · exact Or.inr hforgotten

/-- A run that is cancelled before it was let in is dismissed. -/
lemma dismissed_after (acts more : List (Act ω)) (hruns : Act.DistinctRuns (acts ++ more))
    {id : String} {w : Workflow} {p₀ : Phase π}
    (hworker : Keyed.get?
      ((make registry config world : EngineState ε π ω).after ex acts).workers id = some ⟨w, p₀⟩)
    (hcancelled : ((make registry config world : EngineState ε π ω).after ex acts).isCancelled id =
      true) (hpending : p₀.isPending = true) :
    Follows (Dismissed id) w id ((make registry config world).after ex (acts ++ more)) := by
  have hbefore := distinctRuns_of_append hruns
  obtain ⟨input, -, hstage⟩ := stage_after ex registry config world acts hbefore hworker (by
    rintro record rfl
    cases hpending)
  obtain ⟨⟨now, hrecord⟩, hevents⟩ := hstage.of_pending hpending
  obtain ⟨_, hjourney⟩ := journey_after ex registry config world acts hbefore hworker
  have hresults : p₀.record.results = [] := by
    rw [hrecord]
    rfl
  refine (winding_after ex registry config world acts more hruns hworker hcancelled).imp ?_
  rintro p events ⟨since, rfl, hwinding⟩
  rw [hevents, List.nil_append]
  exact hwinding.isDismissed hpending hjourney.sound hresults

/-- A run that is cancelled before it was let in is over once its worker has moved. -/
lemma isOver_of_move (acts first : List (Act ω)) {id : String} {w : Workflow} {p₀ : Phase π}
    (hruns : Act.DistinctRuns ((acts ++ first) ++ [.move (.worker id)]))
    (hworker : Keyed.get?
      ((make registry config world : EngineState ε π ω).after ex acts).workers id = some ⟨w, p₀⟩)
    (hcancelled : ((make registry config world : EngineState ε π ω).after ex acts).isCancelled id =
      true) (hpending : p₀.isPending = true) :
    IsOver w id ((make registry config world : EngineState ε π ω).after ex
      ((acts ++ first) ++ [.move (.worker id)])) := by
  have hbefore := distinctRuns_of_append hruns
  have hasked := workers_asked ex registry config world acts (Keyed.mem_keys_of_get? hworker)
  have hstill : id ∈ (acts ++ first).filterMap Act.runId? := by
    rw [List.filterMap_append]
    exact List.mem_append_left _ hasked
  rcases dismissed_after ex registry config world acts first hbefore hworker hcancelled hpending
    with ⟨p, hp, hdismissed⟩ | ⟨hnone, -⟩
  · rcases hdismissed.waits_or_over with hwaits | ⟨record, rfl⟩
    · -- it still waits, so it sees the cancellation now
      have hcancelled' :=
        isCancelled_after ex registry config world acts first hbefore hcancelled hp
      rw [after_concat]
      exact Or.inr (storing_of_pending hp hwaits hcancelled')
    · exact isOver_after ex registry config world _ _ hruns hstill (Or.inr ⟨_, hp⟩)
  · exact isOver_after ex registry config world _ _ hruns hstill (Or.inl hnone)

/-- Two moves of its worker end a run that is cancelled before it was let in. -/
lemma gone_of_moves (acts first second rest : List (Act ω)) {id : String} {w : Workflow}
    {p₀ : Phase π}
    (hruns : Act.DistinctRuns (acts ++
      (first ++ .move (.worker id) :: (second ++ .move (.worker id) :: rest))))
    (hworker : Keyed.get?
      ((make registry config world : EngineState ε π ω).after ex acts).workers id = some ⟨w, p₀⟩)
    (hcancelled : ((make registry config world : EngineState ε π ω).after ex acts).isCancelled id =
      true) (hpending : p₀.isPending = true) :
    Keyed.get? ((make registry config world : EngineState ε π ω).after ex (acts ++
      (first ++ .move (.worker id) :: (second ++ .move (.worker id) :: rest)))).workers id =
        none := by
  have hsplit : acts ++ (first ++ .move (.worker id) :: (second ++ .move (.worker id) :: rest)) =
      ((acts ++ first) ++ [.move (.worker id)]) ++ (second ++ .move (.worker id) :: rest) := by
    simp
  rw [hsplit] at hruns ⊢
  have hasked : id ∈ ((acts ++ first) ++ [Act.move (.worker id)]).filterMap Act.runId? := by
    rw [List.append_assoc, List.filterMap_append]
    exact List.mem_append_left _
      (workers_asked ex registry config world acts (Keyed.mem_keys_of_get? hworker))
  -- with its first move the run is over
  have hover := isOver_of_move ex registry config world acts first (distinctRuns_of_append hruns)
    hworker hcancelled hpending
  exact gone_of_isOver ex registry config world _ second rest hruns hasked hover

end After

/-! ## The cut -/

/-- A point between two nodes to which a run comes that nobody cancels.  There its worker stands,
and all that the run may still write comes after what it has written. -/
structure CutPoint (ex : Executors ε π ω) (start : EngineState ε π ω) (acts : List (Act ω))
    (id : String) (w : Workflow) (input : Fields) (cut : Running ω) : Prop where
  admitted : AdmittedWith ex start acts id w input
  worker : Keyed.get? (start.after ex acts).workers id = some ⟨w, .traversing cut.traversal⟩
  uncancelled : cut.cancelled = false
  reached : ∃ now world, Moment.Reached ex.withoutCancels (start.after ex acts).registry w
    (begun id w input now world) (.between cut)
  published : Published cut
  continues : ∀ m, Relation.ReflTransGen
      (Moment.Step ex.withoutCancels (start.after ex acts).registry w) (.between cut) m →
    Published m.run ∧ Continues cut m.run

/-- A cancellation of a run is a clean cut. -/
structure CleanCut (ex : Executors ε π ω) (start : EngineState ε π ω) (acts : List (Act ω))
    (id : String) : Prop where
  /-- A user who is told so has cancelled the run, and a shutdown cancels it. -/
  signalled : ∀ before a, before ++ [a] <+: acts →
    Keyed.contains (start.after ex before).workers id = true →
    (a = .cancel id ∧ ((start.after ex before).cancel id).1 = true ∨
      ∃ n, a = .move (.call n) ∧
        (start.after ex before).calls.lookup n = some (.made .shutdown)) →
    (start.after ex (before ++ [a])).isCancelled id = true
  /-- Once the run is cancelled, no node is entered.  At most the executor at work finishes. -/
  windsDown : ∀ before rest w p₀, acts = before ++ rest →
    Keyed.get? (start.after ex before).workers id = some ⟨w, p₀⟩ →
    (start.after ex before).isCancelled id = true →
    Follows (fun p events => ∃ since, events = (start.after ex before).eventsOf id ++ since ∧
      WindsDown w p₀ p since) w id (start.after ex acts)
  /-- When it was not let in by then, it is dismissed, and it is over when its worker has moved
  twice. -/
  dismissed : ∀ before rest w p₀, acts = before ++ rest →
    Keyed.get? (start.after ex before).workers id = some ⟨w, p₀⟩ →
    (start.after ex before).isCancelled id = true → p₀.isPending = true →
    Follows (Dismissed id) w id (start.after ex acts) ∧
      ∀ first second last,
        rest = first ++ .move (.worker id) :: (second ++ .move (.worker id) :: last) →
        id ∈ Keyed.keys (start.after ex acts).finished ∨ start.Forgotten ex acts id
  /-- When it ends as cancelled, it was dismissed, or it was cut short at a point to which the run
  comes without a cancellation, too. -/
  cut : ∀ record, Keyed.get? (start.after ex acts).finished id = some record →
    record.status = .cancelled →
    Dismissed id (.storing record : Phase π) ((start.after ex acts).eventsOf id) ∨
      ∃ before w input cut, before <+: acts ∧ CutPoint ex start before id w input cut ∧
        record.results = cut.traversal.record.results ∧
        ∃ started ms now, (start.after ex acts).eventsOf id =
          .executionStarted id w.id started ::
            (cut.events ++ [.executionFinished id .cancelled ms now])

section CleanCut

variable (ex : Executors ε π ω) (registry : Registry ε) (config : EngineConfig) (world : ω)

/-- A shutdown cancels all runs that are not over. -/
lemma isCancelled_shutdown {s : EngineState ε π ω} {n : ℕ} {id : String}
    (hfirst : s.calls.lookup n = some (.made .shutdown)) (hactive : id ∈ Keyed.keys s.active) :
    (s.act ex (.move (.call n))).isCancelled id = true := by
  have hsame := (sameRuns_awaitRuns ex s.closeAdmission.2 n s.closeAdmission.1).active
  obtain ⟨run, hrun⟩ := Keyed.exists_of_mem_keys hactive
  rw [isCancelled_eq]
  simp only [act, poll, pollCall_shutdown ex s n hfirst, hsame, get?_closeAdmission, hrun]
  rfl

lemma cut_of_cancelled (acts : List (Act ω)) (hruns : Act.DistinctRuns acts) (hblind : ex.Blind)
    {id : String} {record : Execution}
    (hrecord : Keyed.get? ((make registry config world : EngineState ε π ω).after ex acts).finished
      id = some record) (hstatus : record.status = .cancelled) :
    Dismissed id (.storing record : Phase π)
        (((make registry config world : EngineState ε π ω).after ex acts).eventsOf id) ∨
      ∃ before w input cut, before <+: acts ∧
        CutPoint ex (make registry config world) before id w input cut ∧
        record.results = cut.traversal.record.results ∧
        ∃ started ms now,
          ((make registry config world : EngineState ε π ω).after ex acts).eventsOf id =
            .executionStarted id w.id started ::
              (cut.events ++ [.executionFinished id .cancelled ms now]) := by
  obtain ⟨e⟩ := ending_of_finished ex registry config world acts hruns hrecord
  have houtcome : e.outcome = .returned (.error .cancelled) :=
    (status_verdict e.outcome).2.1.1 (e.status.symm.trans hstatus)
  have herror : record.error = some EngineError.cancelled.message := by
    rw [e.record_eq, houtcome]
    rfl
  have hends := e.ends
  have hstage := e.stage
  have hresults := e.results
  have hworker := e.worker
  rw [houtcome] at hends
  rw [e.events, hstatus]
  generalize e.phase = p at hends hstage hresults hworker
  generalize e.reports = reports at hends ⊢
  cases hends with
  | cancelled hpending _ =>
    -- it was not let in, so nothing is heard of it but its end
    left
    obtain ⟨⟨made, hmade⟩, hnothing⟩ := hstage.of_pending hpending
    rw [hnothing, List.nil_append, List.nil_append]
    exact .ended hstatus herror (hresults.trans (congrArg Execution.results hmade)) e.millis e.now
  | @stopped t _ hstep =>
    -- it stood between two nodes, where the run that nobody cancels comes by, too
    right
    obtain ⟨made, started, first, run, hrun, hreached⟩ := hstage.of_traversing
      ((make registry config world : EngineState ε π ω).after ex e.before).world
    obtain rfl := hrun.traversal
    have hcut := hreached.uncancelled hblind
    obtain ⟨hpublished, hcontinues⟩ := Traversal.cut_continues rfl rfl rfl hcut
    refine ⟨e.before, e.workflow, e.input, run.uncancelled, e.prior, ⟨e.admitted, hworker, rfl,
      ⟨made, first, hcut⟩, hpublished, hcontinues⟩, hresults, started, e.millis, e.now, ?_⟩
    rw [hrun.events]
    rfl

/-- **A cancellation is a clean cut.**  In every history with distinct ids and blind executors,
whoever cancels a run and at whatever point: from then on no node is entered, and at most the
executor at work finishes.  A run that was not let in by then ends as cancelled, without results,
and nothing is heard of it but its end.  A run that ends as cancelled has the results, the
publications, the errors and the events of a point to which it comes without a cancellation, too,
and these are a beginning of all that the run writes without a cancellation. -/
theorem cleanCut_after (acts : List (Act ω)) (hruns : Act.DistinctRuns acts) (hblind : ex.Blind)
    (id : String) : CleanCut ex (make registry config world) acts id where
  signalled before a hbefore hworker hsignal := by
    obtain ⟨rest, rfl⟩ := hbefore
    have hstarted := distinctRuns_of_append (distinctRuns_of_append hruns)
    rw [after_concat]
    rcases hsignal with ⟨rfl, htrue⟩ | ⟨n, rfl, hfirst⟩
    · exact (cancel_of_true ex htrue).1
    · have hactive := (Keyed.mem_keys_iff _ _).2 hworker
      rw [← active_keys_after ex registry config world before hstarted] at hactive
      exact isCancelled_shutdown ex hfirst hactive
  windsDown before rest w p₀ hacts hworker hcancelled := by
    subst hacts
    refine (winding_after ex registry config world before rest hruns hworker hcancelled).imp ?_
    rintro p events ⟨since, rfl, hwinding⟩
    exact ⟨since, rfl, hwinding.windsDown⟩
  dismissed before rest w p₀ hacts hworker hcancelled hpending := by
    subst hacts
    refine ⟨dismissed_after ex registry config world before rest hruns hworker hcancelled hpending,
      fun first second last hrest => ?_⟩
    subst hrest
    have hnone := gone_of_moves ex registry config world before first second last hruns hworker
      hcancelled hpending
    exact finished_of_gone ex registry config world before _ hruns hworker hnone
  cut record hrecord hstatus :=
    cut_of_cancelled ex registry config world acts hruns hblind hrecord hstatus

end CleanCut

/-- Blind executors, which answer when they are polled for the second time. -/
def unhurried : Executors Unit Bool Unit where
  hooks := Executors.prompt.hooks
  now := Executors.prompt.now
  begin _ _ := false
  poll polled _ world :=
    ({ state := if polled then .inr (.answered (.ok [])) else .inl true }, world)

/-- A run is cancelled while the executor of its first node is at work. -/
def cutShort : List (Act Unit) :=
  [.execute "run" Traversal.fork [], .move (.worker "run"), .move (.worker "run"),
    .move (.worker "run"), .move (.worker "run"), .cancel "run", .move (.worker "run"),
    .move (.worker "run"), .move (.worker "run")]

/-- The executor answers, and the next node is not entered. -/
theorem cleanCut_after_cutShort :
    let registry : Registry Unit := { executor? := fun _ => some (), initialized := true }
    let start : EngineState Unit Bool Unit := make registry {} ()
    (∃ record, Keyed.get? (start.after unhurried cutShort).finished "run" = some record ∧
      record.status = .cancelled ∧
      record.results.map (fun entry => (entry.1, entry.2.status)) = [("start", .success)]) ∧
      CleanCut unhurried start cutShort "run" := by
  refine ⟨⟨_, rfl, rfl, rfl⟩, ?_⟩
  have hruns : Act.DistinctRuns cutShort := show ["run"].Nodup by decide
  have hblind : unhurried.Blind := fun _ _ _ => rfl
  exact cleanCut_after unhurried _ {} () cutShort hruns hblind "run"

end EngineState

end FlowGraph
