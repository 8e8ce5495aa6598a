import FlowGraph.Proofs.Traversal.Ledger
import FlowGraph.Proofs.Traversal.Taking

/-!
# The course of a run

When what comes of a call depends on the call alone, a run has only one course to take: the nodes it
enters, their answers and its end are settled by the workflow and the input, whatever happens around
it meanwhile.  Only the times differ.

A course is taken by turns that see nothing of the world but the answers of the executors
(`Course`), up to a point where it stops (`Stops`).  The key lemma is `Alike.step`: traversals that
are alike but for the times take the next node alike.  So two courses from traversals that are alike
go side by side, which is `stops_alike`.  The traversal by itself takes such a course to its end, so
two runs that begin alike finish alike (`finishes_alike`, `run_finishes`).
-/

namespace FlowGraph

/-! ## What is left of results without the times -/

/-- What became of a node, but for the times. -/
structure NodeSummary where
  status : NodeStatus
  output : Option Fields
  error : Option String
  sequence : ℕ
deriving DecidableEq, Repr

/-- What became of a node, but for the times. -/
def NodeResult.summary (r : NodeResult) : NodeSummary :=
  ⟨r.status, r.output, r.error, r.sequence⟩

/-- A summary with the answer of the node. -/
def NodeSummary.closed (answer : Except NodeError Fields) (s : NodeSummary) : NodeSummary :=
  if s.status = .running then
    match answer with
    | .ok output => { s with status := .success, output := some output }
    | .error e => { s with status := .error, error := some e.message }
  else s

/-- What became of the nodes of a run, but for the times. -/
def Execution.summaries (record : Execution) : Keyed NodeSummary :=
  record.results.map fun entry => (entry.1, entry.2.summary)

namespace Keyed

variable {α β : Type}

lemma map_insert (table : Keyed α) (change : α → β) (key : String) (value : α) :
    (insert table key value).map (fun entry => (entry.1, change entry.2)) =
      insert (table.map fun entry => (entry.1, change entry.2)) key (change value) := by
  induction table with
  | nil => rfl
  | cons entry rest ih =>
    obtain ⟨k, v⟩ := entry
    by_cases hk : k = key
    · simp [insert, hk]
    · simp only [insert, if_neg hk, List.map_cons, ih]

lemma map_modify (table : Keyed α) (change : α → β) {f : α → α} {g : β → β}
    (h : ∀ a, change (f a) = g (change a)) (key : String) :
    (modify table key f).map (fun entry => (entry.1, change entry.2)) =
      modify (table.map fun entry => (entry.1, change entry.2)) key g := by
  simp only [modify, List.map_map]
  refine List.map_congr_left fun entry _ => ?_
  by_cases hk : entry.1 = key <;> simp [hk, h]

lemma contains_map (table : Keyed α) (change : α → β) (key : String) :
    contains (table.map fun entry => (entry.1, change entry.2)) key = contains table key := by
  rw [contains, contains, get?_map, Option.isSome_map]

end Keyed

namespace Traversal

variable {ε π ω : Type}

lemma summary_closed (answer : Except NodeError Fields) (seconds : Double) (now : Timestamp)
    (r : NodeResult) : (closed answer seconds now r).summary = r.summary.closed answer := by
  by_cases hr : r.status = .running
  · cases answer <;>
      simp [closed, NodeResult.succeed, NodeResult.fail, NodeSummary.closed, NodeResult.summary, hr]
  · cases answer <;>
      simp [closed, NodeResult.succeed, NodeResult.fail, NodeSummary.closed, NodeResult.summary, hr]

/-! ## Traversals that are alike -/

/-- Two traversals of the same run but for the times. -/
structure Alike (t u : Traversal) : Prop where
  agenda : u.agenda = t.agenda
  summaries : u.record.summaries = t.record.summaries
  input : u.context.input = t.context.input
  published : u.context.results = t.context.results
  errors : u.context.errors = t.context.errors

/-- Two turns that are the same but for the times. -/
inductive AlikeTurn : Turn ε → Turn ε → Prop
  | ended (outcome : Except EngineError Unit) : AlikeTurn (.ended outcome) (.ended outcome)
  | passed {t u : Traversal} (h : Alike t u) : AlikeTurn (.passed t) (.passed u)
  | refused {t u : Traversal} (h : Alike t u) (events events' : List ExecutionEvent) :
      AlikeTurn (.refused t events) (.refused u events')
  | entered (executor : ε) (node : Node) (inputs : NodeInputs) {t u : Traversal} (h : Alike t u)
      (event event' : ExecutionEvent) :
      AlikeTurn (.entered executor node inputs t event) (.entered executor node inputs u event')

section Alike

variable {t u : Traversal}

lemma Alike.drop (h : Alike t u) (rest : List Node) : Alike (t.drop rest) (u.drop rest) :=
  ⟨rfl, h.summaries, h.input, h.published, h.errors⟩

lemma Alike.length (h : Alike t u) : u.record.results.length = t.record.results.length := by
  have hlength := congrArg List.length h.summaries
  simpa [Execution.summaries] using hlength

lemma Alike.contains (h : Alike t u) (id : String) :
    Keyed.contains u.record.results id = Keyed.contains t.record.results id := by
  have hu := Keyed.contains_map u.record.results NodeResult.summary id
  have ht := Keyed.contains_map t.record.results NodeResult.summary id
  rw [← hu, ← ht]
  exact congrArg (Keyed.contains · id) h.summaries

lemma Alike.enter (h : Alike t u) (node : Node) (now now' : Timestamp) :
    Alike (t.enter node now) (u.enter node now') := by
  refine ⟨h.agenda, ?_, h.input, h.published, h.errors⟩
  simp only [Traversal.enter, Execution.setResult, Execution.summaries, Keyed.map_insert]
  rw [h.length]
  exact congrArg (Keyed.insert · node.id _) h.summaries

lemma Alike.complete (w : Workflow) (h : Alike t u) (node : Node)
    (answer : Except NodeError Fields) (now now' : Timestamp) :
    Alike (t.complete w node answer now).1 (u.complete w node answer now').1 := by
  obtain ⟨seconds, hresults⟩ := results_complete w node answer now t
  obtain ⟨seconds', hresults'⟩ := results_complete w node answer now' u
  have hsummaries : (u.complete w node answer now').1.record.summaries =
      (t.complete w node answer now).1.record.summaries := by
    rw [Execution.summaries, Execution.summaries, hresults, hresults',
      Keyed.map_modify _ _ (summary_closed answer seconds' now'),
      Keyed.map_modify _ _ (summary_closed answer seconds now)]
    exact congrArg (Keyed.modify · node.id _) h.summaries
  have hagenda : (u.complete w node answer now').1.agenda =
      (t.complete w node answer now).1.agenda := by
    rw [agenda_complete, agenda_complete, h.agenda]
  cases answer with
  | ok output =>
    have hpublished := publishDeclared_eq u.context node output
    have hpublished' := publishDeclared_eq t.context node output
    refine ⟨hagenda, hsummaries, ?_, ?_, ?_⟩
    · show (u.context.publishDeclared _ _ _).input = (t.context.publishDeclared _ _ _).input
      rw [hpublished, hpublished', h.input]
    · show (u.context.publishDeclared _ _ _).results = (t.context.publishDeclared _ _ _).results
      rw [hpublished, hpublished', h.published]
    · show (u.context.publishDeclared _ _ _).errors = (t.context.publishDeclared _ _ _).errors
      rw [hpublished, hpublished', h.errors]
  | error e =>
    exact ⟨hagenda, hsummaries, h.input, h.published,
      congrArg (Keyed.insert · node.id e.message) h.errors⟩

/-- Traversals that are alike take the next node alike. -/
lemma Alike.step (h : Alike t u) (w : Workflow) (r : Registry ε) (now now' : Timestamp) :
    AlikeTurn (t.step w (view r false now)) (u.step w (view r false now')) := by
  unfold Traversal.step
  rw [h.agenda]
  split
  · exact .ended _
  next node rest _ =>
  have hdrop := h.drop rest
  have hcontains := h.contains node.id
  dsimp only [view]
  rw [hcontains, h.input]
  simp only [Bool.false_eq_true, if_false]
  split
  · exact .passed hdrop
  split
  · exact .ended _
  next executor _ =>
  split
  · exact .entered _ _ _ (hdrop.enter node now now') _ _
  · exact .refused ((hdrop.enter node now now').complete w node _ now now') _ _

end Alike

/-! ## What comes of a call -/

/-- What a process comes to when it is polled in one world after the other, while its run is not
cancelled. -/
inductive ComesTo (ex : Executors ε π ω) : π → CallOutcome → Prop
  | now {p : π} {outcome : CallOutcome} (world : ω)
      (h : (ex.poll p false world).1.state = .inr outcome) : ComesTo ex p outcome
  | later {p p' : π} {outcome : CallOutcome} (world : ω)
      (h : (ex.poll p false world).1.state = .inl p') (hp : ComesTo ex p' outcome) :
      ComesTo ex p outcome

/-- Two calls that differ at most in the ids of their runs. -/
structure SameCall (call call' : ExecutorCall) : Prop where
  node : call'.node = call.node
  inputs : call'.inputs = call.inputs
  input : call'.context.input = call.context.input
  published : call'.context.results = call.context.results
  errors : call'.context.errors = call.context.errors

/-- What comes of a call depends only on the node, its resolved inputs, and the input, the results
and the errors of the context. -/
def Determined (ex : Executors ε π ω) : Prop :=
  ∀ executor call call' outcome outcome', SameCall call call' →
    ComesTo ex (ex.begin executor call) outcome →
    ComesTo ex (ex.begin executor call') outcome' → outcome = outcome'

/-! ## Courses -/

section Course

variable (ex : Executors ε π ω) (r : Registry ε) (w : Workflow)

/-- A turn of a run that is not cancelled, up to the point between two nodes that it leads to. -/
inductive Course : Traversal → Traversal → Prop
  | pass {t t' : Traversal} (now : Timestamp) (h : t.step w (view r false now) = .passed t') :
      Course t t'
  | refuse {t t' : Traversal} (now : Timestamp) {events : List ExecutionEvent}
      (h : t.step w (view r false now) = .refused t' events) : Course t t'
  | answer {t entered : Traversal} (now : Timestamp) {executor : ε} {node : Node}
      {inputs : NodeInputs} {event : ExecutionEvent} {answer : Except NodeError Fields}
      (h : t.step w (view r false now) = .entered executor node inputs entered event)
      (hcomes : ComesTo ex (ex.begin executor ⟨node, inputs, entered.context⟩) (.answered answer))
      (later : Timestamp) : Course t (entered.complete w node answer later).1

/-- How a run that is not cancelled stops: its outcome, and the traversal that is left. -/
inductive Stops : Traversal → Outcome → Traversal → Prop
  | ended {t : Traversal} (now : Timestamp) {outcome : Except EngineError Unit}
      (h : t.step w (view r false now) = .ended outcome) : Stops t (.returned outcome) t
  | crashed {t entered : Traversal} (now : Timestamp) {executor : ε} {node : Node}
      {inputs : NodeInputs} {event : ExecutionEvent}
      (h : t.step w (view r false now) = .entered executor node inputs entered event)
      (hcomes : ComesTo ex (ex.begin executor ⟨node, inputs, entered.context⟩) .crashed) :
      Stops t .crashed entered

end Course

section Deterministic

variable {ex : Executors ε π ω} {r : Registry ε} {w : Workflow} {t u t' u' : Traversal}

/-- Calls from traversals that are alike come to the same. -/
lemma Determined.outcome (hdet : Determined ex) {executor : ε} {node : Node} {inputs : NodeInputs}
    (h : Alike t u) {outcome outcome' : CallOutcome}
    (hcomes : ComesTo ex (ex.begin executor ⟨node, inputs, t.context⟩) outcome)
    (hcomes' : ComesTo ex (ex.begin executor ⟨node, inputs, u.context⟩) outcome') :
    outcome = outcome' := by
  have hsame : SameCall ⟨node, inputs, t.context⟩ ⟨node, inputs, u.context⟩ :=
    ⟨rfl, rfl, h.input, h.published, h.errors⟩
  exact hdet _ _ _ _ _ hsame hcomes hcomes'

lemma Alike.turns (h : Alike t u) {now now' : Timestamp} {turn turn' : Turn ε}
    (ht : t.step w (view r false now) = turn) (hu : u.step w (view r false now') = turn') :
    AlikeTurn turn turn' := by
  rw [← ht, ← hu]
  exact h.step w r now now'

lemma Course.alike (hdet : Determined ex) (h : Alike t u) (ht : Course ex r w t t')
    (hu : Course ex r w u u') : Alike t' u' := by
  cases ht with
  | pass now hstep =>
    cases hu with
    | pass now' hstep' =>
      cases h.turns hstep hstep' with
      | passed hnext => exact hnext
    | refuse now' hstep' | answer now' hstep' _ _ => cases h.turns hstep hstep'
  | refuse now hstep =>
    cases hu with
    | refuse now' hstep' =>
      cases h.turns hstep hstep' with
      | refused hnext _ _ => exact hnext
    | pass now' hstep' | answer now' hstep' _ _ => cases h.turns hstep hstep'
  | answer now hstep hcomes later =>
    cases hu with
    | answer now' hstep' hcomes' later' =>
      cases h.turns hstep hstep' with
      | entered executor node inputs hnext _ _ =>
        cases hdet.outcome hnext hcomes hcomes'
        exact hnext.complete w _ _ later later'
    | pass now' hstep' | refuse now' hstep' => cases h.turns hstep hstep'

/-- A run that stops does not go on. -/
lemma Stops.not_course (hdet : Determined ex) (h : Alike t u) {outcome : Outcome}
    (ht : Stops ex r w t outcome t') (hu : Course ex r w u u') : False := by
  cases ht with
  | ended now hstep =>
    cases hu with
    | pass now' hstep' | refuse now' hstep' | answer now' hstep' _ _ =>
      cases h.turns hstep hstep'
  | crashed now hstep hcomes =>
    cases hu with
    | pass now' hstep' | refuse now' hstep' => cases h.turns hstep hstep'
    | answer now' hstep' hcomes' later =>
      cases h.turns hstep hstep' with
      | entered _ _ _ hnext _ _ => cases hdet.outcome hnext hcomes hcomes'

lemma Alike.symm (h : Alike t u) : Alike u t :=
  ⟨h.agenda.symm, h.summaries.symm, h.input.symm, h.published.symm, h.errors.symm⟩

lemma Stops.alike (h : Alike t u) {outcome outcome' : Outcome}
    (ht : Stops ex r w t outcome t') (hu : Stops ex r w u outcome' u') :
    outcome = outcome' ∧ Alike t' u' := by
  cases ht with
  | ended now hstep =>
    cases hu with
    | ended now' hstep' =>
      cases h.turns hstep hstep'
      exact ⟨rfl, h⟩
    | crashed now' hstep' _ => cases h.turns hstep hstep'
  | crashed now hstep hcomes =>
    cases hu with
    | ended now' hstep' => cases h.turns hstep hstep'
    | crashed now' hstep' _ =>
      cases h.turns hstep hstep' with
      | entered _ _ _ hnext _ _ => exact ⟨rfl, hnext⟩

/-- **There is one course only.**  Two courses that begin alike and are taken to their ends have the
same outcome and leave traversals that are alike. -/
theorem stops_alike (hdet : Determined ex) {t u t₁ u₁ t₂ u₂ : Traversal}
    {outcome outcome' : Outcome} (h : Alike t u)
    (ht : Relation.ReflTransGen (Course ex r w) t t₁) (hstop : Stops ex r w t₁ outcome t₂)
    (hu : Relation.ReflTransGen (Course ex r w) u u₁) (hstop' : Stops ex r w u₁ outcome' u₂) :
    outcome = outcome' ∧ Alike t₂ u₂ := by
  -- along the first course from its beginning: wherever it goes or stops, so does the second one
  induction ht using Relation.ReflTransGen.head_induction_on generalizing u with
  | refl =>
    rcases hu.cases_head with rfl | ⟨u', hcourse, -⟩
    · exact hstop.alike h hstop'
    · exact (hstop.not_course hdet h hcourse).elim
  | head hcourse _ ih =>
    rcases hu.cases_head with rfl | ⟨u', hcourse', hrest⟩
    · exact (hstop'.not_course hdet h.symm hcourse).elim
    · exact ih (hcourse.alike hdet h hcourse') hrest

end Deterministic

/-! ## The traversal by itself -/

/-- A run came to its end by itself: when it ended with a defect, the executor called last has
one. -/
def Conclusive (ex : Executors ε π ω) (r : Registry ε) (final : Outcome × Running ω) : Prop :=
  final.1 = .crashed → ∃ before call executor, final.2.calls = before ++ [call] ∧
    r.get call.node.nodeType = .ok executor ∧ ComesTo ex (ex.begin executor call) .crashed

section Alone

variable {ex : Executors ε π ω} {r : Registry ε} {w : Workflow}

/-- What a call comes to when nobody interferes.  Without a cancellation at the end there was none
before. -/
lemma comesTo_of_finishCall {id nodeId : String} {outcome : CallOutcome} {last : Scene ω}
    (hfree : last.cancelled = false) :
    ∀ (fuel : ℕ) (p : π) (scene : Scene ω),
      finishCall ex id nodeId fuel p scene = some (outcome, last) →
      scene.cancelled = false ∧ ComesTo ex p outcome := by
  intro fuel
  induction fuel with
  | zero => intro p scene h; cases h
  | succ fuel ih =>
    intro p scene h
    have hbefore : (scene.polled ex id nodeId p).cancelled = false → scene.cancelled = false := by
      intro hpolled
      exact (Bool.or_eq_false_iff.1 hpolled).1
    rw [finishCall_succ] at h
    rcases hstate : (ex.poll p scene.cancelled scene.world).1.state with p' | ended
    · rw [hstate] at h
      obtain ⟨hpolled, hcomes⟩ := ih p' _ h
      have hscene := hbefore hpolled
      rw [hscene] at hstate
      exact ⟨hscene, .later _ hstate hcomes⟩
    · rw [hstate] at h
      simp only [Option.some.injEq, Prod.mk.injEq] at h
      obtain ⟨rfl, rfl⟩ := h
      have hscene := hbefore hfree
      rw [hscene] at hstate
      exact ⟨hscene, .now _ hstate⟩

/-- A cancelled run takes no further node. -/
lemma loop_of_cancelled (patience fuel : ℕ) {run : Running ω} (h : run.cancelled = true) :
    (loop ex r w patience fuel run).2 = run := by
  rcases fuel with _ | fuel
  · rfl
  · rcases hagenda : run.traversal.agenda with _ | ⟨node, rest⟩
    · rw [loop_nil ex r w patience fuel hagenda]
    · rw [loop_cancelled ex r w patience fuel hagenda h]

lemma uncancelled_of_loop (patience fuel : ℕ) {run : Running ω}
    (hfree : (loop ex r w patience fuel run).2.cancelled = false) : run.cancelled = false := by
  by_contra hcancelled
  rw [Bool.not_eq_false] at hcancelled
  rw [loop_of_cancelled patience fuel hcancelled, hcancelled] at hfree
  cases hfree

/-- Taking a node uses up work. -/
lemma work_of_taken {v : View ε} {t : Traversal} {turn : Turn ε} : Taken w v t turn →
    match turn with
    | .ended _ => True
    | .passed t' | .refused t' _ => t'.work w < t.work w
    | .entered _ node _ t' _ => t'.work w + edgesFrom w node.id < t.work w := by
  intro h
  have hdrop : ∀ {node rest}, t.agenda = node :: rest → (t.drop rest).work w + 1 = t.work w := by
    intro node rest hagenda
    simp only [work, drop, hagenda, List.length_cons]
    omega
  cases h with
  | finished | cancelled | unserved => trivial
  | passed hagenda _ _ =>
    have hpaid := hdrop hagenda
    dsimp only
    omega
  | @refused node rest _ failure hagenda _ hnew _ _ =>
    have hpaid := hdrop hagenda
    have henter := work_enter w (t := t.drop rest) hnew v.now
    have hcomplete := work_complete_le w node (.error failure) v.now
      ((t.drop rest).enter node v.now)
    dsimp only
    omega
  | @entered node rest _ _ hagenda _ hnew _ _ =>
    have hpaid := hdrop hagenda
    have henter := work_enter w (t := t.drop rest) hnew v.now
    dsimp only
    omega

/-- The loop takes a course to its end, unless it is cancelled or does not wait for an answer. -/
lemma loop_course (patience : ℕ) :
    ∀ (fuel : ℕ) (run : Running ω), run.traversal.work w < fuel →
      (loop ex r w patience fuel run).2.cancelled = false →
      Conclusive ex r (loop ex r w patience fuel run) →
      ∃ t, Relation.ReflTransGen (Course ex r w) run.traversal t ∧
        Stops ex r w t (loop ex r w patience fuel run).1
          (loop ex r w patience fuel run).2.traversal := by
  -- the fuel covers the work that is left, so it never runs out
  intro fuel
  induction fuel with
  | zero => intro run hwork; omega
  | succ fuel ih =>
    intro run hwork hfree hconclusive
    have hnow := uncancelled_of_loop patience (fuel + 1) hfree
    rw [loop, hnow] at hfree hconclusive ⊢
    rcases hstep : run.traversal.step w (view r false (ex.now run.world)) with
      outcome | next | ⟨next, events⟩ | ⟨executor, node, inputs, next, event⟩
    · exact ⟨_, .refl, .ended _ hstep⟩
    · have htaken := work_of_taken (taken_of_step hstep)
      rw [hstep] at hfree hconclusive
      have hless : next.work w < fuel := lt_of_lt_of_le htaken (Nat.lt_succ_iff.1 hwork)
      obtain ⟨t, hcourse, hstops⟩ := ih { run with traversal := next } hless hfree hconclusive
      exact ⟨t, .head (.pass _ hstep) hcourse, hstops⟩
    · have htaken := work_of_taken (taken_of_step hstep)
      rw [hstep] at hfree hconclusive
      have hless : next.work w < fuel := lt_of_lt_of_le htaken (Nat.lt_succ_iff.1 hwork)
      obtain ⟨t, hcourse, hstops⟩ :=
        ih { run with traversal := next, events := run.events ++ events, cancelled := false } hless
          hfree hconclusive
      exact ⟨t, .head (.refuse _ hstep) hcourse, hstops⟩
    · have htaken := work_of_taken (taken_of_step hstep)
      rw [hstep] at hfree hconclusive
      have hless : ∀ answer now, (next.complete w node answer now).1.work w < fuel := by
        intro answer now
        have hcomplete := work_complete_le w node answer now next
        dsimp only at htaken
        omega
      have hserved : r.get node.nodeType = .ok executor := by
        cases taken_of_step hstep with
        | entered _ _ _ hget _ => exact hget
      dsimp only at hfree hconclusive ⊢
      rcases hcall : finishCall ex next.record.id node.id patience
          (ex.begin executor ⟨node, inputs, next.context⟩) _ with _ | ⟨answer | _, last⟩
      · -- it is not waited for any longer, but the executor has a defect
        rw [hcall] at hconclusive
        obtain ⟨before, call, executor', hcalls, hget, hcomes⟩ := hconclusive rfl
        obtain ⟨-, hlast⟩ := List.append_inj' hcalls rfl
        cases hlast
        rw [hserved] at hget
        cases hget
        exact ⟨_, .refl, .crashed _ hstep hcomes⟩
      · rw [hcall] at hfree hconclusive
        -- had the run been cancelled during the call, it would be so at the end
        have hlast : last.cancelled = false := uncancelled_of_loop patience fuel hfree
        obtain ⟨-, hcomes⟩ := comesTo_of_finishCall hlast patience _ _ hcall
        obtain ⟨t, hcourse, hstops⟩ := ih
          { last with
            traversal := (next.complete w node answer (ex.now last.world)).1
            events := last.events ++ [(next.complete w node answer (ex.now last.world)).2] }
          (hless _ _) hfree hconclusive
        exact ⟨t, .head (.answer _ hstep hcomes _) hcourse, hstops⟩
      · rw [hcall] at hfree
        obtain ⟨-, hcomes⟩ := comesTo_of_finishCall hfree patience _ _ hcall
        exact ⟨_, .refl, .crashed _ hstep hcomes⟩

end Alone

/-! ## How a run finishes -/

section Finishes

variable (ex : Executors ε π ω) (r : Registry ε) (w : Workflow)

/-- How a run finishes that is not cancelled: it is refused when there is nothing to begin with, and
else it takes its course to the end. -/
inductive Finishes (t : Traversal) : Outcome → Traversal → Prop
  | untriggered (h : w.triggers.isEmpty = true) :
      Finishes t (.returned (.error .noTriggerNode)) t
  | stopped {last left : Traversal} {outcome : Outcome} (h : w.triggers.isEmpty = false)
      (hcourse : Relation.ReflTransGen (Course ex r w) t last)
      (hstops : Stops ex r w last outcome left) : Finishes t outcome left

variable {ex r w}

/-- **A run has one way to finish.**  When what comes of calls depends on the calls alone, runs that
begin alike have the same outcome and leave traversals that are alike. -/
theorem finishes_alike (hdet : Determined ex) {t u t' u' : Traversal} {outcome outcome' : Outcome}
    (h : Alike t u) (ht : Finishes ex r w t outcome t') (hu : Finishes ex r w u outcome' u') :
    outcome = outcome' ∧ Alike t' u' := by
  cases ht with
  | untriggered hnone =>
    cases hu with
    | untriggered _ => exact ⟨rfl, h⟩
    | stopped hsome _ _ => simp [hnone] at hsome
  | stopped hsome hcourse hstops =>
    cases hu with
    | untriggered hnone => simp [hnone] at hsome
    | stopped _ hcourse' hstops' => exact stops_alike hdet h hcourse hstops hcourse' hstops'

/-- The traversal by itself finishes, unless it is cancelled or does not wait for an answer. -/
theorem run_finishes (patience : ℕ) (record : Execution) (context : Context) (world : ω)
    (hfree : (run ex r w patience record context false world).2.cancelled = false)
    (hconclusive : Conclusive ex r (run ex r w patience record context false world)) :
    Finishes ex r w (start w record context) (run ex r w patience record context false world).1
      (run ex r w patience record context false world).2.traversal := by
  unfold run at hfree hconclusive ⊢
  split
  · next hnone => exact .untriggered hnone
  · next hsome =>
    rw [if_neg hsome] at hfree hconclusive
    rw [Bool.not_eq_true] at hsome
    have hwork : (start w record context).work w < bound w + 1 := by
      have hle : openEdges w record.results ≤ w.edges.length := List.countP_le_length
      simp only [work, start, bound]
      omega
    obtain ⟨last, hcourse, hstops⟩ := loop_course patience _ _ hwork hfree hconclusive
    exact .stopped hsome hcourse hstops

end Finishes

end Traversal

end FlowGraph
