import FlowGraph.Proofs.Traversal.Moment

/-!
# Which nodes a run enters

A run enters exactly the ids that are linked to a trigger, by edges that are followed after the
outcome of their source.  Which edges are followed depends on outcomes that the run is only about
to produce, so the fixed point is approached from both sides at once.

The key invariant is `Moment.Tracked`: at every moment, the ids that are *due*, those with a
result or on the agenda, are exactly the linked ones.  Entering a node moves its id from the
agenda to the results and selects no edge yet.  Taking its answer selects the edges of one kind,
and the targets of these are put on the agenda.  When the agenda is empty, the due ids are the
ids with a result.
-/

namespace FlowGraph

namespace Traversal

variable {ε π ω : Type}

/-! ## Linked ids -/

/-- The kind of the edges that are followed after a node with a status. -/
def selects : NodeStatus → Option EdgeKind
  | .running => none
  | .success => some .success
  | .error => some .failure

/-- The kind of the edges that are followed after a node, once it has an outcome. -/
def outcome? (record : Execution) (id : String) : Option EdgeKind :=
  (record.result? id).bind fun r => selects r.status

/-- An edge is followed: its source has the outcome that the edge is for, and its target exists. -/
structure Follows (w : Workflow) (record : Execution) (e : Edge) : Prop where
  mem : e ∈ w.edges
  outcome : outcome? record e.source = some e.kind
  target : (w.findNode? e.target).isSome

/-- An id is linked to a trigger by edges that are followed. -/
inductive Linked (w : Workflow) (record : Execution) : String → Prop
  | trigger {node : Node} (h : node ∈ w.triggers) : Linked w record node.id
  | edge {e : Edge} (h : Follows w record e) (hsource : Linked w record e.source) :
      Linked w record e.target

/-- A set of ids holds the triggers and is closed under the edges that are followed. -/
structure Closed (w : Workflow) (record : Execution) (ids : String → Prop) : Prop where
  trigger : ∀ node ∈ w.triggers, ids node.id
  edge : ∀ e, Follows w record e → ids e.source → ids e.target

/-- The ids with a result are the least set that holds the triggers and is closed under the edges
that are followed. -/
structure Exact (w : Workflow) (record : Execution) : Prop where
  closed : Closed w record fun id => Keyed.contains record.results id = true
  least : ∀ ids, Closed w record ids → ∀ id, Keyed.contains record.results id = true → ids id

lemma linked_closed (w : Workflow) (record : Execution) : Closed w record (Linked w record) :=
  ⟨fun _ h => .trigger h, fun _ h hsource => .edge h hsource⟩

lemma Linked.mem_closed {w : Workflow} {record : Execution} {ids : String → Prop} {id : String}
    (h : Linked w record id) (hclosed : Closed w record ids) : ids id := by
  induction h with
  | trigger h => exact hclosed.trigger _ h
  | edge h _ ih => exact hclosed.edge _ h ih

/-- A link stays when outcomes are added. -/
lemma Linked.mono {w : Workflow} {record record' : Execution} {id : String}
    (h : Linked w record id)
    (hmono : ∀ id kind, outcome? record id = some kind → outcome? record' id = some kind) :
    Linked w record' id := by
  refine h.mem_closed ⟨fun _ h => .trigger h, fun e he hsource => .edge ?_ hsource⟩
  exact ⟨he.mem, hmono _ _ he.outcome, he.target⟩

lemma contains_of_outcome {record : Execution} {id : String} {kind : EdgeKind}
    (h : outcome? record id = some kind) : Keyed.contains record.results id = true := by
  obtain ⟨r, hr, -⟩ := Option.bind_eq_some_iff.1 h
  rw [Execution.result?] at hr
  rw [Keyed.contains, hr]
  rfl

/-! ## Outcomes -/

/-- The kind of the edges that an answer selects. -/
def answerKind : Except NodeError Fields → EdgeKind
  | .ok _ => .success
  | .error _ => .failure

/-- A node was entered last: its result is running. -/
def IsRunning (record : Execution) (id : String) : Prop :=
  ∃ r, record.result? id = some r ∧ r.status = .running

lemma isRunning_enter (t : Traversal) (node : Node) (now : Timestamp) :
    IsRunning (t.enter node now).record node.id :=
  ⟨_, Keyed.get?_insert_self _ _ _, rfl⟩

/-- Entering a node gives it no outcome. -/
lemma outcome?_enter {t : Traversal} {node : Node}
    (h : Keyed.contains t.record.results node.id = false) (now : Timestamp) (id : String) :
    outcome? (t.enter node now).record id = outcome? t.record id := by
  simp only [outcome?, Execution.result?, enter, Execution.setResult, Keyed.get?_insert]
  split
  · next hid =>
    subst hid
    rw [Keyed.contains, Option.isSome_eq_false_iff, Option.isNone_iff_eq_none] at h
    rw [h]
    rfl
  · rfl

/-- The answer of the node entered last is its outcome. -/
lemma outcome?_complete (w : Workflow) {node : Node} {t : Traversal}
    (h : IsRunning t.record node.id) (answer : Except NodeError Fields) (now : Timestamp)
    (id : String) :
    outcome? (t.complete w node answer now).1.record id =
      if node.id = id then some (answerKind answer) else outcome? t.record id := by
  obtain ⟨r, hr, hrunning⟩ := h
  rw [Execution.result?] at hr
  cases answer <;>
    · simp only [outcome?, Execution.result?, complete, Keyed.get?_modify, answerKind]
      split
      · next hid =>
        subst hid
        simp [hr, hrunning, NodeResult.succeed, NodeResult.fail, selects]
      · rfl

lemma agenda_complete (w : Workflow) (node : Node) (t : Traversal)
    (answer : Except NodeError Fields) (now : Timestamp) :
    (t.complete w node answer now).1.agenda =
      w.successors node.id (answerKind answer) ++ t.agenda := by
  cases answer <;> rfl

lemma contains_complete (w : Workflow) (node : Node) (t : Traversal)
    (answer : Except NodeError Fields) (now : Timestamp) (id : String) :
    Keyed.contains (t.complete w node answer now).1.record.results id =
      Keyed.contains t.record.results id := by
  cases answer <;> simp only [complete, Keyed.contains_modify]

/-- The successors after an outcome are the nodes that the edges of its kind lead to. -/
lemma mem_successors {w : Workflow} {source : String} {kind : EdgeKind} {id : String} :
    (∃ node ∈ w.successors source kind, node.id = id) ↔
      ∃ e ∈ w.edges, e.source = source ∧ e.kind = kind ∧ e.target = id ∧
        (w.findNode? e.target).isSome := by
  have hid : ∀ {e : Edge} {node : Node}, w.findNode? e.target = some node → node.id = e.target := by
    intro e node h
    simpa using List.find?_some h
  simp only [Workflow.successors, List.mem_filterMap, List.mem_filter, Bool.and_eq_true,
    decide_eq_true_eq]
  constructor
  · rintro ⟨node, ⟨e, ⟨hmem, hsource, hkind⟩, hfind⟩, rfl⟩
    exact ⟨e, hmem, hsource, hkind, (hid hfind).symm, by rw [hfind]; rfl⟩
  · rintro ⟨e, hmem, hsource, hkind, rfl, hfind⟩
    obtain ⟨node, hnode⟩ := Option.isSome_iff_exists.1 hfind
    exact ⟨node, ⟨e, ⟨hmem, hsource, hkind⟩, hnode⟩, hid hnode⟩

/-! ## Due ids -/

/-- An id is due: it has a result, or a node with it is on the agenda. -/
def Due (t : Traversal) (id : String) : Prop :=
  Keyed.contains t.record.results id = true ∨ ∃ node ∈ t.agenda, node.id = id

/-- What is due is exactly what is linked. -/
def DueLinked (w : Workflow) (t : Traversal) : Prop :=
  ∀ id, t.Due id ↔ Linked w t.record id

lemma dueLinked_start (w : Workflow) {record : Execution} (h : record.results = [])
    (context : Context) : DueLinked w (start w record context) := by
  have houtcome : ∀ id, outcome? record id = none := by
    intro id
    rw [outcome?, Execution.result?, h]
    rfl
  intro id
  constructor
  · rintro (hresult | ⟨node, hnode, rfl⟩)
    · simp [start, h, Keyed.contains] at hresult
    · exact .trigger hnode
  · intro hlinked
    refine hlinked.mem_closed ⟨fun node hnode => Or.inr ⟨node, hnode, rfl⟩, fun e he _ => ?_⟩
    -- no edge is followed yet
    have hnone := he.outcome
    rw [show outcome? (start w record context).record e.source = none from houtcome _] at hnone
    cases hnone

/-- A node with a result can be taken off the agenda. -/
lemma DueLinked.pass {w : Workflow} {t : Traversal} (h : DueLinked w t) {node : Node}
    {rest : List Node} (hagenda : t.agenda = node :: rest)
    (hknown : Keyed.contains t.record.results node.id = true) :
    DueLinked w { t with agenda := rest } := by
  intro id
  rw [← h id]
  simp only [Due, hagenda, List.mem_cons, or_and_right, exists_or, exists_eq_left]
  constructor
  · rintro (hresult | hrest)
    · exact Or.inl hresult
    · exact Or.inr (Or.inr hrest)
  · rintro (hresult | rfl | hrest)
    · exact Or.inl hresult
    · exact Or.inl hknown
    · exact Or.inr hrest

/-- Entering a node keeps it due, and what is linked stays the same. -/
lemma DueLinked.enter {w : Workflow} {t : Traversal} (h : DueLinked w t) {node : Node}
    {rest : List Node} (hagenda : t.agenda = node :: rest)
    (hnew : Keyed.contains t.record.results node.id = false) (now : Timestamp) :
    DueLinked w (({ t with agenda := rest } : Traversal).enter node now) := by
  intro id
  have hsame : Linked w (({ t with agenda := rest } : Traversal).enter node now).record id ↔
      Linked w t.record id := by
    have houtcome := outcome?_enter (t := { t with agenda := rest }) hnew now
    exact ⟨fun hl => hl.mono fun id kind hk => houtcome id ▸ hk,
      fun hl => hl.mono fun id kind hk => (houtcome id).trans hk⟩
  rw [hsame, ← h id]
  simp only [Due, hagenda, List.mem_cons, or_and_right, exists_or, exists_eq_left,
    Traversal.enter, Execution.setResult, Keyed.contains_insert, Bool.or_eq_true,
    decide_eq_true_eq]
  constructor
  · rintro ((rfl | hresult) | hrest)
    · exact Or.inr (Or.inl rfl)
    · exact Or.inl hresult
    · exact Or.inr (Or.inr hrest)
  · rintro (hresult | rfl | hrest)
    · exact Or.inl (Or.inr hresult)
    · exact Or.inl (Or.inl rfl)
    · exact Or.inr hrest

/-- Taking an answer makes the targets of the edges it selects both due and linked. -/
lemma DueLinked.complete {w : Workflow} {t : Traversal} (h : DueLinked w t) {node : Node}
    (hrunning : IsRunning t.record node.id) (answer : Except NodeError Fields)
    (now : Timestamp) : DueLinked w (t.complete w node answer now).1 := by
  have houtcome := outcome?_complete w hrunning answer now
  obtain ⟨r, hr, hstatus⟩ := hrunning
  -- the node has a result, but it had no outcome
  have hnode : t.Due node.id := by
    rw [Execution.result?] at hr
    exact Or.inl (by rw [Keyed.contains, hr]; rfl)
  have hnone : outcome? t.record node.id = none := by
    rw [outcome?, hr, Option.bind_some, hstatus]
    rfl
  have hmono : ∀ id kind, outcome? t.record id = some kind →
      outcome? (t.complete w node answer now).1.record id = some kind := by
    intro id kind hk
    rw [houtcome id, if_neg, hk]
    rintro rfl
    rw [hnone] at hk
    cases hk
  have hdue : ∀ id, (t.complete w node answer now).1.Due id ↔
      t.Due id ∨ ∃ e ∈ w.edges, e.source = node.id ∧ e.kind = answerKind answer ∧ e.target = id ∧
        (w.findNode? e.target).isSome := by
    intro id
    rw [← mem_successors]
    simp only [Due, contains_complete, agenda_complete, List.mem_append, or_and_right, exists_or]
    rw [or_assoc, or_comm (a := ∃ x, x ∈ t.agenda ∧ x.id = id)]
  intro id
  rw [hdue id]
  constructor
  · rintro (hold | ⟨e, hmem, hsource, hkind, rfl, htarget⟩)
    · exact ((h id).1 hold).mono hmono
    · refine .edge ⟨hmem, ?_, htarget⟩ ?_
      · rw [houtcome, if_pos hsource.symm, hkind]
      · rw [hsource]
        exact ((h _).1 hnode).mono hmono
  · intro hlinked
    rw [← hdue id]
    refine hlinked.mem_closed ⟨fun trigger ht => (hdue _).2 (Or.inl ((h _).2 (.trigger ht))), ?_⟩
    intro e he _
    rw [hdue]
    have hkind := he.outcome
    rw [houtcome] at hkind
    by_cases hsource : node.id = e.source
    · -- an edge that the answer selects
      rw [if_pos hsource, Option.some.injEq] at hkind
      exact Or.inr ⟨e, he.mem, hsource.symm, hkind.symm, rfl, he.target⟩
    · -- an edge that was followed before
      rw [if_neg hsource] at hkind
      have hdueSource : t.Due e.source := Or.inl (contains_of_outcome hkind)
      exact Or.inl ((h _).2 (.edge ⟨he.mem, hkind, he.target⟩ ((h _).1 hdueSource)))

/-! ## The moments of a run -/

namespace Moment

/-- The node that was entered last and has no answer yet. -/
def node? : Moment ε π ω → Option Node
  | between _ => none
  | entered _ node _ | calling node _ _ => some node

/-- What is due is linked, and the node entered last is running. -/
structure Tracked (w : Workflow) (m : Moment ε π ω) : Prop where
  due : DueLinked w m.run.traversal
  running : ∀ node, m.node? = some node → IsRunning m.record node.id

lemma Tracked.step {ex : Executors ε π ω} {r : Registry ε} {w : Workflow} {m m' : Moment ε π ω}
    (h : Tracked w m) (hstep : Step ex r w m m') : Tracked w m' := by
  cases hstep with
  | pass hagenda _ hknown =>
    exact ⟨h.due.pass hagenda hknown, fun _ hnode => by cases hnode⟩
  | @enter run node rest executor hagenda _ hnew _ =>
    refine ⟨h.due.enter hagenda hnew _, fun other hnode => ?_⟩
    cases hnode
    exact isRunning_enter _ _ _
  | @refuse run node executor failure _ =>
    exact ⟨h.due.complete (h.running node rfl) _ _, fun _ hnode => by cases hnode⟩
  | @call run node executor inputs _ =>
    refine ⟨h.due, fun other hnode => ?_⟩
    cases hnode
    exact h.running node rfl
  | @poll run node p p' _ =>
    refine ⟨h.due, fun other hnode => ?_⟩
    cases hnode
    exact h.running node rfl
  | @answer run node p answer _ =>
    exact ⟨h.due.complete (h.running node rfl) _ _, fun _ hnode => by cases hnode⟩
  | interfere cancel world =>
    cases m with
    | between run => exact ⟨h.due, h.running⟩
    | entered executor node run => exact ⟨h.due, h.running⟩
    | calling node p run => exact ⟨h.due, h.running⟩

lemma Reached.tracked {ex : Executors ε π ω} {r : Registry ε} {w : Workflow} {record : Execution}
    {context : Context} {cancelled : Bool} {world : ω} (hempty : record.results = [])
    {m : Moment ε π ω} (h : Reached ex r w (.start w record context cancelled world) m) :
    Tracked w m := by
  induction h with
  | start => exact ⟨dueLinked_start w hempty context, fun _ hnode => by cases hnode⟩
  | step _ hstep ih => exact ih.step hstep

/-- With nothing left on the agenda, the ids with a result are exactly the linked ones. -/
lemma Tracked.exact {w : Workflow} {m : Moment ε π ω} (h : Tracked w m)
    (hagenda : m.run.traversal.agenda = []) : Exact w m.record := by
  have hiff : ∀ id, Keyed.contains m.record.results id = true ↔ Linked w m.record id := by
    intro id
    refine Iff.trans ?_ (h.due id)
    simp [Due, hagenda, record]
  refine ⟨?_, fun ids hclosed id hid => ((hiff id).1 hid).mem_closed hclosed⟩
  simp only [hiff]
  exact linked_closed w m.record

end Moment

/-- **Exactly the reachable nodes run.**  From a record without results, and however others
interfere, each id with a result is at every moment linked to a trigger by edges that are
followed after the outcomes so far.  When nothing is left to visit, the ids with a result are the
least set that holds the triggers and is closed under these edges; this is so whenever the run
succeeds. -/
theorem run_exact (ex : Executors ε π ω) (r : Registry ε) (w : Workflow) (record : Execution)
    (context : Context) (cancelled : Bool) (world : ω) (hempty : record.results = []) :
    (∀ m : Moment ε π ω, Moment.Reached ex r w (.start w record context cancelled world) m →
      (∀ id, Keyed.contains m.record.results id = true → Linked w m.record id) ∧
      (m = .between m.run → m.run.traversal.agenda = [] → Exact w m.record)) ∧
    ∀ patience, (run ex r w patience record context cancelled world).1 = .returned (.ok ()) →
      Exact w (run ex r w patience record context cancelled world).2.traversal.record := by
  constructor
  · intro m hm
    have htracked := hm.tracked hempty
    exact ⟨fun id hid => (htracked.due id).1 (Or.inl hid), fun _ => htracked.exact⟩
  · intro patience hok
    obtain ⟨m, hm, htraversal, hend⟩ := run_reached ex r w patience record context cancelled world
    rw [← htraversal]
    exact (hm.tracked hempty).exact (hend hok).2

/-- A trigger with an edge for its success and one for its failure. -/
def fork : Workflow where
  id := "fork"
  nodes := [{ id := "start", nodeType := .trigger }, { id := "done", nodeType := .output },
    { id := "failed", nodeType := .output }]
  edges := [⟨"e1", "start", "done", .success⟩, ⟨"e2", "start", "failed", .failure⟩]

/-- After a success, the edge for the failure is not followed. -/
theorem run_exact_fork :
    let registry : Registry Unit := { executor? := fun _ => some (), initialized := true }
    let final := run Executors.prompt registry fork 1 (Execution.make "exec" "fork" [] default)
      { executionId := "exec", input := [] } false ()
    final.1 = .returned (.ok ()) ∧ Exact fork final.2.traversal.record ∧
      Keyed.keys final.2.traversal.record.results = ["start", "done"] := by
  refine ⟨rfl, ?_, rfl⟩
  exact (run_exact _ _ _ _ _ _ _ rfl).2 1 rfl

end Traversal

end FlowGraph
