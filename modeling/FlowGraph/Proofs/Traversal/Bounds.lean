import FlowGraph.Proofs.Traversal.Course

/-!
# How much a run does

A run works off its agenda in turns, and each turn takes one node off it (`taken`).  A node is put
on the agenda as a trigger or as the target of an edge, and the edges that leave an id are followed
at most once, when the id gets its result.  So there are no more turns than triggers and edges
together, whatever cycles the workflow has: each turn uses up some of the work that is left
(`work_of_turn`).

A run calls an executor at most once for each id, and only for ids that the record it began with has
no result for; the results of that record stay as they are (`Spares`).  If every call returns, so
does the run: `run_bounded` puts this together.
-/

namespace FlowGraph

namespace Traversal

open Moment

variable {ε π ω : Type}

/-! ## Turns -/

/-- Make a call from the traversal that a node was entered in. -/
def Running.calling (next : Traversal) (event : ExecutionEvent) (call : ExecutorCall)
    (run : Running ω) : Running ω :=
  { run with
    traversal := next
    events := run.events ++ [event]
    calls := run.calls ++ [call] }

@[simp] lemma Running.calling_traversal (next : Traversal) (event : ExecutionEvent)
    (call : ExecutorCall) (run : Running ω) :
    (run.calling next event call).traversal = next := rfl

section Turns

variable (ex : Executors ε π ω) (r : Registry ε) (w : Workflow) (patience : ℕ)

/-- A turn of the loop: the run as it goes on, or how it has ended. -/
def turn (run : Running ω) : Running ω ⊕ Outcome × Running ω :=
  match run.traversal.step w (view r run.cancelled (ex.now run.world)) with
  | .ended outcome => .inr (.returned outcome, run)
  | .passed next => .inl { run with traversal := next }
  | .refused next events => .inl { run with traversal := next, events := run.events ++ events }
  | .entered executor node inputs next event =>
    let call : ExecutorCall := ⟨node, inputs, next.context⟩
    let called := run.calling next event call
    match finishCall ex next.record.id node.id patience (ex.begin executor call) called.toScene with
    | none => .inr (.crashed, called)
    | some (.crashed, scene) => .inr (.crashed, { called with toScene := scene })
    | some (.answered answer, scene) =>
      .inl ({ called with toScene := scene }.complete ex w node answer)

/-- The nodes that are taken off the agenda in so many turns, in order. -/
def taken : ℕ → Running ω → List Node
  | 0, _ => []
  | turns + 1, run =>
    match run.traversal.agenda with
    | [] => []
    | node :: _ =>
      node ::
        match turn ex r w patience run with
        | .inl next => taken turns next
        | .inr _ => []

variable {ex r w patience} {run next : Running ω}

lemma loop_succ (fuel : ℕ) :
    loop ex r w patience (fuel + 1) run =
      match turn ex r w patience run with
      | .inl next => loop ex r w patience fuel next
      | .inr last => last := by
  rw [loop, turn]
  rcases run.traversal.step w (view r run.cancelled (ex.now run.world)) with
    outcome | next | ⟨next, events⟩ | ⟨executor, node, inputs, next, event⟩
  · rfl
  · rfl
  · rfl
  · dsimp only [Running.calling]
    rcases finishCall ex next.record.id node.id patience _ _ with _ | ⟨answer | _, scene⟩ <;> rfl

/-- What a turn comes to when the run goes on. -/
inductive Turned (ex : Executors ε π ω) (r : Registry ε) (w : Workflow) (patience : ℕ)
    (run : Running ω) : Running ω → Prop
  | passed {next : Traversal}
      (hstep : run.traversal.step w (view r run.cancelled (ex.now run.world)) = .passed next) :
      Turned ex r w patience run { run with traversal := next }
  | refused {next : Traversal} {events : List ExecutionEvent}
      (hstep : run.traversal.step w (view r run.cancelled (ex.now run.world)) =
        .refused next events) :
      Turned ex r w patience run { run with traversal := next, events := run.events ++ events }
  | answered {executor : ε} {node : Node} {inputs : NodeInputs} {next : Traversal}
      {event : ExecutionEvent} {answer : Except NodeError Fields} {scene : Scene ω}
      (hstep : run.traversal.step w (view r run.cancelled (ex.now run.world)) =
        .entered executor node inputs next event)
      (hcall : finishCall ex next.record.id node.id patience
          (ex.begin executor ⟨node, inputs, next.context⟩)
          (run.calling next event ⟨node, inputs, next.context⟩).toScene =
        some (.answered answer, scene)) :
      Turned ex r w patience run
        (({ toScene := scene, traversal := next } : Running ω).complete ex w node answer)

lemma turned_of_turn (h : turn ex r w patience run = .inl next) :
    Turned ex r w patience run next := by
  rw [turn] at h
  rcases hstep : run.traversal.step w (view r run.cancelled (ex.now run.world)) with
    outcome | passed | ⟨refused, events⟩ | ⟨executor, node, inputs, entered, event⟩
  · rw [hstep] at h
    cases h
  · rw [hstep] at h
    cases h
    exact .passed hstep
  · rw [hstep] at h
    cases h
    exact .refused hstep
  · simp only [hstep] at h
    rcases hcall : finishCall ex entered.record.id node.id patience _ _ with
      _ | ⟨answer | _, scene⟩
    · rw [hcall] at h
      cases h
    · rw [hcall] at h
      cases h
      exact .answered hstep hcall
    · rw [hcall] at h
      cases h

/-- Each turn uses up work. -/
lemma work_of_turn (h : turn ex r w patience run = .inl next) :
    next.traversal.work w < run.traversal.work w := by
  cases turned_of_turn h with
  | passed hstep => exact work_of_taken (taken_of_step hstep)
  | refused hstep => exact work_of_taken (taken_of_step hstep)
  | @answered _ node _ entered _ answer _ hstep _ =>
    -- the successors are paid for by the edges that leave the node
    exact (work_complete_le w node answer _ entered).trans_lt (work_of_taken (taken_of_step hstep))

/-- There are no more turns than there is work. -/
lemma length_taken_le (turns : ℕ) (run : Running ω) :
    (taken ex r w patience turns run).length ≤ run.traversal.work w := by
  induction turns generalizing run with
  | zero => exact Nat.zero_le _
  | succ turns ih =>
    rw [taken]
    rcases hagenda : run.traversal.agenda with _ | ⟨node, rest⟩
    · exact Nat.zero_le _
    · have hpositive : 0 < run.traversal.work w := by
        rw [work, hagenda, List.length_cons]
        omega
      rcases hturn : turn ex r w patience run with next | last
      · have hless := work_of_turn hturn
        have hrest := ih next
        simp only [List.length_cons]
        omega
      · exact hpositive

/-- A run with nothing left is over, however many turns it may take. -/
lemma loop_of_agenda_nil (fuel : ℕ) (h : run.traversal.agenda = []) :
    loop ex r w patience fuel run = (.returned (.ok ()), run) := by
  rcases fuel with _ | fuel
  · rfl
  · exact loop_nil ex r w patience fuel h

/-- A run that has taken all its nodes goes on no more: the loop needs a turn for each of them. -/
lemma loop_length_taken (turns more : ℕ) (run : Running ω) (h : run.traversal.work w ≤ turns) :
    loop ex r w patience ((taken ex r w patience turns run).length + more) run =
      loop ex r w patience turns run := by
  induction turns generalizing run with
  | zero =>
    have hagenda : run.traversal.agenda = [] := by
      rw [← List.length_eq_zero_iff]
      unfold work at h
      omega
    rw [loop_of_agenda_nil _ hagenda, loop_of_agenda_nil _ hagenda]
  | succ turns ih =>
    rw [taken]
    rcases hagenda : run.traversal.agenda with _ | ⟨node, rest⟩
    · rw [loop_of_agenda_nil _ hagenda, loop_of_agenda_nil _ hagenda]
    · rw [List.length_cons, Nat.add_right_comm, loop_succ, loop_succ]
      rcases hturn : turn ex r w patience run with next | last
      · have hless := work_of_turn hturn
        exact ih next (by omega)
      · rfl

/-- All limits on the turns that cover the work come to the same. -/
lemma loop_eq_of_work_le {turns turns' : ℕ} (h : run.traversal.work w ≤ turns)
    (h' : run.traversal.work w ≤ turns') :
    loop ex r w patience turns run = loop ex r w patience turns' run := by
  let length := (taken ex r w patience turns run).length
  let length' := (taken ex r w patience turns' run).length
  calc loop ex r w patience turns run
    _ = loop ex r w patience (length + length') run := (loop_length_taken turns length' run h).symm
    _ = loop ex r w patience (length' + length) run := by rw [Nat.add_comm]
    _ = loop ex r w patience turns' run := loop_length_taken turns' length run h'

/-- A node that is entered in a turn is called. -/
lemma reached_calling {first : Running ω} (h : Reached ex r w first (.between run)) {executor : ε}
    {node : Node} {inputs : NodeInputs} {entered : Traversal} {event : ExecutionEvent}
    (hstep : run.traversal.step w (view r run.cancelled (ex.now run.world)) =
      .entered executor node inputs entered event) :
    Reached ex r w first (.calling node (ex.begin executor ⟨node, inputs, entered.context⟩)
      (run.calling entered event ⟨node, inputs, entered.context⟩)) := by
  cases taken_of_step hstep with
  | entered hagenda hcancelled hnew hget hin =>
    exact (h.step (.enter hagenda hcancelled hnew hget)).step (.call hin)

/-- A turn leads from one moment between two nodes to another. -/
lemma reached_turn {first : Running ω} (h : Reached ex r w first (.between run))
    (hturn : turn ex r w patience run = .inl next) : Reached ex r w first (.between next) := by
  cases turned_of_turn hturn with
  | passed hstep =>
    cases taken_of_step hstep with
    | passed hagenda hcancelled hknown => exact h.step (.pass hagenda hcancelled hknown)
  | refused hstep =>
    cases taken_of_step hstep with
    | refused hagenda hcancelled hnew hget hin =>
      have hrefused := (h.step (.enter hagenda hcancelled hnew hget)).step (.refuse hin)
      rw [List.append_cons]
      exact hrefused
  | answered hstep hcall =>
    have hfinished := reached_finishCall patience _ _ (reached_calling h hstep)
    rw [Running.calling_traversal, hcall] at hfinished
    exact hfinished

end Turns

/-- The work of a run that has not begun. -/
lemma work_start_le (w : Workflow) (record : Execution) (context : Context) :
    (start w record context).work w ≤ bound w := by
  have hle : openEdges w record.results ≤ w.edges.length := List.countP_le_length
  rw [work, start, bound]
  exact Nat.add_le_add_left hle _

/-! ## Calls that return -/

section Returning

variable (ex : Executors ε π ω) (r : Registry ε) (w : Workflow) {first run : Running ω}

/-- A turn leads from one run to the next, when the run is patient enough for it. -/
def Goes (run next : Running ω) : Prop :=
  ∃ patience, turn ex r w patience run = .inl next

/-- Each call that a run makes returns: its process answers when it is polled often enough. -/
def CallsReturn (first : Running ω) : Prop :=
  ∀ run, Relation.ReflTransGen (Goes ex r w) first run → ∀ executor node inputs next event,
    run.traversal.step w (view r run.cancelled (ex.now run.world)) =
      .entered executor node inputs next event →
    ∃ patience answer scene,
      finishCall ex next.record.id node.id patience (ex.begin executor ⟨node, inputs, next.context⟩)
        (run.calling next event ⟨node, inputs, next.context⟩).toScene =
      some (.answered answer, scene)

variable {ex r w}

/-- With more patience a call ends in the same way. -/
lemma finishCall_add {id nodeId : String} {last : CallOutcome × Scene ω} (more fuel : ℕ) (p : π)
    (scene : Scene ω) (h : finishCall ex id nodeId fuel p scene = some last) :
    finishCall ex id nodeId (fuel + more) p scene = some last := by
  induction fuel generalizing p scene with
  | zero => cases h
  | succ fuel ih =>
    rw [Nat.add_right_comm, finishCall_succ]
    rw [finishCall_succ] at h
    rcases hstate : (ex.poll p scene.cancelled scene.world).1.state with p' | outcome
    · rw [hstate] at h
      exact ih p' _ h
    · rw [hstate] at h
      exact h

/-- A call returns when each poll that does not end it brings it closer to its answer. -/
lemma callsReturn_of_rank (rank : π → ℕ)
    (h : ∀ p cancelled world, match (ex.poll p cancelled world).1.state with
      | .inl p' => rank p' < rank p
      | .inr (.answered _) => True
      | .inr .crashed => False) :
    CallsReturn ex r w first := by
  have hfinish : ∀ n id nodeId p (scene : Scene ω), rank p < n →
      ∃ answer scene', finishCall ex id nodeId n p scene = some (.answered answer, scene') := by
    intro n id nodeId
    induction n with
    | zero => intro p scene hrank; omega
    | succ n ih =>
      intro p scene hrank
      have hpoll := h p scene.cancelled scene.world
      rw [finishCall_succ]
      rcases hstate : (ex.poll p scene.cancelled scene.world).1.state with p' | answer | _
      · rw [hstate] at hpoll
        exact ih p' _ (by omega)
      · exact ⟨_, _, rfl⟩
      · rw [hstate] at hpoll
        exact hpoll.elim
  intro run _ executor node inputs next event _
  obtain ⟨answer, scene, hcall⟩ := hfinish _ next.record.id node.id _ _ (Nat.lt_succ_self _)
  exact ⟨_, answer, scene, hcall⟩

/-- When calls return, every turn comes to its end: more patience makes no difference, and the run
goes on or returns. -/
lemma exists_patience (hcalls : CallsReturn ex r w first)
    (h : Relation.ReflTransGen (Goes ex r w) first run) :
    ∃ patience, (∃ next, ∀ more, turn ex r w (patience + more) run = .inl next) ∨
      ∃ result, ∀ more, turn ex r w (patience + more) run = .inr (.returned result, run) := by
  rcases hstep : run.traversal.step w (view r run.cancelled (ex.now run.world)) with
    outcome | passed | ⟨refused, events⟩ | ⟨executor, node, inputs, entered, event⟩
  · exact ⟨0, .inr ⟨outcome, fun _ => by rw [turn, hstep]⟩⟩
  · exact ⟨0, .inl ⟨_, fun _ => by rw [turn, hstep]⟩⟩
  · exact ⟨0, .inl ⟨_, fun _ => by rw [turn, hstep]⟩⟩
  · obtain ⟨patience, answer, scene, hcall⟩ := hcalls run h _ _ _ _ _ hstep
    let called := run.calling entered event ⟨node, inputs, entered.context⟩
    refine ⟨patience, .inl ⟨{ called with toScene := scene }.complete ex w node answer, ?_⟩⟩
    intro more
    simp only [turn, hstep, finishCall_add more _ _ _ hcall]
    rfl

/-- When calls return, a run returns. -/
lemma loop_returns (hcalls : CallsReturn ex r w first) (n : ℕ) (run : Running ω)
    (hwork : run.traversal.work w < n) (h : Relation.ReflTransGen (Goes ex r w) first run) :
    ∃ patience result final, ∀ more fuel, n ≤ fuel →
      loop ex r w (patience + more) fuel run = (.returned result, final) := by
  induction n generalizing run with
  | zero => omega
  | succ n ih =>
    obtain ⟨here, ⟨next, hturn⟩ | ⟨result, hturn⟩⟩ := exists_patience hcalls h
    · have hless := work_of_turn (hturn 0)
      obtain ⟨later, result, final, hrest⟩ := ih next (by omega) (h.tail ⟨_, hturn 0⟩)
      refine ⟨here + later, result, final, fun more fuel hfuel => ?_⟩
      obtain ⟨fuel, rfl⟩ := Nat.exists_eq_add_of_lt (lt_of_lt_of_le (Nat.succ_pos n) hfuel)
      -- with the sum of both the run is patient enough for this turn and for the rest
      have hnext := hrest (here + more) fuel (by omega)
      rw [Nat.zero_add, loop_succ, Nat.add_assoc, hturn]
      rwa [Nat.add_left_comm] at hnext
    · refine ⟨here, result, run, fun more fuel hfuel => ?_⟩
      obtain ⟨fuel, rfl⟩ := Nat.exists_eq_add_of_lt (lt_of_lt_of_le (Nat.succ_pos n) hfuel)
      rw [Nat.zero_add, loop_succ, hturn]

end Returning

/-! ## What a run leaves alone -/

/-- A run calls an executor once for an id, and only when its record had no result for the id at the
beginning; the results that were there are as they were. -/
structure Spares (record : Execution) (run : Running ω) : Prop where
  once : (run.calls.map fun call => call.node.id).Nodup
  fresh : ∀ call ∈ run.calls, Keyed.contains record.results call.node.id = false
  kept : ∀ id, Keyed.contains record.results id = true →
    run.traversal.record.result? id = record.result? id

/-- Only the calls and the results count. -/
lemma Spares.congr {record : Execution} {run run' : Running ω} (h : Spares record run)
    (hcalls : run'.calls = run.calls)
    (hresults : run'.traversal.record.results = run.traversal.record.results) :
    Spares record run' := by
  refine ⟨hcalls ▸ h.once, hcalls ▸ h.fresh, fun id hid => ?_⟩
  rw [← h.kept id hid, Execution.result?, Execution.result?, hresults]

namespace Moment

variable {ex : Executors ε π ω} {r : Registry ε} {w : Workflow} {m m' : Moment ε π ω}
variable {record : Execution}

/-- Up to a moment a run has left alone the results of a record.  The nodes that were called have
results by now, and so has the node that was entered last, which had none at the beginning. -/
structure Sparing (record : Execution) (m : Moment ε π ω) : Prop where
  spares : Spares record m.run
  called : ∀ call ∈ m.run.calls, Keyed.contains m.record.results call.node.id = true
  entered : ∀ node, m.node? = some node →
    Keyed.contains record.results node.id = false ∧ Keyed.contains m.record.results node.id = true
  calls : m.CallsFit

lemma Sparing.start (w : Workflow) (record : Execution) (context : Context) (cancelled : Bool)
    (world : ω) :
    Sparing (ε := ε) (π := π) record (between (.start w record context cancelled world)) :=
  ⟨⟨List.nodup_nil, nofun, fun _ _ => rfl⟩, nofun, nofun, trivial⟩

/-- What had a result at the beginning has one still. -/
lemma Sparing.contains_eq_false (h : Sparing record m) {id : String}
    (hnew : Keyed.contains m.record.results id = false) :
    Keyed.contains record.results id = false := by
  by_contra hold
  rw [Bool.not_eq_false] at hold
  have hkept : Keyed.get? m.record.results id = Keyed.get? record.results id :=
    h.spares.kept id hold
  rw [Keyed.contains, hkept] at hnew
  rw [Keyed.contains, hnew] at hold
  cases hold

/-- The answer changes the result of the node entered last only. -/
lemma Sparing.complete {run : Running ω} {node : Node} (hspares : Spares record run)
    (hcalled : ∀ call ∈ run.calls,
      Keyed.contains run.traversal.record.results call.node.id = true)
    (hnode : Keyed.contains record.results node.id = false) (answer : Except NodeError Fields) :
    Sparing (ε := ε) (π := π) record (between (run.complete ex w node answer)) := by
  refine ⟨⟨hspares.once, hspares.fresh, fun id hid => ?_⟩, fun call hcall => ?_, nofun, trivial⟩
  · obtain ⟨seconds, hresults⟩ :=
      results_complete w node answer (ex.now run.world) run.traversal
    have hne : node.id ≠ id := Ne.symm (contains_ne hid hnode)
    rw [← hspares.kept id hid, Execution.result?, Execution.result?, Moment.run, Running.complete,
      hresults, Keyed.get?_modify, if_neg hne]
  · rw [Moment.record, Moment.run, Running.complete, contains_complete]
    exact hcalled call hcall

lemma Sparing.step (h : Sparing record m) (hstep : Step ex r w m m') : Sparing record m' := by
  cases hstep with
  | pass hagenda _ hknown =>
    exact ⟨h.spares.congr rfl rfl, h.called, nofun, trivial⟩
  | @enter run node rest executor hagenda _ hnew hget =>
    -- the node has no result now, so it had none at the beginning and is the node of no call
    have hnode := h.contains_eq_false hnew
    have hresults : ∀ id,
        Keyed.contains ((run.pass rest).enter ex node).traversal.record.results id =
          (node.id = id || Keyed.contains run.traversal.record.results id) :=
      fun id => Keyed.contains_insert _ _ _ _
    refine ⟨⟨h.spares.once, h.spares.fresh, fun id hid => ?_⟩, fun call hcall => ?_,
      fun other hother => ?_, fun call hcall => contains_ne (h.called call hcall) hnew⟩
    · rw [← h.spares.kept id hid]
      exact Keyed.get?_insert_of_ne _ _ (contains_ne hid hnode)
    · have hbefore : Keyed.contains run.traversal.record.results call.node.id = true :=
        h.called call hcall
      rw [Moment.record, Moment.run, hresults, hbefore, Bool.or_true]
    · cases hother
      exact ⟨hnode, by simp only [Moment.record, Moment.run, hresults, decide_true, Bool.true_or]⟩
  | @refuse run node executor failure hin =>
    exact Sparing.complete h.spares h.called (h.entered node rfl).1 _
  | @call run node executor inputs hin =>
    obtain ⟨hnode, hopen⟩ := h.entered node rfl
    have honce : ((run.calls ++ [run.call node inputs]).map fun call => call.node.id).Nodup := by
      rw [List.map_append, List.nodup_append]
      refine ⟨h.spares.once, by simp, fun id hid last hlast => ?_⟩
      obtain ⟨other, hother, rfl⟩ := List.mem_map.1 hid
      rw [List.mem_singleton.1 hlast]
      exact h.calls other hother
    refine ⟨⟨honce, fun call hcall => ?_, h.spares.kept⟩, fun call hcall => ?_, h.entered,
      run.calls, run.call node inputs, rfl, rfl⟩
    · rcases List.mem_append.1 hcall with hold | hlast
      · exact h.spares.fresh call hold
      · rw [List.mem_singleton.1 hlast]
        exact hnode
    · rcases List.mem_append.1 hcall with hold | hlast
      · exact h.called call hold
      · rw [List.mem_singleton.1 hlast]
        exact hopen
  | poll hstate =>
    exact ⟨h.spares.congr rfl rfl, h.called, h.entered, h.calls⟩
  | @answer run node p answer hstate =>
    let polled := { run with toScene := run.toScene.polled ex run.traversal.record.id node.id p }
    have hspares : Spares record polled := h.spares.congr rfl rfl
    exact Sparing.complete hspares h.called (h.entered node rfl).1 _
  | interfere =>
    cases m with
    | between run | entered executor node run | calling node p run =>
      exact ⟨h.spares.congr rfl rfl, h.called, h.entered, h.calls⟩

/-- A run leaves its first results alone at all times. -/
lemma Reached.sparing {first : Running ω}
    (hfirst : Sparing (ε := ε) (π := π) record (between first)) (h : Reached ex r w first m) :
    Sparing record m := by
  induction h with
  | start => exact hfirst
  | step _ hstep ih => exact ih.step hstep

end Moment

/-! ## The bounds of a run -/

section Run

variable (ex : Executors ε π ω) (r : Registry ε) (w : Workflow) (record : Execution)
  (context : Context) (cancelled : Bool) (world : ω)

/-- What a run is bound to, with the run before its first turn. -/
structure Bounded (first : Running ω) : Prop where
  /-- It takes no more nodes than there are triggers and edges. -/
  taken : ∀ patience turns,
    (taken ex r w patience turns first).length ≤ w.triggers.length + w.edges.length
  /-- It is over when it has had a turn for each of them, however many it might have. -/
  turns : w.triggers.isEmpty = false → ∀ patience more,
    loop ex r w patience
        ((Traversal.taken ex r w patience (bound w + 1) first).length + more) first =
      run ex r w patience record context cancelled world
  /-- At every moment it has called for an id once at most, and has left alone what it found. -/
  spares : ∀ m, Reached ex r w first m → Spares record m.run
  /-- So it has at its end. -/
  ends : ∀ patience, Spares record (run ex r w patience record context cancelled world).2
  /-- It returns when its calls return. -/
  returns : CallsReturn ex r w first → ∃ patience result final, ∀ more,
    run ex r w (patience + more) record context cancelled world = (.returned result, final)

/-- **A run is bounded by its triggers and edges.**  This holds for every workflow, whatever cycles
it has, for every record that the run may begin with, and whatever its executors do. -/
theorem run_bounded :
    Bounded ex r w record context cancelled world (.start w record context cancelled world) := by
  have hwork : (start w record context).work w ≤ bound w := work_start_le w record context
  have hrun : ∀ patience, w.triggers.isEmpty = false →
      run ex r w patience record context cancelled world =
        loop ex r w patience (bound w + 1) (.start w record context cancelled world) := by
    intro patience htriggers
    rw [run, htriggers]
    rfl
  refine ⟨fun patience turns => ?_, fun htriggers patience more => ?_, fun m hm => ?_,
    fun patience => ?_, fun hcalls => ?_⟩
  · exact (length_taken_le turns _).trans hwork
  · rw [hrun patience htriggers]
    exact loop_length_taken _ _ _ (hwork.trans (Nat.le_succ _))
  · exact (hm.sparing (Sparing.start w record context cancelled world)).spares
  · obtain ⟨m, hm, htraversal, hcalls, -⟩ :=
      run_last ex r w patience record context cancelled world
    have hspares := (hm.sparing (Sparing.start w record context cancelled world)).spares
    exact hspares.congr hcalls.symm (by rw [htraversal])
  · rcases htriggers : w.triggers.isEmpty with _ | _
    · obtain ⟨patience, result, final, hreturns⟩ :=
        loop_returns hcalls (bound w + 1) _ (Nat.lt_succ_of_le hwork) .refl
      exact ⟨patience, result, final, fun more => (hrun _ htriggers).trans (hreturns more _ le_rfl)⟩
    · exact ⟨0, _, _, fun more => by rw [run, if_pos htriggers]⟩

end Run

/-- A trigger with an edge to itself and two to a node that leads back, and a node that had a result
before the run. -/
def tangle : Workflow where
  id := "tangle"
  nodes := [{ id := "start", nodeType := .trigger }, { id := "back", nodeType := .action },
    { id := "done", nodeType := .output }]
  edges := [⟨"e1", "start", "start", .success⟩, ⟨"e2", "start", "back", .success⟩,
    ⟨"e3", "start", "back", .success⟩, ⟨"e4", "back", "start", .success⟩,
    ⟨"e5", "start", "done", .success⟩]

/-- All nodes that the bound allows for are taken, but two executors are called only. -/
theorem run_bounded_tangle :
    let registry : Registry Unit := { executor? := fun _ => some (), initialized := true }
    let record := (Execution.make "exec" "tangle" [] default).setResult "done"
      (.started "done" 0 default)
    let context : Context := { executionId := "exec", input := [] }
    let first : Running Unit := .start tangle record context false ()
    (taken Executors.prompt registry tangle 1 (bound tangle + 1) first).map Node.id =
        ["start", "start", "back", "start", "back", "done"] ∧
      tangle.triggers.length + tangle.edges.length = 6 ∧
      (run Executors.prompt registry tangle 1 record context false ()).2.calls.map
        (fun call => call.node.id) = ["start", "back"] ∧
      Bounded Executors.prompt registry tangle record context false () first ∧
      ∃ patience result final, ∀ more,
        run Executors.prompt registry tangle (patience + more) record context false () =
          (.returned result, final) := by
  refine ⟨rfl, rfl, rfl, run_bounded _ _ _ _ _ _ _, ?_⟩
  exact (run_bounded _ _ _ _ _ _ _).returns
    (callsReturn_of_rank (fun _ => 0) fun _ _ _ => trivial)

end Traversal

end FlowGraph
