import FlowGraph.Proofs.Traversal.Blocks

/-!
# What a node sees of the run before it

A run keeps two accounts of its nodes: the record has a result for each of them, and the context,
which the executors are called with, has what the nodes published and the messages of those that
failed.  `replay` computes the context from the results.  The key invariant is `Recalled`: the
context of a run is at every moment the replay of all results, and the context of a call is the
replay of the results that stand before that of its node.  It carries the call of every success
along, since the results do not say which outputs their nodes declare.

`run_faithful` states it by the sequence numbers of the results.
-/

namespace FlowGraph

namespace Traversal

variable {ε π ω : Type}

/-! ## Replaying results -/

/-- The node that was called under an id. -/
def nodeCalled? (calls : List ExecutorCall) (id : String) : Option Node :=
  (calls.find? fun call => call.node.id = id).map ExecutorCall.node

/-- What came of a node for the nodes after it: when it succeeded, what it returned for the outputs
that it declares, and else nothing. -/
def publications (calls : List ExecutorCall) (r : NodeResult) : List (String × Json) :=
  match r.status, nodeCalled? calls r.nodeId, r.output with
  | .success, some node, some output => publicationsOf node output
  | _, _, _ => []

/-- The context of a run after results, one after the other: the last publication under a key
counts, and every failure is kept. -/
def replay (record : Execution) (calls : List ExecutorCall) (results : List NodeResult) :
    Context where
  executionId := record.id
  input := record.input
  results := Keyed.ofEntries (results.flatMap (publications calls))
  errors := results.filterMap NodeResult.failed?

section Replay

variable {record : Execution} {calls : List ExecutorCall} {results : List NodeResult}
variable {r : NodeResult}

lemma publications_of_ne_success (h : r.status ≠ .success) : publications calls r = [] := by
  unfold publications
  split
  · next hstatus _ _ => exact absurd hstatus h
  · rfl

lemma publications_of_success {node : Node} {output : Fields} (h : r.status = .success)
    (hnode : nodeCalled? calls r.nodeId = some node) (houtput : r.output = some output) :
    publications calls r = publicationsOf node output := by
  rw [publications, h, hnode, houtput]

/-- A later call for another node changes nothing for a node that was called. -/
lemma nodeCalled?_concat {id : String} {node : Node} (h : nodeCalled? calls id = some node)
    (call : ExecutorCall) : nodeCalled? (calls ++ [call]) id = some node := by
  obtain ⟨found, hfound, rfl⟩ := Option.map_eq_some_iff.1 h
  rw [nodeCalled?, List.find?_append, hfound]
  rfl

/-- The last call is the first one for its node when no other was made for it. -/
lemma nodeCalled?_last {call : ExecutorCall}
    (h : ∀ other ∈ calls, other.node.id ≠ call.node.id) :
    nodeCalled? (calls ++ [call]) call.node.id = some call.node := by
  have hnone : calls.find? (fun other => other.node.id = call.node.id) = none := by
    rw [List.find?_eq_none]
    exact fun other hother => by simpa using h other hother
  rw [nodeCalled?, List.find?_append, hnone]
  simp

/-- What was published stays when another executor is called. -/
lemma replay_concat_call
    (h : ∀ r ∈ results, r.status = .success → (nodeCalled? calls r.nodeId).isSome)
    (call : ExecutorCall) :
    replay record (calls ++ [call]) results = replay record calls results := by
  have hsame : ∀ r ∈ results, publications (calls ++ [call]) r = publications calls r := by
    intro r hr
    by_cases hstatus : r.status = .success
    · obtain ⟨node, hnode⟩ := Option.isSome_iff_exists.1 (h r hr hstatus)
      rw [publications, publications, nodeCalled?_concat hnode, hnode]
    · rw [publications_of_ne_success hstatus, publications_of_ne_success hstatus]
  rw [replay, replay, List.flatMap_congr hsame]

/-- A result adds what its node published and its message. -/
lemma replay_concat (record : Execution) (calls : List ExecutorCall) (results : List NodeResult)
    (r : NodeResult) :
    replay record calls (results ++ [r]) =
      { replay record calls results with
        results := (publications calls r).foldl
          (fun table entry => Keyed.insert table entry.1 entry.2)
          (replay record calls results).results
        errors := (replay record calls results).errors ++ r.failed?.toList } := by
  have hlast : [r].filterMap NodeResult.failed? = r.failed?.toList := by
    rcases h : r.failed? with _ | entry <;> simp [h]
  rw [replay, List.flatMap_append, List.flatMap_singleton, Keyed.ofEntries_append,
    List.filterMap_append, hlast]
  rfl

/-- A node that is at work has left nothing in the context. -/
lemma replay_concat_running (h : r.status = .running) :
    replay record calls (results ++ [r]) = replay record calls results := by
  have hpublished : publications calls r = [] := publications_of_ne_success (by simp [h])
  have hfailed : r.failed? = none := by simp [NodeResult.failed?, h]
  rw [replay_concat, hpublished, hfailed, Option.toList_none, List.append_nil]
  rfl

/-- A success publishes what the node declares. -/
lemma replay_concat_success {node : Node} {output : Fields} (h : r.status = .success)
    (hnode : nodeCalled? calls r.nodeId = some node) (houtput : r.output = some output) :
    replay record calls (results ++ [r]) =
      (replay record calls results).publishDeclared node.id node.outputs output := by
  have hfailed : r.failed? = none := by simp [NodeResult.failed?, h]
  rw [publishDeclared_eq, replay_concat, publications_of_success h hnode houtput, hfailed,
    Option.toList_none, List.append_nil]

/-- A failure leaves its message under the node's id. -/
lemma replay_concat_failure {message : String} (h : r.status = .error)
    (hmessage : r.error = some message) (hnew : ∀ other ∈ results, other.nodeId ≠ r.nodeId) :
    replay record calls (results ++ [r]) =
      (replay record calls results).recordError r.nodeId message := by
  have hpublished : publications calls r = [] := publications_of_ne_success (by simp [h])
  have hfailed : r.failed? = some (r.nodeId, message) := by
    rw [NodeResult.failed?, if_pos h, hmessage]
    rfl
  have hkey : r.nodeId ∉ Keyed.keys (replay record calls results).errors := by
    intro hmem
    obtain ⟨entry, hentry, hid⟩ := List.mem_map.1 hmem
    obtain ⟨other, hother, hof⟩ := List.mem_filterMap.1 hentry
    unfold NodeResult.failed? at hof
    split at hof
    · obtain ⟨_, -, rfl⟩ := Option.map_eq_some_iff.1 hof
      exact hnew other hother hid
    · cases hof
  rw [replay_concat, hpublished, hfailed, Context.recordError, Keyed.insert_of_not_mem message hkey]
  rfl

end Replay

/-! ## Results before a call -/

section Sees

variable {record : Execution} {calls : List ExecutorCall} {results before : Keyed NodeResult}
variable {call : ExecutorCall}

/-- The node of a call has a result, and the call was made in the context that the results before
it leave. -/
def Sees (record : Execution) (calls : List ExecutorCall) (results : Keyed NodeResult)
    (call : ExecutorCall) : Prop :=
  ∃ earlier r later, results = earlier ++ (call.node.id, r) :: later ∧
    call.context = replay record calls (earlier.map Prod.snd)

lemma Sees.concat (h : Sees record calls results call) (entry : String × NodeResult) :
    Sees record calls (results ++ [entry]) call := by
  obtain ⟨earlier, r, later, rfl, hcontext⟩ := h
  exact ⟨earlier, r, later ++ [entry], by simp, hcontext⟩

/-- Another result may take the place of the last one. -/
lemma Sees.change {id : String} {r : NodeResult} (h : Sees record calls (before ++ [(id, r)]) call)
    (r' : NodeResult) : Sees record calls (before ++ [(id, r')]) call := by
  obtain ⟨earlier, s, later, hresults, hcontext⟩ := h
  rcases List.eq_nil_or_concat later with rfl | ⟨middle, last, rfl⟩
  · obtain ⟨rfl, hentry⟩ := List.append_inj' hresults rfl
    obtain ⟨rfl, -⟩ := Prod.mk.inj (List.singleton_inj.1 hentry)
    exact ⟨before, r', [], rfl, hcontext⟩
  · rw [List.concat_eq_append, ← List.cons_append, ← List.append_assoc] at hresults
    obtain ⟨rfl, -⟩ := List.append_inj' hresults rfl
    exact ⟨earlier, s, middle ++ [(id, r')], by simp, hcontext⟩

/-- Another call changes nothing in what was published before. -/
lemma Sees.concat_call
    (hserved : ∀ entry ∈ results, entry.2.status = .success →
      (nodeCalled? calls entry.2.nodeId).isSome)
    (h : Sees record calls results call) (last : ExecutorCall) :
    Sees record (calls ++ [last]) results call := by
  obtain ⟨earlier, r, later, rfl, hcontext⟩ := h
  refine ⟨earlier, r, later, rfl, ?_⟩
  rw [hcontext, replay_concat_call]
  intro s hs
  obtain ⟨entry, hentry, rfl⟩ := List.mem_map.1 hs
  exact hserved entry (List.mem_append_left _ hentry)

end Sees

/-! ## The two accounts hang together -/

section Recall

variable {w : Workflow} {record : Execution} {calls : List ExecutorCall}
variable {results before : Keyed NodeResult} {context : Context}

/-- What the executors have seen, and would see now, is what the results say. -/
structure Recall (w : Workflow) (record : Execution) (calls : List ExecutorCall)
    (results : Keyed NodeResult) (context : Context) : Prop where
  seen : ∀ call ∈ calls, call.node ∈ w.nodes ∧ Sees record calls results call
  named : ∀ entry ∈ results, entry.2.nodeId = entry.1
  /-- Only nodes whose executor was called succeed. -/
  served : ∀ entry ∈ results, entry.2.status = .success →
    (nodeCalled? calls entry.2.nodeId).isSome
  context : context = replay record calls (results.map Prod.snd)

/-- A node that was entered has left nothing yet. -/
lemma Recall.enter (h : Recall w record calls results context) (id : String) (sequence : ℕ)
    (now : Timestamp) :
    Recall w record calls (results ++ [(id, .started id sequence now)]) context := by
  refine ⟨fun call hcall => ?_, ?_, ?_, ?_⟩
  · exact (h.seen call hcall).imp_right fun hsees => hsees.concat _
  · intro entry hentry
    rcases List.mem_append.1 hentry with hold | hnew
    · exact h.named entry hold
    · rw [List.mem_singleton.1 hnew]
      rfl
  · intro entry hentry hstatus
    rcases List.mem_append.1 hentry with hold | hnew
    · exact h.served entry hold hstatus
    · rw [List.mem_singleton.1 hnew] at hstatus
      cases hstatus
  · rw [List.map_append, List.map_singleton, replay_concat_running rfl]
    exact h.context

variable {id : String} {sequence : ℕ} {started : Timestamp}

/-- The executor of the node entered last is called. -/
lemma Recall.call
    (h : Recall w record calls (before ++ [(id, .started id sequence started)]) context)
    {call : ExecutorCall} (hid : call.node.id = id) (hmem : call.node ∈ w.nodes)
    (hcontext : call.context = context) :
    Recall w record (calls ++ [call]) (before ++ [(id, .started id sequence started)]) context := by
  have hserved : ∀ r ∈ (before ++ [(id, NodeResult.started id sequence started)]).map Prod.snd,
      r.status = .success → (nodeCalled? calls r.nodeId).isSome := by
    intro r hr
    obtain ⟨entry, hentry, rfl⟩ := List.mem_map.1 hr
    exact h.served entry hentry
  have hsame := h.context
  rw [← replay_concat_call hserved call] at hsame
  refine ⟨fun other hother => ?_, h.named, fun entry hentry hstatus => ?_, hsame⟩
  · rcases List.mem_append.1 hother with hold | hnew
    · exact (h.seen other hold).imp_right fun hsees => hsees.concat_call h.served call
    · rw [List.mem_singleton.1 hnew]
      refine ⟨hmem, before, .started id sequence started, [], by rw [hid], ?_⟩
      rw [hcontext, hsame, List.map_append, List.map_singleton, replay_concat_running rfl]
  · obtain ⟨node, hnode⟩ := Option.isSome_iff_exists.1 (h.served entry hentry hstatus)
    rw [nodeCalled?_concat hnode]
    rfl

/-- The answer of the node entered last is written on both sides. -/
lemma Recall.close {node : Node}
    (h : Recall w record calls (before ++ [(node.id, .started node.id sequence started)]) context)
    (hnew : node.id ∉ Keyed.keys before) {answer : Except NodeError Fields} (seconds : Double)
    (now : Timestamp) {written : Context}
    (hwritten : written = match answer with
      | .ok output => context.publishDeclared node.id node.outputs output
      | .error e => context.recordError node.id e.message)
    (hcalled : ∀ output, answer = .ok output → nodeCalled? calls node.id = some node) :
    Recall w record calls
      (before ++ [(node.id, closed answer seconds now (.started node.id sequence started))])
      written := by
  have hid : (closed answer seconds now (.started node.id sequence started)).nodeId = node.id := by
    cases answer <;> rfl
  have hcontext : context = replay record calls (before.map Prod.snd) := by
    have hopen := h.context
    rw [List.map_append, List.map_singleton, replay_concat_running rfl] at hopen
    exact hopen
  refine ⟨fun call hcall => ?_, fun entry hentry => ?_, fun entry hentry hstatus => ?_, ?_⟩
  · exact (h.seen call hcall).imp_right fun hsees => hsees.change _
  · rcases List.mem_append.1 hentry with hold | hlast
    · exact h.named entry (List.mem_append_left _ hold)
    · rw [List.mem_singleton.1 hlast]
      exact hid
  · rcases List.mem_append.1 hentry with hold | hlast
    · exact h.served entry (List.mem_append_left _ hold) hstatus
    · rw [List.mem_singleton.1 hlast] at hstatus ⊢
      show (nodeCalled? calls (closed answer seconds now _).nodeId).isSome
      cases answer with
      | ok output => rw [hid, hcalled output rfl]; rfl
      | error e => cases hstatus
  · rw [List.map_append, List.map_singleton, hwritten, hcontext]
    cases answer with
    | ok output =>
      have hnode : nodeCalled? calls
          (closed (.ok output) seconds now (.started node.id sequence started)).nodeId =
            some node := hcalled output rfl
      exact (replay_concat_success rfl hnode rfl).symm
    | error e =>
      have hmessage :
          (closed (.error e) seconds now (.started node.id sequence started)).error =
            some e.message := rfl
      refine (replay_concat_failure rfl hmessage fun other hother heq => ?_).symm
      obtain ⟨entry, hentry, rfl⟩ := List.mem_map.1 hother
      rw [h.named entry (List.mem_append_left _ hentry), hid] at heq
      exact hnew (List.mem_map.2 ⟨entry, hentry, heq⟩)

end Recall

/-! ## Every moment recalls its results -/

namespace Moment

variable {ex : Executors ε π ω} {r : Registry ε} {w : Workflow} {record : Execution}
variable {m m' : Moment ε π ω}

/-- Only nodes of the workflow are visited, and the two accounts of them hang together. -/
structure Recalled (w : Workflow) (record : Execution) (m : Moment ε π ω) : Prop where
  agenda : ∀ node ∈ m.run.traversal.agenda, node ∈ w.nodes
  node : ∀ node, m.node? = some node → node ∈ w.nodes
  accounts : Recall w record m.run.calls m.run.traversal.record.results m.run.traversal.context

lemma agenda_complete_subset {run : Running ω} (h : ∀ node ∈ run.traversal.agenda, node ∈ w.nodes)
    (node : Node) (answer : Except NodeError Fields) :
    ∀ next ∈ (run.complete ex w node answer).traversal.agenda, next ∈ w.nodes := by
  have hfound : ∀ id kind, ∀ next ∈ w.successors id kind, next ∈ w.nodes := by
    intro id kind next hnext
    obtain ⟨e, -, hfind⟩ := List.mem_filterMap.1 hnext
    exact List.mem_of_find?_eq_some hfind
  cases answer with
  | ok output => exact fun next hnext => (List.mem_append.1 hnext).elim (hfound _ _ _) (h _)
  | error e => exact fun next hnext => (List.mem_append.1 hnext).elim (hfound _ _ _) (h _)

lemma Recalled.start (w : Workflow) {record : Execution} (hfresh : record.results = [])
    (cancelled : Bool) (world : ω) :
    Recalled (ε := ε) (π := π) w record (between
      (.start w record { executionId := record.id, input := record.input } cancelled world)) := by
  refine ⟨fun node hnode => (List.mem_filter.1 hnode).1, nofun, ?_⟩
  show Recall w record [] record.results _
  rw [hfresh]
  exact ⟨List.forall_mem_nil _, List.forall_mem_nil _, List.forall_mem_nil _, rfl⟩

/-- An answer is taken. -/
lemma Recalled.complete (run : Running ω) {node : Node}
    (hagenda : ∀ next ∈ run.traversal.agenda, next ∈ w.nodes)
    (hrecall : Recall w record run.calls run.traversal.record.results run.traversal.context)
    (hentries : Results (some node) run.traversal.record.results) (answer : Except NodeError Fields)
    (hcalled : ∀ output, answer = .ok output → nodeCalled? run.calls node.id = some node) :
    Recalled (ε := ε) (π := π) w record (between (run.complete ex w node answer)) := by
  obtain ⟨before, started, hresults, hnew, -⟩ := hentries.split
  obtain ⟨seconds, hcomplete⟩ := results_complete w node answer (ex.now run.world) run.traversal
  rw [hresults] at hrecall
  rw [hresults, Keyed.modify_concat hnew] at hcomplete
  have hclosed := hrecall.close hnew seconds (ex.now run.world)
    (context_complete w node answer (ex.now run.world) run.traversal) hcalled
  rw [← hcomplete] at hclosed
  exact ⟨agenda_complete_subset hagenda node answer, nofun, hclosed⟩

lemma Recalled.step (hm : m.Written) (h : Recalled w record m) (hstep : Step ex r w m m') :
    Recalled w record m' := by
  cases hstep with
  | pass hagenda _ _ =>
    refine ⟨fun next hnext => h.agenda next (hagenda ▸ List.mem_cons_of_mem _ hnext), ?_,
      h.accounts⟩
    rintro node hnode
    cases hnode
  | @enter run node rest executor hagenda _ hnew _ =>
    have hsettled : Results none run.traversal.record.results := hm.ledger.entries
    obtain ⟨-, happend⟩ := hsettled.enter hnew (ex.now run.world)
    have hentered := h.accounts.enter node.id run.traversal.record.results.length (ex.now run.world)
    rw [Moment.run, ← happend, ← results_enter ex node rest run] at hentered
    refine ⟨fun next hnext => h.agenda next (hagenda ▸ List.mem_cons_of_mem _ hnext), ?_, hentered⟩
    rintro other hother
    cases hother
    exact h.agenda node (hagenda ▸ List.mem_cons_self)
  | @refuse run node executor failure _ =>
    refine .complete run h.agenda h.accounts hm.ledger.entries _ fun output hanswer => ?_
    cases hanswer
  | @call run node executor inputs _ =>
    have hentries : Results (some node) run.traversal.record.results := hm.ledger.entries
    obtain ⟨before, started, hresults, -, -⟩ := hentries.split
    have hrecall := h.accounts
    rw [Moment.run, hresults] at hrecall
    have hcalled := hrecall.call (show (run.call node inputs).node.id = node.id from rfl)
      (h.node node rfl) rfl
    rw [← hresults] at hcalled
    exact ⟨h.agenda, h.node, hcalled⟩
  | poll _ => exact ⟨h.agenda, h.node, h.accounts⟩
  | @answer run node p answer _ =>
    obtain ⟨before, call, hcalls, rfl⟩ := hm.calls
    have hcalled : nodeCalled? run.calls call.node.id = some call.node := by
      have honce := hm.ledger.once
      rw [Moment.run, hcalls, List.map_append, List.nodup_append] at honce
      rw [hcalls]
      exact nodeCalled?_last fun other hother =>
        honce.2.2 _ (List.mem_map.2 ⟨other, hother, rfl⟩) _ (List.mem_singleton_self _)
    let polled : Running ω :=
      { run with toScene := run.toScene.polled ex run.traversal.record.id call.node.id p }
    exact .complete polled h.agenda h.accounts hm.ledger.entries answer fun _ _ => hcalled
  | interfere cancel world =>
    cases m with
    | between run | entered executor node run | calling node p run =>
      exact ⟨h.agenda, h.node, h.accounts⟩

lemma Reached.recalled {start : Running ω}
    (hwritten : Written (ε := ε) (π := π) (between start))
    (hstart : Recalled (ε := ε) (π := π) w record (between start)) (h : Reached ex r w start m) :
    Recalled w record m := by
  induction h with
  | start => exact hstart
  | step hm hstep ih => exact ih.step (hm.written hwritten) hstep

end Moment

/-! ## The two accounts of a run -/

/-- The results before another are those with a smaller sequence number. -/
lemma Results.earlier {node? : Option Node} {record : Execution}
    {earlier later : Keyed NodeResult} {id : String} {result : NodeResult}
    (h : Results node? record.results)
    (hsplit : record.results = earlier ++ (id, result) :: later) :
    record.orderedResults.filter (fun other => other.sequence < result.sequence) =
      earlier.map Prod.snd := by
  have hsequences := h.sequences
  rw [hsplit, List.map_append, List.map_cons, List.length_append, List.range_add] at hsequences
  obtain ⟨hearlier, hrest⟩ := List.append_inj hsequences (by simp)
  rw [List.length_cons, List.range_succ_eq_map, List.map_cons] at hrest
  obtain ⟨hfirst, hlater⟩ := List.cons.inj hrest
  have hresult : result.sequence = earlier.length := hfirst
  have hbefore : ∀ entry ∈ earlier, entry.2.sequence < result.sequence := by
    intro entry hentry
    have hmem : entry.2.sequence ∈ List.range earlier.length :=
      hearlier ▸ List.mem_map_of_mem hentry
    have hlt := List.mem_range.1 hmem
    omega
  have hafter : ∀ entry ∈ (id, result) :: later, ¬ entry.2.sequence < result.sequence := by
    intro entry hentry
    rcases List.mem_cons.1 hentry with rfl | hmore
    · exact lt_irrefl _
    · have hmem : entry.2.sequence ∈ later.map fun entry => entry.2.sequence :=
        List.mem_map_of_mem hmore
      rw [hlater] at hmem
      simp only [List.map_map, List.mem_map, Function.comp_apply] at hmem
      obtain ⟨k, -, hk⟩ := hmem
      omega
  rw [h.ordered, hsplit, List.filter_map, List.filter_append]
  congr 1
  rw [List.filter_eq_self.2, List.filter_eq_nil_iff.2, List.append_nil]
  · simpa using hafter
  · simpa using hbefore

/-- The context that executors see is what the record says of the nodes before. -/
structure Faithful (w : Workflow) (record : Execution) (run : Running ω) : Prop where
  /-- Every executor was called for a node of the workflow that has a result, in the context that
  the nodes with a smaller sequence number leave. -/
  calls : ∀ call ∈ run.calls, call.node ∈ w.nodes ∧
    ∃ r, run.traversal.record.result? call.node.id = some r ∧
      call.context = replay record run.calls
        (run.traversal.record.orderedResults.filter fun other => other.sequence < r.sequence)
  /-- The context of the run is what all of them leave. -/
  context : run.traversal.context =
    replay record run.calls run.traversal.record.orderedResults
  /-- Each node was called at most once. -/
  once : (run.calls.map fun call => call.node.id).Nodup
  /-- Each result stands under the id of its node. -/
  found : ∀ id r, run.traversal.record.result? id = some r ↔
    r ∈ run.traversal.record.orderedResults ∧ r.nodeId = id
  /-- A success has an output, and its node was called; a failure has a message. -/
  results : ∀ r ∈ run.traversal.record.orderedResults, r.Fits ∧
    (r.status = .success → (nodeCalled? run.calls r.nodeId).isSome)

lemma faithful_of_reached {ex : Executors ε π ω} {r : Registry ε} {w : Workflow}
    {record : Execution} {cancelled : Bool} {world : ω} (hfresh : record.results = [])
    {m : Moment ε π ω}
    (h : Moment.Reached ex r w
      (.start w record { executionId := record.id, input := record.input } cancelled world) m) :
    Faithful w record m.run := by
  have hwritten := Moment.Written.start (ε := ε) (π := π) w cancelled world hfresh
    (show ({ executionId := record.id, input := record.input } : Context).results = [] from rfl) rfl
  have htold := h.told (Moment.Told.start w _ cancelled world rfl hfresh)
  have hledger := (h.written hwritten).ledger
  obtain ⟨-, -, hrecall⟩ := h.recalled hwritten (.start w hfresh cancelled world)
  refine ⟨fun call hcall => ?_, ?_, hledger.once, fun id result => ⟨fun hresult => ?_, ?_⟩, ?_⟩
  · obtain ⟨hmem, earlier, result, later, hsplit, hcontext⟩ := hrecall.seen call hcall
    refine ⟨hmem, result, ?_, ?_⟩
    · refine hledger.entries.distinct.get?_of_mem ?_
      rw [hsplit]
      exact List.mem_append_right _ List.mem_cons_self
    · rw [hcontext, hledger.entries.earlier hsplit]
  · rw [hrecall.context, hledger.entries.ordered]
  · have hmem := Keyed.mem_of_get? hresult
    rw [hledger.entries.ordered]
    exact ⟨List.mem_map.2 ⟨_, hmem, rfl⟩, hrecall.named _ hmem⟩
  · rintro ⟨hmem, rfl⟩
    rw [hledger.entries.ordered] at hmem
    obtain ⟨entry, hentry, rfl⟩ := List.mem_map.1 hmem
    refine hledger.entries.distinct.get?_of_mem ?_
    rw [hrecall.named entry hentry]
    exact hentry
  · rw [hledger.entries.ordered]
    intro result hresult
    obtain ⟨entry, hentry, rfl⟩ := List.mem_map.1 hresult
    exact ⟨htold.narrates.fits entry hentry, hrecall.served entry hentry⟩

/-- **Every node sees the history of the record.**  In every workflow, whatever the executors do
and however others interfere: a run that begins with an empty record calls each executor in the
context that the results before its node leave, and its own context is at every moment, and in the
end, the one that all its results leave. -/
theorem run_faithful (ex : Executors ε π ω) (r : Registry ε) (w : Workflow) (record : Execution)
    (cancelled : Bool) (world : ω) (hfresh : record.results = []) :
    let context : Context := { executionId := record.id, input := record.input }
    (∀ m : Moment ε π ω, Moment.Reached ex r w (.start w record context cancelled world) m →
      Faithful w record m.run) ∧
    ∀ patience, Faithful w record (run ex r w patience record context cancelled world).2 := by
  refine ⟨fun m hm => faithful_of_reached hfresh hm, fun patience => ?_⟩
  obtain ⟨m, hm, htraversal, hcalls, -⟩ := run_last ex r w patience record
    { executionId := record.id, input := record.input } cancelled world
  have hfaithful := faithful_of_reached hfresh hm
  exact
    { calls := htraversal ▸ hcalls ▸ hfaithful.calls
      context := htraversal ▸ hcalls ▸ hfaithful.context
      once := hcalls ▸ hfaithful.once
      found := htraversal ▸ hfaithful.found
      results := htraversal ▸ hcalls ▸ hfaithful.results }

/-- Executors that return the configuration of the node. -/
def echo : Executors Unit Fields Unit where
  hooks := ⟨fun e world => (none, e, world), fun e world => (none, e, world)⟩
  now _ := default
  begin _ call := call.node.config
  poll output _ world := ({ state := .inr (.answered (.ok output)) }, world)

/-- A trigger that declares one of the two outputs that it returns, and a node after it. -/
def relay : Workflow where
  id := "relay"
  nodes := [
    { id := "start", nodeType := .trigger, outputs := [⟨"told", "any"⟩]
      config := [("told", .bool true), ("kept", .null)] },
    { id := "end", nodeType := .output }]
  edges := [⟨"e", "start", "end", .success⟩]

/-- The node after the trigger sees the declared output only. -/
theorem run_faithful_relay :
    let registry : Registry Unit := { executor? := fun _ => some (), initialized := true }
    let record := Execution.make "exec" "relay" [] default
    let final := (run echo registry relay 1 record
      { executionId := "exec", input := [] } false ()).2
    record.results = [] ∧ Faithful relay record final ∧
      final.calls.map (fun call => (call.node.id, call.context.results)) =
        [("start", []), ("end", [("start.told", .bool true)])] := by
  refine ⟨rfl, ?_, rfl⟩
  exact (run_faithful echo _ relay (Execution.make "exec" "relay" [] default) false () rfl).2 1

end Traversal

end FlowGraph
