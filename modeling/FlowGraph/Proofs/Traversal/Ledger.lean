import FlowGraph.Proofs.Keyed
import FlowGraph.Proofs.Traversal.Reach
import Mathlib.Data.List.Infix
import Mathlib.Data.List.Range
import Mathlib.Logic.Relation

/-!
# What a run has written

A run writes its record and its context side by side: the results of its nodes in the order in which
they were entered, the outputs that the nodes published, and the messages of those that failed.
The key invariant is `Ledger`, which says how these hang together.  Only the result of the node
entered last may be open, and everything before it is never touched again.  So what a run has
written between two nodes is a beginning of what it will have written at any later moment, which
is `continues_of_leads`.
-/

namespace FlowGraph

namespace Keyed

variable {α : Type}

/-- The value of the last key, when it is new, is changed in its place. -/
lemma modify_concat {table : Keyed α} {key : String} (h : key ∉ keys table) (value : α)
    (change : α → α) :
    modify (table ++ [(key, value)]) key change = table ++ [(key, change value)] := by
  have hrest := modify_of_not_mem change h
  rw [modify] at hrest ⊢
  rw [List.map_append, hrest]
  simp

end Keyed

namespace Traversal

variable {ε π ω : Type}

/-! ## Publications and failures -/

/-- What a node publishes of its output. -/
def publicationsOf (node : Node) (output : Fields) : List (String × Json) :=
  node.outputs.filterMap fun spec =>
    (Keyed.get? output spec.id).map fun value => (Context.resultKey node.id spec.id, value)

/-- What was published after a call. -/
def publishedBy (results : Keyed NodeResult) (call : ExecutorCall) : List (String × Json) :=
  match (Keyed.get? results call.node.id).bind NodeResult.output with
  | some output => publicationsOf call.node output
  | none => []

/-- What the nodes that were called have published, in the order of the calls. -/
def published (calls : List ExecutorCall) (results : Keyed NodeResult) : List (String × Json) :=
  calls.flatMap (publishedBy results)

/-- The messages of the nodes that failed, in the order in which they were entered. -/
def failures (results : Keyed NodeResult) : Keyed String :=
  results.filterMap fun entry => entry.2.error.map fun message => (entry.1, message)

/-- Publishing the declared outputs writes them one after the other, and nothing else. -/
lemma publishDeclared_eq (context : Context) (node : Node) (output : Fields) :
    context.publishDeclared node.id node.outputs output =
      { context with
        results := (publicationsOf node output).foldl
          (fun table entry => Keyed.insert table entry.1 entry.2) context.results } := by
  unfold Context.publishDeclared publicationsOf
  induction node.outputs generalizing context with
  | nil => rfl
  | cons spec specs ih =>
    rw [List.foldl_cons, ih, List.filterMap_cons]
    rcases Keyed.get? output spec.id with _ | value <;> rfl

lemma keys_failures_subset (results : Keyed NodeResult) :
    ∀ id ∈ Keyed.keys (failures results), id ∈ Keyed.keys results := by
  intro id hid
  obtain ⟨entry, hentry, rfl⟩ := List.mem_map.1 hid
  obtain ⟨source, hsource, hmessage⟩ := List.mem_filterMap.1 hentry
  obtain ⟨message, -, rfl⟩ := Option.map_eq_some_iff.1 hmessage
  exact List.mem_map.2 ⟨source, hsource, rfl⟩

lemma failures_append (results more : Keyed NodeResult) :
    failures (results ++ more) = failures results ++ failures more :=
  List.filterMap_append

lemma failures_singleton (id : String) (r : NodeResult) :
    failures [(id, r)] = (r.error.map fun message => (id, message)).toList := by
  rcases h : r.error with _ | message <;> simp [failures, h]

/-- What was published depends on the results of the calls only. -/
lemma published_congr {calls : List ExecutorCall} {results results' : Keyed NodeResult}
    (h : ∀ call ∈ calls, Keyed.get? results' call.node.id = Keyed.get? results call.node.id) :
    published calls results' = published calls results := by
  refine List.flatMap_congr fun call hcall => ?_
  rw [publishedBy, publishedBy, h call hcall]

lemma published_concat (calls : List ExecutorCall) (call : ExecutorCall)
    (results : Keyed NodeResult) :
    published (calls ++ [call]) results = published calls results ++ publishedBy results call := by
  rw [published, published, List.flatMap_append, List.flatMap_singleton]

/-! ## The results -/

/-- The result of a node with its answer. -/
def closed (answer : Except NodeError Fields) (seconds : Double) (now : Timestamp)
    (r : NodeResult) : NodeResult :=
  match answer with
  | .ok output => r.succeed output seconds now
  | .error e => r.fail e.message seconds now

lemma results_complete (w : Workflow) (node : Node) (answer : Except NodeError Fields)
    (now : Timestamp) (t : Traversal) :
    ∃ seconds, (t.complete w node answer now).1.record.results =
      Keyed.modify t.record.results node.id (closed answer seconds now) := by
  cases answer <;> exact ⟨_, rfl⟩

/-- The results, of which only the one of the node entered last may be open. -/
structure Results (node? : Option Node) (results : Keyed NodeResult) : Prop where
  sequences : results.map (fun entry => entry.2.sequence) = List.range results.length
  distinct : Keyed.Distinct results
  settled : node? = none → ∀ entry ∈ results, entry.2.status ≠ .running
  last : ∀ node, node? = some node → ∃ before now,
    results = before ++ [(node.id, NodeResult.started node.id before.length now)] ∧
      ∀ entry ∈ before, entry.2.status ≠ .running

lemma Results.nil : Results none [] :=
  ⟨rfl, List.nodup_nil, fun _ entry hentry => (by cases hentry), nofun⟩

/-- A node that is entered comes last. -/
lemma Results.enter {results : Keyed NodeResult} (h : Results none results) {node : Node}
    (hnew : Keyed.contains results node.id = false) (now : Timestamp) :
    Results (some node)
        (Keyed.insert results node.id (NodeResult.started node.id results.length now)) ∧
      Keyed.insert results node.id (NodeResult.started node.id results.length now) =
        results ++ [(node.id, NodeResult.started node.id results.length now)] := by
  have hnone : node.id ∉ Keyed.keys results := by
    rw [Keyed.mem_keys_iff]
    simpa [Keyed.contains] using hnew
  have happend := Keyed.insert_of_not_mem (NodeResult.started node.id results.length now) hnone
  refine ⟨⟨?_, h.distinct.insert _ _, fun hnone => (by cases hnone), ?_⟩, happend⟩
  · rw [happend, List.map_append, h.sequences, List.length_append, List.length_singleton,
      List.range_succ]
    rfl
  · rintro other hother
    cases hother
    exact ⟨results, now, happend, h.settled rfl⟩

/-- The open result is the last one, and its id is new. -/
lemma Results.split {results : Keyed NodeResult} {node : Node} (h : Results (some node) results) :
    ∃ before now, results = before ++ [(node.id, NodeResult.started node.id before.length now)] ∧
      node.id ∉ Keyed.keys before ∧ ∀ entry ∈ before, entry.2.status ≠ .running := by
  obtain ⟨before, now, hresults, hsettled⟩ := h.last node rfl
  refine ⟨before, now, hresults, ?_, hsettled⟩
  have hdistinct := h.distinct
  rw [hresults, Keyed.Distinct, Keyed.keys_append, List.nodup_append] at hdistinct
  exact fun hmem => hdistinct.2.2 _ hmem _ (List.mem_singleton_self _) rfl

/-- The answer closes the open result. -/
lemma Results.close {results : Keyed NodeResult} {node : Node} (h : Results (some node) results)
    (answer : Except NodeError Fields) (seconds : Double) (now : Timestamp) :
    Results none (Keyed.modify results node.id (closed answer seconds now)) := by
  obtain ⟨before, started, hresults, hnew, hsettled⟩ := h.split
  have hclosed : Keyed.modify results node.id (closed answer seconds now) = before ++
      [(node.id, closed answer seconds now (.started node.id before.length started))] := by
    rw [hresults, Keyed.modify_concat hnew]
  have hsequence :
      (closed answer seconds now (.started node.id before.length started)).sequence =
        before.length := by
    cases answer <;> rfl
  have hstatus :
      (closed answer seconds now (.started node.id before.length started)).status ≠ .running := by
    cases answer <;> simp [closed, NodeResult.succeed, NodeResult.fail, NodeResult.started]
  refine ⟨?_, ?_, fun _ => ?_, fun _ hnode => (by cases hnode)⟩
  · have hopen : (NodeResult.started node.id before.length started).sequence = before.length := rfl
    have hsequences := h.sequences
    rw [hresults] at hsequences
    rw [hclosed]
    simpa [hsequence, hopen] using hsequences
  · rw [Keyed.Distinct, Keyed.keys_modify]
    exact h.distinct
  · rw [hclosed]
    intro entry hentry
    rcases List.mem_append.1 hentry with hold | hnew
    · exact hsettled entry hold
    · rw [List.mem_singleton.1 hnew]
      exact hstatus

/-- In the order of their sequence the results stand in the order in which they were entered. -/
lemma Results.ordered {record : Execution} {node? : Option Node}
    (h : Results node? record.results) : record.orderedResults = record.results.map Prod.snd := by
  refine List.mergeSort_of_pairwise ?_
  have hrange : List.Pairwise (· ≤ ·) (record.results.map fun entry => entry.2.sequence) := by
    rw [h.sequences]
    exact List.pairwise_le_range
  rw [List.pairwise_map] at hrange ⊢
  exact hrange.imp fun hle => by simpa using hle

/-! ## The ledger -/

section Ledger

variable {calls : List ExecutorCall} {node? : Option Node} {node : Node}
variable {results : Keyed NodeResult} {context : Context}

/-- The calls that were made, the results and the context hang together. -/
structure Ledger (calls : List ExecutorCall) (node? : Option Node) (results : Keyed NodeResult)
    (context : Context) : Prop where
  entries : Results node? results
  /-- Every call was made for a node with a result, and for each node once. -/
  called : ∀ call ∈ calls, Keyed.contains results call.node.id = true
  once : (calls.map fun call => call.node.id).Nodup
  outputs : context.results = Keyed.ofEntries (published calls results)
  errors : context.errors = failures results

lemma Ledger.nil (hresults : context.results = []) (herrors : context.errors = []) :
    Ledger [] none [] context where
  entries := Results.nil
  called call hcall := by cases hcall
  once := List.nodup_nil
  outputs := hresults
  errors := herrors

lemma contains_ne {id other : String} (h : Keyed.contains results id = true)
    (hnew : Keyed.contains results other = false) : id ≠ other := by
  rintro rfl
  rw [h] at hnew
  cases hnew

/-- A node is entered. -/
lemma Ledger.enter (h : Ledger calls none results context)
    (hnew : Keyed.contains results node.id = false) (now : Timestamp) :
    Ledger calls (some node)
      (Keyed.insert results node.id (NodeResult.started node.id results.length now)) context := by
  obtain ⟨hentries, happend⟩ := h.entries.enter hnew now
  have hsame : ∀ call ∈ calls, Keyed.get? (Keyed.insert results node.id
      (NodeResult.started node.id results.length now)) call.node.id =
        Keyed.get? results call.node.id :=
    fun call hcall => Keyed.get?_insert_of_ne _ _ (contains_ne (h.called call hcall) hnew)
  refine ⟨hentries, fun call hcall => ?_, h.once, ?_, ?_⟩
  · rw [Keyed.contains_insert, h.called call hcall, Bool.or_true]
  · -- the new result is of no call
    rw [published_congr hsame, h.outputs]
  · rw [happend, failures_append, failures_singleton, h.errors]
    exact (List.append_nil _).symm

/-- The node entered last has an open result. -/
lemma Ledger.get?_last (h : Ledger calls (some node) results context) :
    ∃ sequence now, Keyed.get? results node.id = some (.started node.id sequence now) := by
  obtain ⟨before, now, hresults, -, -⟩ := h.entries.split
  refine ⟨before.length, now, h.entries.distinct.get?_of_mem ?_⟩
  rw [hresults]
  exact List.mem_append_right _ (List.mem_singleton_self _)

/-- As long as a result is open, nothing has come of its call. -/
lemma publishedBy_of_open {call : ExecutorCall} {sequence : ℕ} {now : Timestamp}
    (h : Keyed.get? results call.node.id = some (.started call.node.id sequence now)) :
    publishedBy results call = [] := by
  rw [publishedBy, h]
  rfl

/-- The executor of the node entered last is called. -/
lemma Ledger.call (h : Ledger calls (some node) results context)
    (hfresh : ∀ call ∈ calls, call.node.id ≠ node.id) {call : ExecutorCall}
    (hnode : call.node = node) : Ledger (calls ++ [call]) (some node) results context := by
  obtain ⟨sequence, now, hopen⟩ := h.get?_last
  subst hnode
  refine ⟨h.entries, fun other hother => ?_, ?_, ?_, h.errors⟩
  · rcases List.mem_append.1 hother with hold | hcalled
    · exact h.called other hold
    · rw [List.mem_singleton.1 hcalled, Keyed.contains, hopen]
      rfl
  · rw [List.map_append, List.nodup_append]
    refine ⟨h.once, by simp, fun a ha b hb => ?_⟩
    obtain ⟨other, hother, rfl⟩ := List.mem_map.1 ha
    rw [List.map_singleton, List.mem_singleton] at hb
    rw [hb]
    exact hfresh other hother
  · rw [published_concat, publishedBy_of_open hopen, List.append_nil, h.outputs]

/-- The failure of the node entered last is the last one. -/
lemma Ledger.errors_fail (h : Ledger calls (some node) results context) (e : NodeError)
    (seconds : Double) (now : Timestamp) :
    Keyed.insert context.errors node.id e.message =
      failures (Keyed.modify results node.id (closed (.error e) seconds now)) := by
  obtain ⟨before, started, hresults, hnew, -⟩ := h.entries.split
  have hopen : failures results = failures before := by
    rw [hresults, failures_append, failures_singleton]
    exact List.append_nil _
  have hnone : node.id ∉ Keyed.keys (failures before) :=
    fun hmem => hnew (keys_failures_subset before _ hmem)
  rw [h.errors, hopen, Keyed.insert_of_not_mem _ hnone, hresults, Keyed.modify_concat hnew,
    failures_append, failures_singleton]
  rfl

/-- A success is no failure. -/
lemma Ledger.errors_succeed (h : Ledger calls (some node) results context) (output : Fields)
    (seconds : Double) (now : Timestamp) :
    context.errors = failures (Keyed.modify results node.id (closed (.ok output) seconds now)) := by
  obtain ⟨before, started, hresults, hnew, -⟩ := h.entries.split
  rw [h.errors, hresults, Keyed.modify_concat hnew, failures_append, failures_append,
    failures_singleton, failures_singleton]
  rfl

/-- Closing a result leaves alone what the calls for other nodes have published. -/
lemma published_close (hfresh : ∀ call ∈ calls, call.node.id ≠ node.id)
    (change : NodeResult → NodeResult) :
    published calls (Keyed.modify results node.id change) = published calls results := by
  refine published_congr fun call hcall => ?_
  rw [Keyed.get?_modify, if_neg (Ne.symm (hfresh call hcall))]

/-- A node whose executor was not called fails. -/
lemma Ledger.refuse (h : Ledger calls (some node) results context)
    (hfresh : ∀ call ∈ calls, call.node.id ≠ node.id) (e : NodeError) (seconds : Double)
    (now : Timestamp) :
    Ledger calls none (Keyed.modify results node.id (closed (.error e) seconds now))
      (context.recordError node.id e.message) := by
  refine ⟨h.entries.close _ _ _, fun call hcall => ?_, h.once, ?_, h.errors_fail e seconds now⟩
  · rw [Keyed.contains_modify]
    exact h.called call hcall
  · rw [published_close hfresh]
    exact h.outputs

/-- The executor answers: the result is closed, and its outputs or its failure are recorded. -/
lemma Ledger.answer {call : ExecutorCall} (h : Ledger (calls ++ [call]) (some call.node) results
      context) (answer : Except NodeError Fields) (seconds : Double) (now : Timestamp) :
    Ledger (calls ++ [call]) none
      (Keyed.modify results call.node.id (closed answer seconds now))
      (match answer with
        | .ok output => context.publishDeclared call.node.id call.node.outputs output
        | .error e => context.recordError call.node.id e.message) := by
  obtain ⟨sequence, started, hopen⟩ := h.get?_last
  -- the calls before were made for other nodes
  have hfresh : ∀ other ∈ calls, other.node.id ≠ call.node.id := by
    have honce := h.once
    rw [List.map_append, List.nodup_append] at honce
    intro other hother
    exact honce.2.2 _ (List.mem_map.2 ⟨other, hother, rfl⟩) _ (List.mem_singleton_self _)
  have houtputs : context.results = Keyed.ofEntries (published calls results) := by
    rw [h.outputs, published_concat, publishedBy_of_open hopen, List.append_nil]
  have hnow : Keyed.get? (Keyed.modify results call.node.id (closed answer seconds now))
      call.node.id = some (closed answer seconds now (.started call.node.id sequence started)) := by
    rw [Keyed.get?_modify, if_pos rfl, hopen]
    rfl
  refine ⟨h.entries.close _ _ _, fun other hother => ?_, h.once, ?_, ?_⟩
  · rw [Keyed.contains_modify]
    exact h.called other hother
  · rw [published_concat, published_close hfresh, publishedBy, hnow]
    cases answer with
    | ok output =>
      dsimp only
      rw [publishDeclared_eq, houtputs]
      exact (Keyed.ofEntries_append _ _).symm
    | error e =>
      exact houtputs.trans (congrArg Keyed.ofEntries (List.append_nil _).symm)
  · cases answer with
    | ok output =>
      dsimp only
      rw [publishDeclared_eq]
      exact h.errors_succeed output seconds now
    | error e => exact h.errors_fail e seconds now

lemma context_complete (w : Workflow) (node : Node) (answer : Except NodeError Fields)
    (now : Timestamp) (t : Traversal) :
    (t.complete w node answer now).1.context =
      match answer with
      | .ok output => t.context.publishDeclared node.id node.outputs output
      | .error e => t.context.recordError node.id e.message := by
  cases answer <;> rfl

lemma results_enter (ex : Executors ε π ω) (node : Node) (rest : List Node) (run : Running ω) :
    ((run.pass rest).enter ex node).traversal.record.results =
      Keyed.insert run.traversal.record.results node.id
        (.started node.id run.traversal.record.results.length (ex.now run.world)) := rfl

/-- What is settled stays in front when the open result is closed. -/
lemma Results.prefix_close (h : Results (some node) results) {first : Keyed NodeResult}
    (hfirst : first <+: results) (hsettled : ∀ entry ∈ first, entry.2.status ≠ .running)
    (change : NodeResult → NodeResult) : first <+: Keyed.modify results node.id change := by
  obtain ⟨before, now, hresults, hnew, -⟩ := h.split
  subst hresults
  rw [Keyed.modify_concat hnew]
  rcases List.prefix_concat_iff.1 hfirst with hall | hbefore
  · -- the open result is not settled
    exfalso
    refine hsettled (node.id, .started node.id before.length now) ?_ rfl
    rw [hall]
    exact List.mem_append_right _ (List.mem_singleton_self _)
  · exact hbefore.trans (List.prefix_append _ _)

end Ledger

/-! ## The moments of a run -/

namespace Moment

variable {ex : Executors ε π ω} {r : Registry ε} {w : Workflow} {m m' : Moment ε π ω}

/-- The calls fit the moment: the executor of the node just entered was not called, and the last
call was made for the node that an executor works on. -/
def CallsFit : Moment ε π ω → Prop
  | between _ => True
  | entered _ node run => ∀ call ∈ run.calls, call.node.id ≠ node.id
  | calling node _ run => ∃ before call, run.calls = before ++ [call] ∧ call.node = node

/-- What a run has written up to a moment. -/
structure Written (m : Moment ε π ω) : Prop where
  ledger : Ledger m.run.calls m.node? m.run.traversal.record.results m.run.traversal.context
  calls : m.CallsFit

lemma Written.start (w : Workflow) {record : Execution} {context : Context} (cancelled : Bool)
    (world : ω) (hrecord : record.results = []) (hresults : context.results = [])
    (herrors : context.errors = []) :
    Written (ε := ε) (π := π) (between (.start w record context cancelled world)) := by
  refine ⟨?_, trivial⟩
  show Ledger [] none record.results context
  rw [hrecord]
  exact Ledger.nil hresults herrors

lemma Written.step (h : Written m) (hstep : Step ex r w m m') : Written m' := by
  cases hstep with
  | pass hagenda _ hknown => exact ⟨h.ledger, trivial⟩
  | @enter run node rest executor hagenda _ hnew hget =>
    have hledger : Ledger run.calls none run.traversal.record.results run.traversal.context :=
      h.ledger
    have hentered := hledger.enter hnew (ex.now run.world)
    rw [← results_enter ex node rest run] at hentered
    exact ⟨hentered, fun call hcall => contains_ne (hledger.called call hcall) hnew⟩
  | @refuse run node executor failure hin =>
    have hledger : Ledger run.calls (some node) run.traversal.record.results
      run.traversal.context := h.ledger
    obtain ⟨seconds, hresults⟩ :=
      results_complete w node (.error failure) (ex.now run.world) run.traversal
    have hrefused := hledger.refuse h.calls failure seconds (ex.now run.world)
    rw [← hresults] at hrefused
    exact ⟨hrefused, trivial⟩
  | @call run node executor inputs hin =>
    have hledger : Ledger run.calls (some node) run.traversal.record.results
      run.traversal.context := h.ledger
    have hcalled := hledger.call h.calls (show (run.call node inputs).node = node from rfl)
    exact ⟨hcalled, run.calls, run.call node inputs, rfl, rfl⟩
  | poll hstate => exact ⟨h.ledger, h.calls⟩
  | @answer run node p answer hstate =>
    obtain ⟨before, call, hcalls, hnode⟩ := h.calls
    subst hnode
    have hledger : Ledger (before ++ [call]) (some call.node) run.traversal.record.results
        run.traversal.context := by
      have hledger := h.ledger
      rw [Moment.run, hcalls] at hledger
      exact hledger
    obtain ⟨seconds, hresults⟩ := results_complete w call.node answer
      (ex.now (run.toScene.polled ex run.traversal.record.id call.node.id p).world) run.traversal
    have hanswered := hledger.answer answer seconds
      (ex.now (run.toScene.polled ex run.traversal.record.id call.node.id p).world)
    rw [← hcalls, ← hresults, ← context_complete w] at hanswered
    exact ⟨hanswered, trivial⟩
  | interfere cancel world =>
    cases m with
    | between run => exact ⟨h.ledger, trivial⟩
    | entered executor node run => exact ⟨h.ledger, h.calls⟩
    | calling node p run => exact ⟨h.ledger, h.calls⟩

lemma Reached.written {start : Running ω} (hstart : Written (ε := ε) (π := π) (between start))
    (h : Reached ex r w start m) : Written m := by
  induction h with
  | start => exact hstart
  | step _ hstep ih => exact ih.step hstep

end Moment

/-! ## What a run goes on with -/

/-- What has been written by a run stays as it is, and more is written after it. -/
structure Continues (run run' : Running ω) : Prop where
  results : run.traversal.record.orderedResults <+: run'.traversal.record.orderedResults
  published : published run.calls run.traversal.record.results <+:
    published run'.calls run'.traversal.record.results
  errors : run.traversal.context.errors <+: run'.traversal.context.errors
  events : run.events <+: run'.events

/-- What has been written comes first in the raw tables, too. -/
structure Extends (run run' : Running ω) : Prop where
  results : run.traversal.record.results <+: run'.traversal.record.results
  calls : run.calls <+: run'.calls
  events : run.events <+: run'.events

lemma Extends.refl (run : Running ω) : Extends run run :=
  ⟨List.prefix_rfl, List.prefix_rfl, List.prefix_rfl⟩

/-- From a moment between two nodes on, all results so far are settled. -/
lemma Extends.step {ex : Executors ε π ω} {r : Registry ε} {w : Workflow} {m m' : Moment ε π ω}
    {run : Running ω} (h : Extends run m.run) (hm : m.Written)
    (hsettled : ∀ entry ∈ run.traversal.record.results, entry.2.status ≠ .running)
    (hstep : Moment.Step ex r w m m') : Extends run m'.run := by
  cases hstep with
  | pass hagenda _ hknown => exact ⟨h.results, h.calls, h.events⟩
  | @enter now node rest executor hagenda _ hnew hget =>
    refine ⟨h.results.trans ?_, h.calls, h.events.trans (List.prefix_append _ _)⟩
    have hentries : Results none now.traversal.record.results := hm.ledger.entries
    obtain ⟨-, happend⟩ := hentries.enter hnew (ex.now now.world)
    rw [← results_enter ex node rest now] at happend
    exact ⟨_, happend.symm⟩
  | @refuse now node executor failure hin =>
    have hentries : Results (some node) now.traversal.record.results := hm.ledger.entries
    obtain ⟨seconds, hresults⟩ :=
      results_complete w node (.error failure) (ex.now now.world) now.traversal
    refine ⟨?_, h.calls, h.events.trans (List.prefix_append _ _)⟩
    exact hresults ▸ hentries.prefix_close h.results hsettled _
  | @call now node executor inputs hin =>
    exact ⟨h.results, h.calls.trans (List.prefix_append _ _), h.events⟩
  | @poll now node p p' hstate =>
    exact ⟨h.results, h.calls, h.events.trans (List.prefix_append _ _)⟩
  | @answer now node p answer hstate =>
    have hentries : Results (some node) now.traversal.record.results := hm.ledger.entries
    have hevents : run.events <+:
        (now.toScene.polled ex now.traversal.record.id node.id p).events :=
      h.events.trans (List.prefix_append _ _)
    obtain ⟨seconds, hresults⟩ := results_complete w node answer
      (ex.now (now.toScene.polled ex now.traversal.record.id node.id p).world) now.traversal
    refine ⟨?_, h.calls, hevents.trans (List.prefix_append _ _)⟩
    exact hresults ▸ hentries.prefix_close h.results hsettled _
  | interfere cancel world =>
    cases m with
    | between now => exact ⟨h.results, h.calls, h.events⟩
    | entered executor node now => exact ⟨h.results, h.calls, h.events⟩
    | calling node p now => exact ⟨h.results, h.calls, h.events⟩

lemma Extends.continues {run run' : Running ω} {node? node?' : Option Node}
    (h : Extends run run')
    (hledger : Ledger run.calls node? run.traversal.record.results run.traversal.context)
    (hledger' : Ledger run'.calls node?' run'.traversal.record.results run'.traversal.context) :
    Continues run run' := by
  obtain ⟨more, hresults⟩ := h.results
  obtain ⟨later, hcalls⟩ := h.calls
  refine ⟨?_, ?_, ?_, h.events⟩
  · rw [hledger.entries.ordered, hledger'.entries.ordered, ← hresults, List.map_append]
    exact List.prefix_append _ _
  · -- the results of the calls so far were there already
    have hsame : published run.calls run'.traversal.record.results =
        published run.calls run.traversal.record.results := by
      refine published_congr fun call hcall => ?_
      obtain ⟨result, hresult⟩ := Option.isSome_iff_exists.1 (hledger.called call hcall)
      rw [hresult]
      refine hledger'.entries.distinct.get?_of_mem ?_
      rw [← hresults]
      exact List.mem_append_left _ (Keyed.mem_of_get? hresult)
    rw [← hsame, ← hcalls]
    exact ⟨_, List.flatMap_append.symm⟩
  · rw [hledger.errors, hledger'.errors, ← hresults, failures_append]
    exact List.prefix_append _ _

/-- **A run never takes back what it has written between two nodes.** -/
theorem continues_of_leads (ex : Executors ε π ω) (r : Registry ε) (w : Workflow)
    {run : Running ω} (hwritten : (Moment.between run : Moment ε π ω).Written)
    {m : Moment ε π ω}
    (h : Relation.ReflTransGen (Moment.Step ex r w) (.between run) m) :
    m.Written ∧ Continues run m.run := by
  have hsettled : ∀ entry ∈ run.traversal.record.results, entry.2.status ≠ .running :=
    hwritten.ledger.entries.settled rfl
  have hboth : m.Written ∧ Extends run m.run := by
    induction h with
    | refl => exact ⟨hwritten, Extends.refl run⟩
    | tail _ hstep ih => exact ⟨ih.1.step hstep, ih.2.step ih.1 hsettled hstep⟩
  exact ⟨hboth.1, hboth.2.continues hwritten.ledger hboth.1.ledger⟩

end Traversal

end FlowGraph
