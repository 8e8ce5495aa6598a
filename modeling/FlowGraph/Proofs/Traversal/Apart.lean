import FlowGraph.Proofs.Traversal.Replay
import Mathlib.Data.List.Nodup

/-!
# What is found under a node and an output

Outputs are published under one key, the id of the node and that of the output joined by a dot.
Joining is not injective: an output `b.c` of a node `a` and an output `c` of a node `a.b` have the
same key, and the node that is entered last overwrites what the other has published.  So a node
finds what another returned only if nobody else has published under the same key, which is
`Alone`.  Where no id of a node holds a dot, keys tell the nodes apart.
-/

namespace FlowGraph

namespace Keyed

variable {α : Type}

/-- What is found in a table of entries is one of them. -/
lemma mem_of_get?_ofEntries {entries : List (String × α)} {key : String} {value : α}
    (h : get? (ofEntries entries) key = some value) : (key, value) ∈ entries := by
  rw [get?_ofEntries] at h
  obtain ⟨entry, hlast, rfl⟩ := Option.map_eq_some_iff.1 h
  obtain ⟨hentry, hkey⟩ := List.mem_filter.1 (List.mem_of_getLast? hlast)
  rwa [← of_decide_eq_true hkey]

/-- Where all entries of a key have the same value, it is found under the key. -/
lemma get?_ofEntries_eq {entries : List (String × α)} {key : String} {value? : Option α}
    (h : ∀ value, (key, value) ∈ entries ↔ value? = some value) :
    get? (ofEntries entries) key = value? := by
  rcases hfound : get? (ofEntries entries) key with _ | value
  · rcases hvalue : value? with _ | value
    · rfl
    · -- an entry's key has a value
      rw [get?_eq_none_iff, keys_ofEntries, List.mem_eraseDups] at hfound
      exact absurd (List.mem_map.2 ⟨_, (h value).2 hvalue, rfl⟩) hfound
  · exact ((h value).1 (mem_of_get?_ofEntries hfound)).symm

end Keyed

namespace Context

/-- The keys of one node tell its outputs apart. -/
lemma resultKey_cancel {nodeId outputId outputId' : String}
    (h : resultKey nodeId outputId = resultKey nodeId outputId') : outputId = outputId' := by
  have hlists := congrArg String.toList h
  simp only [resultKey, String.toList_append] at hlists
  exact String.toList_inj.1 (List.append_cancel_left hlists)

/-- A key tells its node, if the id has no dot. -/
lemma takeWhile_resultKey {nodeId : String} (h : '.' ∉ nodeId.toList) (outputId : String) :
    (resultKey nodeId outputId).toList.takeWhile (· ≠ '.') = nodeId.toList := by
  have hkey : (resultKey nodeId outputId).toList =
      nodeId.toList ++ '.' :: outputId.toList := by
    simp [resultKey, String.toList_append]
  rw [hkey, List.takeWhile_append_of_pos]
  · simp
  · intro c hc
    simp only [ne_eq, decide_eq_true_eq]
    rintro rfl
    exact h hc

end Context

namespace Traversal

variable {ε π ω : Type}

/-! ## What was returned and what is found -/

/-- What a node has returned for an output: nothing unless it succeeded and declares the output. -/
def returned? (record : Execution) (node : Node) (outputId : String) : Option Json :=
  if outputId ∈ node.outputs.map OutputSpec.id then
    (record.result? node.id).bind fun r =>
      if r.status = .success then r.output.bind fun output => Keyed.get? output outputId else none
  else none

/-- No other node has returned anything that is published under the same key. -/
def Alone (w : Workflow) (record : Execution) (node : Node) (outputId : String) : Prop :=
  ∀ other ∈ w.nodes, ∀ otherId, (returned? record other otherId).isSome →
    Context.resultKey other.id otherId = Context.resultKey node.id outputId → other.id = node.id

lemma returned?_eq_some {record : Execution} {node : Node} {outputId : String} {value : Json} :
    returned? record node outputId = some value ↔
      (∃ spec ∈ node.outputs, spec.id = outputId) ∧ ∃ r output, record.result? node.id = some r ∧
        r.status = .success ∧ r.output = some output ∧ Keyed.get? output outputId = some value := by
  unfold returned?
  constructor
  · intro h
    split at h
    · next hdeclared =>
      obtain ⟨r, hresult, hvalue⟩ := Option.bind_eq_some_iff.1 h
      split at hvalue
      · next hstatus =>
        obtain ⟨output, houtput, hget⟩ := Option.bind_eq_some_iff.1 hvalue
        exact ⟨List.mem_map.1 hdeclared, r, output, hresult, hstatus, houtput, hget⟩
      · cases hvalue
    · cases h
  · rintro ⟨hdeclared, r, output, hresult, hstatus, houtput, hget⟩
    rw [if_pos (List.mem_map.2 hdeclared), hresult]
    simp [hstatus, houtput, hget]

lemma mem_publicationsOf {node : Node} {output : Fields} {key : String} {value : Json} :
    (key, value) ∈ publicationsOf node output ↔ ∃ spec ∈ node.outputs,
      Context.resultKey node.id spec.id = key ∧ Keyed.get? output spec.id = some value := by
  simp only [publicationsOf, List.mem_filterMap, Option.map_eq_some_iff, Prod.mk.injEq]
  constructor
  · rintro ⟨spec, hspec, found, hget, rfl, rfl⟩
    exact ⟨spec, hspec, rfl, hget⟩
  · rintro ⟨spec, hspec, rfl, hget⟩
    exact ⟨spec, hspec, value, hget, rfl, rfl⟩

section Faithful

variable {w : Workflow} {record : Execution} {run : Running ω}

/-- Nodes with one id are one node. -/
lemma eq_of_id (hdistinct : (w.nodes.map Node.id).Nodup) {node other : Node}
    (hnode : node ∈ w.nodes) (hother : other ∈ w.nodes) (h : node.id = other.id) : node = other :=
  List.inj_on_of_nodup_map hdistinct hnode hother h

lemma nodeCalled?_eq_some {calls : List ExecutorCall} {id : String} {node : Node}
    (h : nodeCalled? calls id = some node) : node.id = id ∧ ∃ call ∈ calls, call.node = node := by
  obtain ⟨call, hcall, rfl⟩ := Option.map_eq_some_iff.1 h
  exact ⟨by simpa using List.find?_some hcall, call, List.mem_of_find?_eq_some hcall, rfl⟩

/-- What is published is what the nodes returned, each value under the key of its node. -/
lemma Faithful.mem_publications (h : Faithful w record run)
    (hdistinct : (w.nodes.map Node.id).Nodup) (key : String) (value : Json) :
    (key, value) ∈ run.traversal.record.orderedResults.flatMap (publications run.calls) ↔
      ∃ node ∈ w.nodes, ∃ outputId, Context.resultKey node.id outputId = key ∧
        returned? run.traversal.record node outputId = some value := by
  rw [List.mem_flatMap]
  constructor
  · rintro ⟨r, hr, hmem⟩
    unfold publications at hmem
    split at hmem
    · next node output hstatus hcalled houtput =>
      obtain ⟨hid, call, hcall, rfl⟩ := nodeCalled?_eq_some hcalled
      obtain ⟨spec, hspec, hkey, hget⟩ := mem_publicationsOf.1 hmem
      have hresult := (h.found call.node.id r).2 ⟨hr, hid.symm⟩
      exact ⟨call.node, (h.calls call hcall).1, spec.id, hkey, returned?_eq_some.2
        ⟨⟨spec, hspec, rfl⟩, r, output, hresult, hstatus, houtput, hget⟩⟩
    · cases hmem
  · rintro ⟨node, hnode, outputId, rfl, hreturned⟩
    obtain ⟨⟨spec, hspec, rfl⟩, r, output, hresult, hstatus, houtput, hget⟩ :=
      returned?_eq_some.1 hreturned
    obtain ⟨hr, hid⟩ := (h.found node.id r).1 hresult
    -- the node that was called under the id is this one
    obtain ⟨called, hcalled⟩ := Option.isSome_iff_exists.1 ((h.results r hr).2 hstatus)
    obtain ⟨hcalledId, call, hcall, rfl⟩ := nodeCalled?_eq_some hcalled
    have hsame : call.node = node :=
      eq_of_id hdistinct (h.calls call hcall).1 hnode (hcalledId.trans hid)
    refine ⟨r, hr, ?_⟩
    rw [publications_of_success hstatus hcalled houtput, hsame]
    exact mem_publicationsOf.2 ⟨spec, hspec, rfl, hget⟩

/-- A node that is alone with a key finds under it what it returned, and nothing if it did not. -/
lemma Faithful.result?_of_alone (h : Faithful w record run)
    (hdistinct : (w.nodes.map Node.id).Nodup) {node : Node} (hnode : node ∈ w.nodes)
    {outputId : String} (halone : Alone w run.traversal.record node outputId) :
    run.traversal.context.result? node.id outputId =
      returned? run.traversal.record node outputId := by
  rw [h.context]
  refine Keyed.get?_ofEntries_eq fun value => ?_
  rw [h.mem_publications hdistinct]
  constructor
  · rintro ⟨other, hother, otherId, hkey, hreturned⟩
    have hsome : (returned? run.traversal.record other otherId).isSome := by
      rw [hreturned]
      rfl
    obtain rfl := eq_of_id hdistinct hother hnode (halone other hother otherId hsome hkey)
    rwa [Context.resultKey_cancel hkey] at hreturned
  · exact fun hreturned => ⟨node, hnode, outputId, rfl, hreturned⟩

end Faithful

/-- Where no id holds a dot, every node is alone with its keys. -/
lemma alone_of_dotless {w : Workflow} (hdots : ∀ node ∈ w.nodes, '.' ∉ node.id.toList)
    (record : Execution) {node : Node} (hnode : node ∈ w.nodes) (outputId : String) :
    Alone w record node outputId := by
  intro other hother otherId _ hkey
  have hids := Context.takeWhile_resultKey (hdots other hother) otherId
  rw [hkey, Context.takeWhile_resultKey (hdots node hnode)] at hids
  exact (String.toList_inj.1 hids).symm

/-! ## The outputs of a run -/

/-- Under a node and an output stands what the node has returned for it, as long as no other node
has published under the same key; in a workflow whose ids have no dots this is always so. -/
structure KeptApart (w : Workflow) (record : Execution) (context : Context) : Prop where
  alone : ∀ node ∈ w.nodes, ∀ outputId, Alone w record node outputId →
    context.result? node.id outputId = returned? record node outputId
  dotless : (∀ node ∈ w.nodes, '.' ∉ node.id.toList) → ∀ node ∈ w.nodes, ∀ outputId,
    context.result? node.id outputId = returned? record node outputId

lemma Faithful.keptApart {w : Workflow} {record : Execution} {run : Running ω}
    (h : Faithful w record run) (hdistinct : (w.nodes.map Node.id).Nodup) :
    KeptApart w run.traversal.record run.traversal.context where
  alone _ hnode _ halone := h.result?_of_alone hdistinct hnode halone
  dotless hdots _ hnode outputId :=
    h.result?_of_alone hdistinct hnode (alone_of_dotless hdots _ hnode outputId)

/-- **Outputs of nodes do not interfere unless their keys coincide.**  In every workflow with
distinct ids, whatever the executors do and however others interfere: at every moment of a run that
begins with an empty record, and in the end, a node's output is found exactly if the node succeeded,
declares it and returned it, with the value that it returned, unless another node has published
under the same key. -/
theorem run_keptApart (ex : Executors ε π ω) (r : Registry ε) (w : Workflow) (record : Execution)
    (cancelled : Bool) (world : ω) (hfresh : record.results = [])
    (hdistinct : (w.nodes.map Node.id).Nodup) :
    let context : Context := { executionId := record.id, input := record.input }
    (∀ m : Moment ε π ω, Moment.Reached ex r w (.start w record context cancelled world) m →
      KeptApart w m.record m.run.traversal.context) ∧
    ∀ patience, let final := (run ex r w patience record context cancelled world).2.traversal
      KeptApart w final.record final.context := by
  obtain ⟨hmoments, hfinal⟩ := run_faithful ex r w record cancelled world hfresh
  exact ⟨fun m hm => (hmoments m hm).keptApart hdistinct,
    fun patience => (hfinal patience).keptApart hdistinct⟩

/-- In a chain of two nodes, what the trigger kept for itself is not found. -/
theorem run_keptApart_relay :
    let registry : Registry Unit := { executor? := fun _ => some (), initialized := true }
    let record := Execution.make "exec" "relay" [] default
    let final := (run echo registry relay 1 record { executionId := "exec", input := [] } false
      ()).2.traversal
    record.results = [] ∧ (relay.nodes.map Node.id).Nodup ∧
      KeptApart relay final.record final.context ∧
      final.context.result? "start" "told" = some (.bool true) ∧
      final.context.result? "start" "kept" = none := by
  have hdistinct : (relay.nodes.map Node.id).Nodup := by decide
  refine ⟨rfl, hdistinct, ?_, rfl, rfl⟩
  exact (run_keptApart echo _ relay (Execution.make "exec" "relay" [] default) false () rfl
    hdistinct).2 1

/-- Two triggers with distinct ids whose outputs are published under one key. -/
def colliding : Workflow where
  id := "colliding"
  nodes := [
    { id := "a", nodeType := .trigger, outputs := [⟨"b.c", "any"⟩]
      config := [("b.c", .bool true)] },
    { id := "a.b", nodeType := .trigger, outputs := [⟨"c", "any"⟩]
      config := [("c", .bool false)] }]

/-- The second trigger overwrites what the first has returned for its declared output, which is
found no more although both succeed. -/
theorem run_colliding :
    let registry : Registry Unit := { executor? := fun _ => some (), initialized := true }
    let final := run echo registry colliding 1 (Execution.make "exec" "colliding" [] default)
      { executionId := "exec", input := [] } false ()
    (colliding.nodes.map Node.id).Nodup ∧ final.1 = .returned (.ok ()) ∧
      colliding.nodes.map (fun node =>
          node.outputs.map fun spec => returned? final.2.traversal.record node spec.id) =
        [[some (.bool true)], [some (.bool false)]] ∧
      final.2.traversal.context.result? "a" "b.c" = some (.bool false) :=
  ⟨by decide, rfl, rfl, rfl⟩

end Traversal

end FlowGraph
