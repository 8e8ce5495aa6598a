import FlowGraph.Proofs.Traversal.Blocks

/-!
# The outcomes of a run

A run on a fresh record comes to one of few outcomes, however its nodes fail and whatever others do
in between.  Which one it is, is decided where the run stops.  The key fact is that a run that
stands before a node without an executor is *stuck* (`stuck`): others may interfere, but the run
goes no further.  So among the nodes that a run comes to enter only the last one may be without an
executor, and it is one the run has not written or told anything about.
-/

namespace FlowGraph

namespace Registry

variable {ε : Type}

/-- Why there is no executor for a category. -/
lemma get_eq_error {r : Registry ε} {t : NodeType} {e : EngineError} (h : r.get t = .error e) :
    r.initialized = false ∧ e = .registryNotInitialized ∨
      r.initialized = true ∧ r.executor? t = none ∧ e = .noExecutor t := by
  unfold get at h
  split at h
  · next hinitialized =>
    split at h
    · cases h
    · next hnone =>
      cases h
      exact .inr ⟨hinitialized, hnone, rfl⟩
  · next hinitialized =>
    cases h
    exact .inl ⟨Bool.not_eq_true _ ▸ hinitialized, rfl⟩

lemma get_of_not_initialized {r : Registry ε} (h : r.initialized = false) (t : NodeType) :
    r.get t = .error .registryNotInitialized := by
  rw [get, h]
  rfl

lemma get_of_missing {r : Registry ε} (h : r.initialized = true) {t : NodeType}
    (ht : r.executor? t = none) : r.get t = .error (.noExecutor t) := by
  rw [get, h, ht]
  rfl

end Registry

namespace Traversal

open Moment

variable {ε π ω : Type}

/-! ## How a run is over -/

/-- How a run of a workflow comes to its end, and what it leaves. -/
inductive Concludes (ex : Executors ε π ω) (r : Registry ε) (w : Workflow) (first : Running ω) :
    Outcome → Running ω → Prop
  /-- There is nothing to begin with. -/
  | untriggered (h : w.triggers.isEmpty = true) :
      Concludes ex r w first (.returned (.error .noTriggerNode)) first
  | halted (h : w.triggers.isEmpty = false) {outcome : Outcome} {final : Running ω}
      (hhalts : Halts ex r w first outcome final) : Concludes ex r w first outcome final

/-- A run by itself comes to its end. -/
lemma run_concludes (ex : Executors ε π ω) (r : Registry ε) (w : Workflow) (patience : ℕ)
    (record : Execution) (context : Context) (cancelled : Bool) (world : ω) :
    Concludes ex r w (.start w record context cancelled world)
      (run ex r w patience record context cancelled world).1
      (run ex r w patience record context cancelled world).2 := by
  rcases htriggers : w.triggers.isEmpty with _ | _
  · exact .halted htriggers (run_halts ex r htriggers patience record context cancelled world)
  · rw [run, if_pos htriggers]
    exact .untriggered htriggers

/-- What a run may return. -/
def MayReturn : Except EngineError Unit → Prop
  | .ok () | .error .noTriggerNode | .error .registryNotInitialized | .error (.noExecutor _)
  | .error .cancelled => True
  | .error _ => False

/-- Take the answer of the node entered last.  Without a result of the node the execution would be
lost. -/
def deliver (w : Workflow) (node : Node) (answer : Except NodeError Fields) (now : Timestamp)
    (t : Traversal) : Except EngineError (Traversal × ExecutionEvent) :=
  match t.record.result? node.id with
  | some _ => .ok (t.complete w node answer now)
  | none => .error (.executionLost t.record.id)

/-- A run that is not cancelled stands before a node that it has not entered. -/
structure StandsBefore (node : Node) (run : Running ω) : Prop where
  next : ∃ rest, run.traversal.agenda = node :: rest
  uncancelled : run.cancelled = false
  new : Keyed.contains run.traversal.record.results node.id = false

/-- On its way to where it ends a run comes to enter a node. -/
def ComesToEnter (ex : Executors ε π ω) (r : Registry ε) (w : Workflow) (first last : Running ω)
    (node : Node) : Prop :=
  ∃ run, Reached ex r w first (.between run) ∧
    Relation.ReflTransGen (Step ex r w) (.between run) (.between last) ∧ StandsBefore node run

/-! ## Standing before a node -/

section Stuck

variable {ex : Executors ε π ω} {r : Registry ε} {w : Workflow} {first run last : Running ω}
variable {node : Node} {failure : EngineError} {m m' : Moment ε π ω}

/-- Nobody takes a cancellation back. -/
lemma cancelled_of_leads (h : Relation.ReflTransGen (Step ex r w) m m')
    (hcancelled : m.run.cancelled = true) : m'.run.cancelled = true := by
  induction h with
  | refl => exact hcancelled
  | @tail middle _ _ hstep ih =>
    cases hstep with
    | pass _ _ _ | enter _ _ _ _ | refuse _ | call _ => exact ih
    | @poll now _ _ _ _ | @answer now _ _ _ _ =>
      have hnow : now.cancelled = true := ih
      exact Bool.or_eq_true_iff.2 (.inl hnow)
    | interfere _ _ _ =>
      cases middle with
      | between now | entered _ _ now | calling _ _ now =>
        have hnow : now.cancelled = true := ih
        exact Bool.or_eq_true_iff.2 (.inl hnow)

lemma leads_of_reached (h : Reached ex r w first m) :
    Relation.ReflTransGen (Step ex r w) (.between first) m := by
  induction h with
  | start => exact .refl
  | step _ hstep ih => exact ih.tail hstep

/-- **Before a node without an executor a run is stuck.**  It leaves this moment only to end. -/
theorem stuck (hnode : StandsBefore node run) (hget : r.get node.nodeType = .error failure)
    (h : Relation.ReflTransGen (Step ex r w) (.between run) m) :
    ∃ now, m = .between now ∧ now.traversal = run.traversal := by
  obtain ⟨⟨rest, hagenda⟩, -, hnew⟩ := hnode
  induction h with
  | refl => exact ⟨run, rfl, rfl⟩
  | tail _ hstep ih =>
    obtain ⟨now, rfl, hsame⟩ := ih
    rw [← hsame] at hagenda hnew
    cases hstep with
    | pass hother _ hknown =>
      rw [hagenda] at hother
      cases hother
      rw [hnew] at hknown
      cases hknown
    | enter hother _ _ hserved =>
      rw [hagenda] at hother
      cases hother
      rw [hget] at hserved
      cases hserved
    | interfere _ _ => exact ⟨_, rfl, hsame⟩

/-- A run that comes to enter a node without an executor is before it still when it ends. -/
lemma ComesToEnter.stands (h : ComesToEnter ex r w first last node)
    (hfree : last.cancelled = false) (hget : r.get node.nodeType = .error failure) :
    StandsBefore node last := by
  obtain ⟨run, -, hleads, hnode⟩ := h
  obtain ⟨now, hlast, hsame⟩ := stuck hnode hget hleads
  cases hlast
  exact ⟨hsame ▸ hnode.next, hfree, hsame ▸ hnode.new⟩

/-- The node before which a run ends is one that it comes to enter. -/
lemma StandsBefore.comes (h : StandsBefore node last)
    (hlast : Reached ex r w first (.between last)) : ComesToEnter ex r w first last node :=
  ⟨last, hlast, .refl, h⟩

/-- Why a run returns what it returns. -/
inductive Returns (ex : Executors ε π ω) (r : Registry ε) (w : Workflow) (first last : Running ω) :
    Except EngineError Unit → Prop
  | untriggered (h : w.triggers = []) (hagenda : last.traversal.agenda = []) :
      Returns ex r w first last (.error .noTriggerNode)
  | finished (h : w.triggers ≠ []) (hlast : Reached ex r w first (.between last))
      (hagenda : last.traversal.agenda = []) : Returns ex r w first last (.ok ())
  | cancelled (h : w.triggers ≠ []) (hcancelled : last.cancelled = true) :
      Returns ex r w first last (.error .cancelled)
  | uninitialized (h : w.triggers ≠ []) (hlast : Reached ex r w first (.between last))
      {node : Node} (hnode : StandsBefore node last) (hr : r.initialized = false) :
      Returns ex r w first last (.error .registryNotInitialized)
  | missing (h : w.triggers ≠ []) (hlast : Reached ex r w first (.between last)) {node : Node}
      (hnode : StandsBefore node last) (hr : r.initialized = true)
      (hnone : r.executor? node.nodeType = none) :
      Returns ex r w first last (.error (.noExecutor node.nodeType))

lemma Halts.returns (htriggers : w.triggers ≠ []) {result : Except EngineError Unit}
    (h : Halts ex r w first (.returned result) last) : Returns ex r w first last result := by
  cases h with
  | ended hreached hstep =>
    cases taken_of_step hstep with
    | finished hagenda => exact .finished htriggers hreached hagenda
    | cancelled _ hcancelled => exact .cancelled htriggers hcancelled
    | unserved hagenda hfree hnew hget =>
      have hnode : StandsBefore _ last := ⟨⟨_, hagenda⟩, hfree, hnew⟩
      rcases Registry.get_eq_error hget with ⟨hr, rfl⟩ | ⟨hr, hnone, rfl⟩
      · exact .uninitialized htriggers hreached hnode hr
      · exact .missing htriggers hreached hnode hr hnone

/-- A run that ends before a node without an executor returns the error. -/
lemma Returns.of_stands {result : Except EngineError Unit}
    (h : Returns ex r w first last result) (hnode : StandsBefore node last)
    (hget : r.get node.nodeType = .error failure) :
    result = .error failure ∧ Reached ex r w first (.between last) := by
  obtain ⟨⟨rest, hagenda⟩, hfree, -⟩ := hnode
  cases h with
  | untriggered _ hnil | finished _ _ hnil =>
    rw [hnil] at hagenda
    cases hagenda
  | cancelled _ hcancelled =>
    rw [hcancelled] at hfree
    cases hfree
  | uninitialized _ hlast _ hr =>
    rw [Registry.get_of_not_initialized hr] at hget
    cases hget
    exact ⟨rfl, hlast⟩
  | missing _ hlast hother hr hnone =>
    obtain ⟨rest', hagenda'⟩ := hother.next
    cases hagenda.symm.trans hagenda'
    rw [Registry.get_of_missing hr hnone] at hget
    cases hget
    exact ⟨rfl, hlast⟩

end Stuck

/-! ## What a run leaves -/

section Fresh

variable {ex : Executors ε π ω} {r : Registry ε} {w : Workflow} {record : Execution}
variable {context : Context} {cancelled : Bool} {world : ω} {last : Running ω} {m : Moment ε π ω}

/-- A run with a trigger comes to enter the first one, if it is not cancelled. -/
lemma comes_first (hfresh : record.results = []) (htriggers : w.triggers.isEmpty = false)
    (hlast : Reached ex r w (.start w record context cancelled world) (.between last))
    (hfree : last.cancelled = false) :
    ∃ node, ComesToEnter ex r w (.start w record context cancelled world) last node := by
  obtain ⟨node, rest, hagenda⟩ := List.exists_cons_of_ne_nil (List.isEmpty_eq_false_iff.1 htriggers)
  have hleads := leads_of_reached hlast
  refine ⟨node, .start w record context cancelled world, .start, hleads, ⟨rest, hagenda⟩, ?_, ?_⟩
  · by_contra hcancelled
    rw [Bool.not_eq_false] at hcancelled
    have hlater := cancelled_of_leads hleads hcancelled
    rw [show last.cancelled = true from hlater] at hfree
    cases hfree
  · show Keyed.contains record.results node.id = false
    rw [hfresh]
    rfl

/-- At every moment there is a result of the node entered last. -/
lemma deliver_of_reached (hfresh : record.results = [])
    (h : Reached ex r w (.start w record context cancelled world) m) {node : Node}
    (hnode : m.node? = some node) (answer : Except NodeError Fields) (now : Timestamp) :
    deliver w node answer now m.run.traversal =
      .ok (m.run.traversal.complete w node answer now) := by
  have hentries := (h.told (.start w context cancelled world rfl hfresh)).entries
  rw [hnode] at hentries
  obtain ⟨before, started, hresults, -, -⟩ := hentries.split
  have hopen : m.run.traversal.record.result? node.id =
      some (.started node.id before.length started) := by
    refine hentries.distinct.get?_of_mem ?_
    rw [hresults]
    exact List.mem_append_right _ (List.mem_singleton_self _)
  rw [deliver, hopen]

/-- The results that a run leaves: only that of the node entered last may be running, after a
crash. -/
lemma Concludes.results (hfresh : record.results = []) {outcome : Outcome}
    (h : Concludes ex r w (.start w record context cancelled world) outcome last) :
    (∃ node?, Results node? last.traversal.record.results ∧
      (node? ≠ none → outcome = .crashed)) ∧
      ∀ entry ∈ last.traversal.record.results, entry.2.Fits := by
  have htold : ∀ {m : Moment ε π ω},
      Reached ex r w (.start w record context cancelled world) m → m.Told record.id :=
    fun hreached => hreached.told (.start w context cancelled world rfl hfresh)
  cases h with
  | untriggered _ =>
    have hfirst := htold .start
    exact ⟨⟨none, hfirst.entries, fun h => absurd rfl h⟩, hfirst.narrates.fits⟩
  | halted _ hhalts =>
    cases hhalts with
    | ended hreached _ =>
      have hlast := htold hreached
      exact ⟨⟨none, hlast.entries, fun h => absurd rfl h⟩, hlast.narrates.fits⟩
    | crashed hreached hleft =>
      have hlast := htold hreached
      rw [hleft]
      exact ⟨⟨_, hlast.entries, fun _ => rfl⟩, hlast.narrates.fits⟩

lemma Concludes.returns {result : Except EngineError Unit}
    (h : Concludes ex r w (.start w record context cancelled world) (.returned result) last) :
    Returns ex r w (.start w record context cancelled world) last result := by
  cases h with
  | untriggered h =>
    have hnone := List.isEmpty_iff.1 h
    exact .untriggered hnone hnone
  | halted h hhalts => exact hhalts.returns (List.isEmpty_eq_false_iff.1 h)

/-- A run that comes to enter a node without an executor returns the error. -/
lemma Concludes.returned_of_comes {outcome : Outcome}
    (h : Concludes ex r w (.start w record context cancelled world) outcome last)
    (hreturned : outcome ≠ .crashed) (hfree : last.cancelled = false) {node : Node}
    (hcomes : ComesToEnter ex r w (.start w record context cancelled world) last node)
    {failure : EngineError} (hget : r.get node.nodeType = .error failure) :
    outcome = .returned (.error failure) ∧ StandsBefore node last ∧
      Reached ex r w (.start w record context cancelled world) (.between last) := by
  rcases outcome with result | _
  · have hnode := hcomes.stands hfree hget
    obtain ⟨rfl, hlast⟩ := h.returns.of_stands hnode hget
    exact ⟨rfl, hnode, hlast⟩
  · exact absurd rfl hreturned

end Fresh

/-! ## Containment -/

/-- What becomes of a run, whatever nodes of it fail. -/
structure Contained (ex : Executors ε π ω) (r : Registry ε) (w : Workflow) (first : Running ω)
    (outcome : Outcome) (last : Running ω) : Prop where
  returns : ∀ result, outcome = .returned result → MayReturn result
  /-- No execution is lost: whenever an answer may be taken, there is a result to take it. -/
  delivered : ∀ m : Moment ε π ω, Reached ex r w first m → ∀ node, m.node? = some node →
    ∀ answer now, deliver w node answer now m.run.traversal =
      .ok (m.run.traversal.complete w node answer now)
  untriggered : outcome = .returned (.error .noTriggerNode) ↔ w.triggers = []
  cancelled : outcome = .returned (.error .cancelled) → last.cancelled = true
  /-- Unless somebody cancels it or an executor crashes, a run succeeds exactly when it can go all
  its way. -/
  completed : outcome ≠ .crashed → last.cancelled = false →
    (outcome = .returned (.ok ()) ↔ w.triggers ≠ [] ∧ r.initialized = true ∧
      ∀ node, ComesToEnter ex r w first last node → (r.executor? node.nodeType).isSome = true)
  uninitialized : outcome ≠ .crashed → last.cancelled = false → w.triggers ≠ [] →
    (outcome = .returned (.error .registryNotInitialized) ↔ r.initialized = false)
  /-- A node without an executor is the last one that the run comes to enter, and nothing is written
  or told of it. -/
  missing : outcome ≠ .crashed → last.cancelled = false → r.initialized = true →
    ∀ node, ComesToEnter ex r w first last node → r.executor? node.nodeType = none →
      outcome = .returned (.error (.noExecutor node.nodeType)) ∧
        last.traversal.agenda.head? = some node ∧
        Keyed.contains last.traversal.record.results node.id = false ∧
        ∀ e ∈ last.events, e.nodeId? ≠ some node.id
  fits : ∀ entry ∈ last.traversal.record.results, entry.2.Fits
  /-- Only the result of the node entered last may be running, after a crash. -/
  running : ∀ result ∈ last.traversal.record.orderedResults, result.status = .running →
    outcome = .crashed ∧ last.traversal.record.orderedResults.getLast? = some result

section Contained

variable {ex : Executors ε π ω} {r : Registry ε} {w : Workflow} {record : Execution}
variable {context : Context} {cancelled : Bool} {world : ω} {last : Running ω} {outcome : Outcome}

/-- Without an initialized registry a run ends before its first node. -/
lemma Concludes.returned_of_not_initialized (hfresh : record.results = [])
    (h : Concludes ex r w (.start w record context cancelled world) outcome last)
    (hreturned : outcome ≠ .crashed) (hfree : last.cancelled = false) (htriggers : w.triggers ≠ [])
    (hnot : r.initialized = false) :
    outcome = .returned (.error .registryNotInitialized) := by
  rcases outcome with result | _
  · cases h.returns with
    | untriggered hnone _ => exact absurd hnone htriggers
    | finished _ hlast _ =>
      have hsome := List.isEmpty_eq_false_iff.2 htriggers
      obtain ⟨node, hcomes⟩ := comes_first hfresh hsome hlast hfree
      have hget := Registry.get_of_not_initialized hnot node.nodeType
      exact (h.returned_of_comes hreturned hfree hcomes hget).1
    | cancelled _ hcancelled =>
      rw [hcancelled] at hfree
      cases hfree
    | uninitialized _ _ _ _ => rfl
    | missing _ _ _ hr _ =>
      rw [hnot] at hr
      cases hr
  · exact absurd rfl hreturned

/-- Unless it is cancelled, a run with a trigger succeeds only if every node that it comes to enter
has an executor. -/
lemma Concludes.served (hfresh : record.results = [])
    (h : Concludes ex r w (.start w record context cancelled world) (.returned (.ok ())) last)
    (hfree : last.cancelled = false) :
    w.triggers ≠ [] ∧ r.initialized = true ∧
      ∀ node, ComesToEnter ex r w (.start w record context cancelled world) last node →
        (r.executor? node.nodeType).isSome = true := by
  cases h.returns with
  | finished htriggers hlast _ =>
    have hinitialized : r.initialized = true := by
      by_contra hnot
      cases h.returned_of_not_initialized hfresh nofun hfree htriggers (Bool.eq_false_iff.2 hnot)
    refine ⟨htriggers, hinitialized, fun node hcomes => ?_⟩
    rcases hnone : r.executor? node.nodeType with _ | executor
    · have hget := Registry.get_of_missing hinitialized hnone
      cases (h.returned_of_comes nofun hfree hcomes hget).1
    · rfl

/-- A run with a trigger succeeds if every node that it comes to enter has an executor and nobody
cancels it. -/
lemma Concludes.succeeds
    (h : Concludes ex r w (.start w record context cancelled world) outcome last)
    (hreturned : outcome ≠ .crashed) (hfree : last.cancelled = false) (htriggers : w.triggers ≠ [])
    (hinitialized : r.initialized = true)
    (hserved : ∀ node, ComesToEnter ex r w (.start w record context cancelled world) last node →
      (r.executor? node.nodeType).isSome = true) :
    outcome = .returned (.ok ()) := by
  rcases outcome with result | _
  · cases h.returns with
    | untriggered hnone _ => exact absurd hnone htriggers
    | finished _ _ _ => rfl
    | cancelled _ hcancelled =>
      rw [hcancelled] at hfree
      cases hfree
    | uninitialized _ _ _ hr =>
      rw [hinitialized] at hr
      cases hr
    | missing _ hlast hnode _ hnone =>
      have hsome := hserved _ (hnode.comes hlast)
      rw [hnone] at hsome
      cases hsome
  · exact absurd rfl hreturned

/-- Of a node before which a run stands nothing is written or told. -/
lemma StandsBefore.untold (hfresh : record.results = []) {node : Node} (h : StandsBefore node last)
    (hlast : Reached ex r w (.start w record context cancelled world) (.between last)) :
    ∀ e ∈ last.events, e.nodeId? ≠ some node.id := by
  intro e he habout
  have htold := hlast.told (.start w context cancelled world rfl hfresh)
  have hmem := htold.narrates.nodeId he habout
  have hnew : Keyed.contains last.traversal.record.results node.id = false := h.new
  rw [Keyed.contains, ← Bool.not_eq_true, ← Keyed.mem_keys_iff] at hnew
  exact hnew hmem

/-- **Failures are contained.**  However others interfere, a run on a fresh record comes to one of
few outcomes, which its workflow and the registry decide; its record says of every node that was
entered whether it succeeded or failed. -/
theorem Concludes.contained (hfresh : record.results = [])
    (h : Concludes ex r w (.start w record context cancelled world) outcome last) :
    Contained ex r w (.start w record context cancelled world) outcome last := by
  obtain ⟨⟨node?, hresults, hcrashed⟩, hfits⟩ := h.results hfresh
  refine
    { returns := ?_
      delivered := fun m hm node hnode => deliver_of_reached hfresh hm hnode
      untriggered := ⟨?_, fun hnone => ?_⟩
      cancelled := ?_
      completed := fun hreturned hfree => ⟨?_, fun ⟨htriggers, hinitialized, hserved⟩ => ?_⟩
      uninitialized := fun hreturned hfree htriggers => ⟨?_, fun hnot => ?_⟩
      missing := fun hreturned hfree hinitialized node hcomes hnone => ?_
      fits := hfits
      running := hresults.running hcrashed }
  · rintro result rfl
    cases h.returns <;> trivial
  · rintro rfl
    cases h.returns with
    | untriggered hnone _ => exact hnone
  · cases h with
    | untriggered _ => rfl
    | halted hsome _ => simp [hnone] at hsome
  · rintro rfl
    cases h.returns with
    | cancelled _ hcancelled => exact hcancelled
  · rintro rfl
    exact h.served hfresh hfree
  · exact h.succeeds hreturned hfree htriggers hinitialized hserved
  · rintro rfl
    cases h.returns with
    | uninitialized _ _ _ hr => exact hr
  · exact h.returned_of_not_initialized hfresh hreturned hfree htriggers hnot
  · have hget := Registry.get_of_missing hinitialized hnone
    obtain ⟨houtcome, hnode, hlast⟩ := h.returned_of_comes hreturned hfree hcomes hget
    obtain ⟨rest, hagenda⟩ := hnode.next
    exact ⟨houtcome, by rw [hagenda]; rfl, hnode.new, hnode.untold hfresh hlast⟩

end Contained

end Traversal

end FlowGraph
