import FlowGraph.Proofs.Traversal.Ledger
import FlowGraph.Proofs.Traversal.Taking
import Mathlib.Data.List.Forall2

/-!
# What is heard of a run

The events of a run come in blocks, one for each node that was entered, in the order of the results
in its record.  A block begins with the start of its node, goes on with what the executor reports,
and is closed by an event that says what the result says.  The key invariant is `Narrates`, which
reads the events and the results side by side; `told` says that it holds at every moment of a run.
It goes on to hold when a node reports more while its block is open (`Narrates.noted`).  Only the
block of the node entered last may be open, since only its result may be running.
-/

namespace FlowGraph

namespace ExecutionEvent

/-- The node that an event is about. -/
def nodeId? : ExecutionEvent → Option String
  | nodeStarted _ nodeId .. | nodeCompleted _ nodeId .. | nodeFailed _ nodeId ..
  | nodeEvent _ nodeId .. => some nodeId
  | executionStarted .. | executionFinished .. => none

/-- The node that the event says has succeeded. -/
def succeeded? : ExecutionEvent → Option String
  | nodeCompleted _ nodeId .. => some nodeId
  | _ => none

/-- The node that the event says has failed, and why. -/
def failed? : ExecutionEvent → Option (String × String)
  | nodeFailed _ nodeId message _ => some (nodeId, message)
  | _ => none

/-- The status with which the event says that the run is over. -/
def finished? : ExecutionEvent → Option ExecutionStatus
  | executionFinished _ status .. => some status
  | _ => none

end ExecutionEvent

namespace NodeResult

/-- The node of the result, if it has succeeded. -/
def succeeded? (r : NodeResult) : Option String :=
  if r.status = .success then some r.nodeId else none

/-- The node of the result and its message, if it has failed. -/
def failed? (r : NodeResult) : Option (String × String) :=
  if r.status = .error then r.error.map fun message => (r.nodeId, message) else none

/-- The output and the message of a result are those that its status calls for. -/
def Fits (r : NodeResult) : Prop :=
  match r.status with
  | .running => r.output = none ∧ r.error = none
  | .success => r.output.isSome = true ∧ r.error = none
  | .error => r.output = none ∧ r.error.isSome = true

end NodeResult

namespace Traversal

variable {ε π ω : Type}

/-! ## Blocks -/

/-- Reports of the executor of a node. -/
def AreReports (id nodeId : String) (events : List ExecutionEvent) : Prop :=
  ∀ e ∈ events, ∃ report now, e = .nodeEvent id nodeId report now

lemma areReports_nil (id nodeId : String) : AreReports id nodeId [] := nofun

/-- How the block of a node ends: as the result says, and not at all while the node is running. -/
inductive Closing (id : String) (r : NodeResult) : List ExecutionEvent → Prop
  | running (h : r.status = .running) : Closing id r []
  | completed (h : r.status = .success) {now : Timestamp} (hnow : r.completedAt = some now) :
      Closing id r [.nodeCompleted id r.nodeId (millisSince r.startedAt now) now]
  | failed (h : r.status = .error) {message : String} (hmessage : r.error = some message)
      {now : Timestamp} (hnow : r.completedAt = some now) :
      Closing id r [.nodeFailed id r.nodeId message now]

/-- The events of a node that was entered. -/
inductive Block (id : String) (r : NodeResult) : List ExecutionEvent → Prop
  | intro (nodeType : NodeType) {reports closing : List ExecutionEvent}
      (hreports : AreReports id r.nodeId reports) (hclosing : Closing id r closing)
      (hfits : r.Fits) :
      Block id r (.nodeStarted id r.nodeId nodeType r.startedAt :: (reports ++ closing))

/-- The events tell of the results in their order, each in its block. -/
def Narrates (id : String) (results : Keyed NodeResult) (events : List ExecutionEvent) : Prop :=
  ∃ blocks, events = List.flatten blocks ∧
    List.Forall₂ (fun entry block => entry.2.nodeId = entry.1 ∧ Block id entry.2 block) results
      blocks

section Narrates

variable {id : String} {results : Keyed NodeResult} {events : List ExecutionEvent}

lemma forall₂_concat_left {α β : Type} {R : α → β → Prop} {l : List α} {a : α} {u : List β}
    (h : List.Forall₂ R (l ++ [a]) u) : ∃ l' b, List.Forall₂ R l l' ∧ R a b ∧ u = l' ++ [b] := by
  induction l generalizing u with
  | nil =>
    obtain ⟨b, u', hb, hu', rfl⟩ := List.forall₂_cons_left_iff.1 h
    rw [List.forall₂_nil_left_iff.1 hu']
    exact ⟨[], b, .nil, hb, rfl⟩
  | cons x l ih =>
    obtain ⟨y, u', hy, hu', rfl⟩ := List.forall₂_cons_left_iff.1 h
    obtain ⟨l', b, hl', hb, rfl⟩ := ih hu'
    exact ⟨y :: l', b, .cons hy hl', hb, rfl⟩

lemma Narrates.nil : Narrates id [] [] := ⟨[], rfl, .nil⟩

/-- A result comes with its block. -/
lemma Narrates.concat (h : Narrates id results events) {r : NodeResult} {nodeId : String}
    {started : Timestamp} (hnode : r.nodeId = nodeId) (hstarted : r.startedAt = started)
    (nodeType : NodeType) {reports closing : List ExecutionEvent}
    (hreports : AreReports id nodeId reports) (hclosing : Closing id r closing) (hfits : r.Fits) :
    Narrates id (results ++ [(nodeId, r)])
      (events ++ .nodeStarted id nodeId nodeType started :: (reports ++ closing)) := by
  subst hnode hstarted
  obtain ⟨blocks, rfl, hblocks⟩ := h
  refine ⟨blocks ++ [.nodeStarted id r.nodeId nodeType r.startedAt :: (reports ++ closing)], ?_, ?_⟩
  · rw [List.flatten_append, List.flatten_singleton]
  · exact List.rel_append hblocks (.cons ⟨rfl, .intro nodeType hreports hclosing hfits⟩ .nil)

/-- The block of a node that is running is the last one, and it is open. -/
lemma Narrates.split {nodeId : String} {sequence : ℕ} {started : Timestamp}
    (h : Narrates id (results ++ [(nodeId, .started nodeId sequence started)]) events) :
    ∃ before nodeType reports, Narrates id results before ∧ AreReports id nodeId reports ∧
      events = before ++ .nodeStarted id nodeId nodeType started :: reports := by
  obtain ⟨blocks, rfl, hblocks⟩ := h
  obtain ⟨earlier, block, hearlier, ⟨-, hblock⟩, rfl⟩ := forall₂_concat_left hblocks
  cases hblock with
  | @intro nodeType reports closing hreports hclosing _ =>
    cases hclosing with
    | running =>
      refine ⟨earlier.flatten, nodeType, reports, ⟨earlier, rfl, hearlier⟩, hreports, ?_⟩
      rw [List.append_nil, List.flatten_append, List.flatten_singleton]
      rfl
    | completed hstatus => cases hstatus
    | failed hstatus => cases hstatus

/-- The executor of the node entered last reports something. -/
lemma Narrates.report {node : Node} (h : Narrates id results events)
    (hresults : Results (some node) results) {reports : List ExecutionEvent}
    (hreports : AreReports id node.id reports) : Narrates id results (events ++ reports) := by
  obtain ⟨before, started, rfl, -, -⟩ := hresults.split
  obtain ⟨told, nodeType, earlier, htold, hearlier, rfl⟩ := h.split
  have hall : AreReports id node.id (earlier ++ reports) := by
    intro e he
    rcases List.mem_append.1 he with hold | hnew
    · exact hearlier e hold
    · exact hreports e hnew
  have hnext := htold.concat (r := .started node.id before.length started) rfl rfl nodeType hall
    (.running rfl) ⟨rfl, rfl⟩
  rw [List.append_nil, ← List.cons_append, ← List.append_assoc] at hnext
  exact hnext

/-- The answer of the node entered last closes its block. -/
lemma Narrates.complete (w : Workflow) {node : Node} {t : Traversal} (hid : t.record.id = id)
    (h : Narrates id t.record.results events) (hresults : Results (some node) t.record.results)
    (answer : Except NodeError Fields) (now : Timestamp) :
    Narrates id (t.complete w node answer now).1.record.results
      (events ++ [(t.complete w node answer now).2]) := by
  obtain ⟨before, started, hsplit, hnew, -⟩ := hresults.split
  have hopen : t.record.result? node.id = some (.started node.id before.length started) := by
    refine hresults.distinct.get?_of_mem ?_
    rw [hsplit]
    exact List.mem_append_right _ (List.mem_singleton_self _)
  rw [hsplit] at h
  obtain ⟨told, nodeType, reports, htold, hreports, rfl⟩ := h.split
  subst hid
  rw [List.append_assoc, List.cons_append]
  cases answer with
  | ok output =>
    simp only [Traversal.complete, hopen, Option.map_some, Option.getD_some, hsplit,
      Keyed.modify_concat hnew]
    exact htold.concat (r := (NodeResult.started _ before.length started).succeed output
      (secondsSince started now) now) rfl rfl nodeType hreports (.completed rfl rfl) ⟨rfl, rfl⟩
  | error e =>
    simp only [Traversal.complete, hopen, Option.map_some, Option.getD_some, hsplit,
      Keyed.modify_concat hnew]
    exact htold.concat (r := (NodeResult.started _ before.length started).fail e.message
      (secondsSince started now) now) rfl rfl nodeType hreports (.failed rfl rfl rfl) ⟨rfl, rfl⟩

/-- The output and the message of every result that is told are those that its status calls for. -/
lemma Narrates.fits (h : Narrates id results events) : ∀ entry ∈ results, entry.2.Fits := by
  obtain ⟨blocks, -, hblocks⟩ := h
  induction hblocks with
  | nil => exact fun entry hentry => (by cases hentry)
  | cons hfirst _ ih =>
    obtain ⟨-, ⟨_, _, _, hfits⟩⟩ := hfirst
    exact List.forall_mem_cons.2 ⟨hfits, ih⟩

/-- What is read off the events is read off the results, if a block says what its result says. -/
lemma Narrates.filterMap {β : Type} (h : Narrates id results events)
    {f : ExecutionEvent → Option β} {g : NodeResult → Option β}
    (hblock : ∀ r block, Block id r block → block.filterMap f = (g r).toList) :
    events.filterMap f = (results.map Prod.snd).filterMap g := by
  obtain ⟨blocks, rfl, hblocks⟩ := h
  induction hblocks with
  | nil => rfl
  | @cons entry block _ _ hfirst _ ih =>
    rw [List.flatten_cons, List.filterMap_append, hblock _ _ hfirst.2, ih, List.map_cons,
      List.filterMap_cons]
    cases g entry.2 <;> rfl

/-- How a node ended is said by the end of its block only. -/
lemma Block.filterMap {β : Type} {r : NodeResult} {block : List ExecutionEvent}
    (h : Block id r block) {f : ExecutionEvent → Option β}
    (hstarted : ∀ nodeType, f (.nodeStarted id r.nodeId nodeType r.startedAt) = none)
    (hreport : ∀ report now, f (.nodeEvent id r.nodeId report now) = none) :
    ∃ closing, Closing id r closing ∧ r.Fits ∧ block.filterMap f = closing.filterMap f := by
  cases h with
  | @intro nodeType reports closing hreports hclosing hfits =>
    have hnone : reports.filterMap f = [] := by
      refine List.filterMap_eq_nil_iff.2 fun e he => ?_
      obtain ⟨report, now, rfl⟩ := hreports e he
      exact hreport report now
    refine ⟨closing, hclosing, hfits, ?_⟩
    rw [List.filterMap_cons, hstarted, List.filterMap_append, hnone, List.nil_append]

/-- The nodes that are heard to have succeeded are those with a success, in their order. -/
lemma Narrates.succeeded (h : Narrates id results events) :
    events.filterMap ExecutionEvent.succeeded? =
      (results.map Prod.snd).filterMap NodeResult.succeeded? := by
  refine h.filterMap fun r block hblock => ?_
  obtain ⟨closing, hclosing, -, heq⟩ :=
    hblock.filterMap (f := ExecutionEvent.succeeded?) (fun _ => rfl) (fun _ _ => rfl)
  rw [heq, NodeResult.succeeded?]
  cases hclosing with
  | running hstatus | completed hstatus _ | failed hstatus _ _ =>
    rw [hstatus]
    rfl

/-- The nodes that are heard to have failed are those with an error, with the same messages. -/
lemma Narrates.failed (h : Narrates id results events) :
    events.filterMap ExecutionEvent.failed? =
      (results.map Prod.snd).filterMap NodeResult.failed? := by
  refine h.filterMap fun r block hblock => ?_
  obtain ⟨closing, hclosing, hfits, heq⟩ :=
    hblock.filterMap (f := ExecutionEvent.failed?) (fun _ => rfl) (fun _ _ => rfl)
  rw [heq, NodeResult.failed?]
  cases hclosing with
  | running hstatus | completed hstatus _ =>
    rw [hstatus]
    rfl
  | failed hstatus hmessage _ =>
    rw [hstatus, hmessage]
    rfl

/-- Between the start and the end of a run nobody is told that it is over. -/
lemma Narrates.not_finished (h : Narrates id results events) :
    events.filterMap ExecutionEvent.finished? = [] := by
  rw [h.filterMap (g := fun _ => none), List.filterMap_eq_nil_iff.2 fun _ _ => rfl]
  intro r block hblock
  obtain ⟨closing, hclosing, -, heq⟩ :=
    hblock.filterMap (f := ExecutionEvent.finished?) (fun _ => rfl) (fun _ _ => rfl)
  rw [heq]
  cases hclosing <;> rfl

/-- All events of a block are about its node. -/
lemma Block.nodeId {result : NodeResult} {block : List ExecutionEvent}
    (h : Block id result block) : ∀ e ∈ block, e.nodeId? = some result.nodeId := by
  cases h with
  | intro nodeType hreports hclosing _ =>
    refine List.forall_mem_cons.2 ⟨rfl, fun e he => ?_⟩
    rcases List.mem_append.1 he with hreport | hend
    · obtain ⟨report, now, rfl⟩ := hreports e hreport
      rfl
    · cases hclosing with
      | running => cases hend
      | completed | failed =>
        rw [List.mem_singleton.1 hend]
        rfl

/-- Only of nodes with a result anything is heard. -/
lemma Narrates.nodeId (h : Narrates id results events) {e : ExecutionEvent} (he : e ∈ events)
    {nodeId : String} (hnode : e.nodeId? = some nodeId) : nodeId ∈ Keyed.keys results := by
  obtain ⟨blocks, rfl, hblocks⟩ := h
  induction hblocks with
  | nil => cases he
  | cons hfirst _ ih =>
    rw [List.flatten_cons] at he
    rcases List.mem_append.1 he with hnow | hlater
    · rw [hfirst.2.nodeId e hnow, hfirst.1] at hnode
      cases hnode
      exact List.mem_cons_self
    · exact List.mem_cons_of_mem _ (ih hlater)

end Narrates

/-! ## Further reports -/

/-- The events end in the open block of a node. -/
def OpenAt (id nodeId : String) (events : List ExecutionEvent) : Prop :=
  ∃ before nodeType started reports, AreReports id nodeId reports ∧
    events = before ++ .nodeStarted id nodeId nodeType started :: reports

/-- The same events, with one more report of a node in its open block. -/
inductive Noted (id : String) : List ExecutionEvent → List ExecutionEvent → Prop
  | intro {nodeId : String} {front : List ExecutionEvent} (hopen : OpenAt id nodeId front)
      (report : NodeEvent) (now : Timestamp) (back : List ExecutionEvent) :
      Noted id (front ++ back) (front ++ .nodeEvent id nodeId report now :: back)

section Noted

variable {id : String} {results : Keyed NodeResult} {events events' : List ExecutionEvent}

/-- Whatever is heard last in an open block is about its node. -/
lemma OpenAt.nodeId {nodeId : String} {e : ExecutionEvent} (h : OpenAt id nodeId (events ++ [e])) :
    e.nodeId? = some nodeId := by
  obtain ⟨before, nodeType, started, reports, hreports, heq⟩ := h
  rcases reports.eq_nil_or_concat with rfl | ⟨earlier, last, rfl⟩
  · obtain ⟨-, hlast⟩ := List.append_inj' heq rfl
    cases hlast
    rfl
  · rw [List.concat_eq_append, ← List.cons_append, ← List.append_assoc] at heq
    obtain ⟨-, hlast⟩ := List.append_inj' heq rfl
    cases hlast
    obtain ⟨report, now, rfl⟩ := hreports e (by simp)
    rfl

lemma Noted.append (h : Noted id events events') (more : List ExecutionEvent) :
    Noted id (events ++ more) (events' ++ more) := by
  cases h with
  | intro hopen report now back =>
    rw [List.append_assoc, List.append_assoc, List.cons_append]
    exact .intro hopen report now (back ++ more)

lemma Noted.subset (h : Noted id events events') : events ⊆ events' := by
  cases h with
  | intro hopen report now back =>
    exact (List.Sublist.append_left (List.sublist_cons_self _ _) _).subset

lemma Noted.ne_nil (h : Noted id events events') : events ≠ [] := by
  rintro rfl
  generalize hnil : ([] : List ExecutionEvent) = whole at h
  obtain ⟨⟨before, _, _, _, -, rfl⟩, _, _, _⟩ := h
  simp at hnil

/-- A report does not come before the first event if that is about no node. -/
lemma Noted.of_cons {e : ExecutionEvent} (hnode : e.nodeId? = none)
    (h : Noted id (e :: events) events') : ∃ told, Noted id events told ∧ events' = e :: told := by
  generalize hwhole : e :: events = whole at h
  obtain ⟨⟨before, nodeType, started, reports, hreports, rfl⟩, report, now, back⟩ := h
  cases before with
  | nil =>
    cases hwhole
    cases hnode
  | cons first before =>
    obtain ⟨rfl, rfl⟩ := List.cons.inj hwhole
    exact ⟨_, .intro ⟨before, nodeType, started, reports, hreports, rfl⟩ report now back, rfl⟩

/-- A report does not come after the last event if that is about no node. -/
lemma Noted.of_concat {e : ExecutionEvent} (hnode : e.nodeId? = none)
    (h : Noted id (events ++ [e]) events') :
    ∃ told, Noted id events told ∧ events' = told ++ [e] := by
  generalize hwhole : events ++ [e] = whole at h
  obtain ⟨hopen, report, now, back⟩ := h
  rcases back.eq_nil_or_concat with rfl | ⟨between, last, rfl⟩
  · rw [List.append_nil] at hwhole
    subst hwhole
    cases hnode.symm.trans hopen.nodeId
  · rw [List.concat_eq_append, ← List.append_assoc] at hwhole
    obtain ⟨rfl, hlast⟩ := List.append_inj' hwhole rfl
    cases hlast
    refine ⟨_, .intro hopen report now between, ?_⟩
    simp

/-- The results and the events that tell of them come together, the first result with the first
block. -/
lemma narrates_cons {entry : String × NodeResult} :
    Narrates id (entry :: results) events ↔ ∃ block rest, entry.2.nodeId = entry.1 ∧
      Block id entry.2 block ∧ Narrates id results rest ∧ events = block ++ rest := by
  constructor
  · rintro ⟨blocks, rfl, hblocks⟩
    obtain ⟨block, rest, ⟨hnode, hblock⟩, hrest, rfl⟩ := List.forall₂_cons_left_iff.1 hblocks
    exact ⟨block, rest.flatten, hnode, hblock, ⟨rest, rfl, hrest⟩, List.flatten_cons⟩
  · rintro ⟨block, _, hnode, hblock, ⟨rest, rfl, hrest⟩, rfl⟩
    exact ⟨block :: rest, List.flatten_cons.symm, .cons ⟨hnode, hblock⟩ hrest⟩

/-- A block goes on until its node has ended or the next node is started. -/
lemma Closing.ne_report {r : NodeResult} {closing rest : List ExecutionEvent}
    (h : Closing id r closing) (hrest : Narrates id results rest) {e : ExecutionEvent}
    {more : List ExecutionEvent} (hevents : closing ++ rest = e :: more) {nodeId : String}
    {report : NodeEvent} {now : Timestamp} : e ≠ .nodeEvent id nodeId report now := by
  rintro rfl
  cases h with
  | running =>
    cases results with
    | nil =>
      obtain ⟨blocks, rfl, hblocks⟩ := hrest
      cases hblocks
      cases hevents
    | cons =>
      obtain ⟨_, _, -, ⟨⟩, -, rfl⟩ := narrates_cons.1 hrest
      cases hevents
  | completed | failed => cases hevents

/-- What an executor has reported at some time is the beginning of what it reports in its block. -/
lemma exists_of_reports {r : NodeResult} {nodeId : String}
    {reports reported closing rest back : List ExecutionEvent}
    (hreports : AreReports id nodeId reports) (hclosing : Closing id r closing)
    (hrest : Narrates id results rest) (h : reports ++ back = reported ++ (closing ++ rest)) :
    ∃ later, reported = reports ++ later ∧ back = later ++ (closing ++ rest) := by
  rcases List.append_eq_append_iff.1 h with ⟨later, hreported, hback⟩ | ⟨beyond, hbeyond, hevents⟩
  · exact ⟨later, hreported, hback⟩
  cases beyond with
  | nil => exact ⟨[], by rw [hbeyond, List.append_nil, List.append_nil], hevents.symm⟩
  | cons e beyond =>
    obtain ⟨report, now, rfl⟩ := hreports e (by rw [hbeyond]; simp)
    exact absurd rfl (hclosing.ne_report hrest hevents)

/-- What stands before an element goes on after a list in which the element is not. -/
lemma exists_of_not_mem {α : Type} {a : α} {before after block rest : List α}
    (h : before ++ a :: after = block ++ rest) (hblock : a ∉ block) :
    ∃ between, before = block ++ between ∧ rest = between ++ a :: after := by
  rcases List.append_eq_append_iff.1 h with ⟨inside, hinside, hafter⟩ | ⟨between, hbefore, hrest⟩
  · cases inside with
    | nil => exact ⟨[], by rw [hinside, List.append_nil, List.append_nil], hafter.symm⟩
    | cons first inside =>
      obtain ⟨rfl, -⟩ := List.cons.inj hafter
      exact absurd (by rw [hinside]; simp) hblock
  · exact ⟨between, hbefore, hrest⟩

/-- No node is started after the head of a block. -/
lemma nodeStarted_notMem {r : NodeResult} {reported closing : List ExecutionEvent}
    (hreported : AreReports id r.nodeId reported) (hclosing : Closing id r closing)
    {nodeId : String} {nodeType : NodeType} {started : Timestamp} :
    .nodeStarted id nodeId nodeType started ∉ reported ++ closing := by
  intro hmem
  rcases List.mem_append.1 hmem with hreport | hend
  · obtain ⟨_, _, hevent⟩ := hreported _ hreport
    cases hevent
  · cases hclosing <;> simp at hend

/-- What is told of the results goes on to tell of them when a node whose block is open reports
more. -/
lemma Narrates.noted (h : Narrates id results events) (hnoted : Noted id events events') :
    Narrates id results events' := by
  obtain ⟨⟨before, nodeType, started, reports, hreports, rfl⟩, report, now, back⟩ := hnoted
  rw [List.append_assoc, List.cons_append] at h ⊢
  induction results generalizing before with
  | nil =>
    obtain ⟨blocks, hevents, hblocks⟩ := h
    cases hblocks
    simp at hevents
  | cons entry results ih =>
    obtain ⟨block, rest, hnode, hblock, hrest, hevents⟩ := narrates_cons.1 h
    obtain ⟨entryType, hreported, hclosing, hfits⟩ := hblock
    rw [List.cons_append] at hevents
    refine narrates_cons.2 ?_
    cases before with
    | nil =>
      -- the node that reports more is the first one
      obtain ⟨hstarted, htail⟩ := List.cons.inj hevents
      cases hstarted
      rw [List.append_assoc] at htail
      obtain ⟨later, rfl, rfl⟩ := exists_of_reports hreports hclosing hrest htail
      have hmore : AreReports id entry.2.nodeId
          (reports ++ .nodeEvent id entry.2.nodeId report now :: later) := by
        intro e he
        rcases List.mem_append.1 he with hearlier | hlater
        · exact hreports e hearlier
        rcases List.mem_cons.1 hlater with rfl | hlater
        · exact ⟨report, now, rfl⟩
        · exact hreported e (List.mem_append_right _ hlater)
      refine ⟨_, rest, hnode, .intro nodeType hmore hclosing hfits, hrest, ?_⟩
      simp
    | cons first before =>
      obtain ⟨rfl, htail⟩ := List.cons.inj hevents
      obtain ⟨between, rfl, rfl⟩ :=
        exists_of_not_mem htail (nodeStarted_notMem hreported hclosing)
      refine ⟨_, _, hnode, .intro entryType hreported hclosing hfits, ih between hrest, ?_⟩
      simp

end Noted

/-! ## Every moment of a run is told -/

/-- Only the result of the node entered last may be running. -/
lemma Results.running {record : Execution} {node? : Option Node} {crashed : Prop}
    (h : Results node? record.results) (hcrashed : node? ≠ none → crashed) :
    ∀ r ∈ record.orderedResults, r.status = .running →
      crashed ∧ record.orderedResults.getLast? = some r := by
  rw [h.ordered]
  intro r hr hrunning
  obtain ⟨entry, hentry, rfl⟩ := List.mem_map.1 hr
  cases node? with
  | none => exact absurd hrunning (h.settled rfl entry hentry)
  | some node =>
    obtain ⟨before, started, hresults, hsettled⟩ := h.last node rfl
    refine ⟨hcrashed nofun, ?_⟩
    rw [hresults] at hentry ⊢
    rcases List.mem_append.1 hentry with hearlier | hlast
    · exact absurd hrunning (hsettled entry hearlier)
    · rw [List.mem_singleton.1 hlast, List.map_append, List.map_singleton, List.getLast?_concat]

namespace Moment

variable {ex : Executors ε π ω} {r : Registry ε} {w : Workflow} {id : String}
variable {m m' : Moment ε π ω}

/-- The events up to a moment tell of the results in the record, which is that of the run. -/
structure Told (id : String) (m : Moment ε π ω) : Prop where
  named : m.record.id = id
  entries : Results m.node? m.record.results
  narrates : Narrates id m.record.results m.run.events

lemma Told.start (w : Workflow) {record : Execution} (context : Context) (cancelled : Bool)
    (world : ω) (hnamed : record.id = id) (hfresh : record.results = []) :
    Told (ε := ε) (π := π) id (between (.start w record context cancelled world)) := by
  refine ⟨hnamed, ?_, ?_⟩
  · show Results none record.results
    rw [hfresh]
    exact Results.nil
  · show Narrates id record.results []
    rw [hfresh]
    exact Narrates.nil

lemma areReports_polled (ex : Executors ε π ω) (id nodeId : String) (p : π) (scene : Scene ω) :
    ∃ reports, AreReports id nodeId reports ∧
      (scene.polled ex id nodeId p).events = scene.events ++ reports := by
  refine ⟨_, fun e he => ?_, rfl⟩
  obtain ⟨report, -, rfl⟩ := List.mem_map.1 he
  exact ⟨report, _, rfl⟩

/-- The answer of the node entered last settles its result and closes its block. -/
lemma Told.complete (run : Running ω) {node : Node}
    (hentries : Results (some node) run.traversal.record.results)
    (hnarrates : Narrates id run.traversal.record.results run.events)
    (hnamed : run.traversal.record.id = id) (answer : Except NodeError Fields) :
    Told (ε := ε) (π := π) id (between (run.complete ex w node answer)) := by
  obtain ⟨seconds, hresults⟩ := results_complete w node answer (ex.now run.world) run.traversal
  refine ⟨(sameRun_complete _ _ _ _ _).id.trans hnamed, ?_,
    hnarrates.complete w hnamed hentries _ _⟩
  show Results none (run.traversal.complete w node answer (ex.now run.world)).1.record.results
  rw [hresults]
  exact hentries.close _ _ _

lemma Told.step (h : m.Told id) (hstep : Step ex r w m m') : m'.Told id := by
  cases hstep with
  | pass _ _ _ => exact ⟨h.named, h.entries, h.narrates⟩
  | @enter run node rest executor _ _ hnew _ =>
    obtain ⟨rfl, hentries, hnarrates⟩ := h
    have hsettled : Results none run.traversal.record.results := hentries
    obtain ⟨hentered, happend⟩ := hsettled.enter hnew (ex.now run.world)
    have hopen := hnarrates.concat (r := .started node.id run.traversal.record.results.length
      (ex.now run.world)) rfl rfl node.nodeType (areReports_nil _ _) (.running rfl) ⟨rfl, rfl⟩
    refine ⟨rfl, hentered, ?_⟩
    show Narrates _ ((run.pass rest).enter ex node).traversal.record.results _
    rw [results_enter, happend]
    exact hopen
  | @refuse run node _ _ _ => exact .complete run h.entries h.narrates h.named _
  | call _ => exact ⟨h.named, h.entries, h.narrates⟩
  | @poll run node p p' _ =>
    obtain ⟨reports, hreports, hevents⟩ :=
      areReports_polled ex run.traversal.record.id node.id p run.toScene
    obtain ⟨rfl, hentries, hnarrates⟩ := h
    refine ⟨rfl, hentries, ?_⟩
    show Narrates _ _ (run.toScene.polled ex run.traversal.record.id node.id p).events
    rw [hevents]
    exact hnarrates.report hentries hreports
  | @answer run node p answer _ =>
    obtain ⟨reports, hreports, hevents⟩ :=
      areReports_polled ex run.traversal.record.id node.id p run.toScene
    obtain ⟨rfl, hentries, hnarrates⟩ := h
    have hnarrated : Narrates run.traversal.record.id run.traversal.record.results
        (run.toScene.polled ex run.traversal.record.id node.id p).events := by
      rw [hevents]
      exact hnarrates.report hentries hreports
    let polled : Running ω :=
      { run with toScene := run.toScene.polled ex run.traversal.record.id node.id p }
    exact .complete polled hentries hnarrated rfl answer
  | interfere cancel world =>
    cases m with
    | between run | entered executor node run | calling node p run =>
      exact ⟨h.named, h.entries, h.narrates⟩

lemma Reached.told {start : Running ω} (hstart : Told (ε := ε) (π := π) id (between start))
    (h : Reached ex r w start m) : m.Told id := by
  induction h with
  | start => exact hstart
  | step hm hstep ih => exact ih.step hstep

end Moment

end Traversal

end FlowGraph
