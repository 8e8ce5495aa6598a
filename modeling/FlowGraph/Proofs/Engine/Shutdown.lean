import FlowGraph.Proofs.Engine.Closing
import FlowGraph.Proofs.Engine.Records
import FlowGraph.Proofs.Registry

/-!
# Shutting an engine down

A shutdown closes the admission of runs, waits for the workers of those that are active, and then
stops the executors.  When it is answered, the engine is at rest: no run is active, every run that
was admitted has a final record, no executor is called any more, and the executors were stopped
after the last call.  This is `atRest_of_shutdown`.
-/

namespace FlowGraph

namespace EngineState

variable {ε π ω : Type}

/-! ## Closed for good -/

section After

variable (ex : Executors ε π ω) (registry : Registry ε) (config : EngineConfig) (world : ω) {n : ℕ}

/-- From its first move on, a shutdown keeps the admission closed. -/
lemma shuttingDown_act {s : EngineState ε π ω} (h : s.shuttingDown = true) (a : Act ω) :
    (s.act ex a).shuttingDown = true := by
  cases effect_act ex s a with
  | quiet hsame => exact hsame.shuttingDown h
  | stored id w record ha hworker hact => rw [hact, store, h]
  | admitted id w input record ha hopen => exact absurd h (by simp [hopen])
  | forgot id ha =>
    subst ha
    exact h

lemma shuttingDown_after {s : EngineState ε π ω} (h : s.shuttingDown = true)
    (acts : List (Act ω)) : (s.after ex acts).shuttingDown = true := by
  induction acts generalizing s with
  | nil => exact h
  | cons a acts ih => exact ih (shuttingDown_act ex h a)

/-- Once the admission is closed, workers only disappear. -/
lemma workers_act_subset {s : EngineState ε π ω} (hshut : s.shuttingDown = true) (a : Act ω) :
    ∀ id ∈ Keyed.keys (s.act ex a).workers, id ∈ Keyed.keys s.workers := by
  cases effect_act ex s a with
  | quiet hsame =>
    rw [hsame.workers]
    exact fun id hid => hid
  | stored other w record ha hworker hact =>
    rw [hact]
    exact (declines_store s other record).workers
  | admitted other w input record ha hopen => exact absurd hshut (by simp [hopen])
  | forgot other ha =>
    subst ha
    exact fun id hid => hid

lemma workers_after_subset {s : EngineState ε π ω} (hshut : s.shuttingDown = true)
    (acts : List (Act ω)) :
    ∀ id ∈ Keyed.keys (s.after ex acts).workers, id ∈ Keyed.keys s.workers := by
  induction acts generalizing s with
  | nil => exact fun id hid => hid
  | cons a acts ih =>
    exact fun id hid => workers_act_subset ex hshut a id (ih (shuttingDown_act ex hshut a) id hid)

/-- The history leads to the first move of a shutdown. -/
lemma shuttingDown_first {s : EngineState ε π ω} {n : ℕ}
    (h : s.calls.lookup n = some (.made .shutdown)) :
    (s.act ex (.move (.call n))).shuttingDown = true := by
  simp only [EngineState.act, poll, pollCall_shutdown ex s n h]
  exact (sameRuns_awaitRuns ex s.closeAdmission.2 n s.closeAdmission.1).shuttingDown

/-- Once a shutdown is answered there is no worker any more. -/
lemma idle_of_answer (acts : List (Act ω)) (hone : (acts.filterMap Act.shutdown?).length ≤ 1)
    (honly : ∀ k r, Act.request k r ∈ acts → (k = n ↔ r = .shutdown))
    {result : Except EngineError Unit}
    (hdone : (n, .done result) ∈ ((make registry config world).after ex acts).answers)
    (more : List (Act ω)) :
    ((make registry config world).after ex (acts ++ more)).workers = [] := by
  have hclosing := closing_after ex registry config world acts hone honly
  obtain ⟨hshut, hidle⟩ := hclosing.rest result hdone
  rw [after_append]
  exact nil_of_workers (workers_after_subset ex hshut more) hidle

/-- The answer of the shutdown was given in a move that stopped the executors. -/
lemma stops_of_answer (acts : List (Act ω))
    (hone : (acts.filterMap Act.shutdown?).length ≤ 1)
    (honly : ∀ k r, Act.request k r ∈ acts → (k = n ↔ r = .shutdown))
    {result : Except EngineError Unit}
    (hdone : (n, .done result) ∈ ((make registry config world).after ex acts).answers) :
    ∃ before rest, acts = before ++ .move (.call n) :: rest ∧
      ((make registry config world).after ex before).workers = [] ∧
      (n, .done result) ∈
        ((make registry config world).after ex (before ++ [.move (.call n)])).answers ∧
      Stops ex ((make registry config world).after ex before)
        ((make registry config world).after ex (before ++ [.move (.call n)])) := by
  induction acts using List.reverseRecOn with
  | nil => cases hdone
  | append_singleton acts a ih =>
    rw [List.filterMap_append, List.length_append] at hone
    have hone' : (acts.filterMap Act.shutdown?).length ≤ 1 := by omega
    have honly' : ∀ k r, Act.request k r ∈ acts → (k = n ↔ r = .shutdown) :=
      fun k r hmem => honly k r (List.mem_append_left _ hmem)
    have hclosing := closing_after ex registry config world acts hone' honly'
    have hnow := hdone
    rw [after_concat] at hdone
    rcases hclosing.done_act ex a hdone with hold | ⟨rfl, hidle, hstops⟩
    · -- it was answered before
      obtain ⟨before, rest, hacts, hmove⟩ := ih hone' honly' hold
      exact ⟨before, rest ++ [a], by rw [hacts, List.append_assoc, List.cons_append], hmove⟩
    · refine ⟨acts, [], rfl, hidle, hnow, ?_⟩
      rw [after_concat]
      exact hstops

end After

/-! ## The engine at rest -/

/-- What holds after the history `acts` when the shutdown `n` was answered in it. -/
structure AtRest (ex : Executors ε π ω) (start : EngineState ε π ω) (acts : List (Act ω))
    (n : ℕ) : Prop where
  inactive : (start.after ex acts).active = []
  /-- Every run that was admitted has a final record, unless it was forgotten. -/
  recorded : ∀ id, start.Admitted ex acts id →
    Recorded (start.after ex acts) id ∨ start.Forgotten ex acts id
  /-- Since the first move of the shutdown every run was refused, and nothing came of it. -/
  refused : ∀ before between rest id workflow input,
    acts = before ++ .move (.call n) :: between ++ .execute id workflow input :: rest →
    (start.after ex before).calls.lookup n = some (.made .shutdown) →
    let s := start.after ex (before ++ .move (.call n) :: between)
    s.execute ex id workflow input = (.error .shuttingDown, s)
  /-- There is no worker that has called an executor or could call one, and there will be none. -/
  idle : ∀ more, (start.after ex (acts ++ more)).workers = []
  /-- Every executor was stopped in a move before which the last worker was gone for good. -/
  stopped : ∃ before rest, acts = before ++ .move (.call n) :: rest ∧
    (start.after ex before).workers = [] ∧
    (∀ more, (start.after ex (before ++ .move (.call n) :: more)).workers = []) ∧
    ∀ t e, (start.after ex before).registry.executor? t = some e →
      ∃ world, (start.after ex (before ++ [.move (.call n)])).registry.executor? t =
        some (ex.hooks.stop e world).2.1

/-- Acts that make the same call are the same. -/
lemma eq_of_callNumber {acts : List (Act ω)} (h : Act.DistinctCalls acts) {a b : Act ω} {n : ℕ}
    (ha : a ∈ acts) (hb : b ∈ acts) (hna : a.callNumber? = some n) (hnb : b.callNumber? = some n) :
    a = b := by
  induction acts with
  | nil => cases ha
  | cons c acts ih =>
    have hfresh : ∀ d ∈ acts, d.callNumber? = some n → c.callNumber? ≠ some n := by
      intro d hd hnd hnc
      rw [Act.DistinctCalls, List.filterMap_cons, hnc, List.nodup_cons] at h
      exact h.1 (List.mem_filterMap.2 ⟨d, hd, hnd⟩)
    have hrest : Act.DistinctCalls acts := by
      rw [Act.DistinctCalls, List.filterMap_cons] at h
      split at h
      · exact h
      · exact (List.nodup_cons.1 h).2
    rcases List.mem_cons.1 ha with rfl | hacts
    · rcases List.mem_cons.1 hb with rfl | hbcts
      · rfl
      · exact absurd hna (hfresh b hbcts hnb)
    · rcases List.mem_cons.1 hb with rfl | hbcts
      · exact absurd hnb (hfresh a hacts hna)
      · exact ih hrest hacts hbcts

lemma eq_request_of_shutdown {a : Act ω} {n : ℕ} (h : a.shutdown? = some n) :
    a = .request n .shutdown := by
  unfold Act.shutdown? at h
  split at h
  · cases h
    rfl
  · cases h

/-- When there is one shutdown, its number tells it from the other calls. -/
lemma callNumber_iff_of_shutdown {acts : List (Act ω)} (hcalls : Act.DistinctCalls acts) {n : ℕ}
    (hone : acts.filterMap Act.shutdown? = [n]) (k : ℕ) (r : Request)
    (hmem : Act.request k r ∈ acts) : k = n ↔ r = .shutdown := by
  constructor
  · rintro rfl
    have hk : k ∈ acts.filterMap Act.shutdown? := by
      rw [hone]
      exact List.mem_singleton_self k
    obtain ⟨a, ha, hshut⟩ := List.mem_filterMap.1 hk
    obtain rfl := eq_request_of_shutdown hshut
    cases eq_of_callNumber hcalls hmem ha rfl rfl
    rfl
  · rintro rfl
    have hk : k ∈ acts.filterMap Act.shutdown? := List.mem_filterMap.2 ⟨_, hmem, rfl⟩
    rw [hone] at hk
    exact List.mem_singleton.1 hk

/-- **A shutdown brings the engine to rest.**  In every history with one shutdown, whatever the
runs, the other calls and the order of all moves are: once the shutdown is answered, the engine is
at rest. -/
theorem atRest_of_shutdown (ex : Executors ε π ω) (registry : Registry ε) (config : EngineConfig)
    (world : ω) (acts : List (Act ω)) (n : ℕ) (result : Except EngineError Unit)
    (hcalls : Act.DistinctCalls acts) (hone : acts.filterMap Act.shutdown? = [n])
    (hdone : (n, .done result) ∈ ((make registry config world).after ex acts).answers) :
    AtRest ex (make registry config world) acts n := by
  have hlength : (acts.filterMap Act.shutdown?).length ≤ 1 := by simp [hone]
  have honly := callNumber_iff_of_shutdown hcalls hone
  have hclosing := closing_after ex registry config world acts hlength honly
  obtain ⟨hshut, hidle⟩ := hclosing.rest result hdone
  refine ⟨?_, ?_, ?_, ?_, ?_⟩
  · refine eq_nil_of_keys fun id hid => ?_
    rw [hclosing.keys, hidle] at hid
    cases hid
  · intro id hadmitted
    rcases accounted ex registry config world acts id hadmitted with hworker | haccounted
    · rw [hidle] at hworker
      cases hworker
    · exact haccounted
  · intro before between rest id workflow input _ hfirst
    have hclosed : ((make registry config world).after ex
        (before ++ .move (.call n) :: between)).shuttingDown = true := by
      rw [after_append, after_cons]
      exact shuttingDown_after ex (shuttingDown_first ex hfirst) between
    simp only [EngineState.execute, hclosed, if_true]
  · exact idle_of_answer ex registry config world acts hlength honly hdone
  · obtain ⟨before, rest, hacts, hbefore, hanswered, hstops⟩ :=
      stops_of_answer ex registry config world acts hlength honly hdone
    refine ⟨before, rest, hacts, hbefore, ?_, ?_⟩
    · intro more
      -- the history up to the answer is one with a shutdown, too
      have hsplit : acts = (before ++ [.move (.call n)]) ++ rest := by rw [hacts]; simp
      have hlength' : ((before ++ [Act.move (.call n)]).filterMap Act.shutdown?).length ≤ 1 := by
        rw [hsplit, List.filterMap_append, List.length_append] at hlength
        omega
      have hmore := idle_of_answer ex registry config world (before ++ [.move (.call n)]) hlength'
        (fun k r hmem => honly k r (by rw [hsplit]; exact List.mem_append_left _ hmem)) hanswered
        more
      rwa [List.append_assoc, List.singleton_append] at hmore
    · intro t e he
      rw [hstops]
      exact Registry.stopAll_executor ex.hooks _ _ he

/-- A run whose executor is at work when a shutdown is called for. -/
def shutdownDuringCall : List (Act Unit) :=
  [.execute "run" lone [], .move (.worker "run"), .move (.worker "run"), .move (.worker "run"),
    .request 0 .shutdown, .move (.call 0), .execute "late" lone [], .move (.worker "run"),
    .move (.worker "run"), .move (.worker "run"), .move (.call 0)]

/-- The shutdown waits for the executor and refuses the late run. -/
theorem atRest_of_shutdown_lone :
    (0, .done (.ok ())) ∈
        ((promptEngine {}).after Executors.prompt shutdownDuringCall).answers ∧
      AtRest Executors.prompt (promptEngine {}) shutdownDuringCall 0 := by
  have hdone : (0, .done (.ok ())) ∈
      ((promptEngine {}).after Executors.prompt shutdownDuringCall).answers :=
    List.mem_singleton_self _
  have hcalls : Act.DistinctCalls shutdownDuringCall := show ([0] : List ℕ).Nodup by decide
  exact ⟨hdone, atRest_of_shutdown Executors.prompt _ _ _ _ 0 (.ok ()) hcalls rfl hdone⟩

end EngineState

end FlowGraph
