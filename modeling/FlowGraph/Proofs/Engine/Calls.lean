import FlowGraph.Proofs.Engine.Moves

/-!
# Calls that wait

A call goes from where it stands to where it waits next, or it is answered and gone.  The lemmas
here say where calls stand after a move of one of them (`mem_calls_pollCall`) and which calls are
answered in it (`done_pollCall`): the call that moves, and no other.
-/

namespace FlowGraph

namespace EngineState

variable {ε π ω : Type}

/-! ## Where calls stand -/

lemma mem_calls_of_lookup {s : EngineState ε π ω} {n : ℕ} {state : CallState}
    (h : s.calls.lookup n = some state) : (n, state) ∈ s.calls := by
  obtain ⟨before, rest, heq, -⟩ := List.lookup_eq_some_iff.1 h
  rw [heq]
  simp

/-- A call is moved to a state, and the others stay where they are. -/
lemma mem_calls_setCall {s : EngineState ε π ω} {n : ℕ} {state : CallState} {c : ℕ × CallState}
    (h : c ∈ (s.setCall n state).calls) : c = (n, state) ∨ c ∈ s.calls ∧ c.1 ≠ n := by
  simp only [setCall, List.mem_map] at h
  obtain ⟨old, hold, rfl⟩ := h
  split
  · exact Or.inl rfl
  · next hne => exact Or.inr ⟨hold, hne⟩

/-- A call that is answered is gone. -/
lemma mem_calls_answer {s : EngineState ε π ω} {n : ℕ} {a : CallAnswer} {c : ℕ × CallState}
    (h : c ∈ (s.answer n a).calls) : c ∈ s.calls ∧ c.1 ≠ n := by
  simpa [answer] using h

lemma mem_calls_useShutdown {ex : Executors ε π ω} {s : EngineState ε π ω} {n : ℕ}
    {c : ℕ × CallState} (h : c ∈ (s.useRegistry ex n .shutdown).calls) :
    c ∈ s.calls ∧ c.1 ≠ n :=
  mem_calls_answer (a := .done (s.registry.stopAll ex.hooks s.world).1) h

lemma mem_calls_askShutdown {ex : Executors ε π ω} {s : EngineState ε π ω} {n : ℕ}
    {c : ℕ × CallState} (h : c ∈ (s.askRegistry ex n .shutdown).calls) :
    c = (n, .waitingForRegistry .shutdown) ∨ c ∈ s.calls ∧ c.1 ≠ n := by
  unfold askRegistry at h
  dsimp only at h
  split at h
  · have hc := mem_calls_useShutdown h
    exact Or.inr hc
  · have hc := mem_calls_setCall h
    exact hc

/-- Where a shutdown stands after it looked at the runs it waits for. -/
lemma mem_calls_awaitRuns {ex : Executors ε π ω} {s : EngineState ε π ω} {n : ℕ}
    {ids : List String} {c : ℕ × CallState} (h : c ∈ (s.awaitRuns ex n ids).calls) :
    (c = (n, .waitingForRegistry .shutdown) ∧
        (ids.filter fun id => Keyed.contains s.workers id) = []) ∨
      c = (n, .waitingForRuns (ids.filter fun id => Keyed.contains s.workers id)) ∨
      c ∈ s.calls ∧ c.1 ≠ n := by
  unfold awaitRuns at h
  split at h
  · next hnone =>
    rcases mem_calls_askShutdown h with hc | hc
    · exact Or.inl ⟨hc, hnone⟩
    · exact Or.inr (Or.inr hc)
  · exact Or.inr (mem_calls_setCall h)

lemma mem_calls_useRegistry {ex : Executors ε π ω} {s : EngineState ε π ω} {n : ℕ} {r : Request}
    {c : ℕ × CallState} (h : c ∈ (s.useRegistry ex n r).calls) : c ∈ s.calls := by
  cases r with
  | start => exact (mem_calls_answer (a := .done (s.registry.startAll ex.hooks s.world).1) h).1
  | shutdown => exact (mem_calls_useShutdown h).1
  | get id => exact h
  | nodeTypes => exact (mem_calls_answer (a := .nodeTypes s.registry.nodeTypes) h).1

lemma mem_calls_askRegistry {ex : Executors ε π ω} {s : EngineState ε π ω} {n : ℕ} {r : Request}
    {c : ℕ × CallState} (h : c ∈ (s.askRegistry ex n r).calls) :
    c = (n, .waitingForRegistry r) ∨ c ∈ s.calls := by
  unfold askRegistry at h
  dsimp only at h
  split at h
  · have hc := mem_calls_useRegistry h
    exact Or.inr hc
  · have hc := mem_calls_setCall h
    exact hc.imp_right And.left

lemma mem_calls_awaitRun {s : EngineState ε π ω} {n : ℕ} {id : String} {c : ℕ × CallState}
    (h : c ∈ (s.awaitRun n id).calls) : c = (n, .waitingForRun id) ∨ c ∈ s.calls := by
  unfold awaitRun at h
  split at h
  · exact Or.inr (mem_calls_answer h).1
  · split at h
    · exact (mem_calls_setCall h).imp_right And.left
    · exact Or.inr (mem_calls_answer h).1

lemma mem_calls_resumeGet {s : EngineState ε π ω} {n : ℕ} {id : String} {c : ℕ × CallState}
    (h : c ∈ (s.resumeGet n id).calls) : c ∈ s.calls := by
  unfold resumeGet at h
  split at h
  · exact h
  · exact (mem_calls_answer h).1

/-- The call that moves goes on standing for the same request. -/
lemma mem_calls_pollCall {ex : Executors ε π ω} {s : EngineState ε π ω} {n : ℕ}
    {c : ℕ × CallState} (h : c ∈ (s.pollCall ex n).calls) :
    c ∈ s.calls ∨ ∃ state, (n, state) ∈ s.calls ∧ c.1 = n ∧ c.2.request = state.request := by
  unfold pollCall at h
  split at h
  · exact Or.inl h
  · next hlookup =>
    have hmem := mem_calls_of_lookup hlookup
    rcases mem_calls_awaitRuns h with ⟨rfl, -⟩ | rfl | ⟨hc, -⟩
    · exact Or.inr ⟨_, hmem, rfl, rfl⟩
    · exact Or.inr ⟨_, hmem, rfl, rfl⟩
    · exact Or.inl hc
  · next hlookup =>
    rcases mem_calls_awaitRun h with rfl | hc
    · exact Or.inr ⟨_, mem_calls_of_lookup hlookup, rfl, rfl⟩
    · exact Or.inl hc
  · next hlookup =>
    rcases mem_calls_askRegistry h with rfl | hc
    · exact Or.inr ⟨_, mem_calls_of_lookup hlookup, rfl, rfl⟩
    · exact Or.inl hc
  · next hlookup =>
    have hmem := mem_calls_of_lookup hlookup
    rcases mem_calls_awaitRuns h with ⟨rfl, -⟩ | rfl | ⟨hc, -⟩
    · exact Or.inr ⟨_, hmem, rfl, rfl⟩
    · exact Or.inr ⟨_, hmem, rfl, rfl⟩
    · exact Or.inl hc
  · exact Or.inl (mem_calls_resumeGet h)
  · split at h
    · exact Or.inl (mem_calls_useRegistry h)
    · exact Or.inl h

/-- A call stands where it stood before an act, unless it was made or has moved. -/
lemma mem_calls_act (ex : Executors ε π ω) {s : EngineState ε π ω} {a : Act ω} {c : ℕ × CallState}
    (h : c ∈ (s.act ex a).calls) :
    c ∈ s.calls ∨ (∃ n r, a = .request n r ∧ c = (n, .made r)) ∨
      ∃ n, a = .move (.call n) ∧ c ∈ (s.pollCall ex n).calls := by
  cases a with
  | move t =>
    cases t with
    | worker id => exact Or.inl ((declines_pollWorker ex s id).calls ▸ h)
    | call n => exact Or.inr (Or.inr ⟨n, rfl, h⟩)
  | execute id w input =>
    left
    simp only [act, execute] at h
    split at h <;> exact h
  | cancel id => exact Or.inl ((keeps_cancel s id).calls ▸ h)
  | forget id => exact Or.inl h
  | request n r =>
    rcases List.mem_append.1 h with hold | hnew
    · exact Or.inl hold
    · exact Or.inr (Or.inl ⟨n, r, rfl, List.mem_singleton.1 hnew⟩)
  | abandon n => exact Or.inl (List.mem_filter.1 h).1
  | outside world => exact Or.inl h

/-- Only its own move makes a call go on. -/
lemma mem_calls_act_other (ex : Executors ε π ω) {s : EngineState ε π ω} {a : Act ω}
    {c : ℕ × CallState} (h : c ∈ (s.act ex a).calls) (hother : a ≠ .move (.call c.1)) :
    c ∈ s.calls ∨ ∃ r, a = .request c.1 r ∧ c.2 = .made r := by
  rcases mem_calls_act ex h with hold | ⟨n, r, rfl, rfl⟩ | ⟨n, rfl, hmoved⟩
  · exact Or.inl hold
  · exact Or.inr ⟨r, rfl, rfl⟩
  · rcases mem_calls_pollCall hmoved with hold | ⟨state, -, hn, -⟩
    · exact Or.inl hold
    · rw [hn] at hother
      exact absurd rfl hother

/-! ## Answers -/

variable {s s' : EngineState ε π ω}

/-- The executors are stopped. -/
def Stops (ex : Executors ε π ω) (s s' : EngineState ε π ω) : Prop :=
  s'.registry = (s.registry.stopAll ex.hooks s.world).2.1

lemma done_useRegistry {ex : Executors ε π ω} {k m : ℕ} {r : Request}
    {result : Except EngineError Unit} (h : (m, .done result) ∈ (s.useRegistry ex k r).answers) :
    (m, .done result) ∈ s.answers ∨
      m = k ∧ (r = .shutdown → Stops ex s (s.useRegistry ex k r)) := by
  cases r with
  | start =>
    rcases List.mem_append.1 h with hold | hnew
    · exact Or.inl hold
    · simp only [List.mem_singleton, Prod.mk.injEq] at hnew
      exact Or.inr ⟨hnew.1, fun hr => by cases hr⟩
  | shutdown =>
    rcases List.mem_append.1 h with hold | hnew
    · exact Or.inl hold
    · simp only [List.mem_singleton, Prod.mk.injEq] at hnew
      exact Or.inr ⟨hnew.1, fun _ => rfl⟩
  | get id => exact Or.inl h
  | nodeTypes =>
    rcases List.mem_append.1 h with hold | hnew
    · exact Or.inl hold
    · simp only [List.mem_singleton, Prod.mk.injEq, reduceCtorEq, and_false] at hnew

lemma done_askRegistry {ex : Executors ε π ω} {k m : ℕ} {r : Request}
    {result : Except EngineError Unit} (h : (m, .done result) ∈ (s.askRegistry ex k r).answers) :
    (m, .done result) ∈ s.answers ∨
      m = k ∧ (r = .shutdown → Stops ex s (s.askRegistry ex k r)) := by
  unfold askRegistry at h ⊢
  dsimp only at h ⊢
  split at h
  · next hholds =>
    rw [if_pos hholds]
    have hdone := done_useRegistry h
    exact hdone
  · exact Or.inl h

lemma done_awaitRuns {ex : Executors ε π ω} {k m : ℕ} {ids : List String}
    {result : Except EngineError Unit} (h : (m, .done result) ∈ (s.awaitRuns ex k ids).answers) :
    (m, .done result) ∈ s.answers ∨
      m = k ∧ (ids.filter fun id => Keyed.contains s.workers id) = [] ∧
        Stops ex s (s.awaitRuns ex k ids) := by
  unfold awaitRuns at h ⊢
  split at h
  · next hnone =>
    rcases done_askRegistry h with hold | ⟨hm, hstops⟩
    · exact Or.inl hold
    · exact Or.inr ⟨hm, hnone, by simpa [hnone] using hstops rfl⟩
  · exact Or.inl h

lemma done_awaitRun {k m : ℕ} {id : String} {result : Except EngineError Unit}
    (h : (m, .done result) ∈ (s.awaitRun k id).answers) : (m, .done result) ∈ s.answers := by
  unfold awaitRun at h
  split at h
  · simpa [answer] using h
  · split at h
    · exact h
    · simpa [answer] using h

lemma done_resumeGet {k m : ℕ} {id : String} {result : Except EngineError Unit}
    (h : (m, .done result) ∈ (s.resumeGet k id).answers) : (m, .done result) ∈ s.answers := by
  unfold resumeGet at h
  split at h
  · exact h
  · simpa [answer] using h

/-- Only the call that moves is answered. -/
lemma done_pollCall {ex : Executors ε π ω} {k m : ℕ} {result : Except EngineError Unit}
    (h : (m, .done result) ∈ (s.pollCall ex k).answers) :
    (m, .done result) ∈ s.answers ∨ m = k := by
  unfold pollCall at h
  split at h
  · exact Or.inl h
  · exact (done_awaitRuns h).imp_right And.left
  · exact Or.inl (done_awaitRun h)
  · exact (done_askRegistry h).imp_right And.left
  · exact (done_awaitRuns h).imp_right And.left
  · exact Or.inl (done_resumeGet h)
  · split at h
    · exact (done_useRegistry h).imp_right And.left
    · exact Or.inl h

/-- Only its own move answers a call. -/
lemma done_act {ex : Executors ε π ω} {a : Act ω} {m : ℕ} {result : Except EngineError Unit}
    (h : (m, .done result) ∈ (s.act ex a).answers) :
    (m, .done result) ∈ s.answers ∨ a = .move (.call m) := by
  by_cases hcall : ∀ k, a ≠ .move (.call k)
  · rw [answers_act ex s hcall] at h
    exact Or.inl h
  · simp only [not_forall, not_not] at hcall
    obtain ⟨k, rfl⟩ := hcall
    exact (done_pollCall h).imp_right fun hm => by rw [hm]

end EngineState

end FlowGraph
