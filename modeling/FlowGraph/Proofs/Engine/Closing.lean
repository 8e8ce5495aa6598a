import FlowGraph.Proofs.Engine.Calls

/-!
# The phases of a shutdown

The key invariant of a shutdown is `Closing`.  It follows the shutdown through its phases: before
its first move the engine is open; while it waits for runs, the ids it waits for cover all workers;
and once it asks for the registry there is no worker left.  Since the admission is closed from its
first move on, workers only disappear, whatever else happens.

`closing_after` is the invariant over histories with at most one shutdown, and `Closing.done_act`
what it is for: the shutdown is answered in a move that stops the executors, with no worker left.
-/

namespace FlowGraph

namespace EngineState

variable {ε π ω : Type} {s s' : EngineState ε π ω}

/-! ## The phases of a shutdown -/

/-- What holds while a shutdown is at a certain point. -/
def Guard (s : EngineState ε π ω) : CallState → Prop
  | .made _ => s.shuttingDown = false
  | .waitingForRuns ids => s.shuttingDown = true ∧ ∀ id ∈ Keyed.keys s.workers, id ∈ ids
  | .waitingForRegistry _ => s.shuttingDown = true ∧ s.workers = []
  | .waitingForRun _ => True

lemma eq_nil_of_keys {α : Type} {table : Keyed α} (h : ∀ id, id ∉ Keyed.keys table) :
    table = [] := by
  rw [← List.map_eq_nil_iff (f := Prod.fst)]
  exact List.eq_nil_iff_forall_not_mem.2 h

lemma nil_of_workers (h : ∀ id ∈ Keyed.keys s'.workers, id ∈ Keyed.keys s.workers)
    (hnil : s.workers = []) : s'.workers = [] := by
  refine eq_nil_of_keys fun id hid => ?_
  have hold := h id hid
  rw [hnil] at hold
  cases hold

/-- A shutdown stays where it is when workers disappear. -/
lemma Guard.mono {state : CallState} (h : Guard s state)
    (hshut : s'.shuttingDown = s.shuttingDown)
    (hworkers : ∀ id ∈ Keyed.keys s'.workers, id ∈ Keyed.keys s.workers) : Guard s' state := by
  cases state with
  | made r => exact hshut.trans h
  | waitingForRuns ids => exact ⟨hshut.trans h.1, fun id hid => h.2 id (hworkers id hid)⟩
  | waitingForRegistry r => exact ⟨hshut.trans h.1, nil_of_workers hworkers h.2⟩
  | waitingForRun id => trivial

/-- The shutdown `n` is the only one, and the state fits the point it has come to. -/
structure Closing (n : ℕ) (s : EngineState ε π ω) : Prop where
  keys : Keyed.keys s.active = Keyed.keys s.workers
  /-- Nobody waits for a run while the engine is open. -/
  unclaimed : s.shuttingDown = false → ∀ c ∈ s.claims, c.2 = false
  only : ∀ c ∈ s.calls, c.1 = n ↔ c.2.request = .shutdown
  guard : ∀ c ∈ s.calls, c.1 = n → Guard s c.2
  rest : ∀ result, (n, .done result) ∈ s.answers → s.shuttingDown = true ∧ s.workers = []

variable {n : ℕ}

lemma Closing.declines (h : Closing n s) (hs : Declines s s') : Closing n s' where
  keys := hs.keys h.keys
  unclaimed := by
    rw [hs.shuttingDown]
    exact fun hopen c hc => h.unclaimed hopen c (hs.claims c hc)
  only := by
    rw [hs.calls]
    exact h.only
  guard := by
    rw [hs.calls]
    exact fun c hc hn => (h.guard c hc hn).mono hs.shuttingDown hs.workers
  rest := by
    rw [hs.answers, hs.shuttingDown]
    exact fun result hdone =>
      ⟨(h.rest result hdone).1, nil_of_workers hs.workers (h.rest result hdone).2⟩

/-- When none of the runs that a shutdown waits for has a worker, no run has one. -/
lemma workers_nil_of_filter {ids : List String} (hcover : ∀ id ∈ Keyed.keys s.workers, id ∈ ids)
    (hnone : (ids.filter fun id => Keyed.contains s.workers id) = []) : s.workers = [] := by
  refine eq_nil_of_keys fun id hid => ?_
  have hmem : id ∈ ids.filter fun id => Keyed.contains s.workers id :=
    List.mem_filter.2 ⟨hcover id hid, (Keyed.mem_keys_iff _ _).1 hid⟩
  rw [hnone] at hmem
  cases hmem

/-- A shutdown that waits for runs goes on. -/
lemma Closing.awaitRuns (ex : Executors ε π ω) {ids : List String}
    (hshut : s.shuttingDown = true) (hcover : ∀ id ∈ Keyed.keys s.workers, id ∈ ids)
    (hkeys : Keyed.keys s.active = Keyed.keys s.workers)
    (honly : ∀ c ∈ s.calls, c.1 = n ↔ c.2.request = .shutdown)
    (hrest : ∀ result, (n, .done result) ∈ s.answers → s.workers = []) :
    Closing n (s.awaitRuns ex n ids) := by
  have hsame := sameRuns_awaitRuns ex s n ids
  refine ⟨?_, ?_, ?_, ?_, ?_⟩
  · rw [hsame.active, hsame.workers, hkeys]
  · rw [hsame.shuttingDown, hshut]
    exact fun hopen => by cases hopen
  · intro c hc
    rcases mem_calls_awaitRuns hc with ⟨rfl, -⟩ | rfl | ⟨hold, -⟩
    · simp [CallState.request]
    · simp [CallState.request]
    · exact honly c hold
  · intro c hc hn
    rcases mem_calls_awaitRuns hc with ⟨rfl, hnone⟩ | rfl | ⟨-, hne⟩
    · refine ⟨hsame.shuttingDown.trans hshut, ?_⟩
      rw [hsame.workers]
      exact workers_nil_of_filter hcover hnone
    · refine ⟨hsame.shuttingDown.trans hshut, fun id hid => ?_⟩
      rw [hsame.workers] at hid
      exact List.mem_filter.2 ⟨hcover id hid, (Keyed.mem_keys_iff _ _).1 hid⟩
    · exact absurd hn hne
  · intro result hdone
    rw [hsame.shuttingDown, hsame.workers]
    rcases done_awaitRuns hdone with hold | ⟨-, hnone, -⟩
    · exact ⟨hshut, hrest result hold⟩
    · exact ⟨hshut, workers_nil_of_filter hcover hnone⟩

/-- A call that is not on its first move as a shutdown changes no run. -/
lemma Closing.sameRuns (h : Closing n s) (hsame : SameRuns s s')
    (honly : ∀ c ∈ s'.calls, c.1 = n ↔ c.2.request = .shutdown)
    (hguard : ∀ c ∈ s'.calls, c.1 = n → Guard s c.2)
    (hrest : ∀ result, (n, .done result) ∈ s'.answers →
      s.shuttingDown = true ∧ s.workers = []) : Closing n s' where
  keys := by rw [hsame.active, hsame.workers, h.keys]
  unclaimed := by
    rw [hsame.shuttingDown, claims, hsame.active]
    exact h.unclaimed
  only := honly
  guard c hc hn := (hguard c hc hn).mono hsame.shuttingDown fun id hid => by
    rwa [hsame.workers] at hid
  rest result hdone := by
    rw [hsame.shuttingDown, hsame.workers]
    exact hrest result hdone

/-- On its first move a shutdown claims all workers. -/
lemma Closing.closeAdmission_fst (h : Closing n s) (hopen : s.shuttingDown = false) :
    s.closeAdmission.1 = Keyed.keys s.workers := by
  have hall : (s.active.filter fun entry => !entry.2.claimed) = s.active := by
    refine List.filter_eq_self.2 fun entry hentry => ?_
    have hclaim := h.unclaimed hopen (entry.1, entry.2.claimed)
      (List.mem_map.2 ⟨entry, hentry, rfl⟩)
    simp only at hclaim
    rw [hclaim]
    rfl
  rw [← h.keys]
  exact congrArg Keyed.keys hall

lemma keys_closeAdmission (s : EngineState ε π ω) :
    Keyed.keys s.closeAdmission.2.active = Keyed.keys s.active := by
  simp only [closeAdmission, wake, Keyed.keys, List.map_map]
  rfl

lemma Closing.pollCall_first (ex : Executors ε π ω) (h : Closing n s)
    (hfirst : s.calls.lookup n = some (.made .shutdown)) : Closing n (s.pollCall ex n) := by
  have hopen : s.shuttingDown = false := h.guard _ (mem_calls_of_lookup hfirst) rfl
  rw [pollCall_shutdown ex s n hfirst, h.closeAdmission_fst hopen]
  refine Closing.awaitRuns ex rfl (fun _ hid => hid) ?_ h.only ?_
  · rw [keys_closeAdmission]
    exact h.keys
  · exact fun result hdone => (h.rest result hdone).2

/-- The shutdown goes from one phase to the next, or stays where it is. -/
lemma Closing.pollCall_self (ex : Executors ε π ω) (h : Closing n s) :
    Closing n (s.pollCall ex n) := by
  rcases hlookup : s.calls.lookup n with _ | state
  · have hstay : s.pollCall ex n = s := by rw [EngineState.pollCall, hlookup]
    rw [hstay]
    exact h
  · have hmem := mem_calls_of_lookup hlookup
    have hguard := h.guard _ hmem rfl
    have hrequest := (h.only _ hmem).1 rfl
    cases state with
    | made r =>
      cases hrequest
      exact h.pollCall_first ex hlookup
    | waitingForRuns ids =>
      rw [EngineState.pollCall, hlookup]
      exact Closing.awaitRuns ex hguard.1 hguard.2 h.keys h.only
        fun result hdone => (h.rest result hdone).2
    | waitingForRegistry r =>
      cases hrequest
      rw [EngineState.pollCall, hlookup]
      dsimp only
      split
      · refine h.sameRuns (sameRuns_useRegistry ex s n .shutdown) ?_ ?_ fun _ _ => hguard
        · exact fun c hc => h.only c (mem_calls_useShutdown hc).1
        · exact fun c hc hn => absurd hn (mem_calls_useShutdown hc).2
      · exact h
    | waitingForRun id => cases hrequest

lemma Closing.pollCall_other (ex : Executors ε π ω) (h : Closing n s) {k : ℕ} (hk : k ≠ n) :
    Closing n (s.pollCall ex k) := by
  have hfirst : s.calls.lookup k ≠ some (.made .shutdown) :=
    fun hlookup => hk ((h.only _ (mem_calls_of_lookup hlookup)).2 rfl)
  refine h.sameRuns (sameRuns_pollCall ex s k hfirst) ?_ ?_ ?_
  · intro c hc
    rcases mem_calls_pollCall hc with hold | ⟨state, hstate, hck, hrequest⟩
    · exact h.only c hold
    · rw [hck, hrequest]
      exact h.only _ hstate
  · intro c hc hn
    rcases mem_calls_pollCall hc with hold | ⟨state, -, hck, -⟩
    · exact h.guard c hold hn
    · exact absurd (hck.symm.trans hn) hk
  · intro result hdone
    rcases EngineState.done_pollCall hdone with hold | hn
    · exact h.rest result hold
    · exact absurd hn.symm hk

lemma Closing.pollCall (ex : Executors ε π ω) (h : Closing n s) (k : ℕ) :
    Closing n (s.pollCall ex k) := by
  by_cases hk : k = n
  · subst hk
    exact h.pollCall_self ex
  · exact h.pollCall_other ex hk

/-- A shutdown is answered in a move that stops the executors, with no worker left. -/
lemma Closing.done_pollCall {ex : Executors ε π ω} (h : Closing n s) {k : ℕ}
    {result : Except EngineError Unit} (hdone : (n, .done result) ∈ (s.pollCall ex k).answers) :
    (n, .done result) ∈ s.answers ∨
      k = n ∧ s.workers = [] ∧ Stops ex s (s.pollCall ex k) := by
  rcases EngineState.done_pollCall hdone with hold | rfl
  · exact Or.inl hold
  rcases hlookup : s.calls.lookup n with _ | state
  · rw [EngineState.pollCall, hlookup] at hdone
    exact Or.inl hdone
  · have hmem := mem_calls_of_lookup hlookup
    have hguard := h.guard _ hmem rfl
    have hrequest := (h.only _ hmem).1 rfl
    cases state with
    | made r =>
      cases hrequest
      rw [pollCall_shutdown ex s n hlookup] at hdone ⊢
      rcases done_awaitRuns hdone with hold | ⟨-, hnone, hstops⟩
      · exact Or.inl hold
      · refine Or.inr ⟨rfl, workers_nil_of_filter (fun id hid => hid) ?_, hstops⟩
        rw [← h.closeAdmission_fst hguard]
        exact hnone
    | waitingForRuns ids =>
      rw [EngineState.pollCall, hlookup] at hdone ⊢
      rcases done_awaitRuns hdone with hold | ⟨-, hnone, hstops⟩
      · exact Or.inl hold
      · exact Or.inr ⟨rfl, workers_nil_of_filter hguard.2 hnone, hstops⟩
    | waitingForRegistry r =>
      cases hrequest
      rw [EngineState.pollCall, hlookup] at hdone ⊢
      dsimp only at hdone ⊢
      split at hdone
      · next hholds =>
        rw [if_pos hholds]
        rcases done_useRegistry hdone with hold | ⟨-, hstops⟩
        · exact Or.inl hold
        · exact Or.inr ⟨rfl, hguard.2, hstops rfl⟩
      · exact Or.inl hdone
    | waitingForRun id => cases hrequest

/-! ## Acts -/

lemma Closing.execute (ex : Executors ε π ω) (h : Closing n s) (id : String) (w : Workflow)
    (input : Fields) : Closing n (s.execute ex id w input).2 := by
  unfold EngineState.execute
  by_cases hshut : s.shuttingDown = true
  · rw [if_pos hshut]
    exact h
  · rw [if_neg hshut]
    have hguard : ∀ c ∈ s.calls, c.1 = n → Guard s c.2 := h.guard
    rw [Bool.not_eq_true] at hshut
    refine ⟨?_, ?_, h.only, ?_, ?_⟩
    · simp only [wake, Keyed.keys_insert, h.keys]
    · intro _ c hc
      simp only [claims, wake, List.mem_map] at hc
      obtain ⟨entry, hentry, rfl⟩ := hc
      rcases Keyed.mem_insert hentry with rfl | hold
      · rfl
      · exact h.unclaimed hshut _ (List.mem_map.2 ⟨entry, hold, rfl⟩)
    · -- while the engine is open, a shutdown has not moved yet
      intro c hc hn
      have hstate := hguard c hc hn
      revert hstate
      cases c.2 with
      | made r => exact fun hstate => hstate
      | waitingForRuns ids => exact fun hstate => absurd hstate.1 (by simp [hshut])
      | waitingForRegistry r => exact fun hstate => absurd hstate.1 (by simp [hshut])
      | waitingForRun other => exact fun hstate => hstate
    · exact fun result hdone => absurd (h.rest result hdone).1 (by simp [hshut])

lemma Closing.makeCall (h : Closing n s) {k : ℕ} {r : Request}
    (honly : k = n ↔ r = .shutdown) (hopen : k = n → s.shuttingDown = false) :
    Closing n (s.makeCall k r) := by
  refine ⟨h.keys, h.unclaimed, ?_, ?_, h.rest⟩
  · intro c hc
    rcases List.mem_append.1 hc with hold | hnew
    · exact h.only c hold
    · obtain rfl := List.mem_singleton.1 hnew
      exact honly
  · intro c hc hn
    rcases List.mem_append.1 hc with hold | hnew
    · exact (h.guard c hold hn).mono rfl fun _ hid => hid
    · obtain rfl := List.mem_singleton.1 hnew
      exact hopen hn

lemma Closing.abandon (h : Closing n s) (k : ℕ) : Closing n (s.abandon k) := by
  have hcalls : ∀ c ∈ (s.abandon k).calls, c ∈ s.calls := fun c hc => (List.mem_filter.1 hc).1
  exact ⟨h.keys, h.unclaimed, fun c hc => h.only c (hcalls c hc),
    fun c hc hn => (h.guard c (hcalls c hc) hn).mono rfl fun _ hid => hid, h.rest⟩

lemma Closing.act (ex : Executors ε π ω) (h : Closing n s) (a : Act ω)
    (honly : ∀ k r, a = .request k r → (k = n ↔ r = .shutdown))
    (hopen : a = .request n .shutdown → s.shuttingDown = false) : Closing n (s.act ex a) := by
  cases a with
  | move t =>
    cases t with
    | worker id => exact h.declines (declines_pollWorker ex s id)
    | call k => exact h.pollCall ex k
  | execute id w input => exact h.execute ex id w input
  | cancel id => exact h.declines (keeps_cancel s id).declines
  | forget id => exact h.declines (declines_forget s id)
  | request k r =>
    refine h.makeCall (honly k r rfl) fun hk => hopen ?_
    rw [hk, (honly k r rfl).1 hk]
  | abandon k => exact h.abandon k
  | outside world => exact ⟨h.keys, h.unclaimed, h.only,
      fun c hc hn => (h.guard c hc hn).mono rfl fun _ hid => hid, h.rest⟩

lemma Closing.done_act (ex : Executors ε π ω) (h : Closing n s) (a : Act ω)
    {result : Except EngineError Unit} (hdone : (n, .done result) ∈ (s.act ex a).answers) :
    (n, .done result) ∈ s.answers ∨
      a = .move (.call n) ∧ s.workers = [] ∧ Stops ex s (s.act ex a) := by
  rcases EngineState.done_act hdone with hold | rfl
  · exact Or.inl hold
  · exact (h.done_pollCall hdone).imp_right fun hanswered => ⟨rfl, hanswered.2⟩

/-- Nobody called for a shutdown. -/
def Open (s : EngineState ε π ω) : Prop :=
  s.shuttingDown = false ∧ ∀ c ∈ s.calls, c.2.request ≠ .shutdown

lemma Open.act (ex : Executors ε π ω) (h : Open s) {a : Act ω} (ha : a.shutdown? = none) :
    Open (s.act ex a) := by
  have hdeclines : ∀ {s'}, Declines s s' → Open s' := by
    intro s' hs
    rw [Open, hs.shuttingDown, hs.calls]
    exact h
  cases a with
  | move t =>
    cases t with
    | worker id => exact hdeclines (declines_pollWorker ex s id)
    | call k =>
      have hfirst : s.calls.lookup k ≠ some (.made .shutdown) :=
        fun hlookup => h.2 _ (mem_calls_of_lookup hlookup) rfl
      refine ⟨(sameRuns_pollCall ex s k hfirst).shuttingDown.trans h.1, fun c hc => ?_⟩
      rcases mem_calls_pollCall hc with hold | ⟨state, hstate, -, hrequest⟩
      · exact h.2 c hold
      · rw [hrequest]
        exact h.2 _ hstate
  | execute id w input =>
    simp only [EngineState.act, EngineState.execute, h.1, Bool.false_eq_true, if_false]
    exact ⟨rfl, h.2⟩
  | cancel id => exact hdeclines (keeps_cancel s id).declines
  | forget id => exact hdeclines (declines_forget s id)
  | request k r =>
    refine ⟨h.1, fun c hc => ?_⟩
    rcases List.mem_append.1 hc with hold | hnew
    · exact h.2 c hold
    · obtain rfl := List.mem_singleton.1 hnew
      rintro rfl
      cases ha
  | abandon k => exact ⟨h.1, fun c hc => h.2 c ((List.mem_filter.1 hc).1)⟩
  | outside world => exact ⟨h.1, h.2⟩

/-! ## Histories with one shutdown -/

variable (ex : Executors ε π ω) (registry : Registry ε) (config : EngineConfig) (world : ω)

lemma open_after (acts : List (Act ω)) (h : acts.filterMap Act.shutdown? = []) :
    Open ((make registry config world).after ex acts) := by
  induction acts using List.reverseRecOn with
  | nil => exact ⟨rfl, fun c hc => (by cases hc)⟩
  | append_singleton acts a ih =>
    rw [List.filterMap_append, List.append_eq_nil_iff] at h
    rw [after_concat]
    refine (ih h.1).act ex ?_
    simpa using h.2

lemma closing_after (acts : List (Act ω)) (hone : (acts.filterMap Act.shutdown?).length ≤ 1)
    (honly : ∀ k r, Act.request k r ∈ acts → (k = n ↔ r = .shutdown)) :
    Closing n ((make registry config world).after ex acts) := by
  induction acts using List.reverseRecOn with
  | nil =>
    exact ⟨rfl, fun _ c hc => (by cases hc), fun c hc => (by cases hc),
      fun c hc => (by cases hc), fun result hdone => (by cases hdone)⟩
  | append_singleton acts a ih =>
    rw [List.filterMap_append, List.length_append] at hone
    rw [after_concat]
    refine (ih (by omega) fun k r hmem => honly k r (List.mem_append_left _ hmem)).act ex a ?_ ?_
    · rintro k r rfl
      exact honly k r (by simp)
    · -- before the shutdown is called for, the engine is open
      rintro rfl
      refine (open_after ex registry config world acts ?_).1
      rw [← List.length_eq_zero_iff]
      simp only [List.filterMap_cons, Act.shutdown?, List.filterMap_nil, List.length_cons,
        List.length_nil] at hone
      omega

end EngineState

end FlowGraph
