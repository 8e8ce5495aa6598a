import FlowGraph.Proofs.Engine.Cut
import FlowGraph.Proofs.Engine.Shutdown

/-!
# Shutdowns that overlap

A shutdown claims the active runs that no other shutdown waits for, and it waits for these only.
The key invariant is `Serves`: from the first move of a shutdown on, as long as one of the runs it
has claimed has a worker, the shutdown waits for that run and is not answered.  Workers only
disappear then, so what a shutdown has waited for is over for good.

So when a shutdown is answered, every run has a final record or was forgotten, except for those
that another shutdown had claimed before.  These are cancelled.
-/

namespace FlowGraph

namespace EngineState

variable {ε π ω : Type}
variable (ex : Executors ε π ω)

/-! ## The runs that a shutdown waits for -/

/-- What holds of the runs that a shutdown has claimed while it is at a certain point. -/
def Awaits (claimed : List String) (s : EngineState ε π ω) : CallState → Prop
  | .waitingForRuns ids => ∀ id ∈ claimed, id ∈ Keyed.keys s.workers → id ∈ ids
  | .waitingForRegistry _ => ∀ id ∈ claimed, id ∉ Keyed.keys s.workers
  | .made _ | .waitingForRun _ => False

/-- The shutdown `n` has closed the admission and waits for the runs that it has claimed. -/
structure Serves (n : ℕ) (claimed : List String) (s : EngineState ε π ω) : Prop where
  closed : s.shuttingDown = true
  guard : ∀ c ∈ s.calls, c.1 = n → Awaits claimed s c.2
  rest : ∀ result, (n, .done result) ∈ s.answers → ∀ id ∈ claimed, id ∉ Keyed.keys s.workers

section Serves

variable {s s' : EngineState ε π ω} {n : ℕ} {claimed : List String}

lemma Awaits.mono {state : CallState} (h : Awaits claimed s state)
    (hworkers : ∀ id ∈ Keyed.keys s'.workers, id ∈ Keyed.keys s.workers) :
    Awaits claimed s' state := by
  cases state with
  | waitingForRuns ids => exact fun id hid hworker => h id hid (hworkers id hworker)
  | waitingForRegistry r => exact fun id hid hworker => h id hid (hworkers id hworker)
  | made r => exact h
  | waitingForRun id => exact h

/-- A shutdown that looks at the runs it waits for leaves out only those that are over. -/
lemma Serves.awaitRuns {ids : List String} (hclosed : s.shuttingDown = true)
    (hcover : ∀ id ∈ claimed, id ∈ Keyed.keys s.workers → id ∈ ids)
    (hrest : ∀ result, (n, .done result) ∈ s.answers → ∀ id ∈ claimed, id ∉ Keyed.keys s.workers) :
    Serves n claimed (s.awaitRuns ex n ids) := by
  have hsame := sameRuns_awaitRuns ex s n ids
  have hleft : ∀ id ∈ claimed, id ∈ Keyed.keys s.workers →
      id ∈ ids.filter fun id => Keyed.contains s.workers id :=
    fun id hid hworker =>
      List.mem_filter.2 ⟨hcover id hid hworker, (Keyed.mem_keys_iff _ _).1 hworker⟩
  have hover : (ids.filter fun id => Keyed.contains s.workers id) = [] →
      ∀ id ∈ claimed, id ∉ Keyed.keys s.workers := by
    intro hnone id hid hworker
    have hmem := hleft id hid hworker
    rw [hnone] at hmem
    cases hmem
  refine ⟨hsame.shuttingDown.trans hclosed, fun c hc hn => ?_, fun result hdone => ?_⟩
  · rcases mem_calls_awaitRuns hc with ⟨rfl, hnone⟩ | rfl | ⟨-, hne⟩
    · show ∀ id ∈ claimed, id ∉ Keyed.keys _
      rw [hsame.workers]
      exact hover hnone
    · show ∀ id ∈ claimed, id ∈ Keyed.keys _ → _
      rw [hsame.workers]
      exact hleft
    · exact absurd hn hne
  · rw [hsame.workers]
    rcases done_awaitRuns hdone with hold | ⟨-, hnone, -⟩
    · exact hrest result hold
    · exact hover hnone

/-- The first move of a shutdown. -/
lemma Serves.first (hfirst : s.calls.lookup n = some (.made .shutdown))
    (hunanswered : ∀ result, (n, .done result) ∉ s.answers) :
    Serves n s.closeAdmission.1 (s.act ex (.move (.call n))) := by
  show Serves n _ (s.pollCall ex n)
  rw [pollCall_shutdown ex s n hfirst]
  exact Serves.awaitRuns ex rfl (fun id hid _ => hid)
    fun result hdone => absurd hdone (hunanswered result)

/-- A later move of the shutdown. -/
lemma Serves.pollCall_self (h : Serves n claimed s) : Serves n claimed (s.pollCall ex n) := by
  rcases hlookup : s.calls.lookup n with _ | state
  · rw [pollCall, hlookup]
    exact h
  have hguard := h.guard _ (mem_calls_of_lookup hlookup) rfl
  cases state with
  | waitingForRuns ids =>
    rw [pollCall, hlookup]
    exact Serves.awaitRuns ex h.closed hguard h.rest
  | waitingForRegistry r =>
    have hsame := sameRuns_pollCall ex s n (by rw [hlookup]; simp)
    have hworkers : ∀ id ∈ Keyed.keys (s.pollCall ex n).workers, id ∈ Keyed.keys s.workers := by
      rw [hsame.workers]
      exact fun id hid => hid
    have hcalls : ∀ c ∈ (s.pollCall ex n).calls, c ∈ s.calls := by
      intro c hc
      rw [pollCall, hlookup] at hc
      dsimp only at hc
      split at hc
      · exact mem_calls_useRegistry hc
      · exact hc
    have hover : ∀ id ∈ claimed, id ∉ Keyed.keys s.workers := hguard
    exact ⟨hsame.shuttingDown.trans h.closed,
      fun c hc hn => (h.guard c (hcalls c hc) hn).mono hworkers,
      fun _ _ id hid hworker => hover id hid (hworkers id hworker)⟩
  | made r => exact hguard.elim
  | waitingForRun id => exact hguard.elim

/-- Whatever else happens, the shutdown goes on waiting for the runs that it has claimed. -/
lemma Serves.act (h : Serves n claimed s) {a : Act ω} (hmade : a.callNumber? ≠ some n) :
    Serves n claimed (s.act ex a) := by
  by_cases hself : a = .move (.call n)
  · subst hself
    exact h.pollCall_self ex
  have hworkers := workers_act_subset ex h.closed a
  refine ⟨shuttingDown_act ex h.closed a, fun c hc hn => ?_, fun result hdone id hid hworker => ?_⟩
  · refine Awaits.mono (h.guard c ?_ hn) hworkers
    subst hn
    exact (mem_calls_act_other ex hc hself).resolve_right fun ⟨_, ha, _⟩ => hmade (by rw [ha]; rfl)
  · exact h.rest result ((done_act hdone).resolve_right hself) id hid (hworkers id hworker)

lemma Serves.after (h : Serves n claimed s) (acts : List (Act ω))
    (hmade : ∀ a ∈ acts, a.callNumber? ≠ some n) : Serves n claimed (s.after ex acts) := by
  induction acts generalizing s with
  | nil => exact h
  | cons a acts ih =>
    rw [List.forall_mem_cons] at hmade
    exact ih (h.act ex hmade.1) hmade.2

end Serves

/-! ## First moves -/

/-- In the history `acts` the shutdown `n` makes its first move after `before`. -/
structure FirstMove (start : EngineState ε π ω) (acts : List (Act ω)) (n : ℕ)
    (before : List (Act ω)) : Prop where
  follows : before ++ [.move (.call n)] <+: acts
  made : (start.after ex before).calls.lookup n = some (.made .shutdown)

lemma FirstMove.append {start : EngineState ε π ω} {acts before : List (Act ω)} {n : ℕ}
    (h : FirstMove ex start acts n before) (more : List (Act ω)) :
    FirstMove ex start (acts ++ more) n before :=
  ⟨h.follows.trans (List.prefix_append acts more), h.made⟩

section Histories

variable (registry : Registry ε) (config : EngineConfig) (world : ω)

/-- What holds of a shutdown that has not moved: it stands where it was made and has no answer. -/
structure Unmoved (start : EngineState ε π ω) (acts : List (Act ω)) (n : ℕ) : Prop where
  calls : ∀ c ∈ (start.after ex acts).calls, c.1 = n → c.2 = .made .shutdown
  unanswered : ∀ result, (n, .done result) ∉ (start.after ex acts).answers
  unmoved : ∀ before, ¬ FirstMove ex start acts n before

/-- A shutdown that was answered has moved. -/
lemma firstMove_of_answer {acts : List (Act ω)} {n : ℕ}
    (hshutdown : ∀ r, Act.request n r ∈ acts → r = .shutdown) {result : Except EngineError Unit}
    (hdone : (n, .done result) ∈ ((make registry config world).after ex acts).answers) :
    ∃ before, FirstMove ex (make registry config world) acts n before ∧
      Unmoved ex (make registry config world : EngineState ε π ω) before n := by
  suffices h : (∃ before, FirstMove ex (make registry config world) acts n before ∧
        Unmoved ex (make registry config world : EngineState ε π ω) before n) ∨
      Unmoved ex (make registry config world : EngineState ε π ω) acts n by
    exact h.resolve_right fun hunmoved => hunmoved.unanswered result hdone
  clear hdone
  induction acts using List.reverseRecOn with
  | nil =>
    refine Or.inr ⟨fun c hc => (by cases hc), fun result hdone => (by cases hdone), ?_⟩
    exact fun before hfirst => by simpa using hfirst.follows
  | append_singleton acts a ih =>
    rcases ih fun r hr => hshutdown r (List.mem_append_left _ hr) with
      ⟨before, hfirst, hunmoved⟩ | hunmoved
    · exact Or.inl ⟨before, hfirst.append ex [a], hunmoved⟩
    set s := (make registry config world : EngineState ε π ω).after ex acts with hs
    by_cases hmoves : a = .move (.call n) ∧ ∃ state, s.calls.lookup n = some state
    · obtain ⟨rfl, state, hlookup⟩ := hmoves
      have hmade := hunmoved.calls _ (mem_calls_of_lookup hlookup) rfl
      exact Or.inl ⟨acts, ⟨List.prefix_rfl, hmade ▸ hlookup⟩, hunmoved⟩
    -- the act is not a move of the shutdown
    right
    have hfirst : ∀ before, ¬ FirstMove ex (make registry config world) (acts ++ [a]) n before := by
      rintro before ⟨hfollows, hmade⟩
      rcases List.prefix_concat_iff.1 hfollows with hnow | hearlier
      · obtain ⟨rfl, ha⟩ := List.append_inj' hnow rfl
        exact hmoves ⟨(List.singleton_inj.1 ha).symm, _, hmade⟩
      · exact hunmoved.unmoved before ⟨hearlier, hmade⟩
    by_cases hself : a = .move (.call n)
    · have hstay : (make registry config world : EngineState ε π ω).after ex (acts ++ [a]) = s := by
        have hnone : s.calls.lookup n = none :=
          Option.eq_none_iff_forall_ne_some.2 fun state hstate => hmoves ⟨hself, state, hstate⟩
        rw [after_concat, hself]
        show s.pollCall ex n = s
        rw [pollCall, hnone]
      exact ⟨hstay ▸ hunmoved.calls, hstay ▸ hunmoved.unanswered, hfirst⟩
    · refine ⟨fun c hc hn => ?_, fun result hdone => ?_, hfirst⟩
      · subst hn
        rw [after_concat] at hc
        rcases mem_calls_act_other ex hc hself with hold | ⟨r, rfl, hstate⟩
        · exact hunmoved.calls c hold rfl
        · rw [hstate, hshutdown r (List.mem_append_right _ (List.mem_singleton_self _))]
      · rw [after_concat] at hdone
        exact hunmoved.unanswered result ((done_act hdone).resolve_right hself)

/-- A run that is claimed was claimed in the first move of a shutdown. -/
lemma claimed_after {acts : List (Act ω)} {id : String}
    (h : (id, true) ∈ ((make registry config world : EngineState ε π ω).after ex acts).claims) :
    ∃ m earlier, FirstMove ex (make registry config world) acts m earlier ∧
      id ∈ ((make registry config world).after ex earlier).closeAdmission.1 := by
  induction acts using List.reverseRecOn with
  | nil => cases h
  | append_singleton acts a ih =>
    rw [after_concat] at h
    set s := (make registry config world : EngineState ε π ω).after ex acts with hs
    have hold : (id, true) ∈ s.claims →
        ∃ m earlier, FirstMove ex (make registry config world) (acts ++ [a]) m earlier ∧
          id ∈ ((make registry config world).after ex earlier).closeAdmission.1 := by
      intro hmem
      obtain ⟨m, earlier, hfirst, hclaimed⟩ := ih hmem
      exact ⟨m, earlier, hfirst.append ex [a], hclaimed⟩
    cases a with
    | move t =>
      cases t with
      | worker other => exact hold ((declines_pollWorker ex s other).claims _ h)
      | call m =>
        by_cases hfirst : s.calls.lookup m = some (.made .shutdown)
        · have hactive : (s.act ex (.move (.call m))).active = s.closeAdmission.2.active := by
            show (s.pollCall ex m).active = _
            rw [pollCall_shutdown ex s m hfirst]
            exact (sameRuns_awaitRuns ex s.closeAdmission.2 m s.closeAdmission.1).active
          have hid : id ∈ Keyed.keys s.active := by
            rw [← keys_closeAdmission, ← hactive]
            obtain ⟨entry, hentry, heq⟩ := List.mem_map.1 h
            exact List.mem_map.2 ⟨entry, hentry, congrArg Prod.fst heq⟩
          obtain ⟨entry, hentry, rfl⟩ := List.mem_map.1 hid
          rcases hclaimed : entry.2.claimed with _ | _
          · refine ⟨m, acts, ⟨List.prefix_rfl, hfirst⟩, List.mem_map.2 ⟨entry, ?_, rfl⟩⟩
            exact List.mem_filter.2 ⟨hentry, by simp [hclaimed]⟩
          · exact hold (List.mem_map.2 ⟨entry, hentry, by rw [hclaimed]⟩)
        · refine hold ?_
          rw [claims, ← (sameRuns_pollCall ex s m hfirst).active]
          exact h
    | execute other w input =>
      refine hold ?_
      simp only [act, execute] at h
      split at h
      · exact h
      · obtain ⟨entry, hentry, heq⟩ := List.mem_map.1 h
        rcases Keyed.mem_insert hentry with rfl | hmem
        · cases heq
        · exact List.mem_map.2 ⟨entry, hmem, heq⟩
    | cancel other =>
      refine hold ?_
      rw [← (keeps_cancel s other).claims]
      exact h
    | forget other => exact hold h
    | request m r => exact hold h
    | abandon m => exact hold h
    | outside world => exact hold h

/-- A run that is active after the first move of a shutdown was active before, and is cancelled. -/
lemma FirstMove.cancelled {acts before : List (Act ω)} {n : ℕ}
    (h : FirstMove ex (make registry config world : EngineState ε π ω) acts n before)
    (hruns : Act.DistinctRuns acts) {id : String}
    (hid : id ∈ Keyed.keys
      ((make registry config world : EngineState ε π ω).after ex acts).active) :
    id ∈ Keyed.keys ((make registry config world : EngineState ε π ω).after ex before).active ∧
      ((make registry config world : EngineState ε π ω).after ex acts).isCancelled id = true := by
  obtain ⟨rest, rfl⟩ := h.follows
  have hmoved := distinctRuns_of_append hruns
  rw [active_keys_after ex registry config world _ hruns] at hid
  have hclosed : ((make registry config world : EngineState ε π ω).after ex
      (before ++ [.move (.call n)])).shuttingDown = true := by
    rw [after_concat]
    exact shuttingDown_first ex h.made
  have hworker := hid
  rw [after_append] at hworker
  have hthen := workers_after_subset ex hclosed rest id hworker
  have hactive : id ∈ Keyed.keys
      ((make registry config world : EngineState ε π ω).after ex before).active := by
    rw [active_keys_after ex registry config world _ (distinctRuns_of_append hmoved)]
    rw [after_concat] at hthen
    exact (sameTables_pollCall ex _ n).workers ▸ hthen
  refine ⟨hactive, ?_⟩
  obtain ⟨worker, hworker⟩ := Keyed.exists_of_mem_keys hid
  refine isCancelled_after ex registry config world _ rest hruns ?_ hworker
  rw [after_concat]
  exact isCancelled_shutdown ex h.made hactive

/-! ## What a shutdown leaves -/

/-- What holds after the history `acts` when the shutdown `n`, which first moved after `before`, was
answered in it. -/
structure Awaited (start : EngineState ε π ω) (acts : List (Act ω)) (n : ℕ)
    (before : List (Act ω)) : Prop extends FirstMove ex start acts n before where
  /-- The runs that it has claimed are over, and so are all others that no other shutdown had
  claimed before; what is left is cancelled. -/
  active : ∀ id ∈ (start.after ex acts).activeIds,
    (start.after ex acts).isCancelled id = true ∧
      ∃ m earlier, m ≠ n ∧ FirstMove ex start before m earlier ∧
        id ∈ (start.after ex earlier).closeAdmission.1
  /-- Every run that is over has a final record, unless it was forgotten. -/
  recorded : ∀ id, start.Admitted ex acts id → id ∉ (start.after ex acts).activeIds →
    Recorded (start.after ex acts) id ∨ start.Forgotten ex acts id
  /-- Without another shutdown before, no run is left. -/
  inactive : (∀ m earlier, m ≠ n → ¬ FirstMove ex start before m earlier) →
    (start.after ex acts).active = []

/-- **A shutdown waits for the runs that it has claimed.**  However many shutdowns overlap with each
other and with the runs, and whichever of them are given up: once one of them is answered, every run
that was admitted has a final record or was forgotten, except for runs that another shutdown had
claimed before, which are cancelled. -/
theorem awaited_after (acts : List (Act ω)) (n : ℕ) (result : Except EngineError Unit)
    (hruns : Act.DistinctRuns acts) (hcalls : Act.DistinctCalls acts)
    (hasked : .request n .shutdown ∈ acts)
    (hdone : (n, .done result) ∈ ((make registry config world).after ex acts).answers) :
    ∃ before, Awaited ex (make registry config world : EngineState ε π ω) acts n before := by
  have hshutdown : ∀ r, Act.request n r ∈ acts → r = .shutdown := by
    intro r hr
    cases eq_of_callNumber hcalls hr hasked rfl rfl
    rfl
  obtain ⟨before, hfirst, hunmoved⟩ := firstMove_of_answer ex registry config world hshutdown hdone
  have hserves : Serves n ((make registry config world).after ex before).closeAdmission.1
      ((make registry config world : EngineState ε π ω).after ex acts) := by
    obtain ⟨rest, rfl⟩ := hfirst.follows
    rw [after_append, after_concat]
    refine (Serves.first ex hfirst.made hunmoved.unanswered).after ex rest fun a ha hmade => ?_
    -- the call was made before its first move
    have hbefore := calls_asked ex registry config world before (mem_calls_of_lookup hfirst.made)
    rw [Act.DistinctCalls, List.append_assoc, List.filterMap_append, List.nodup_append] at hcalls
    exact hcalls.2.2 n (List.mem_filterMap.2 ⟨_, hbefore, rfl⟩) n
      (List.mem_filterMap.2 ⟨a, List.mem_cons_of_mem _ ha, hmade⟩) rfl
  have hactive : ∀ id ∈ ((make registry config world).after ex acts).activeIds,
      ((make registry config world).after ex acts).isCancelled id = true ∧
        ∃ m earlier, m ≠ n ∧ FirstMove ex (make registry config world) before m earlier ∧
          id ∈ ((make registry config world).after ex earlier).closeAdmission.1 := by
    intro id hid
    obtain ⟨hbefore, hcancelled⟩ := hfirst.cancelled ex registry config world hruns hid
    refine ⟨hcancelled, ?_⟩
    rw [activeIds, active_keys_after ex registry config world _ hruns] at hid
    have hunclaimed := fun hclaimed => hserves.rest result hdone id hclaimed hid
    obtain ⟨entry, hentry, rfl⟩ := List.mem_map.1 hbefore
    have hclaimed : entry.2.claimed = true := by
      by_contra hopen
      exact hunclaimed
        (List.mem_map.2 ⟨entry, List.mem_filter.2 ⟨hentry, by simpa using hopen⟩, rfl⟩)
    obtain ⟨m, earlier, hmoved, hmem⟩ := claimed_after ex registry config world
      (List.mem_map.2 ⟨entry, hentry, by rw [hclaimed]⟩)
    refine ⟨m, earlier, ?_, hmoved, hmem⟩
    rintro rfl
    exact hunmoved.unmoved earlier hmoved
  refine ⟨before, hfirst, hactive, fun id hadmitted hover => ?_, fun halone => ?_⟩
  · rw [activeIds, active_keys_after ex registry config world _ hruns] at hover
    exact (accounted ex registry config world acts id hadmitted).resolve_left hover
  · refine eq_nil_of_keys fun id hid => ?_
    obtain ⟨-, m, earlier, hm, hmoved, -⟩ := hactive id hid
    exact halone m earlier hm hmoved

end Histories

/-! ## Two shutdowns at once -/

/-- A second shutdown while the first one waits for a run. -/
def overtaken : List (Act Unit) :=
  [.execute "run" lone [], .request 0 .shutdown, .move (.call 0), .request 1 .shutdown,
    .move (.call 1)]

/-- The second shutdown is answered while the run is active, which the first one had claimed. -/
theorem awaited_after_overtaken :
    (1, .done (.ok ())) ∈ ((promptEngine {}).after Executors.prompt overtaken).answers ∧
      ((promptEngine {}).after Executors.prompt overtaken).activeIds = ["run"] ∧
      ∃ before, Awaited Executors.prompt (promptEngine {}) overtaken 1 before := by
  have hdone : (1, .done (.ok ())) ∈
      ((promptEngine {}).after Executors.prompt overtaken).answers := List.mem_singleton_self _
  have hruns : Act.DistinctRuns overtaken := show (["run"] : List String).Nodup by decide
  have hcalls : Act.DistinctCalls overtaken := show ([0, 1] : List ℕ).Nodup by decide
  exact ⟨hdone, rfl, awaited_after Executors.prompt _ _ _ _ 1 (.ok ()) hruns hcalls
    (by simp [overtaken]) hdone⟩

/-- A second shutdown after the first one was given up while it waited for a run. -/
def takenOver : List (Act Unit) :=
  [.execute "run" lone [], .request 0 .shutdown, .move (.call 0), .abandon 0,
    .request 1 .shutdown, .move (.call 1)]

/-- A shutdown waits only for the runs that it has claimed itself: a second one is answered while a
run that was admitted before is active and has no record, whether the first one waits for the run
still or was given up. -/
theorem answered_while_active :
    ((1, .done (.ok ())) ∈ ((promptEngine {}).after Executors.prompt overtaken).answers ∧
      (promptEngine {}).Admitted Executors.prompt overtaken "run" ∧
      ((promptEngine {}).after Executors.prompt overtaken).activeIds = ["run"] ∧
      ¬ Recorded ((promptEngine {}).after Executors.prompt overtaken) "run") ∧
    (1, .done (.ok ())) ∈ ((promptEngine {}).after Executors.prompt takenOver).answers ∧
      (promptEngine {}).Admitted Executors.prompt takenOver "run" ∧
      ((promptEngine {}).after Executors.prompt takenOver).activeIds = ["run"] ∧
      ¬ Recorded ((promptEngine {}).after Executors.prompt takenOver) "run" := by
  refine ⟨⟨List.mem_singleton_self _, ⟨[], lone, [], _, _, rfl, rfl⟩, rfl, ?_⟩,
    List.mem_singleton_self _, ⟨[], lone, [], _, _, rfl, rfl⟩, rfl, ?_⟩
  · rintro ⟨record, hrecord, -⟩
    cases hrecord
  · rintro ⟨record, hrecord, -⟩
    cases hrecord

end EngineState

end FlowGraph
