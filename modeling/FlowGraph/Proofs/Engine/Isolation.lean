import FlowGraph.Proofs.Engine.Closing
import FlowGraph.Proofs.Engine.Following
import FlowGraph.Proofs.Traversal.Course

/-!
# Runs do not disturb one another

The runs of an engine share its table of runs, its permits, the registry with its lock, and the
world that the executors work in.  When what comes of a call depends on the call alone, none of this
shows in the record of a run that is not cancelled: it says what the run alone would have come to.

The key invariant is `OnCourse`: whatever the phase of the worker is, what the run has done so far
lies on the course that the run alone takes, too.  Every turn keeps it, as long as the run is not
cancelled and the registry stays the same (`Turn.onCourse`).  The other runs, and all calls, have no
part in it: they only decide when the worker has its turns.
-/

namespace FlowGraph

namespace EngineState

open Traversal (Alike Course Stops Finishes Determined ComesTo Conclusive)

variable {ε π ω : Type}

/-! ## The registry of an engine that is not shut down -/

lemma registry_useRegistry_open (ex : Executors ε π ω) (s : EngineState ε π ω) (n : ℕ)
    {r : Request} (hr : r ≠ .shutdown) (hinit : s.registry.initialized = true) :
    (s.useRegistry ex n r).registry = s.registry := by
  cases r with
  | start =>
    have hstart : s.registry.startAll ex.hooks s.world = (.ok (), s.registry, s.world) := by
      rw [Registry.startAll, if_pos hinit]
    simp only [useRegistry, hstart]
    rfl
  | shutdown => exact absurd rfl hr
  | get id => rfl
  | nodeTypes => rfl

lemma registry_askRegistry_open (ex : Executors ε π ω) (s : EngineState ε π ω) (n : ℕ)
    {r : Request} (hr : r ≠ .shutdown) (hinit : s.registry.initialized = true) :
    (s.askRegistry ex n r).registry = s.registry := by
  unfold askRegistry
  dsimp only
  split
  · exact registry_useRegistry_open ex _ n hr hinit
  · rfl

/-- Once the executors are initialized, only a shutdown changes the registry. -/
lemma Open.registry {ex : Executors ε π ω} {s : EngineState ε π ω} (h : Open s)
    (hinit : s.registry.initialized = true) (a : Act ω) :
    (s.act ex a).registry = s.registry := by
  have hrequest : ∀ {n state}, s.calls.lookup n = some state → state.request ≠ .shutdown :=
    fun hlookup => h.2 _ (mem_calls_of_lookup hlookup)
  cases a with
  | move t =>
    cases t with
    | worker other => exact registry_pollWorker ex s other
    | call n =>
      simp only [EngineState.act, poll]
      unfold pollCall
      split
      · rfl
      · next hlookup => exact absurd rfl (hrequest hlookup)
      · unfold awaitRun
        split
        · rfl
        · split <;> rfl
      · next hlookup => exact registry_askRegistry_open ex s n (hrequest hlookup) hinit
      · next hlookup => exact absurd rfl (hrequest hlookup)
      · unfold resumeGet
        split <;> rfl
      · next hlookup =>
        split
        · exact registry_useRegistry_open ex s n (hrequest hlookup) hinit
        · rfl
  | execute other w' input =>
    simp only [EngineState.act, execute]
    split <;> rfl
  | cancel other => exact (keeps_cancel s other).registry
  | forget other => rfl
  | request n r => rfl
  | abandon n => rfl
  | outside world => rfl

/-! ## The course of a worker -/

/-- What a run has done so far lies on a course from a traversal that begins like `u`. -/
def OnCourse (ex : Executors ε π ω) (r : Registry ε) (w : Workflow) (u : Traversal) :
    Phase π → Prop
  | .spawned record | .queued record | .permitted record | .awaitingRegistry record =>
    record.results = [] ∧ record.input = u.context.input
  | .traversing t =>
    w.triggers.isEmpty = false ∧
      ∃ first, Alike u first ∧ Relation.ReflTransGen (Course ex r w) first t
  | .calling t node p =>
    w.triggers.isEmpty = false ∧ ∃ first last now executor inputs event,
      Alike u first ∧ Relation.ReflTransGen (Course ex r w) first last ∧
      last.step w (Traversal.view r false now) = .entered executor node inputs t event ∧
      ∀ outcome, ComesTo ex p outcome →
        ComesTo ex (ex.begin executor ⟨node, inputs, t.context⟩) outcome
  | .storing record =>
    ∃ first left outcome, Alike u first ∧ Finishes ex r w first outcome left ∧
      record.summaries = left.record.summaries ∧ (record.status, record.error) = verdict outcome

section Turn

variable {ex : Executors ε π ω} {s : EngineState ε π ω} {id : String} {w : Workflow}
variable {r : Registry ε} {u : Traversal} {p p' : Phase π} {events : List ExecutionEvent}

lemma OnCourse.pending (h : OnCourse ex r w u p) (hp : p.isPending = true) :
    p.record.results = [] ∧ p.record.input = u.context.input := by
  cases p with
  | spawned | queued | permitted => exact h
  | _ => cases hp

/-- A run that finishes leaves a record that says so. -/
lemma summaries_finish {record : Execution} (h : record.status.isTerminal = false)
    (outcome : Traversal.Outcome) (now : Timestamp) :
    (record.finish (verdict outcome).1 (verdict outcome).2 now).summaries = record.summaries ∧
      ((record.finish (verdict outcome).1 (verdict outcome).2 now).status,
        (record.finish (verdict outcome).1 (verdict outcome).2 now).error) = verdict outcome := by
  rw [Execution.finish, h, if_neg Bool.false_ne_true]
  exact ⟨rfl, rfl⟩

/-- A run that is not cancelled ends where its course does. -/
lemma Ends.onCourse {outcome : Traversal.Outcome} (h : Ends ex s id w p outcome events)
    (hp : OnCourse ex r w u p) (hsound : p.Sound) (hfree : s.isCancelled id = false)
    (hregistry : s.registry = r)
    (hu : ∃ record context, u = Traversal.start w record context ∧ record.results = [] ∧
      context.results = [] ∧ context.errors = []) (now : Timestamp) :
    OnCourse ex r w u (.storing (p.record.finish (verdict outcome).1 (verdict outcome).2 now)) := by
  have hopen := h.not_terminal hsound
  obtain ⟨hsummaries, hverdict⟩ := summaries_finish hopen outcome now
  cases h with
  | cancelled _ hcancelled => simp [hfree] at hcancelled
  | untriggered hnone =>
    obtain ⟨hresults, -⟩ := hp
    obtain ⟨record, context, rfl, hempty, -, -⟩ := hu
    refine ⟨_, _, _, ⟨rfl, rfl, rfl, rfl, rfl⟩, .untriggered hnone, hsummaries.trans ?_, hverdict⟩
    simp only [Traversal.start, Execution.summaries, Phase.record, hresults, hempty]
  | @stopped t outcome hstep =>
    obtain ⟨hsome, first, hfirst, hcourse⟩ := hp
    rw [viewOf, hfree, hregistry] at hstep
    exact ⟨first, t, _, hfirst, .stopped hsome hcourse (.ended _ hstep), hsummaries, hverdict⟩
  | @crashed t node q hstate =>
    obtain ⟨hsome, first, last, early, executor, inputs, event, hfirst, hcourse, hstep, hcomes⟩ := hp
    rw [polled, hfree] at hstate
    have hcrashed := hcomes _ (.now _ hstate)
    exact ⟨first, t, _, hfirst, .stopped hsome hcourse (.crashed early hstep hcrashed), hsummaries,
      hverdict⟩

/-- A turn of a run that is not cancelled keeps to the course. -/
lemma Turn.onCourse (h : Turn ex s id w p p' events) (hp : OnCourse ex r w u p)
    (hsound : p.Sound) (hfree : s.isCancelled id = false) (hregistry : s.registry = r)
    (hu : ∃ record context, u = Traversal.start w record context ∧ record.results = [] ∧
      context.results = [] ∧ context.errors = []) : OnCourse ex r w u p' := by
  have hview : s.viewOf ex id = Traversal.view r false (ex.now s.world) := by
    rw [viewOf, hfree, hregistry]
  have hpolled : ∀ q, s.polled ex id q = ex.poll q false s.world := by
    intro q
    rw [polled, hfree]
  cases h with
  | queue _ => exact hp
  | grant => exact hp
  | letIn hpending _ => exact hp.pending hpending
  | «begin» hsome _ =>
    obtain ⟨record, context, rfl, hresults, hpublished, herrors⟩ := hu
    obtain ⟨hnone, hinput⟩ : _ ∧ _ = context.input := hp
    refine ⟨hsome, _, ?_, .refl⟩
    refine ⟨rfl, ?_, hinput, hpublished.symm, herrors.symm⟩
    simp only [Traversal.start, Execution.summaries, hresults, hnone]
  | pass hstep =>
    obtain ⟨hsome, first, hfirst, hcourse⟩ := hp
    rw [hview] at hstep
    exact ⟨hsome, first, hfirst, hcourse.tail (.pass _ hstep)⟩
  | refuse hstep =>
    obtain ⟨hsome, first, hfirst, hcourse⟩ := hp
    rw [hview] at hstep
    exact ⟨hsome, first, hfirst, hcourse.tail (.refuse _ hstep)⟩
  | enter hstep =>
    obtain ⟨hsome, first, hfirst, hcourse⟩ := hp
    rw [hview] at hstep
    exact ⟨hsome, first, _, _, _, _, _, hfirst, hcourse, hstep, fun _ hcomes => hcomes⟩
  | wait hstate =>
    obtain ⟨hsome, first, last, now, executor, inputs, event, hfirst, hcourse, hstep, hcomes⟩ := hp
    rw [hpolled] at hstate
    -- what the process comes to from here on, the call comes to
    exact ⟨hsome, first, last, now, executor, inputs, event, hfirst, hcourse, hstep,
      fun outcome hlater => hcomes outcome (.later _ hstate hlater)⟩
  | answer hstate =>
    obtain ⟨hsome, first, last, now, executor, inputs, event, hfirst, hcourse, hstep, hcomes⟩ := hp
    rw [hpolled] at hstate
    exact ⟨hsome, first, hfirst,
      hcourse.tail (.answer now hstep (hcomes _ (.now _ hstate)) _)⟩
  | finish hends now ms hrecord =>
    subst hrecord
    exact hends.onCourse hp hsound hfree hregistry hu now

end Turn

/-! ## A run among others, and alone -/

section After

variable (ex : Executors ε π ω) (registry : Registry ε) (config : EngineConfig) (world : ω)

/-- The registry that a run begins with stays, unless there is a shutdown. -/
lemma registry_after_open (acts more : List (Act ω))
    (hopen : (acts ++ more).filterMap Act.shutdown? = [])
    (hinit : ((make registry config world : EngineState ε π ω).after ex acts).registry.initialized =
      true) :
    ((make registry config world : EngineState ε π ω).after ex (acts ++ more)).registry =
      ((make registry config world : EngineState ε π ω).after ex acts).registry := by
  induction more using List.reverseRecOn with
  | nil => rw [List.append_nil]
  | append_singleton more a ih =>
    rw [← List.append_assoc] at hopen ⊢
    rw [List.filterMap_append, List.append_eq_nil_iff] at hopen
    have hsame := ih hopen.1
    have hnow := open_after ex registry config world (acts ++ more) hopen.1
    rw [after_concat, hnow.registry (hsame ▸ hinit) a, hsame]

/-- A run that is never cancelled keeps to the course that it would take alone. -/
lemma onCourse_after (before more : List (Act ω)) (id : String) (w : Workflow) (input : Fields)
    (hruns : Act.DistinctRuns ((before ++ [Act.execute id w input]) ++ more))
    (hopen : ((before ++ [Act.execute id w input]) ++ more).filterMap Act.shutdown? = [])
    (hinit : ((make registry config world : EngineState ε π ω).after ex
      before).registry.initialized = true)
    (hfree : ∀ between, between <+: more →
      ((make registry config world : EngineState ε π ω).after ex
        ((before ++ [Act.execute id w input]) ++ between)).isCancelled id = false)
    {record : Execution} {context : Context} (hempty : record.results = [])
    (hinput : context.input = input) (hresults : context.results = [])
    (herrors : context.errors = []) :
    Follows (fun p _ => OnCourse ex ((make registry config world : EngineState ε π ω).after ex
        before).registry w (Traversal.start w record context) p) w id
      ((make registry config world).after ex ((before ++ [Act.execute id w input]) ++ more)) := by
  have hadmitting : ((make registry config world : EngineState ε π ω).after ex
      before).shuttingDown = false := by
    refine (open_after ex registry config world before ?_).1
    rw [List.filterMap_append, List.append_eq_nil_iff, List.filterMap_append,
      List.append_eq_nil_iff] at hopen
    exact hopen.1.1
  have hworker := worker_execute ex hadmitting id w input
  rw [← after_concat] at hworker
  refine follows_after ex registry config world _ more hruns hworker ⟨rfl, hinput.symm⟩ ?_
  intro between hbetween q q' events turn hq hturn hcourse
  obtain ⟨later, rfl⟩ := hbetween
  have hsplit : (before ++ [Act.execute id w input]) ++ (between ++ later) =
      ((before ++ [Act.execute id w input]) ++ between) ++ later := by simp
  rw [hsplit] at hruns hopen
  obtain ⟨input', hjourney⟩ := journey_after ex registry config world _
    (distinctRuns_of_append hruns) hq
  have hstill : (before ++ ([Act.execute id w input] ++ between)).filterMap Act.shutdown? = [] := by
    rw [List.filterMap_append, List.append_eq_nil_iff] at hopen
    rw [← List.append_assoc]
    exact hopen.1
  have hregistry := registry_after_open ex registry config world before _ hstill hinit
  rw [← List.append_assoc] at hregistry
  exact hturn.onCourse hcourse hjourney.sound (hfree between (List.prefix_append _ _)) hregistry
    ⟨record, context, rfl, hempty, hresults, herrors⟩

/-- **Runs are isolated.**  In every history of an engine that is not shut down, with distinct ids
and executors that were initialized before the run was started: when what comes of a call depends
only on the node, its inputs, and the input, the results and the errors of the context, the final
record of a run that is never cancelled says what the run alone comes to.  Other runs may have been
started, have failed or crashed or been cancelled, the limit and the buffer be of any size, and the
workers have moved in any order.  The run alone has any id, clock and world; it only has to come to
its end there by itself. -/
theorem record_of_run_alone (before rest : List (Act ω)) (id : String) (w : Workflow)
    (input : Fields) (record : Execution) (hdet : Determined ex)
    (hruns : Act.DistinctRuns (before ++ .execute id w input :: rest))
    (hopen : (before ++ .execute id w input :: rest).filterMap Act.shutdown? = [])
    (hinit : ((make registry config world : EngineState ε π ω).after ex
      before).registry.initialized = true)
    (hfree : ∀ between, between <+: rest →
      ((make registry config world : EngineState ε π ω).after ex
        (before ++ .execute id w input :: between)).isCancelled id = false)
    (hrecord : Keyed.get? ((make registry config world : EngineState ε π ω).after ex
      (before ++ .execute id w input :: rest)).finished id = some record)
    (patience : ℕ) (other : String) (now : Timestamp) (elsewhere : ω) :
    let alone := Traversal.run ex
      ((make registry config world : EngineState ε π ω).after ex before).registry w patience
      (Execution.make other w.id input now) { executionId := other, input } false elsewhere
    alone.2.cancelled = false →
    Conclusive ex ((make registry config world : EngineState ε π ω).after ex before).registry
      alone →
    (record.status, record.error) = verdict alone.1 ∧
      record.summaries = alone.2.traversal.record.summaries := by
  intro alone hcalm hconclusive
  have hsplit : ∀ more : List (Act ω), before ++ .execute id w input :: more =
      (before ++ [Act.execute id w input]) ++ more := fun more => by simp
  have hfree' : ∀ between, between <+: rest →
      ((make registry config world : EngineState ε π ω).after ex
        ((before ++ [Act.execute id w input]) ++ between)).isCancelled id = false :=
    fun between hbetween => hsplit between ▸ hfree between hbetween
  rw [hsplit] at hruns hopen hrecord
  have hfollows := onCourse_after ex registry config world before rest id w input hruns hopen hinit
    hfree' (show (Execution.make other w.id input now).results = [] from rfl)
    (show (Context.mk other input [] []).input = input from rfl) rfl rfl
  have hnone := get?_none_of_finished ex registry config world _ hruns hrecord
  obtain ⟨first, left, outcome, halike, hfinishes, hsummaries, hverdict⟩ :=
    hfollows.finished hnone hrecord
  -- the run alone finishes, too, and there is one way to do so
  obtain ⟨houtcome, hleft⟩ := Traversal.finishes_alike hdet halike
    (Traversal.run_finishes patience _ _ _ hcalm hconclusive) hfinishes
  rw [houtcome]
  exact ⟨hverdict, hsummaries.trans hleft.summaries⟩

end After

/-- Executors that answer at once, but crash on a node with the id `bad`. -/
def brittle : Executors Unit Bool Unit where
  hooks := Executors.prompt.hooks
  now := Executors.prompt.now
  begin _ call := call.node.id = "bad"
  poll bad _ world := ({ state := .inr (if bad then .crashed else .answered (.ok [])) }, world)

/-- What comes of a call depends on the id of the node. -/
lemma determined_brittle : Determined brittle := by
  have hcomes : ∀ {bad : Bool} {outcome : CallOutcome}, ComesTo brittle bad outcome →
      outcome = if bad then .crashed else .answered (.ok []) := by
    intro bad outcome h
    cases h with
    | now world h => exact (Sum.inr.inj h).symm
    | later world h _ => cases h
  intro executor call call' outcome outcome' hsame h h'
  have hbegin : brittle.begin executor call' = brittle.begin executor call :=
    congrArg (fun node : Node => decide (node.id = "bad")) hsame.node
  rw [hcomes h, hcomes h', hbegin]

/-- An engine with brittle executors, which lets one run in at a time. -/
def narrowEngine : EngineState Unit Bool Unit :=
  make { executor? := fun _ => some (), initialized := true } { maxConcurrent := 1 } ()

/-- A run that will crash is let in. -/
def crashing : List (Act Unit) :=
  [.execute "crashed" { id := "faulty", nodes := [{ id := "bad", nodeType := .trigger }] } [],
    .move (.worker "crashed")]

/-- Another run waits for its permit, which it gets when the first one crashes; a third one is
cancelled. -/
def among : List (Act Unit) :=
  [.move (.worker "run"), .execute "dropped" lone [], .cancel "dropped",
    .move (.worker "crashed"), .move (.worker "crashed"), .move (.worker "crashed"),
    .move (.worker "run"), .move (.worker "dropped"), .move (.worker "crashed"),
    .move (.worker "run"), .move (.worker "run"), .move (.worker "run"), .move (.worker "dropped"),
    .move (.worker "run"), .move (.worker "run")]

/-- The run that waited comes to what it comes to alone. -/
theorem record_of_run_alone_brittle :
    let s := narrowEngine.after brittle (crashing ++ .execute "run" lone [] :: among)
    let alone := Traversal.run brittle narrowEngine.registry lone 1
      (Execution.make "alone" "lone" [] default) { executionId := "alone", input := [] } false ()
    (Keyed.get? s.finished "crashed").map Execution.status = some .failed ∧
      (Keyed.get? s.finished "dropped").map Execution.status = some .cancelled ∧
      ∃ record, Keyed.get? s.finished "run" = some record ∧ record.status = .completed ∧
        (record.status, record.error) = verdict alone.1 ∧
        record.summaries = alone.2.traversal.record.summaries := by
  refine ⟨rfl, rfl, ?_⟩
  obtain ⟨record, hrecord⟩ : ∃ record, Keyed.get? (narrowEngine.after brittle
      (crashing ++ .execute "run" lone [] :: among)).finished "run" = some record := ⟨_, rfl⟩
  have hruns : Act.DistinctRuns (crashing ++ .execute "run" lone [] :: among) :=
    show ["crashed", "run", "dropped"].Nodup by decide
  have hnever : ∀ between ∈ among.inits, (narrowEngine.after brittle
      (crashing ++ .execute "run" lone [] :: between)).isCancelled "run" = false := by decide
  have hfree : ∀ between, between <+: among → (narrowEngine.after brittle
      (crashing ++ .execute "run" lone [] :: between)).isCancelled "run" = false :=
    fun between hbetween => hnever between ((List.mem_inits _ _).2 hbetween)
  obtain ⟨hverdict, hsummaries⟩ := record_of_run_alone brittle _ { maxConcurrent := 1 } () crashing
    among "run" lone [] record determined_brittle hruns rfl rfl hfree hrecord 1 "alone" default ()
    rfl nofun
  exact ⟨record, hrecord, congrArg Prod.fst hverdict, hverdict, hsummaries⟩

end EngineState

end FlowGraph
