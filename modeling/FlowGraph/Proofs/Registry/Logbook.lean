import FlowGraph.Proofs.Chronicle

/-!
# A logbook of the hooks that a registry calls

To say in which order a registry calls the hooks of its executors, and that it calls no others, the
world is given a logbook that every hook is written in (`Lifecycle.logged`).  `Calls` says that the
registry has called certain hooks one after the other: they are what was added to the logbook, and
each executor remembers those of its category.

Starting the executors goes through their categories in order until one fails, and then stops those
that it started (`starting_startEach`).  Stopping them goes through all of them, whatever fails
(`stopping_stopAll`).
-/

namespace FlowGraph

variable {ε ω : Type}

/-! ## Executors that log their hooks -/

/-- An executor that remembers its hooks, and knows the category it is registered for. -/
structure Member (ε : Type) extends Chronicled ε where
  category : NodeType

/-- A world with a logbook of the hooks that were called, each with the category of its executor. -/
structure Logged (ω : Type) where
  world : ω
  log : List (NodeType × HookCall) := []

/-- The hooks of executors that remember and log them. -/
def Lifecycle.logged (hooks : Lifecycle ε ω) : Lifecycle (Member ε) (Logged ω) where
  start m logged :=
    let (failure, executor, world) := hooks.chronicled.start m.toChronicled logged.world
    (failure, { executor with category := m.category },
      ⟨world, logged.log ++ [(m.category, .started failure)]⟩)
  stop m logged :=
    let (failure, executor, world) := hooks.chronicled.stop m.toChronicled logged.world
    (failure, { executor with category := m.category },
      ⟨world, logged.log ++ [(m.category, .stopped failure)]⟩)

/-- The logbook changes nothing for executors that remember their hooks. -/
lemma Lifecycle.logged_shadows (hooks : Lifecycle ε ω) :
    hooks.logged.Shadows Member.toChronicled Logged.world hooks.chronicled :=
  ⟨fun _ _ => rfl, fun _ _ => rfl⟩

/-- Neither does it change anything for the executors themselves. -/
lemma Lifecycle.logged_shadows_executor (hooks : Lifecycle ε ω) :
    hooks.logged.Shadows (fun m => m.executor) Logged.world hooks :=
  ⟨fun _ _ => rfl, fun _ _ => rfl⟩

namespace Registry

variable {r r' r'' : Registry (Member ε)} {w w' w'' : Logged ω}
variable {calls calls' : List (NodeType × HookCall)} {t : NodeType} {m m' : Member ε}

/-- Each executor is registered for its category. -/
def Enrolls (r : Registry (Member ε)) : Prop :=
  ∀ t m, r.executor? t = some m → m.category = t

lemma Enrolls.set (h : r.Enrolls) (hm : m.category = t) : (r.set t m).Enrolls := by
  intro u m' hm'
  rw [set_executor] at hm'
  split at hm'
  · next hut =>
    cases hm'
    rw [hm, hut]
  · exact h u m' hm'

/-- The hooks of one category. -/
def hooksOf (t : NodeType) (calls : List (NodeType × HookCall)) : List HookCall :=
  (calls.filter fun call => call.1 = t).map Prod.snd

/-- The given hooks were called, one after the other, and no others. -/
structure Calls (calls : List (NodeType × HookCall)) (r : Registry (Member ε)) (w : Logged ω)
    (r' : Registry (Member ε)) (w' : Logged ω) : Prop where
  log : w'.log = w.log ++ calls
  histories : ∀ t, (r'.executor? t).map (fun m => m.history) =
    (r.executor? t).map fun m => m.history ++ hooksOf t calls
  enrolls : r'.Enrolls

namespace Calls

lemma nil (h : r.Enrolls) (initialized : Bool) : Calls [] r w { r with initialized } w := by
  refine ⟨(List.append_nil _).symm, fun t => ?_, h⟩
  simp [hooksOf]

lemma trans (h : Calls calls r w r' w') (h' : Calls calls' r' w' r'' w'') :
    Calls (calls ++ calls') r w r'' w'' := by
  refine ⟨by rw [h'.log, h.log, List.append_assoc], fun t => ?_, h'.enrolls⟩
  have hboth : hooksOf t (calls ++ calls') = hooksOf t calls ++ hooksOf t calls' := by
    rw [hooksOf, List.filter_append, List.map_append]
    rfl
  have hhistories : ((r'.executor? t).map fun m => m.history).map (· ++ hooksOf t calls') =
      ((r.executor? t).map fun m => m.history ++ hooksOf t calls).map (· ++ hooksOf t calls') :=
    congrArg _ (h.histories t)
  rw [Option.map_map, Option.map_map] at hhistories
  rw [h'.histories t, hboth]
  refine hhistories.trans (Option.map_congr fun m _ => ?_)
  exact List.append_assoc _ _ _

/-- A hook of a registered executor is called. -/
lemma single (h : r.Enrolls) (hm : r.executor? t = some m) {hook : HookCall}
    (hcategory : m'.category = t) (hhistory : m'.history = m.history ++ [hook])
    (hlog : w'.log = w.log ++ [(t, hook)]) : Calls [(t, hook)] r w (r.set t m') w' := by
  refine ⟨hlog, fun u => ?_, h.set hcategory⟩
  rw [set_executor]
  split
  · next hut => simp [hut, hm, hooksOf, hhistory]
  · next hut => simp [hooksOf, Ne.symm hut]

lemma isSome (h : Calls calls r w r' w') (t : NodeType) :
    (r'.executor? t).isSome = (r.executor? t).isSome := by
  have hsome := congrArg Option.isSome (h.histories t)
  rwa [Option.isSome_map, Option.isSome_map] at hsome

/-- The registry counts as initialized or not, whatever was called. -/
lemma mark (h : Calls calls r w r' w') (initialized : Bool) :
    Calls calls r w { r' with initialized } w' :=
  ⟨h.log, h.histories, h.enrolls⟩

end Calls

/-! ## Stopping executors -/

/-- The given categories that an executor is registered for. -/
def registered (r : Registry ε) (ts : List NodeType) : List NodeType :=
  ts.filter fun t => (r.executor? t).isSome

lemma registered_none (ts : List NodeType) (h : r.executor? t = none) :
    r.registered (t :: ts) = r.registered ts := by
  simp [registered, h]

lemma registered_some (ts : List NodeType) (h : r.executor? t = some m) :
    r.registered (t :: ts) = t :: r.registered ts := by
  simp [registered, h]

lemma Calls.registered (h : Calls calls r w r' w') (ts : List NodeType) :
    r'.registered ts = r.registered ts := by
  simp only [Registry.registered, h.isSome]

/-- The hooks that ended in these ways when executors were stopped. -/
def stops (ends : List (NodeType × Option NodeError)) : List (NodeType × HookCall) :=
  ends.map fun last => (last.1, .stopped last.2)

/-- The failures among the ends. -/
def failed (ends : List (NodeType × Option NodeError)) : List (NodeType × NodeError) :=
  ends.filterMap fun last => last.2.map fun error => (last.1, error)

variable (hooks : Lifecycle ε ω)

lemma calls_stop (hr : r.Enrolls) (hm : r.executor? t = some m) {failure : Option NodeError}
    (hstop : hooks.logged.stop m w = (failure, m', w')) :
    Calls [(t, .stopped failure)] r w (r.set t m') w' := by
  simp only [Lifecycle.logged, Lifecycle.chronicled, Prod.mk.injEq] at hstop
  obtain ⟨rfl, rfl, rfl⟩ := hstop
  have hcategory := hr t m hm
  exact .single hr hm hcategory rfl (by rw [hcategory])

/-- Each of the executors is stopped, whatever fails, and all failures are collected. -/
lemma stopEach_calls (ts : List NodeType) (hr : r.Enrolls) :
    ∃ ends, ends.map Prod.fst = r.registered ts ∧
      (stopEach hooks.logged ts r w).1 = failed ends ∧
      Calls (stops ends) r w (stopEach hooks.logged ts r w).2.1
        (stopEach hooks.logged ts r w).2.2 := by
  induction ts generalizing r w with
  | nil => exact ⟨[], rfl, rfl, .nil hr _⟩
  | cons t ts ih =>
    rcases ht : r.executor? t with _ | m
    · rw [stopEach_none ts ht, registered_none ts ht]
      exact ih hr
    · rcases hstop : hooks.logged.stop m w with ⟨failure, m', w'⟩
      have hone := calls_stop hooks hr ht hstop
      -- the others are stopped in a registry where the same categories have executors
      obtain ⟨ends, hends, hfailed, hcalls⟩ := ih (r := r.set t m') (w := w') hone.enrolls
      rw [hone.registered] at hends
      rw [stopEach_some ts ht hstop, registered_some ts ht]
      refine ⟨(t, failure) :: ends, by rw [List.map_cons, hends], ?_, hone.trans hcalls⟩
      rw [hfailed, failed, failed, List.filterMap_cons]
      cases failure <;> rfl

/-- What it comes to that the executors of the given categories are stopped: all of them are, in
order, the failures are reported in that order, and none counts as initialized. -/
inductive Stopping (types : List NodeType) (r : Registry (Member ε)) (w : Logged ω) :
    Except EngineError Unit × Registry (Member ε) × Logged ω → Prop
  | mk {ends : List (NodeType × Option NodeError)} {r' : Registry (Member ε)} {w' : Logged ω}
      (hends : ends.map Prod.fst = types) (hcalls : Calls (stops ends) r w r' w')
      (hinitialized : r'.initialized = false) :
      Stopping types r w
        (if (failed ends).isEmpty then .ok () else .error (.shutdown (failed ends)), r', w')

lemma Stopping.exists_calls {types : List NodeType}
    {x : Except EngineError Unit × Registry (Member ε) × Logged ω} (h : Stopping types r w x) :
    ∃ calls, Calls calls r w x.2.1 x.2.2 := by
  cases h with
  | mk _ hcalls _ => exact ⟨_, hcalls⟩

lemma stopping_stopAll (hr : r.Enrolls) (w : Logged ω) :
    Stopping r.nodeTypes r w (r.stopAll hooks.logged w) := by
  obtain ⟨ends, hends, hfailed, hcalls⟩ := stopEach_calls (w := w) hooks NodeType.all hr
  rcases hstop : stopEach hooks.logged NodeType.all r w with ⟨failures, r', w'⟩
  rw [hstop] at hfailed hcalls
  dsimp only at hfailed
  rw [stopAll, hstop, hfailed]
  exact .mk hends (hcalls.mark false) rfl

/-! ## Starting executors -/

/-- What it comes to that the executors of the given categories are started, after those of the
categories `started`.  Either all of them are, in order, and count as initialized.  Or those before
some category are, the one of that category fails, no hook of a later one is called, and all that
were started are stopped in the same order, whatever fails then. -/
inductive Starting (types started : List NodeType) (r : Registry (Member ε)) (w : Logged ω) :
    Except EngineError Unit × Registry (Member ε) × Logged ω → Prop
  | done {r' : Registry (Member ε)} {w' : Logged ω}
      (hcalls : Calls (types.map fun t => (t, .started none)) r w r' w')
      (hinitialized : r'.initialized = true) : Starting types started r w (.ok (), r', w')
  | failed {before later : List NodeType} {t : NodeType} {error : NodeError}
      {ends : List (NodeType × Option NodeError)} {r' : Registry (Member ε)} {w' : Logged ω}
      (htypes : types = before ++ t :: later) (hends : ends.map Prod.fst = started ++ before)
      (hcalls : Calls ((before.map fun u => (u, .started none)) ++
        (t, .started (some error)) :: stops ends) r w r' w')
      (hinitialized : r'.initialized = false) :
      Starting types started r w (.error (.initialization t error), r', w')

lemma Starting.exists_calls {types started : List NodeType}
    {x : Except EngineError Unit × Registry (Member ε) × Logged ω}
    (h : Starting types started r w x) : ∃ calls, Calls calls r w x.2.1 x.2.2 := by
  cases h with
  | done hcalls _ => exact ⟨_, hcalls⟩
  | failed _ _ hcalls _ => exact ⟨_, hcalls⟩

lemma calls_start (hr : r.Enrolls) (hm : r.executor? t = some m) {failure : Option NodeError}
    (hstart : hooks.logged.start m w = (failure, m', w')) :
    Calls [(t, .started failure)] r w (r.set t m') w' := by
  simp only [Lifecycle.logged, Lifecycle.chronicled, Prod.mk.injEq] at hstart
  obtain ⟨rfl, rfl, rfl⟩ := hstart
  have hcategory := hr t m hm
  exact .single hr hm hcategory rfl (by rw [hcategory])

/-- One more is started before. -/
lemma Starting.cons {types started : List NodeType}
    {x : Except EngineError Unit × Registry (Member ε) × Logged ω}
    (hone : Calls [(t, .started none)] r w r' w') (h : Starting types (started ++ [t]) r' w' x) :
    Starting (t :: types) started r w x := by
  cases h with
  | done hcalls hinitialized => exact .done (hone.trans hcalls) hinitialized
  | @failed before later u error ends _ _ htypes hends hcalls hinitialized =>
    have hmore : t :: types = (t :: before) ++ u :: later := congrArg _ htypes
    rw [List.append_assoc] at hends
    exact .failed hmore hends (hone.trans hcalls) hinitialized

lemma starting_startEach (ts started : List NodeType) (hr : r.Enrolls)
    (hinitialized : r.initialized = false) (hstarted : r.registered started = started) :
    Starting (r.registered ts) started r w (startEach hooks.logged ts started r w) := by
  induction ts generalizing started r w with
  | nil => exact .done (.nil hr true) rfl
  | cons t ts ih =>
    rcases ht : r.executor? t with _ | m
    · rw [startEach_none ts started ht, registered_none ts ht]
      exact ih started hr hinitialized hstarted
    · rw [registered_some ts ht]
      rcases hstart : hooks.logged.start m w with ⟨failure, m', w'⟩
      have hone := calls_start hooks hr ht hstart
      rcases failure with _ | error
      · rw [startEach_started ts started ht hstart, ← hone.registered ts]
        have hall : r.registered (started ++ [t]) = r.registered started ++ r.registered [t] :=
          List.filter_append _ _
        rw [hstarted, registered_some [] ht, ← hone.registered] at hall
        exact .cons hone (ih (started ++ [t]) hone.enrolls hinitialized hall)
      · -- the executor that failed is not among those that are stopped
        rw [startEach_failed ts started ht hstart]
        obtain ⟨ends, hends, -, hcalls⟩ := stopEach_calls (w := w') hooks started hone.enrolls
        have hfirst : t :: r.registered ts = [] ++ t :: r.registered ts := rfl
        rw [hone.registered, hstarted, ← List.append_nil started] at hends
        refine .failed hfirst hends (hone.trans hcalls) ?_
        exact (stopEach_initialized _ _ _ _).trans hinitialized

lemma starting_startAll (hr : r.Enrolls) (hinitialized : r.initialized = false) (w : Logged ω) :
    Starting r.nodeTypes [] r w (r.startAll hooks.logged w) := by
  rw [startAll, hinitialized]
  exact starting_startEach hooks NodeType.all [] hr hinitialized rfl

end Registry

end FlowGraph
