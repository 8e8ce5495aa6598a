import FlowGraph.Executor
import FlowGraph.Proofs.Registry

/-!
# Executors that remember their hooks

An executor does not show what became of it: whether it is initialized is for its registry to know.
`Executors.chronicled` has every executor keep a history of its hooks, so that one can say what the
last of them was.  A registry keeps its word if all its executors were last started with success
while it counts as initialized (`Registry.Ready`), and starting and stopping all of them leads from
one such registry to another.

Keeping a history changes nothing else: the chronicled executors mimic those that they are made from
(`Executors.Mimics`), and so does a registry of them.  This holds of all executors that stand for
others, also when their world has more to it (`Lifecycle.Shadows`).
-/

namespace FlowGraph

variable {ε ε' π ω ω' : Type}

/-! ## Mimicry -/

/-- Hooks of executors that stand for others, in a world that stands for another: what they do to an
executor and its world, they do to those that these stand for. -/
structure Lifecycle.Shadows (f : ε' → ε) (g : ω' → ω) (hooks' : Lifecycle ε' ω')
    (hooks : Lifecycle ε ω) : Prop where
  start : ∀ e world, hooks.start (f e) (g world) =
    ((hooks'.start e world).1, f (hooks'.start e world).2.1, g (hooks'.start e world).2.2)
  stop : ∀ e world, hooks.stop (f e) (g world) =
    ((hooks'.stop e world).1, f (hooks'.stop e world).2.1, g (hooks'.stop e world).2.2)

/-- Hooks of executors that stand for others, `f` says for which: what they do to an executor, they
do to the one it stands for. -/
structure Lifecycle.Mimics (f : ε' → ε) (hooks' : Lifecycle ε' ω) (hooks : Lifecycle ε ω) :
    Prop where
  start : ∀ e world, hooks.start (f e) world =
    ((hooks'.start e world).1, f (hooks'.start e world).2.1, (hooks'.start e world).2.2)
  stop : ∀ e world, hooks.stop (f e) world =
    ((hooks'.stop e world).1, f (hooks'.stop e world).2.1, (hooks'.stop e world).2.2)

lemma Lifecycle.Mimics.shadows {f : ε' → ε} {hooks' : Lifecycle ε' ω} {hooks : Lifecycle ε ω}
    (h : hooks'.Mimics f hooks) : hooks'.Shadows f id hooks :=
  ⟨h.start, h.stop⟩

/-- Executors that stand for others: whatever is asked of them, both do the same. -/
structure Executors.Mimics (f : ε' → ε) (ex' : Executors ε' π ω) (ex : Executors ε π ω) : Prop where
  hooks : ex'.hooks.Mimics f ex.hooks
  now : ex.now = ex'.now
  begin : ∀ e call, ex.begin (f e) call = ex'.begin e call
  poll : ex.poll = ex'.poll

namespace Registry

/-- The executors that those of a registry stand for. -/
def map (f : ε' → ε) (r : Registry ε') : Registry ε where
  executor? t := (r.executor? t).map f
  initialized := r.initialized

lemma map_id (r : Registry ε) : r.map id = r := by
  simp only [map, Option.map_id, id]

lemma map_executor (f : ε' → ε) (r : Registry ε') (t : NodeType) :
    (r.map f).executor? t = (r.executor? t).map f := rfl

lemma map_set (f : ε' → ε) (r : Registry ε') (t : NodeType) (e : ε') :
    (r.set t e).map f = (r.map f).set t (f e) := by
  simp only [map, set, mk.injEq, and_true]
  funext u
  split <;> rfl

lemma get_map (f : ε' → ε) (r : Registry ε') (t : NodeType) :
    (r.map f).get t = (r.get t).map f := by
  obtain ⟨executor?, initialized⟩ := r
  cases initialized with
  | false => rfl
  | true =>
    rcases h : executor? t with _ | e <;> simp [get, map, h, Except.map]

lemma nodeTypes_map (f : ε' → ε) (r : Registry ε') : (r.map f).nodeTypes = r.nodeTypes := by
  simp only [nodeTypes, map, Option.isSome_map]

section Shadows

variable {f : ε' → ε} {g : ω' → ω} {hooks' : Lifecycle ε' ω'} {hooks : Lifecycle ε ω}

lemma stopEach_shadow (h : hooks'.Shadows f g hooks) (ts : List NodeType) (r : Registry ε')
    (world : ω') :
    stopEach hooks ts (r.map f) (g world) =
      ((stopEach hooks' ts r world).1, (stopEach hooks' ts r world).2.1.map f,
        g (stopEach hooks' ts r world).2.2) := by
  induction ts generalizing r world with
  | nil => rfl
  | cons t ts ih =>
    rcases ht : r.executor? t with _ | e
    · have hnone : (r.map f).executor? t = none := by rw [map_executor, ht]; rfl
      rw [stopEach_none ts ht, stopEach_none ts hnone]
      exact ih r world
    · have hsome : (r.map f).executor? t = some (f e) := by rw [map_executor, ht]; rfl
      rw [stopEach_some ts ht rfl, stopEach_some ts hsome (h.stop e world), ← map_set, ih]

lemma startEach_shadow (h : hooks'.Shadows f g hooks) (ts started : List NodeType)
    (r : Registry ε') (world : ω') :
    startEach hooks ts started (r.map f) (g world) =
      ((startEach hooks' ts started r world).1, (startEach hooks' ts started r world).2.1.map f,
        g (startEach hooks' ts started r world).2.2) := by
  induction ts generalizing started r world with
  | nil => rfl
  | cons t ts ih =>
    rcases ht : r.executor? t with _ | e
    · have hnone : (r.map f).executor? t = none := by rw [map_executor, ht]; rfl
      rw [startEach_none ts started ht, startEach_none ts started hnone]
      exact ih started r world
    · have hsome : (r.map f).executor? t = some (f e) := by rw [map_executor, ht]; rfl
      have hstart := h.start e world
      rcases hresult : hooks'.start e world with ⟨_ | error, e', world'⟩
      · rw [hresult] at hstart
        rw [startEach_started ts started ht hresult, startEach_started ts started hsome hstart,
          ← map_set, ih]
      · rw [hresult] at hstart
        rw [startEach_failed ts started ht hresult, startEach_failed ts started hsome hstart,
          ← map_set, stopEach_shadow h]

lemma startAll_shadow (h : hooks'.Shadows f g hooks) (r : Registry ε') (world : ω') :
    (r.map f).startAll hooks (g world) =
      ((r.startAll hooks' world).1, (r.startAll hooks' world).2.1.map f,
        g (r.startAll hooks' world).2.2) := by
  unfold startAll
  rw [startEach_shadow h]
  show (if r.initialized then _ else _) = _
  split <;> rfl

lemma stopAll_shadow (h : hooks'.Shadows f g hooks) (r : Registry ε') (world : ω') :
    (r.map f).stopAll hooks (g world) =
      ((r.stopAll hooks' world).1, (r.stopAll hooks' world).2.1.map f,
        g (r.stopAll hooks' world).2.2) := by
  unfold stopAll
  rw [stopEach_shadow h]
  rfl

end Shadows

variable {f : ε' → ε} {hooks' : Lifecycle ε' ω} {hooks : Lifecycle ε ω}

lemma startAll_map (h : hooks'.Mimics f hooks) (r : Registry ε') (world : ω) :
    (r.map f).startAll hooks world =
      ((r.startAll hooks' world).1, (r.startAll hooks' world).2.1.map f,
        (r.startAll hooks' world).2.2) :=
  startAll_shadow h.shadows r world

lemma stopAll_map (h : hooks'.Mimics f hooks) (r : Registry ε') (world : ω) :
    (r.map f).stopAll hooks world =
      ((r.stopAll hooks' world).1, (r.stopAll hooks' world).2.1.map f,
        (r.stopAll hooks' world).2.2) :=
  stopAll_shadow h.shadows r world

end Registry

/-! ## Histories -/

/-- A hook that was called, and the failure it ended with, if it failed. -/
inductive HookCall where
  | started (failure : Option NodeError)
  | stopped (failure : Option NodeError)
deriving DecidableEq, Repr

/-- An executor that remembers its hooks, the last one at the end. -/
structure Chronicled (ε : Type) where
  executor : ε
  history : List HookCall := []

/-- The last hook of an executor was a start, and it succeeded. -/
def Chronicled.IsStarted (e : Chronicled ε) : Prop :=
  e.history.getLast? = some (.started none)

/-- The hooks of executors that remember them. -/
def Lifecycle.chronicled (hooks : Lifecycle ε ω) : Lifecycle (Chronicled ε) ω where
  start e world :=
    let (failure, executor, world) := hooks.start e.executor world
    (failure, ⟨executor, e.history ++ [.started failure]⟩, world)
  stop e world :=
    let (failure, executor, world) := hooks.stop e.executor world
    (failure, ⟨executor, e.history ++ [.stopped failure]⟩, world)

/-- Executors that remember their hooks. -/
def Executors.chronicled (ex : Executors ε π ω) : Executors (Chronicled ε) π ω where
  hooks := ex.hooks.chronicled
  now := ex.now
  begin e call := ex.begin e.executor call
  poll := ex.poll

/-- To keep a history changes nothing else. -/
lemma Executors.chronicled_mimics (ex : Executors ε π ω) :
    ex.chronicled.Mimics Chronicled.executor ex :=
  ⟨⟨fun _ _ => rfl, fun _ _ => rfl⟩, rfl, fun _ _ => rfl, rfl⟩

/-- The executor was started with success. -/
lemma Lifecycle.isStarted_start {hooks : Lifecycle ε ω} {e e' : Chronicled ε} {world world' : ω}
    (h : hooks.chronicled.start e world = (none, e', world')) : e'.IsStarted := by
  simp only [chronicled, Prod.mk.injEq] at h
  obtain ⟨hnone, rfl, -⟩ := h
  simp only [Chronicled.IsStarted, List.getLast?_concat, hnone]

namespace Registry

/-- A registry whose executors have no history yet. -/
def chronicled (r : Registry ε) : Registry (Chronicled ε) := r.map fun e => ⟨e, []⟩

@[simp] lemma map_chronicled (r : Registry ε) : r.chronicled.map Chronicled.executor = r := by
  simp only [chronicled, map, Option.map_map, Function.comp_def, Option.map_id']

/-- While the executors count as initialized, the last hook of each was a start that succeeded. -/
def Ready (r : Registry (Chronicled ε)) : Prop :=
  r.initialized = true → ∀ t e, r.executor? t = some e → e.IsStarted

/-- An executor that can be had was started. -/
lemma Ready.get {r : Registry (Chronicled ε)} (h : r.Ready) {t : NodeType} {e : Chronicled ε}
    (hget : r.get t = .ok e) : r.executor? t = some e ∧ e.IsStarted := by
  obtain ⟨hinitialized, he⟩ := get_eq_ok.1 hget
  exact ⟨he, h hinitialized t e he⟩

variable (hooks : Lifecycle ε ω)

lemma stopEach_initialized (hooks : Lifecycle ε' ω) (ts : List NodeType) (r : Registry ε')
    (world : ω) : (stopEach hooks ts r world).2.1.initialized = r.initialized := by
  induction ts generalizing r world with
  | nil => rfl
  | cons t ts ih =>
    rcases ht : r.executor? t with _ | e
    · rw [stopEach_none ts ht]
      exact ih r world
    · rw [stopEach_some ts ht rfl]
      exact ih _ _

/-- When a start fails, the executors count as initialized no more than before. -/
lemma startEach_of_error (hooks : Lifecycle ε' ω) {failure : EngineError}
    (ts started : List NodeType) (r : Registry ε') (world : ω)
    (h : (startEach hooks ts started r world).1 = .error failure) :
    (startEach hooks ts started r world).2.1.initialized = r.initialized := by
  induction ts generalizing started r world with
  | nil => cases h
  | cons t ts ih =>
    rcases ht : r.executor? t with _ | e
    · rw [startEach_none ts started ht] at h ⊢
      exact ih started r world h
    · rcases hstart : hooks.start e world with ⟨_ | error, e', world'⟩
      · rw [startEach_started ts started ht hstart] at h ⊢
        exact ih (started ++ [t]) (r.set t e') world' h
      · rw [startEach_failed ts started ht hstart]
        exact stopEach_initialized hooks started (r.set t e') world'

/-- When all are started, each executor was started with success: now, if its category is one of the
listed, or before. -/
lemma startEach_isStarted {u : NodeType} (ts started : List NodeType)
    (r : Registry (Chronicled ε)) (world : ω)
    (hok : (startEach hooks.chronicled ts started r world).1 = .ok ())
    (hu : u ∈ ts ∨ ∀ e, r.executor? u = some e → e.IsStarted) :
    ∀ e, (startEach hooks.chronicled ts started r world).2.1.executor? u = some e →
      e.IsStarted := by
  induction ts generalizing started r world with
  | nil => exact hu.resolve_left List.not_mem_nil
  | cons t ts ih =>
    rcases ht : r.executor? t with _ | e
    · rw [startEach_none ts started ht] at hok ⊢
      refine ih started r world hok ?_
      rcases hu with hmem | hbefore
      · rcases List.mem_cons.1 hmem with rfl | hrest
        · exact Or.inr fun e he => by rw [ht] at he; cases he
        · exact Or.inl hrest
      · exact Or.inr hbefore
    · rcases hstart : hooks.chronicled.start e world with ⟨_ | failure, e', world'⟩
      · rw [startEach_started ts started ht hstart] at hok ⊢
        refine ih (started ++ [t]) (r.set t e') world' hok ?_
        by_cases hut : u = t
        · refine Or.inr fun e'' he => ?_
          rw [set_executor, if_pos hut] at he
          cases he
          exact Lifecycle.isStarted_start hstart
        · rcases hu with hmem | hbefore
          · exact Or.inl ((List.mem_cons.1 hmem).resolve_left hut)
          · refine Or.inr fun e'' he => hbefore e'' ?_
            rwa [set_executor, if_neg hut] at he
      · rw [startEach_failed ts started ht hstart] at hok
        cases hok

/-- Starting all executors, with or without success, leaves a registry that keeps its word. -/
lemma Ready.startAll {r : Registry (Chronicled ε)} (h : r.Ready) (world : ω) :
    (r.startAll hooks.chronicled world).2.1.Ready := by
  unfold Registry.startAll
  split
  · exact h
  · next hnot =>
    rcases hresult : (startEach hooks.chronicled NodeType.all [] r world).1 with failure | _
    · -- some failed, and they do not count as initialized
      intro hinitialized
      rw [startEach_of_error _ _ _ r world hresult] at hinitialized
      exact absurd hinitialized hnot
    · exact fun _ t => startEach_isStarted hooks NodeType.all [] r world hresult
        (Or.inl (NodeType.mem_all t))

/-- Once all executors are stopped, none counts as initialized. -/
lemma ready_stopAll (r : Registry (Chronicled ε)) (world : ω) :
    (r.stopAll hooks.chronicled world).2.1.Ready := nofun

end Registry

end FlowGraph
