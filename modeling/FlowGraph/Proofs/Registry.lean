import FlowGraph.Registry
import Mathlib.Tactic.Common

/-!
# Starting and stopping the executors

The executors are stopped one category after the other.  Each of them is stopped, whatever the ones
before it answered, and stopping the others does not touch it: `stopAll_executor`.
-/

namespace FlowGraph

namespace Registry

variable {ε ω : Type}

lemma set_executor (r : Registry ε) (t u : NodeType) (e : ε) :
    (r.set t e).executor? u = if u = t then some e else r.executor? u := rfl

/-- An executor is to be had while the registry is initialized. -/
lemma get_eq_ok {r : Registry ε} {t : NodeType} {e : ε} :
    r.get t = .ok e ↔ r.initialized = true ∧ r.executor? t = some e := by
  rw [get]
  split
  · next hinitialized =>
    rcases r.executor? t with _ | other
    · simp
    · simp [hinitialized]
  · next hinitialized => simp [hinitialized]

/-! ## One category after the other -/

section Each

variable {hooks : Lifecycle ε ω} {t : NodeType} {r : Registry ε} {e e' : ε} {world world' : ω}

lemma stopEach_none (ts : List NodeType) (he : r.executor? t = none) (world : ω) :
    stopEach hooks (t :: ts) r world = stopEach hooks ts r world := by
  rw [stopEach, he]

/-- An executor is stopped, and if it fails so comes first among the failures. -/
lemma stopEach_some (ts : List NodeType) (he : r.executor? t = some e)
    {failure : Option NodeError} (hstop : hooks.stop e world = (failure, e', world')) :
    stopEach hooks (t :: ts) r world =
      ((failure.map fun error => (t, error)).toList ++
          (stopEach hooks ts (r.set t e') world').1,
        (stopEach hooks ts (r.set t e') world').2) := by
  rw [stopEach, he]
  simp only [hstop]
  cases failure <;> rfl

lemma startEach_none (ts started : List NodeType) (he : r.executor? t = none) (world : ω) :
    startEach hooks (t :: ts) started r world = startEach hooks ts started r world := by
  rw [startEach, he]

/-- An executor is started with success, and those after it follow. -/
lemma startEach_started (ts started : List NodeType) (he : r.executor? t = some e)
    (hstart : hooks.start e world = (none, e', world')) :
    startEach hooks (t :: ts) started r world =
      startEach hooks ts (started ++ [t]) (r.set t e') world' := by
  rw [startEach, he]
  simp only [hstart]

/-- An executor fails to start, and those before it are stopped. -/
lemma startEach_failed (ts started : List NodeType) (he : r.executor? t = some e)
    {error : NodeError} (hstart : hooks.start e world = (some error, e', world')) :
    startEach hooks (t :: ts) started r world =
      (.error (.initialization t error), (stopEach hooks started (r.set t e') world').2) := by
  rw [startEach, he]
  simp only [hstart]

end Each

/-! ## Stopping all of them -/

/-- A category that is not in the list keeps its executor as it is. -/
lemma stopEach_of_not_mem (hooks : Lifecycle ε ω) {t : NodeType} :
    ∀ (ts : List NodeType) (r : Registry ε) (world : ω), t ∉ ts →
      (stopEach hooks ts r world).2.1.executor? t = r.executor? t := by
  intro ts
  induction ts with
  | nil => intro r world _; rfl
  | cons u us ih =>
    intro r world ht
    rw [List.mem_cons, not_or] at ht
    rcases hu : r.executor? u with _ | e
    · rw [stopEach_none us hu]
      exact ih r world ht.2
    · rw [stopEach_some us hu rfl, ih _ _ ht.2, set_executor, if_neg ht.1]

/-- Each executor of the listed categories is stopped, in some world. -/
lemma stopEach_of_mem (hooks : Lifecycle ε ω) {t : NodeType} {e : ε} :
    ∀ (ts : List NodeType) (r : Registry ε) (world : ω), ts.Nodup → t ∈ ts →
      r.executor? t = some e →
      ∃ world', (stopEach hooks ts r world).2.1.executor? t = some (hooks.stop e world').2.1 := by
  intro ts
  induction ts with
  | nil => intro r world _ ht; cases ht
  | cons u us ih =>
    intro r world hnodup ht he
    rw [List.nodup_cons] at hnodup
    by_cases hut : t = u
    · -- it is stopped now, and not touched again
      subst hut
      refine ⟨world, ?_⟩
      rw [stopEach_some us he rfl, stopEach_of_not_mem hooks us _ _ hnodup.1, set_executor,
        if_pos rfl]
    · have htus : t ∈ us := (List.mem_cons.1 ht).resolve_left hut
      rcases hu : r.executor? u with _ | f
      · rw [stopEach_none us hu]
        exact ih r world hnodup.2 htus he
      · rw [stopEach_some us hu rfl]
        exact ih _ _ hnodup.2 htus (by rw [set_executor, if_neg hut, he])

/-- A shutdown stops every executor that is registered. -/
lemma stopAll_executor (hooks : Lifecycle ε ω) (r : Registry ε) (world : ω) {t : NodeType} {e : ε}
    (h : r.executor? t = some e) :
    ∃ world', (r.stopAll hooks world).2.1.executor? t = some (hooks.stop e world').2.1 :=
  stopEach_of_mem hooks NodeType.all r world (by decide) (NodeType.mem_all t) h

end Registry

end FlowGraph
