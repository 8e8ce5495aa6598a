import FlowGraph.Engine.Locks
import Mathlib.Data.List.Basic
import Mathlib.Tactic.Common

/-!
# The lock of the registry

A task *wants* an access to the registry when it has it or waits for it.  Asking for the lock and
giving it up change what one task wants, and letting tasks in changes nothing: `wants_request` and
`wants_release`.  As long as a task writes, no other task reads (`Alone`), and those who read are
not put out by what other tasks do (`mem_readers_request`, `mem_readers_release`).
-/

namespace FlowGraph

namespace RegistryLock

/-- A task has an access to the registry, or it waits for it. -/
def Wants (l : RegistryLock) (t : Task) (access : Access) : Prop :=
  (t, access) ∈ l.queue ∨ (access = .read ∧ t ∈ l.readers) ∨
    (access = .write ∧ l.writer = some t)

/-- While a task writes, nobody reads. -/
def Alone (l : RegistryLock) : Prop := ∀ t, l.writer = some t → l.readers = []

/-- A task that holds the lock has the access that it wants. -/
lemma holds_iff (l : RegistryLock) (t : Task) :
    l.holds t = true ↔ t ∈ l.readers ∨ l.writer = some t := by
  simp [holds]

lemma Wants.of_reader {l : RegistryLock} {t : Task} (h : t ∈ l.readers) : l.Wants t .read :=
  Or.inr (Or.inl ⟨rfl, h⟩)

lemma Wants.of_writer {l : RegistryLock} {t : Task} (h : l.writer = some t) : l.Wants t .write :=
  Or.inr (Or.inr ⟨rfl, h⟩)

/-! ## Letting tasks in -/

/-- What comes of letting tasks in: those who read go on reading, a task writes only alone, and each
task was in the queue with the access that it has now, or is there still. -/
lemma letIn_spec (queue : List (Task × Access)) (readers : List Task) :
    (∀ t ∈ readers, t ∈ (letIn queue readers).2.1) ∧
      (∀ t ∈ (letIn queue readers).2.1, t ∈ readers ∨ (t, .read) ∈ queue) ∧
      (∀ t, (letIn queue readers).2.2.1 = some t →
        (t, .write) ∈ queue ∧ (letIn queue readers).2.1 = []) ∧
      ∀ entry ∈ (letIn queue readers).2.2.2, entry ∈ queue := by
  induction queue generalizing readers with
  | nil => simp [letIn]
  | cons entry rest ih =>
    obtain ⟨u, access⟩ := entry
    cases access with
    | read =>
      obtain ⟨hkept, hfrom, hwriter, hqueue⟩ := ih (readers ++ [u])
      refine ⟨fun t ht => hkept t (List.mem_append_left _ ht), fun t ht => ?_, fun t ht => ?_,
        fun entry hentry => List.mem_cons_of_mem _ (hqueue entry hentry)⟩
      · rcases hfrom t ht with hold | hrest
        · rcases List.mem_append.1 hold with hreader | hnew
          · exact Or.inl hreader
          · rw [List.mem_singleton.1 hnew]
            exact Or.inr List.mem_cons_self
        · exact Or.inr (List.mem_cons_of_mem _ hrest)
      · obtain ⟨hrest, halone⟩ := hwriter t ht
        exact ⟨List.mem_cons_of_mem _ hrest, halone⟩
    | write =>
      rw [letIn]
      split
      · -- a task that writes is let in alone, and nobody after it
        next hempty =>
        rw [List.isEmpty_iff] at hempty
        subst hempty
        refine ⟨fun t ht => ht, fun t ht => (by cases ht), fun t ht => ?_,
          fun entry hentry => List.mem_cons_of_mem _ hentry⟩
        simp only [Option.some.injEq] at ht
        subst ht
        exact ⟨List.mem_cons_self, rfl⟩
      · exact ⟨fun t ht => ht, fun t ht => Or.inl ht, fun t ht => (by cases ht),
          fun entry hentry => hentry⟩

lemma mem_readers_advance {l : RegistryLock} {t : Task} (h : t ∈ l.readers) :
    t ∈ l.advance.2.readers := by
  unfold advance
  split
  · exact h
  · exact (letIn_spec l.queue l.readers).1 t h

lemma wants_advance {l : RegistryLock} {t : Task} {access : Access}
    (h : l.advance.2.Wants t access) : l.Wants t access := by
  unfold advance at h
  split at h
  · exact h
  · obtain ⟨-, hfrom, hwriter, hqueue⟩ := letIn_spec l.queue l.readers
    rcases h with hwaits | ⟨rfl, hreads⟩ | ⟨rfl, hwrites⟩
    · exact Or.inl (hqueue _ hwaits)
    · rcases hfrom t hreads with hold | hwaited
      · exact Or.inr (Or.inl ⟨rfl, hold⟩)
      · exact Or.inl hwaited
    · exact Or.inl (hwriter t hwrites).1

lemma Alone.advance {l : RegistryLock} (h : l.Alone) : l.advance.2.Alone := by
  unfold RegistryLock.advance
  split
  · exact h
  · exact fun t ht => ((letIn_spec l.queue l.readers).2.2.1 t ht).2

/-! ## Asking for the lock -/

lemma mem_readers_request {l : RegistryLock} {t : Task} (h : t ∈ l.readers) (u : Task)
    (access : Access) : t ∈ (l.request u access).readers := mem_readers_advance h

/-- A task that asks for the lock wants it, too. -/
lemma wants_request {l : RegistryLock} {t u : Task} {access asked : Access}
    (h : (l.request u asked).Wants t access) :
    l.Wants t access ∨ t = u ∧ access = asked := by
  rcases wants_advance h with hwaits | hhas
  · rcases List.mem_append.1 hwaits with hold | hnew
    · exact Or.inl (Or.inl hold)
    · obtain ⟨rfl, rfl⟩ := Prod.mk.inj (List.mem_singleton.1 hnew)
      exact Or.inr ⟨rfl, rfl⟩
  · exact Or.inl (Or.inr hhas)

lemma Alone.request {l : RegistryLock} (h : l.Alone) (u : Task) (access : Access) :
    (l.request u access).Alone := by
  have hqueued : ({ l with queue := l.queue ++ [(u, access)] } : RegistryLock).Alone := h
  exact hqueued.advance

/-! ## Giving it up -/

lemma mem_readers_release {l : RegistryLock} {t u : Task} (h : t ∈ l.readers) (hne : t ≠ u) :
    t ∈ (l.release u).2.readers := by
  have hkept : t ∈ l.readers.filter (· ≠ u) := List.mem_filter.2 ⟨h, by simpa using hne⟩
  exact mem_readers_advance hkept

/-- A task that gives the lock up does not want it any more. -/
lemma wants_release {l : RegistryLock} {t u : Task} {access : Access}
    (h : (l.release u).2.Wants t access) : t ≠ u ∧ l.Wants t access := by
  rcases wants_advance h with hwaits | ⟨rfl, hreads⟩ | ⟨rfl, hwrites⟩
  · obtain ⟨hold, hne⟩ := List.mem_filter.1 hwaits
    exact ⟨by simpa using hne, Or.inl hold⟩
  · obtain ⟨hold, hne⟩ := List.mem_filter.1 hreads
    exact ⟨by simpa using hne, Or.inr (Or.inl ⟨rfl, hold⟩)⟩
  · simp only at hwrites
    split at hwrites
    · cases hwrites
    · next hne =>
      refine ⟨?_, Or.inr (Or.inr ⟨rfl, hwrites⟩)⟩
      rintro rfl
      exact hne hwrites

lemma Alone.release {l : RegistryLock} (h : l.Alone) (u : Task) : (l.release u).2.Alone := by
  refine Alone.advance ?_
  intro t ht
  simp only at ht
  split at ht
  · cases ht
  · simp only [h t ht, List.filter_nil]

end RegistryLock

end FlowGraph
