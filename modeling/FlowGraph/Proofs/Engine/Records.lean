import FlowGraph.Proofs.Engine.Moves

/-!
# Records of runs

No run that was admitted is lost: it has a worker, or its record is final and can be looked up, or
its record was handed out and dropped.  This is `accounted`.  A worker that goes leaves a record
behind (`worker_act`), and a record only goes when it is forgotten (`recorded_act`).
-/

namespace FlowGraph

namespace EngineState

variable {ε π ω : Type}
variable (ex : Executors ε π ω) (registry : Registry ε) (config : EngineConfig) (world : ω)

/-- A run is over, and its record can be looked up. -/
def Recorded (s : EngineState ε π ω) (id : String) : Prop :=
  ∃ record, Keyed.get? s.finished id = some record ∧ record.status.isTerminal = true

/-- Records that are about to be stored are final. -/
lemma phases_act {s : EngineState ε π ω} (h : ∀ entry ∈ s.workers, entry.2.phase.IsFinal)
    (a : Act ω) : ∀ entry ∈ (s.act ex a).workers, entry.2.phase.IsFinal := by
  intro entry hentry
  cases effect_act ex s a with
  | quiet hsame => exact (hsame.phases entry hentry).elim (h entry) fun hfinal => hfinal
  | stored id w record ha hworker hact =>
    rw [hact] at hentry
    exact h entry (List.mem_filter.1 hentry).1
  | admitted id w input record ha hopen hconfig hfinished hworkers =>
    rw [hworkers] at hentry
    rcases Keyed.mem_insert hentry with rfl | hold
    · trivial
    · exact h entry hold
  | forgot id ha =>
    subst ha
    exact h entry hentry

/-- A worker goes on, or its run is over. -/
lemma worker_act {s : EngineState ε π ω} (hfinal : ∀ entry ∈ s.workers, entry.2.phase.IsFinal)
    (a : Act ω) {id : String} (hid : id ∈ Keyed.keys s.workers) :
    id ∈ Keyed.keys (s.act ex a).workers ∨ Recorded (s.act ex a) id := by
  cases effect_act ex s a with
  | quiet hsame =>
    left
    rw [hsame.workers]
    exact hid
  | stored other w record ha hworker hact =>
    have hterminal := hfinal _ (Keyed.mem_of_get? hworker)
    rw [hact]
    by_cases hother : other = id
    · subst hother
      exact Or.inr ⟨record, Keyed.get?_insert_self _ _ _, hterminal⟩
    · left
      simp only [store, Keyed.keys_erase, List.mem_filter]
      exact ⟨hid, by simpa using Ne.symm hother⟩
  | admitted other w input record ha hopen hconfig hfinished hworkers =>
    left
    rw [hworkers, Keyed.keys_insert]
    split
    · exact hid
    · exact List.mem_append_left _ hid
  | forgot other ha =>
    subst ha
    exact Or.inl hid

/-- A record stays until it is forgotten. -/
lemma recorded_act {s : EngineState ε π ω} (hfinal : ∀ entry ∈ s.workers, entry.2.phase.IsFinal)
    (a : Act ω) {id : String} (h : Recorded s id) :
    Recorded (s.act ex a) id ∨ a = .forget id ∧ ∃ record, (s.forget id).1 = some record := by
  obtain ⟨record, hrecord, hterminal⟩ := h
  cases effect_act ex s a with
  | quiet hsame => exact Or.inl ⟨record, by rw [hsame.finished, hrecord], hterminal⟩
  | stored other w stored ha hworker hact =>
    left
    rw [hact]
    simp only [Recorded, store, Keyed.get?_insert]
    by_cases hother : other = id
    · exact ⟨stored, if_pos hother, hfinal _ (Keyed.mem_of_get? hworker)⟩
    · exact ⟨record, by rw [if_neg hother, hrecord], hterminal⟩
  | admitted other w input admitted ha hopen hconfig hfinished hworkers =>
    exact Or.inl ⟨record, by rw [hfinished, hrecord], hterminal⟩
  | forgot other ha =>
    subst ha
    by_cases hother : other = id
    · subst hother
      exact Or.inr ⟨rfl, record, hrecord⟩
    · left
      refine ⟨record, ?_, hterminal⟩
      simp only [EngineState.act, EngineState.forget]
      rw [Keyed.get?_erase_of_ne _ (Ne.symm hother)]
      exact hrecord

lemma phases_after (acts : List (Act ω)) :
    ∀ entry ∈ ((make registry config world : EngineState ε π ω).after ex acts).workers,
      entry.2.phase.IsFinal := by
  induction acts using List.reverseRecOn with
  | nil => exact fun entry hentry => (by cases hentry)
  | append_singleton acts a ih =>
    rw [after_concat]
    exact phases_act ex ih a

/-- A split of a longer history splits the history, or its last act. -/
lemma concat_eq_append {α : Type} {acts before rest : List α} {a b : α}
    (h : acts ++ [a] = before ++ b :: rest) :
    (∃ rest', acts = before ++ b :: rest') ∨ acts = before ∧ a = b := by
  rcases List.eq_nil_or_concat rest with rfl | ⟨rest', c, rfl⟩
  · have hsplit := List.append_inj' h rfl
    exact Or.inr ⟨hsplit.1, by simpa using hsplit.2⟩
  · left
    refine ⟨rest', ?_⟩
    have hsplit : acts ++ [a] = (before ++ b :: rest') ++ [c] := by simpa using h
    exact (List.append_inj' hsplit rfl).1

/-- Every run that was admitted has a worker or a final record, unless it was forgotten. -/
lemma accounted (acts : List (Act ω)) (id : String)
    (h : (make registry config world : EngineState ε π ω).Admitted ex acts id) :
    id ∈ Keyed.keys ((make registry config world : EngineState ε π ω).after ex acts).workers ∨
      Recorded ((make registry config world : EngineState ε π ω).after ex acts) id ∨
      (make registry config world : EngineState ε π ω).Forgotten ex acts id := by
  induction acts using List.reverseRecOn with
  | nil =>
    obtain ⟨before, w, input, rest, record, heq, -⟩ := h
    simp at heq
  | append_singleton acts a ih =>
    have hfinal := phases_after ex registry config world acts
    rw [after_concat]
    obtain ⟨before, w, input, rest, record, heq, hok⟩ := h
    rcases concat_eq_append heq with ⟨rest', hacts⟩ | ⟨rfl, rfl⟩
    · -- it was admitted before
      rcases ih ⟨before, w, input, rest', record, hacts, hok⟩ with hworker | hrecorded | hforgotten
      · exact (worker_act ex hfinal a hworker).imp_right Or.inl
      · rcases recorded_act ex hfinal a hrecorded with hrecorded | ⟨rfl, dropped, hdropped⟩
        · exact Or.inr (Or.inl hrecorded)
        · exact Or.inr (Or.inr ⟨acts, [], dropped, rfl, hdropped⟩)
      · obtain ⟨earlier, later, dropped, hacts', hdropped⟩ := hforgotten
        refine Or.inr (Or.inr ⟨earlier, later ++ [a], dropped, ?_, hdropped⟩)
        rw [hacts', List.append_assoc, List.cons_append]
    · -- it is admitted now
      left
      simp only [EngineState.act, EngineState.execute] at hok ⊢
      split at hok
      · cases hok
      · next hopen =>
        rw [if_neg hopen]
        rw [Keyed.mem_keys_iff]
        simp only [wake, Keyed.get?_insert_self, Option.isSome_some]

end EngineState

end FlowGraph
