import FlowGraph.Json.Decode
import FlowGraph.Proofs.Except
import FlowGraph.Proofs.Json.Parts

/-!
# Values and their drafts

What is taken from a draft as a plain value never repeats a key of an object, however often the
draft does (`wellFormed_of_value`).  A value of that kind is what its own draft says
(`value_ofJson`).  So taking plain values from drafts is a way to normalize: what was taken once is
taken as it is ever after.
-/

namespace FlowGraph

namespace Json

/-- A written field has a well-formed value, and so have all others. -/
lemma wellFormedFields_insert {fields : Fields} (h : WellFormedFields fields) (key : String)
    {v : Json} (hv : v.WellFormed) : WellFormedFields (Keyed.insert fields key v) := by
  rw [wellFormedFields_iff] at h ⊢
  intro field hfield
  rcases Keyed.mem_insert hfield with rfl | hfield
  · exact hv
  · exact h field hfield

end Json

namespace Draft

/-! ## What drafts say -/

mutual
/-- No value that is taken from a draft repeats a key. -/
theorem wellFormed_of_value : ∀ {x : Draft} {v : Json}, x.value = .ok v → v.WellFormed
  | .null, v, h => by cases h; trivial
  | .bool b, v, h => by cases h; trivial
  | .num n, v, h => by cases h; trivial
  | .str s, v, h => by cases h; trivial
  | .broken wanted skipped, v, h => by cases h
  | .list items ending, v, h => by
    rw [value] at h
    obtain ⟨values, hitems, h⟩ := Except.of_bind_eq_ok h
    have hvalues := wellFormedItems_of_value hitems
    split at h
    · cases h
    · cases h
      exact hvalues
  | .object fields ending, v, h => by
    rw [value] at h
    obtain ⟨entries, hfields, h⟩ := Except.of_bind_eq_ok h
    have hentries := wellFormedFields_of_value hfields ⟨List.nodup_nil, trivial⟩
    split at h
    · cases h
    · cases h
      exact hentries

/-- No item that is taken from a draft repeats a key. -/
theorem wellFormedItems_of_value : ∀ {xs : List Draft} {vs : List Json},
    valueItems xs = .ok vs → Json.WellFormedItems vs
  | [], vs, h => by cases h; trivial
  | x :: xs, vs, h => by
    rw [valueItems] at h
    obtain ⟨head, hhead, h⟩ := Except.of_bind_eq_ok h
    obtain ⟨tail, htail, h⟩ := Except.of_bind_eq_ok h
    cases h
    exact ⟨wellFormed_of_value hhead, wellFormedItems_of_value htail⟩

/-- Fields that are taken from a draft are written among those taken before. -/
theorem wellFormedFields_of_value : ∀ {xs : List (Except TextFault String × Draft)}
    {taken entries : Fields}, valueFields xs taken = .ok entries →
    Keyed.Distinct taken ∧ Json.WellFormedFields taken →
    Keyed.Distinct entries ∧ Json.WellFormedFields entries
  | [], taken, entries, h, htaken => by cases h; exact htaken
  | (.error fault, x) :: xs, taken, entries, h, htaken => by cases h
  | (.ok key, x) :: xs, taken, entries, h, htaken => by
    rw [valueFields] at h
    obtain ⟨head, hhead, h⟩ := Except.of_bind_eq_ok h
    exact wellFormedFields_of_value h ⟨htaken.1.insert key head,
      Json.wellFormedFields_insert htaken.2 key (wellFormed_of_value hhead)⟩
end

/-! ## The draft of a value -/

mutual
/-- A value that repeats no key is what its draft says. -/
theorem value_ofJson : ∀ {v : Json}, v.WellFormed → (ofJson v).value = .ok v
  | .null, _ => rfl
  | .bool b, _ => rfl
  | .num n, _ => rfl
  | .str s, _ => rfl
  | .arr items, h => by
    rw [ofJson, value, valueItems_ofItems h]
    rfl
  | .obj fields, h => by
    have hvalue : valueFields (ofFields fields) [] = .ok fields := valueFields_ofFields h.1 h.2
    rw [ofJson, value, hvalue]
    rfl

/-- Items that repeat no key are what their drafts say. -/
theorem valueItems_ofItems : ∀ {vs : List Json}, Json.WellFormedItems vs →
    valueItems (ofItems vs) = .ok vs
  | [], _ => rfl
  | v :: vs, h => by
    rw [ofItems, valueItems, value_ofJson h.1, valueItems_ofItems h.2]
    rfl

/-- Fields with new keys come after those taken before. -/
theorem valueFields_ofFields : ∀ {fields taken : Fields}, Keyed.Distinct (taken ++ fields) →
    Json.WellFormedFields fields → valueFields (ofFields fields) taken = .ok (taken ++ fields)
  | [], taken, _, _ => by rw [ofFields, valueFields, List.append_nil]
  | (key, v) :: fields, taken, hdistinct, h => by
    have hnew : key ∉ Keyed.keys taken := by
      intro hmem
      rw [Keyed.Distinct, Keyed.keys, List.map_append, List.nodup_append] at hdistinct
      exact hdistinct.2.2 key hmem key (List.mem_map.2 ⟨(key, v), List.mem_cons_self, rfl⟩) rfl
    have happend : taken ++ (key, v) :: fields = (taken ++ [(key, v)]) ++ fields := by simp
    rw [happend] at hdistinct ⊢
    rw [ofFields, valueFields, value_ofJson h.1]
    show valueFields (ofFields fields) (Keyed.insert taken key v) = _
    rw [Keyed.insert_of_not_mem v hnew]
    exact valueFields_ofFields hdistinct h.2
end

end Draft

end FlowGraph
