import FlowGraph.Json.Basic
import Mathlib.Logic.Basic
import Mathlib.Logic.Relation

/-!
# The parts of a value

One value stands right inside of another as an item of a list or under a key of an object (`Part`).
Through any number of such steps it stands within it (`Within`), and `parts` lists all values that do.
Parts are smaller than the whole, which gives an induction on values that reaches parts of parts too
(`inside_induction`).

What is said of all objects of a value, at any depth, is `AllObjects`.  That no object repeats a key
is one such law (`wellFormed_iff`).
-/

namespace FlowGraph

namespace Json

/-- A value stands right inside of another: as an item of a list or under a key of an object. -/
inductive Part : Json → Json → Prop where
  | item {items : List Json} {x : Json} (h : x ∈ items) : Part x (.arr items)
  | field {fields : Fields} {key : String} {x : Json} (h : (key, x) ∈ fields) : Part x (.obj fields)

/-- A value stands in another at some depth, or is that other. -/
abbrev Within : Json → Json → Prop :=
  Relation.ReflTransGen Part

/-- The value has no parts. -/
def IsAtom : Json → Prop
  | .arr _ | .obj _ => False
  | _ => True

/-- Every object that stands within a value has a property. -/
def AllObjects (P : Fields → Prop) (v : Json) : Prop :=
  ∀ fields, Within (.obj fields) v → P fields

variable {P : Fields → Prop} {u v : Json}

lemma part_arr {items : List Json} : Part u (.arr items) ↔ u ∈ items := by
  constructor
  · rintro ⟨h⟩
    exact h
  · exact Part.item

lemma part_obj {fields : Fields} : Part u (.obj fields) ↔ ∃ field ∈ fields, field.2 = u := by
  constructor
  · intro h
    cases h with
    | @field _ key _ h => exact ⟨(key, u), h, rfl⟩
  · rintro ⟨⟨key, x⟩, h, rfl⟩
    exact .field h

/-! ## Induction on parts -/

lemma Part.sizeOf_lt (h : Part u v) : sizeOf u < sizeOf v := by
  cases h with
  | item h =>
    have hlt := List.sizeOf_lt_of_mem h
    rw [Json.arr.sizeOf_spec]
    omega
  | @field fields key u h =>
    have hlt := List.sizeOf_lt_of_mem h
    rw [Prod.mk.sizeOf_spec] at hlt
    rw [Json.obj.sizeOf_spec]
    omega

lemma wellFounded_part : WellFounded Part :=
  Subrelation.wf Part.sizeOf_lt (measure (sizeOf : Json → Nat)).wf

/-- What holds of a value as soon as it holds of all values inside of it, holds of every value. -/
@[elab_as_elim]
lemma inside_induction {motive : Json → Prop} (v : Json)
    (inside : ∀ v, (∀ u, Relation.TransGen Part u v → motive u) → motive v) : motive v :=
  wellFounded_part.transGen.induction v inside

/-! ## All parts of a value -/

mutual
/-- All values within a value. -/
def parts : Json → List Json
  | .arr items => .arr items :: partsOfItems items
  | .obj fields => .obj fields :: partsOfFields fields
  | v => [v]

/-- All values within the items of a list. -/
def partsOfItems : List Json → List Json
  | [] => []
  | x :: xs => parts x ++ partsOfItems xs

/-- All values within the fields of an object. -/
def partsOfFields : List (String × Json) → List Json
  | [] => []
  | (_, x) :: xs => parts x ++ partsOfFields xs
end

lemma partsOfItems_eq (items : List Json) : partsOfItems items = items.flatMap parts := by
  induction items with
  | nil => rfl
  | cons x xs ih => rw [partsOfItems, ih, List.flatMap_cons]

lemma partsOfFields_eq (fields : Fields) :
    partsOfFields fields = fields.flatMap fun field => parts field.2 := by
  induction fields with
  | nil => rfl
  | cons field fields ih => rw [partsOfFields, ih, List.flatMap_cons]

/-- What is within a value is the value or within a value right inside of it. -/
lemma mem_parts_iff_or : u ∈ v.parts ↔ u = v ∨ ∃ w, Part w v ∧ u ∈ w.parts := by
  cases v with
  | arr items =>
    rw [parts, List.mem_cons, partsOfItems_eq, List.mem_flatMap]
    simp only [part_arr]
  | obj fields =>
    rw [parts, List.mem_cons, partsOfFields_eq, List.mem_flatMap]
    simp only [part_obj, exists_exists_and_eq_and]
  | null | bool _ | num _ | str _ =>
    simp only [parts, List.mem_singleton]
    exact ⟨.inl, fun h => h.resolve_right (by rintro ⟨w, ⟨⟩, _⟩)⟩

/-- The list of parts is complete, and nothing else stands in it. -/
lemma mem_parts_iff : u ∈ v.parts ↔ Within u v := by
  constructor
  · induction v using inside_induction with
    | inside v ih =>
      intro h
      rcases mem_parts_iff_or.1 h with rfl | ⟨w, hw, hu⟩
      · exact .refl
      · exact (ih w (.single hw) hu).tail hw
  · intro h
    induction h with
    | refl => exact mem_parts_iff_or.2 (.inl rfl)
    | tail _ hpart ih => exact mem_parts_iff_or.2 (.inr ⟨_, hpart, ih⟩)

/-! ## Laws of all objects -/

/-- A law of objects is looked up in all parts of a value. -/
lemma allObjects_iff_parts :
    AllObjects P v ↔ ∀ u ∈ v.parts, match u with | .obj fields => P fields | _ => True := by
  constructor
  · intro h u hu
    split
    · exact h _ (mem_parts_iff.1 hu)
    · trivial
  · intro h fields hfields
    exact h (.obj fields) (mem_parts_iff.2 hfields)

instance [DecidablePred P] : DecidablePred (AllObjects P) := fun v =>
  have (u : Json) : Decidable (match u with | .obj fields => P fields | _ => True) := by
    cases u <;> infer_instance
  decidable_of_iff _ (allObjects_iff_parts (v := v)).symm

lemma AllObjects.within (h : AllObjects P v) (hu : Within u v) : AllObjects P u :=
  fun fields hfields => h fields (hfields.trans hu)

lemma AllObjects.part (h : AllObjects P v) (hu : Part u v) : AllObjects P u :=
  h.within (.single hu)

/-- A law holds of all objects of a value if it holds of the value and of those inside of it. -/
lemma allObjects_iff :
    AllObjects P v ↔ (∀ fields, v = .obj fields → P fields) ∧ ∀ u, Part u v → AllObjects P u := by
  constructor
  · intro h
    refine ⟨?_, fun u hu => h.part hu⟩
    rintro fields rfl
    exact h fields .refl
  · rintro ⟨hself, hparts⟩ fields hfields
    rcases hfields.cases_tail with heq | ⟨w, hw, hpart⟩
    · exact hself fields heq
    · exact hparts w hpart fields hw

lemma allObjects_of_isAtom (h : v.IsAtom) : AllObjects P v := by
  refine allObjects_iff.2 ⟨?_, ?_⟩
  · rintro fields rfl
    exact h.elim
  · rintro u (_ | _)
    · exact h.elim
    · exact h.elim

lemma allObjects_arr {items : List Json} :
    AllObjects P (.arr items) ↔ ∀ x ∈ items, AllObjects P x := by
  rw [allObjects_iff]
  simp only [part_arr, reduceCtorEq, false_imp_iff, implies_true, true_and]

lemma allObjects_obj {fields : Fields} :
    AllObjects P (.obj fields) ↔ P fields ∧ ∀ field ∈ fields, AllObjects P field.2 := by
  rw [allObjects_iff]
  simp only [part_obj, Json.obj.injEq, forall_eq', forall_exists_index, and_imp,
    forall_apply_eq_imp_iff₂]

/-! ## Values that repeat no key -/

lemma wellFormedItems_iff {items : List Json} :
    WellFormedItems items ↔ ∀ x ∈ items, x.WellFormed := by
  induction items with
  | nil => exact ⟨fun _ => nofun, fun _ => trivial⟩
  | cons x xs ih => rw [WellFormedItems, ih, List.forall_mem_cons]

lemma wellFormedFields_iff {fields : Fields} :
    WellFormedFields fields ↔ ∀ field ∈ fields, field.2.WellFormed := by
  induction fields with
  | nil => exact ⟨fun _ => nofun, fun _ => trivial⟩
  | cons field fields ih => rw [WellFormedFields, ih, List.forall_mem_cons]

/-- A value is well-formed if all its objects have distinct keys. -/
lemma wellFormed_iff : v.WellFormed ↔ AllObjects Keyed.Distinct v := by
  induction v using inside_induction with
  | inside v ih =>
    cases v with
    | arr items =>
      rw [WellFormed, wellFormedItems_iff, allObjects_arr]
      exact forall₂_congr fun x hx => ih x (.single (.item hx))
    | obj fields =>
      rw [WellFormed, wellFormedFields_iff, allObjects_obj]
      exact and_congr_right fun _ => forall₂_congr fun field hfield =>
        ih field.2 (.single (.field hfield))
    | null | bool _ | num _ | str _ =>
      exact ⟨fun _ => allObjects_of_isAtom trivial, fun _ => trivial⟩

instance : DecidablePred WellFormed := fun _ =>
  decidable_of_iff _ wellFormed_iff.symm

end Json

end FlowGraph
