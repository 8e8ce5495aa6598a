import FlowGraph.Proofs.Template.Expansion
import FlowGraph.Proofs.Template.Paths
import Mathlib.Data.List.TakeWhile

/-!
# Expanding again

What a template has no reserved key for is copied, so a template without any is its own expansion
(`expand_of_unreserved`).  Reserved keys never come out of an expansion unless they went in as data:
what a template expands to consists of objects that are written anew, whose keys are not reserved, and
of parts of the input.  So every law of the input's objects that the written ones obey too is a law of
the result (`allObjects_expand`), and the expansion of data without reserved keys expands to itself
(`expand_unreserved`).
-/

namespace FlowGraph

namespace Template

open Json (Part AllObjects)

variable {input template result : Json} {fields entries : Fields}

/-- No object has a reserved key, at any depth. -/
def Unreserved : Json → Prop :=
  AllObjects fun fields => ∀ key ∈ Keyed.keys fields, isReserved key = false

instance : DecidablePred Unreserved :=
  inferInstanceAs (DecidablePred (AllObjects _))

/-! ## Templates without reserved keys -/

/-- Without reserved keys nothing replaces an object, and all its fields are expanded in place. -/
lemma expand_obj_of_plain (input : Json) (h : ∀ key ∈ Keyed.keys fields, isReserved key = false) :
    expand input (.obj fields) =
      (expandValues input fields).map fun entries => .obj (Keyed.ofEntries entries) := by
  have hplain : ∀ field ∈ fields, isReserved field.1 = false := fun field hfield =>
    h field.1 (List.mem_map.2 ⟨field, hfield, rfl⟩)
  have hnone : ∀ field ∈ fields, directive? field = none := fun field hfield =>
    directive?_of_plain (hplain field hfield)
  have hleading : leadingFields fields = fields := by
    rw [leadingFields, List.takeWhile_eq_self_iff.2 fun field hfield => by rw [hnone field hfield]; rfl,
      List.filter_eq_self.2 fun field hfield => by rw [hplain field hfield]; rfl]
  rw [expand_obj, hleading, firstDirective?, List.findSome?_eq_none_iff.2 hnone]
  rcases expandValues input fields with e | entries <;> rfl

/-- A template without reserved keys is its own expansion. -/
lemma expand_of_unreserved (hwf : template.WellFormed) (h : Unreserved template) (input : Json) :
    expand input template = .ok template := by
  rw [Json.wellFormed_iff] at hwf
  induction template using Json.inside_induction with
  | inside template ih =>
    cases template with
    | null | bool _ | num _ | str _ => rw [expand]
    | arr items =>
      have hitems : items.mapM (expand input) = .ok items :=
        Except.mapM_eq_ok.2 (List.forall₂_same.2 fun x hx =>
          ih x (.single (.item hx)) (hwf.part (.item hx)) (h.part (.item hx)))
      rw [expand_arr, hitems]
      rfl
    | obj fields =>
      have hvalues : expandValues input fields = .ok fields := by
        refine Except.mapM_eq_ok.2 (List.forall₂_same.2 fun field hfield => ?_)
        have hpart : Part field.2 (.obj fields) := .field hfield
        rw [ih field.2 (.single hpart) (hwf.part hpart) (h.part hpart)]
        rfl
      have hdistinct : Keyed.Distinct fields := hwf fields .refl
      rw [expand_obj_of_plain input (h fields .refl), hvalues]
      exact congrArg (fun table => Except.ok (Json.obj table)) hdistinct.ofEntries_eq

/-! ## What comes out of an expansion -/

/-- What is written in place of a field has its key, and the expansion of its value. -/
lemma mem_entries {entry : String × Json} (h : expandValues input fields = .ok entries)
    (hentry : entry ∈ entries) :
    ∃ field ∈ fields, field.1 = entry.1 ∧ expand input field.2 = .ok entry.2 := by
  obtain ⟨field, hfield, hmap⟩ := Except.exists_of_mapM_eq_ok h hentry
  obtain ⟨v, hv, rfl⟩ := Except.of_map_eq_ok hmap
  exact ⟨field, hfield, rfl, hv⟩

/-- Objects that an expansion writes have no reserved keys. -/
lemma isReserved_of_entries (h : expandValues input (leadingFields fields) = .ok entries) :
    ∀ key ∈ Keyed.keys entries, isReserved key = false := by
  intro key hkey
  obtain ⟨entry, hentry, rfl⟩ := List.mem_map.1 hkey
  obtain ⟨field, hfield, hsame, -⟩ := mem_entries h hentry
  rw [← hsame]
  exact (mem_of_leading hfield).2

/-- What a directive makes of the input is the input, a part of it, or what a template expands to. -/
lemma allObjects_outcome {P : Fields → Prop} {d : Directive} (hinput : AllObjects P input)
    (htemplate : ∀ transform t, d = .transform transform →
      Keyed.get? transform "template" = some t → expand input t = .ok result → AllObjects P result)
    (h : d.outcome input = .ok result) : AllObjects P result := by
  cases d with
  | value =>
    obtain rfl := Except.ok.inj h
    exact hinput
  | select path =>
    obtain rfl := Except.ok.inj h
    rcases hselect : input.select path with _ | u
    · exact Json.allObjects_of_isAtom trivial
    · exact hinput.within (Json.within_of_select hselect)
  | transform transform =>
    rw [Directive.outcome, expandTransform_eq] at h
    rcases ht : Keyed.get? transform "template" with _ | t <;> rw [ht] at h
    · cases h
    · exact htemplate transform t rfl ht h

/-- A law of the objects of the input is a law of the objects of the result, if objects that are
written without reserved keys obey it. -/
lemma allObjects_expand {P : Fields → Prop}
    (hwritten : ∀ entries : Fields, (∀ key ∈ Keyed.keys entries, isReserved key = false) →
      P (Keyed.ofEntries entries))
    (hinput : AllObjects P input) (h : expand input template = .ok result) :
    AllObjects P result := by
  induction template using Json.inside_induction generalizing result with
  | inside template ih =>
    cases template with
    | null | bool _ | num _ | str _ =>
      rw [expand] at h
      obtain rfl := Except.ok.inj h
      exact Json.allObjects_of_isAtom trivial
    | arr items =>
      rw [expand_arr] at h
      obtain ⟨values, hvalues, rfl⟩ := Except.of_map_eq_ok h
      refine Json.allObjects_arr.2 fun v hv => ?_
      obtain ⟨x, hx, hexpand⟩ := Except.exists_of_mapM_eq_ok hvalues hv
      exact ih x (.single (.item hx)) hexpand
    | obj fields =>
      rw [expand_obj] at h
      obtain ⟨entries, hentries, h⟩ := Except.of_bind_eq_ok h
      rcases hfirst : firstDirective? fields with _ | d <;> rw [hfirst, complete] at h
      · obtain rfl := Except.ok.inj h
        refine Json.allObjects_obj.2 ⟨hwritten entries (isReserved_of_entries hentries), ?_⟩
        intro entry hentry
        obtain ⟨field, hfield, -, hexpand⟩ :=
          mem_entries hentries (Keyed.mem_of_mem_ofEntries hentry)
        exact ih field.2 (.single (.field (mem_of_leading hfield).1)) hexpand
      · -- the template of a transform stands two steps below the object
        refine allObjects_outcome hinput (fun transform t hd ht hexpand => ?_) h
        exact ih t (inside_of_transform (hd ▸ hfirst) ht) hexpand

/-- An expansion repeats no key unless the input does. -/
lemma wellFormed_expand (hinput : input.WellFormed) (h : expand input template = .ok result) :
    result.WellFormed := by
  rw [Json.wellFormed_iff] at hinput ⊢
  exact allObjects_expand (fun entries _ => Keyed.distinct_ofEntries entries) hinput h

lemma unreserved_expand (hinput : Unreserved input) (h : expand input template = .ok result) :
    Unreserved result := by
  refine allObjects_expand (fun entries hplain key hkey => ?_) hinput h
  rw [Keyed.keys_ofEntries, List.mem_eraseDups] at hkey
  exact hplain key hkey

/-- **Without reserved keys, templates and data are left as they are.**  A template that has none
expands to itself, in the order in which it is written.  Whatever a template makes of data that has
none has none either, and so nothing in it is taken for a template when it is expanded again. -/
theorem expand_unreserved :
    (∀ template : Json, template.WellFormed → Unreserved template →
      ∀ input, expand input template = .ok template) ∧
    ∀ template input result : Json, input.WellFormed → Unreserved input →
      expand input template = .ok result →
        Unreserved result ∧ ∀ other, expand other result = .ok result := by
  constructor
  · intro template hwf htemplate input
    exact expand_of_unreserved hwf htemplate input
  · intro template input result hwf hinput h
    have hresult : Unreserved result := unreserved_expand hinput h
    exact ⟨hresult, fun other => expand_of_unreserved (wellFormed_expand hwf h) hresult other⟩

/-- Data without reserved keys. -/
def person : Json :=
  .obj [("user", .obj [("name", .str "Ada"), ("tags", .arr [.bool true, .obj [("us$", .null)]])])]

/-- A template that puts data, and a part of it, into an object. -/
def profile : Json :=
  .obj [("who", .obj [("$select", .str "user.name")]), ("$note", .str "dropped"),
    ("source", .obj [("$value", .null)])]

/-- The data expands to itself, and so does what the template makes of it. -/
theorem expand_unreserved_profile :
    let result : Json := .obj [("who", .str "Ada"), ("source", person)]
    person.WellFormed ∧ Unreserved person ∧ expand profile person = .ok person ∧
      expand person profile = .ok result ∧ Unreserved result ∧ expand profile result = .ok result := by
  intro result
  obtain ⟨hcopied, hagain⟩ := expand_unreserved
  have hwf : person.WellFormed := by decide
  have hperson : Unreserved person := by decide
  have hexpand : expand person profile = .ok result := rfl
  obtain ⟨hresult, hsame⟩ := hagain profile person result hwf hperson hexpand
  exact ⟨hwf, hperson, hcopied person hwf hperson profile, hexpand, hresult, hsame profile⟩

end Template

end FlowGraph
