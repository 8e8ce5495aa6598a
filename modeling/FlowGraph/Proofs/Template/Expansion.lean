import FlowGraph.Proofs.Except
import FlowGraph.Proofs.Json.Parts
import FlowGraph.Proofs.Keyed
import FlowGraph.Template.Expand

/-!
# What templates expand to

Expansion of an object comes to its fields one after the other, and the first field that carries a
directive ends it.  So an object is described by the fields before that one that are expanded in place
(`leadingFields`) and by the directive itself (`firstDirective?`).  In these terms the expansion of an
object is one equation (`expand_obj`), and that of lists and transforms is one each (`expand_arr`,
`expandTransform_eq`).

Expansion fails in one way only, and whether it does is decided by the template: it fails when it comes
to a transform without a template (`Faulty`, `expand_eq_error`).  Two laws follow.  Whether a template
can be expanded does not depend on the input (`expand_fails_alike`).  The first directive of an object
replaces the whole object, unless a field before it fails (`expand_firstDirective`).
-/

namespace FlowGraph

namespace Template

open Relation (TransGen)
open Json (Part AllObjects)

/-! ## Directives -/

/-- What an object template is replaced with. -/
inductive Directive where
  /-- The input. -/
  | value
  /-- The part of the input that a path leads to. -/
  | select (path : String)
  /-- The expansion of the template among the fields. -/
  | transform (fields : Fields)

/-- The directive that a field carries: its key is reserved, and its value is of the kind that the key
asks for. -/
def directive? (field : String × Json) : Option Directive :=
  if field.1 = "$value" then some .value
  else
    match field.2 with
    | .str path => if field.1 = "$select" then some (.select path) else none
    | .obj fields => if field.1 = "$transform" then some (.transform fields) else none
    | _ => none

/-- What a directive makes of an input. -/
def Directive.outcome (input : Json) : Directive → Except NodeError Json
  | value => .ok input
  | select path => .ok ((input.select path).getD .null)
  | transform fields => expandTransform input fields

/-- What becomes of an object whose fields before the first directive are written: the directive
replaces it, if there is one. -/
def complete (input : Json) (written : Fields) : Option Directive → Except NodeError Json
  | some d => d.outcome input
  | none => .ok (.obj written)

/-- The first directive among the fields of an object. -/
def firstDirective? (fields : Fields) : Option Directive :=
  fields.findSome? directive?

/-- The fields that are expanded in place: those before the first directive whose keys are not
reserved. -/
def leadingFields (fields : Fields) : Fields :=
  (fields.takeWhile fun field => (directive? field).isNone).filter fun field => !isReserved field.1

variable {input : Json} {fields before after : Fields} {field : String × Json} {d : Directive}

/-- The three kinds of directives. -/
lemma directive?_eq_some :
    directive? field = some d ↔
      (field.1 = "$value" ∧ d = .value) ∨
      (∃ path, field = ("$select", .str path) ∧ d = .select path) ∨
      ∃ transform, field = ("$transform", .obj transform) ∧ d = .transform transform := by
  constructor
  · intro h
    unfold directive? at h
    split at h
    · next hkey => exact .inl ⟨hkey, (Option.some.inj h).symm⟩
    · split at h
      · next path hv =>
        split at h
        · next hkey => exact .inr (.inl ⟨path, Prod.ext hkey hv, (Option.some.inj h).symm⟩)
        · cases h
      · next transform hv =>
        split at h
        · next hkey => exact .inr (.inr ⟨transform, Prod.ext hkey hv, (Option.some.inj h).symm⟩)
        · cases h
      · cases h
  · rintro (⟨hkey, rfl⟩ | ⟨path, rfl, rfl⟩ | ⟨transform, rfl, rfl⟩)
    · exact if_pos hkey
    · rfl
    · rfl

lemma directive?_eq_transform {transform : Fields} :
    directive? field = some (.transform transform) ↔ field = ("$transform", .obj transform) := by
  simp [directive?_eq_some]

lemma isReserved_of_directive (h : directive? field = some d) : isReserved field.1 = true := by
  rcases directive?_eq_some.1 h with ⟨hkey, -⟩ | ⟨path, rfl, -⟩ | ⟨transform, rfl, -⟩
  · rw [hkey]
    decide
  · show isReserved "$select" = true
    decide
  · show isReserved "$transform" = true
    decide

lemma directive?_of_plain (h : isReserved field.1 = false) : directive? field = none := by
  rcases hd : directive? field with _ | d
  · rfl
  · rw [isReserved_of_directive hd] at h
    cases h

lemma leadingFields_of_directive (h : directive? field = some d) (rest : Fields) :
    leadingFields (field :: rest) = [] := by
  simp [leadingFields, h]

lemma leadingFields_of_reserved (h : directive? field = none) (hkey : isReserved field.1 = true)
    (rest : Fields) : leadingFields (field :: rest) = leadingFields rest := by
  simp [leadingFields, h, hkey]

lemma leadingFields_of_plain (hkey : isReserved field.1 = false) (rest : Fields) :
    leadingFields (field :: rest) = field :: leadingFields rest := by
  simp [leadingFields, directive?_of_plain hkey, hkey]

lemma mem_of_leading (h : field ∈ leadingFields fields) :
    field ∈ fields ∧ isReserved field.1 = false := by
  obtain ⟨hmem, hkey⟩ := List.mem_filter.1 h
  exact ⟨(List.takeWhile_prefix _).subset hmem, by simpa using hkey⟩

/-- The template of the transform that replaces an object stands inside of the object. -/
lemma inside_of_transform {transform : Fields} {t : Json}
    (hfirst : firstDirective? fields = some (.transform transform))
    (ht : Keyed.get? transform "template" = some t) : TransGen Part t (.obj fields) := by
  obtain ⟨field, hmem, hd⟩ := List.exists_of_findSome?_eq_some hfirst
  obtain rfl := directive?_eq_transform.1 hd
  exact .tail (.single (.field (Keyed.mem_of_get? ht))) (.field hmem)

/-! ## Expansion in equations -/

/-- Fields with their values expanded, each on its own. -/
def expandValues (input : Json) (fields : Fields) : Except NodeError Fields :=
  fields.mapM fun field => (expand input field.2).map (field.1, ·)

lemma expandValues_cons (input : Json) (field : String × Json) (rest : Fields) :
    expandValues input (field :: rest) =
      expand input field.2 >>= fun v =>
        expandValues input rest >>= fun entries => .ok ((field.1, v) :: entries) := by
  rw [expandValues, Except.mapM_cons]
  rcases expand input field.2 with e | v <;> rfl

/-- A directive ends the expansion of an object.  A field without one is dropped if its key is
reserved, and else written with its value expanded. -/
lemma expandFields_cons (input : Json) (field : String × Json) (rest : Fields) (done : Fields) :
    expandFields input (field :: rest) done =
      match directive? field with
      | some d => d.outcome input
      | none =>
        if isReserved field.1 = true then expandFields input rest done
        else expand input field.2 >>= fun v =>
          expandFields input rest (Keyed.insert done field.1 v) := by
  obtain ⟨key, v⟩ := field
  by_cases hvalue : key = "$value"
  · -- whatever the value is, this key asks for the input
    cases v <;> simp [expandFields, directive?, hvalue, Directive.outcome]
  · cases v with
    | str path =>
      by_cases hselect : key = "$select"
      · simp [expandFields, directive?, hselect, Directive.outcome]
      · simp only [expandFields, directive?, hvalue, hselect, if_false, expand]
        rfl
    | obj fields =>
      by_cases htransform : key = "$transform"
      · simp [expandFields, directive?, htransform, Directive.outcome]
      · simp only [expandFields, directive?, hvalue, htransform, if_false, expand]
        rcases expandFields input fields [] with e | v <;> rfl
    | null | bool _ | num _ | arr _ =>
      -- no other key asks for a value of these kinds
      simp only [expandFields, directive?, hvalue, if_false]
      split
      · rfl
      · split
        · next hv => rw [hv]; rfl
        · next hv => rw [hv]; rfl

/-- Expansion of fields: those before the first directive are written, unless there is one. -/
lemma expandFields_eq (input : Json) (fields done : Fields) :
    expandFields input fields done =
      expandValues input (leadingFields fields) >>= fun entries =>
        complete input
          (entries.foldl (fun table entry => Keyed.insert table entry.1 entry.2) done)
          (firstDirective? fields) := by
  induction fields generalizing done with
  | nil => rfl
  | cons field rest ih =>
    rw [expandFields_cons]
    rcases hd : directive? field with _ | d
    · have hfirst : firstDirective? (field :: rest) = firstDirective? rest :=
        List.findSome?_cons_of_isNone (by rw [hd]; rfl)
      rcases hkey : isReserved field.1 with _ | _
      · rw [leadingFields_of_plain hkey, hfirst, expandValues_cons]
        rcases expand input field.2 with e | v
        · rfl
        · -- the rest is expanded after one more field has been written
          refine (ih (Keyed.insert done field.1 v)).trans ?_
          rcases expandValues input (leadingFields rest) with e | entries <;> rfl
      · rw [leadingFields_of_reserved hd hkey, hfirst]
        exact ih done
    · have hfirst : firstDirective? (field :: rest) = some d := by
        rw [firstDirective?, List.findSome?_cons, hd]
      rw [leadingFields_of_directive hd, hfirst]
      rfl

/-- **The expansion of an object.**  Its leading fields are expanded first.  If there is a directive,
it replaces them. -/
lemma expand_obj (input : Json) (fields : Fields) :
    expand input (.obj fields) =
      expandValues input (leadingFields fields) >>= fun entries =>
        complete input (Keyed.ofEntries entries) (firstDirective? fields) :=
  expandFields_eq input fields []

lemma expandItems_eq (input : Json) (items : List Json) :
    expandItems input items = items.mapM (expand input) := by
  induction items with
  | nil => rfl
  | cons x xs ih =>
    rw [expandItems, Except.mapM_cons, ih]
    rcases expand input x with e | v
    · rfl
    · rcases xs.mapM (expand input) with e | vs <;> rfl

lemma expand_arr (input : Json) (items : List Json) :
    expand input (.arr items) = (items.mapM (expand input)).map .arr := by
  rw [expand, expandItems_eq]
  rcases items.mapM (expand input) with e | vs <;> rfl

lemma expandTransform_eq (input : Json) (fields : Fields) :
    expandTransform input fields =
      match Keyed.get? fields "template" with
      | some t => expand input t
      | none => .error missingTemplate := by
  induction fields with
  | nil => rfl
  | cons field rest ih =>
    obtain ⟨key, v⟩ := field
    rw [expandTransform, Keyed.get?_cons]
    split
    · rfl
    · exact ih

/-! ## Faulty templates -/

/-- Expansion of the template comes to a transform without a template. -/
inductive Faulty : Json → Prop where
  | item {items : List Json} {x : Json} (hmem : x ∈ items) (hx : Faulty x) : Faulty (.arr items)
  | field {fields : Fields} {field : String × Json} (hmem : field ∈ leadingFields fields)
      (hv : Faulty field.2) : Faulty (.obj fields)
  /-- The transform that replaces an object has no template. -/
  | absent {fields transform : Fields}
      (hfirst : firstDirective? fields = some (.transform transform))
      (habsent : Keyed.get? transform "template" = none) : Faulty (.obj fields)
  /-- The transform that replaces an object has a template that is faulty. -/
  | nested {fields transform : Fields} {t : Json}
      (hfirst : firstDirective? fields = some (.transform transform))
      (htemplate : Keyed.get? transform "template" = some t) (ht : Faulty t) : Faulty (.obj fields)

/-- The directive is a transform without a template, or with a faulty one. -/
def Directive.Fails : Directive → Prop
  | transform fields => ∀ t, Keyed.get? fields "template" = some t → Faulty t
  | _ => False

lemma faulty_arr {items : List Json} : Faulty (.arr items) ↔ ∃ x ∈ items, Faulty x := by
  constructor
  · rintro (⟨hmem, hx⟩)
    exact ⟨_, hmem, hx⟩
  · rintro ⟨x, hmem, hx⟩
    exact .item hmem hx

/-- An object is faulty because of a field that is expanded in place or because of its directive. -/
lemma faulty_obj :
    Faulty (.obj fields) ↔
      (∃ field ∈ leadingFields fields, Faulty field.2) ∨
        ∃ d, firstDirective? fields = some d ∧ d.Fails := by
  constructor
  · intro h
    cases h with
    | field hmem hv => exact .inl ⟨_, hmem, hv⟩
    | absent hfirst habsent =>
      refine .inr ⟨_, hfirst, fun t ht => ?_⟩
      rw [habsent] at ht
      cases ht
    | nested hfirst htemplate ht =>
      refine .inr ⟨_, hfirst, fun u hu => ?_⟩
      obtain rfl := Option.some.inj (htemplate.symm.trans hu)
      exact ht
  · rintro (⟨field, hmem, hv⟩ | ⟨d, hfirst, hfails⟩)
    · exact .field hmem hv
    · cases d with
      | value => exact hfails.elim
      | select path => exact hfails.elim
      | transform transform =>
        rcases ht : Keyed.get? transform "template" with _ | t
        · exact .absent hfirst ht
        · exact .nested hfirst ht (hfails t ht)

lemma expandValues_eq_error {e : NodeError}
    (h : ∀ field ∈ fields, ∀ e, expand input field.2 = .error e ↔
      e = missingTemplate ∧ Faulty field.2) :
    expandValues input fields = .error e ↔
      e = missingTemplate ∧ ∃ field ∈ fields, Faulty field.2 :=
  Except.mapM_eq_error fun field hfield e => Except.map_eq_error.trans (h field hfield e)

lemma outcome_eq_error {e : NodeError}
    (h : ∀ transform t, d = .transform transform → Keyed.get? transform "template" = some t →
      (expand input t = .error e ↔ e = missingTemplate ∧ Faulty t)) :
    d.outcome input = .error e ↔ e = missingTemplate ∧ d.Fails := by
  cases d with
  | value => exact ⟨nofun, fun hfails => hfails.2.elim⟩
  | select path => exact ⟨nofun, fun hfails => hfails.2.elim⟩
  | transform transform =>
    rw [Directive.outcome, expandTransform_eq, Directive.Fails]
    rcases ht : Keyed.get? transform "template" with _ | t
    · simp [eq_comm]
    · simpa using h transform t rfl ht

/-- To write an object never fails, so only its directive can. -/
lemma complete_eq_error {written : Fields} {directive : Option Directive} {e : NodeError}
    (h : ∀ transform t, directive = some (.transform transform) →
      Keyed.get? transform "template" = some t →
      (expand input t = .error e ↔ e = missingTemplate ∧ Faulty t)) :
    complete input written directive = .error e ↔
      e = missingTemplate ∧ ∃ d, directive = some d ∧ d.Fails := by
  cases directive with
  | none => simp [complete]
  | some d =>
    rw [complete, outcome_eq_error fun transform t hd => h transform t (congrArg some hd)]
    simp

/-- **Expansion fails in one way only, and the template decides whether it does.** -/
lemma expand_eq_error {template : Json} {e : NodeError} :
    expand input template = .error e ↔ e = missingTemplate ∧ Faulty template := by
  induction template using Json.inside_induction generalizing e with
  | inside template ih =>
    cases template with
    | null | bool _ | num _ | str _ =>
      rw [expand]
      exact ⟨nofun, nofun⟩
    | arr items =>
      rw [expand_arr, Except.map_eq_error, faulty_arr]
      exact Except.mapM_eq_error fun x hx e => ih x (.single (.item hx))
    | obj fields =>
      have hvalues : ∀ e, expandValues input (leadingFields fields) = .error e ↔
          e = missingTemplate ∧ ∃ field ∈ leadingFields fields, Faulty field.2 :=
        fun e => expandValues_eq_error fun field hfield e =>
          ih field.2 (.single (.field (mem_of_leading hfield).1))
      have hcomplete : ∀ written, complete input written (firstDirective? fields) = .error e ↔
          e = missingTemplate ∧ ∃ d, firstDirective? fields = some d ∧ d.Fails :=
        fun written => complete_eq_error fun transform t hfirst ht =>
          ih t (inside_of_transform hfirst ht)
      simp only [expand_obj, Except.bind_eq_error, hvalues, hcomplete, faulty_obj]
      constructor
      · rintro (⟨he, hleading⟩ | ⟨entries, -, he, hfails⟩)
        · exact ⟨he, .inl hleading⟩
        · exact ⟨he, .inr hfails⟩
      · rintro ⟨rfl, h⟩
        by_cases hleading : ∃ field ∈ leadingFields fields, Faulty field.2
        · exact .inl ⟨rfl, hleading⟩
        · -- all fields before the directive are expanded, so expansion comes to the directive
          obtain ⟨entries, hentries⟩ := Except.exists_eq_ok fun e he => hleading ((hvalues e).1 he).2
          exact .inr ⟨entries, hentries, rfl, h.resolve_left hleading⟩

/-- What is not faulty can be expanded, against any input. -/
lemma expand_isOk_iff {template : Json} :
    (∃ v, expand input template = .ok v) ↔ ¬Faulty template := by
  constructor
  · rintro ⟨v, hv⟩ hfaulty
    have hfails : expand input template = .error missingTemplate :=
      expand_eq_error.2 ⟨rfl, hfaulty⟩
    rw [hv] at hfails
    cases hfails
  · intro hfine
    exact Except.exists_eq_ok fun e he => hfine (expand_eq_error.1 he).2

instance : DecidablePred Faulty := fun template =>
  decidable_of_iff ((expand .null template).isOk = false) (by
    rcases h : expand .null template with e | v
    · exact iff_of_true rfl (expand_eq_error.1 h).2
    · exact iff_of_false nofun (expand_isOk_iff.1 ⟨v, h⟩))

/-! ## Whether a template can be expanded -/

/-- The objects that stand under the transform key of an object have templates. -/
def HasTemplates (fields : Fields) : Prop :=
  ∀ transform : Fields, ("$transform", .obj transform) ∈ fields →
    "template" ∈ Keyed.keys transform

instance : DecidablePred HasTemplates := fun fields =>
  decidable_of_iff
    (∀ field ∈ fields, ∀ transform ∈ (match field.2 with | .obj inner => [inner] | _ => []),
      field.1 = "$transform" → "template" ∈ Keyed.keys transform) (by
    constructor
    · intro h transform hmem
      exact h _ hmem transform List.mem_cons_self rfl
    · rintro h ⟨key, v⟩ hmem transform htransform rfl
      cases v with
      | obj inner =>
        obtain rfl := List.mem_singleton.1 htransform
        exact h transform hmem
      | null | bool _ | num _ | str _ | arr _ => cases htransform)

/-- Every object that stands under a transform key, at any depth, has a template. -/
def Templated : Json → Prop :=
  AllObjects HasTemplates

instance : DecidablePred Templated :=
  inferInstanceAs (DecidablePred (AllObjects HasTemplates))

/-- Nothing is faulty in a template whose transforms all have templates, also where expansion never
comes. -/
lemma Templated.not_faulty {template : Json} (h : Templated template) : ¬Faulty template := by
  intro hfaulty
  induction hfaulty with
  | item hmem _ ih => exact ih (h.part (.item hmem))
  | field hmem _ ih => exact ih (h.part (.field (mem_of_leading hmem).1))
  | @absent fields transform hfirst habsent =>
    obtain ⟨field, hmem, hd⟩ := List.exists_of_findSome?_eq_some hfirst
    obtain rfl := directive?_eq_transform.1 hd
    exact Keyed.get?_eq_none_iff.1 habsent (h fields .refl transform hmem)
  | nested hfirst htemplate _ ih =>
    exact ih (h.within (inside_of_transform hfirst htemplate).to_reflTransGen)

/-- **Whether a template can be expanded does not depend on the data.**  It fails against one input if
and only if it fails against any other, and in the same way: expansion comes to a transform without a
template.  So if every transform has one, expansion succeeds for all inputs. -/
theorem expand_fails_alike (template : Json) :
    (∀ (input other : Json) (failure : NodeError),
      expand input template = .error failure ↔ expand other template = .error failure) ∧
    (∀ (input : Json) (failure : NodeError), expand input template = .error failure ↔
      failure = .missingInput "Transform template is required" ∧ Faulty template) ∧
    (Templated template → ∀ input : Json, ∃ value, expand input template = .ok value) := by
  refine ⟨?_, ?_, ?_⟩
  · intro input other failure
    rw [expand_eq_error, expand_eq_error]
  · intro input failure
    exact expand_eq_error
  · intro htemplated input
    exact expand_isOk_iff.2 htemplated.not_faulty

/-- A transform whose template holds a second one, beside a reserved key that asks for nothing. -/
def letter : Json :=
  .obj [("$transform", .str "skipped"), ("lines", .arr [.str "Dear",
    .obj [("$transform", .obj [("template", .obj [("name",
      .obj [("$transform", .obj [("template", .obj [("$select", .str "name")])])])])])]])]

/-- A letter, and after it a transform whose template is misspelled. -/
def unfinished : Json :=
  .arr [letter, .obj [("$transform", .obj [("templat", .obj [])])]]

/-- The letter can be expanded, and the list fails against whatever input. -/
theorem expand_fails_alike_letter :
    Templated letter ∧ (∃ value, expand (.obj [("name", .str "Ada")]) letter = .ok value) ∧
      expand .null unfinished = .error (.missingInput "Transform template is required") ∧
      expand letter unfinished = .error (.missingInput "Transform template is required") ∧
      Faulty unfinished := by
  obtain ⟨-, -, hsucceeds⟩ := expand_fails_alike letter
  obtain ⟨halike, hexactly, -⟩ := expand_fails_alike unfinished
  have htemplated : Templated letter := by decide
  have hfails : expand .null unfinished =
      .error (.missingInput "Transform template is required") := rfl
  have hother := (halike .null letter _).1 hfails
  exact ⟨htemplated, hsucceeds htemplated _, hfails, hother, ((hexactly letter _).1 hother).2⟩

/-- A transform that is not come to need not have a template. -/
example : ¬Faulty (.obj [("$value", .null), ("$transform", .obj [])]) := by decide

/-! ## What replaces an object -/

/-- The fields before the first directive decide whether it is come to. -/
lemma leadingFields_append (hbefore : ∀ earlier ∈ before, directive? earlier = none)
    (hfield : directive? field = some d) (after : Fields) :
    leadingFields (before ++ field :: after) =
      before.filter fun earlier => !isReserved earlier.1 := by
  have hall : ∀ earlier ∈ before, (directive? earlier).isNone = true := fun earlier hearlier => by
    rw [hbefore earlier hearlier]
    rfl
  rw [leadingFields, List.takeWhile_append_of_pos hall, List.takeWhile_cons_of_neg (by simp [hfield]),
    List.append_nil]

lemma firstDirective?_append (hbefore : ∀ earlier ∈ before, directive? earlier = none)
    (hfield : directive? field = some d) (after : Fields) :
    firstDirective? (before ++ field :: after) = some d := by
  rw [firstDirective?, List.findSome?_append, List.findSome?_eq_none_iff.2 hbefore,
    List.findSome?_cons, hfield]
  rfl

/-- **The first directive of an object replaces the whole object, unless a field before it fails.**
Whatever fields with reserved keys stand before the directive and whatever fields stand after it, the
object expands to what an object of that field alone expands to, if only no field before it whose key
is not reserved has a faulty value; in that case expansion fails. -/
theorem expand_firstDirective (input : Json)
    (hbefore : ∀ earlier ∈ before, directive? earlier = none)
    (hfield : (directive? field).isSome = true) :
    expand input (.obj (before ++ field :: after)) =
      if ∃ earlier ∈ before, isReserved earlier.1 = false ∧ Faulty earlier.2 then
        .error missingTemplate
      else expand input (.obj [field]) := by
  obtain ⟨d, hd⟩ := Option.isSome_iff_exists.1 hfield
  have halone : expand input (.obj [field]) = d.outcome input := by
    rw [expand_obj, leadingFields_of_directive hd, firstDirective?, List.findSome?_cons, hd]
    rfl
  have hleading : ∀ e, expandValues input (before.filter fun earlier => !isReserved earlier.1) =
      .error e ↔ e = missingTemplate ∧
        ∃ earlier ∈ before, isReserved earlier.1 = false ∧ Faulty earlier.2 := by
    intro e
    rw [expandValues_eq_error fun _ _ _ => expand_eq_error]
    simp only [List.mem_filter, Bool.not_eq_true', and_assoc]
  rw [halone, expand_obj, leadingFields_append hbefore hd, firstDirective?_append hbefore hd]
  by_cases h : ∃ earlier ∈ before, isReserved earlier.1 = false ∧ Faulty earlier.2
  · rw [if_pos h, (hleading missingTemplate).2 ⟨rfl, h⟩]
    rfl
  · obtain ⟨entries, hentries⟩ := Except.exists_eq_ok fun e he => h ((hleading e).1 he).2
    rw [if_neg h, hentries]
    rfl

/-- A field that fails stands before the directive, and so nothing is replaced: the input, which the
directive alone would give, is lost. -/
theorem expand_faultyNeighbour :
    let neighbour : String × Json := ("a", .obj [("$transform", .obj [])])
    let field : String × Json := ("$value", .null)
    (∀ earlier ∈ [neighbour], directive? earlier = none) ∧ (directive? field).isSome = true ∧
      expand (.bool true) (.obj ([neighbour] ++ field :: [])) = .error missingTemplate ∧
      expand (.bool true) (.obj [field]) = .ok (.bool true) := by
  refine ⟨?_, rfl, rfl, rfl⟩
  intro earlier hearlier
  rw [List.mem_singleton.1 hearlier]
  rfl

/-- Fields before a directive that are dropped or expanded, and one after it that would fail. -/
theorem expand_firstDirective_crowded :
    let before : Fields :=
      [("$select", .num (.int 5)), ("$note", .obj [("$transform", .obj [])]), ("kept", letter)]
    let field : String × Json := ("$transform", .obj [("template", .obj [("$value", .null)])])
    let after : Fields := [("broken", unfinished), ("$value", .null)]
    (∀ earlier ∈ before, directive? earlier = none) ∧ (directive? field).isSome = true ∧
      expand (.bool true) (.obj (before ++ field :: after)) = .ok (.bool true) := by
  intro before field after
  have hbefore : ∀ earlier ∈ before, directive? earlier = none := by
    intro earlier hearlier
    rcases List.mem_cons.1 hearlier with rfl | hearlier
    · rfl
    · rcases List.mem_pair.1 hearlier with rfl | rfl <;> rfl
  refine ⟨hbefore, rfl, ?_⟩
  have hfine : ¬∃ earlier ∈ before, isReserved earlier.1 = false ∧ Faulty earlier.2 := by decide
  rw [expand_firstDirective (.bool true) hbefore rfl, if_neg hfine]
  rfl

end Template

end FlowGraph
