import FlowGraph.Context
import FlowGraph.Proofs.Keyed

/-!
# Resolution of inputs

The inputs of a node are resolved one declaration after the other, and an id may be declared more
than once: then a later declaration writes over what an earlier one has found.  What comes of it can
be said without going through the declarations (`resolveInputs_precedence`).  The first declaration
that is required and has no source decides about failure.  If there is none, every id that has a
source in one of its declarations has a value, which comes from the run's input, or else from the
configuration, or else from the last default that is declared for it.

The key step is `resolveSpecs_eq`: up to failure, the declarations write a table of entries, one
entry for each declaration with a source.
-/

namespace FlowGraph

/-! ## Sources -/

namespace InputSpec

variable {config input : Fields} {spec : InputSpec}

/-- There is a source for a declared input: its id is a key of the run's input or of the
configuration, or the declaration has a default. -/
def HasSource (config input : Fields) (spec : InputSpec) : Prop :=
  spec.id ∈ Keyed.keys input ∨ spec.id ∈ Keyed.keys config ∨ spec.fallback.isSome = true

instance : DecidablePred (HasSource config input) :=
  fun _ => inferInstanceAs (Decidable (_ ∨ _ ∨ _))

/-- A declaration is required, but there is no source for it. -/
def IsMissing (config input : Fields) (spec : InputSpec) : Prop :=
  spec.required = true ∧ ¬ spec.HasSource config input

instance : DecidablePred (IsMissing config input) :=
  fun _ => inferInstanceAs (Decidable (_ ∧ _))

lemma source?_isSome_iff :
    (spec.source? config input).isSome = true ↔ spec.HasSource config input := by
  rw [source?, HasSource, Keyed.mem_keys_iff, Keyed.mem_keys_iff, Option.isSome_or,
    Option.isSome_or, Bool.or_eq_true, Bool.or_eq_true, or_assoc]

lemma exists_source (h : spec.HasSource config input) :
    ∃ value, spec.source? config input = some value :=
  Option.isSome_iff_exists.1 (source?_isSome_iff.2 h)

lemma source?_eq_none (h : ¬ spec.HasSource config input) : spec.source? config input = none := by
  rw [← Option.not_isSome_iff_eq_none, source?_isSome_iff]
  exact h

/-- What a declaration writes when it is resolved. -/
def entry? (config input : Fields) (spec : InputSpec) : Option (String × Json) :=
  (spec.source? config input).map fun value => (spec.id, value)

end InputSpec

/-- The default of the last declaration of an id that has one. -/
def lastFallback? (specs : List InputSpec) (id : String) : Option Json :=
  ((specs.filter fun spec => spec.id = id).filterMap InputSpec.fallback).getLast?

namespace Node

variable {node : Node} {config input : Fields}

/-- A declaration is the first one that is missing. -/
def FirstMissing (node : Node) (input : Fields) (spec : InputSpec) : Prop :=
  ∃ before after, node.inputs = before ++ spec :: after ∧ spec.IsMissing node.config input ∧
    ∀ earlier ∈ before, ¬ earlier.IsMissing node.config input

/-- The failure of a node for want of a required input. -/
def missing (node : Node) (spec : InputSpec) : NodeError :=
  .missingInput ("Required input " ++ spec.id ++ " not provided for node " ++ node.id)

/-- A table holds the inputs of a node. -/
structure Resolved (node : Node) (input table : Fields) : Prop where
  /-- The ids with a source, in the order in which they first have one. -/
  keys : Keyed.keys table =
    ((node.inputs.filter (InputSpec.HasSource node.config input ·)).map InputSpec.id).eraseDups
  distinct : Keyed.Distinct table
  value : ∀ id ∈ Keyed.keys table, Keyed.get? table id =
    ((Keyed.get? input id).or (Keyed.get? node.config id)).or (lastFallback? node.inputs id)

/-! ## The declarations one after the other -/

/-- Resolution fails at the first declaration that is missing, and else writes the entries of the
declarations one after the other. -/
lemma resolveSpecs_eq (specs : List InputSpec) (resolved : Fields) :
    resolveSpecs node.id config input specs resolved =
      match specs.find? (InputSpec.IsMissing config input ·) with
      | some spec => .error (node.missing spec)
      | none => .ok ((specs.filterMap (InputSpec.entry? config input)).foldl
          (fun table entry => Keyed.insert table entry.1 entry.2) resolved) := by
  induction specs generalizing resolved with
  | nil => rfl
  | cons spec specs ih =>
    rw [resolveSpecs, List.find?_cons, List.filterMap_cons, InputSpec.entry?]
    by_cases hsource : spec.HasSource config input
    · have hfine : ¬ spec.IsMissing config input := fun h => h.2 hsource
      obtain ⟨value, hvalue⟩ := InputSpec.exists_source hsource
      rw [hvalue, decide_eq_false hfine]
      exact ih (Keyed.insert resolved spec.id value)
    · rw [InputSpec.source?_eq_none hsource]
      rcases hrequired : spec.required with _ | _
      · have hfine : ¬ spec.IsMissing config input := fun h => by simp [h.1] at hrequired
        rw [decide_eq_false hfine]
        exact ih resolved
      · have hmissing : spec.IsMissing config input := ⟨hrequired, hsource⟩
        rw [decide_eq_true hmissing]
        rfl

/-- The table that the declarations of a node write. -/
def writtenInputs (node : Node) (input : Fields) : Fields :=
  Keyed.ofEntries (node.inputs.filterMap (InputSpec.entry? node.config input))

lemma resolveInputs_of_none
    (h : ∀ spec ∈ node.inputs, ¬ spec.IsMissing node.config input) :
    node.resolveInputs input = .ok ⟨node.writtenInputs input⟩ := by
  have hfind : node.inputs.find? (InputSpec.IsMissing node.config input ·) = none := by
    simpa [List.find?_eq_none] using h
  rw [resolveInputs, resolveSpecs_eq, hfind]
  rfl

lemma resolveInputs_of_first {spec : InputSpec} (h : node.FirstMissing input spec) :
    node.resolveInputs input = .error (node.missing spec) := by
  obtain ⟨before, after, hinputs, hspec, hbefore⟩ := h
  have hfind : node.inputs.find? (InputSpec.IsMissing node.config input ·) = some spec :=
    List.find?_eq_some_iff_append.2
      ⟨decide_eq_true hspec, before, after, hinputs, by simpa using hbefore⟩
  rw [resolveInputs, resolveSpecs_eq, hfind]

/-- Some declaration is the first one that is missing, unless none is missing. -/
lemma exists_firstMissing (h : ¬ ∀ spec ∈ node.inputs, ¬ spec.IsMissing node.config input) :
    ∃ spec, node.FirstMissing input spec := by
  rcases hfind : node.inputs.find? (InputSpec.IsMissing node.config input ·) with _ | spec
  · exact absurd (by simpa [List.find?_eq_none] using hfind) h
  · obtain ⟨hspec, before, after, hinputs, hbefore⟩ := List.find?_eq_some_iff_append.1 hfind
    exact ⟨spec, before, after, hinputs, of_decide_eq_true hspec, by simpa using hbefore⟩

/-! ## What the declarations write -/

/-- The declarations with a source write their ids. -/
lemma keys_entries (specs : List InputSpec) :
    Keyed.keys (specs.filterMap (InputSpec.entry? config input)) =
      (specs.filter (InputSpec.HasSource config input ·)).map InputSpec.id := by
  induction specs with
  | nil => rfl
  | cons spec specs ih =>
    rw [List.filterMap_cons, List.filter_cons, InputSpec.entry?]
    by_cases hsource : spec.HasSource config input
    · obtain ⟨value, hvalue⟩ := InputSpec.exists_source hsource
      rw [hvalue, if_pos (decide_eq_true hsource)]
      exact congrArg (spec.id :: ·) ih
    · rw [InputSpec.source?_eq_none hsource, if_neg (by simpa using hsource)]
      exact ih

/-- Under one key the declarations of that id write what they find. -/
lemma values_entries (specs : List InputSpec) (id : String) :
    ((specs.filterMap (InputSpec.entry? config input)).filter fun entry => entry.1 = id).map
        Prod.snd =
      (specs.filter fun spec => spec.id = id).filterMap fun spec =>
        ((Keyed.get? input id).or (Keyed.get? config id)).or spec.fallback := by
  induction specs with
  | nil => rfl
  | cons spec specs ih =>
    rw [List.filterMap_cons, List.filter_cons, InputSpec.entry?]
    by_cases hid : spec.id = id
    · subst hid
      rw [if_pos (decide_eq_true rfl), List.filterMap_cons, ← InputSpec.source?, ← ih]
      rcases spec.source? config input with _ | value <;> simp
    · rw [if_neg (by simpa using hid), ← ih]
      rcases spec.source? config input with _ | value <;> simp [hid]

lemma resolved_writtenInputs (node : Node) (input : Fields) :
    node.Resolved input (node.writtenInputs input) := by
  have hkeys : Keyed.keys (node.writtenInputs input) = _ :=
    (Keyed.keys_ofEntries _).trans (congrArg List.eraseDups (keys_entries node.inputs))
  refine ⟨hkeys, Keyed.distinct_ofEntries _, fun id hid => ?_⟩
  have hdeclared : (node.inputs.filter fun spec => spec.id = id) ≠ [] := by
    rw [hkeys, List.mem_eraseDups] at hid
    obtain ⟨spec, hspec, rfl⟩ := List.mem_map.1 hid
    exact List.ne_nil_of_mem (List.mem_filter.2 ⟨(List.mem_filter.1 hspec).1, by simp⟩)
  rw [writtenInputs, Keyed.get?_ofEntries, ← List.getLast?_map, values_entries, lastFallback?]
  rcases (Keyed.get? input id).or (Keyed.get? node.config id) with _ | value
  · rfl
  · -- all declarations of the id write the same value
    simp [List.getLast?_eq_some_getLast, hdeclared]

/-! ## The precedence of sources -/

/-- **Resolution is exactly the declared precedence.**  The inputs of a node are resolved if and
only if every required declaration has a source; else the failure names the first one that has none.
The keys of what is resolved are the ids with a source, each once, in the order in which they first
have one.  A value is that of the run's input, or else of the configuration, or else the last
default that is declared for its id. -/
theorem resolveInputs_precedence (node : Node) (context : Context) :
    ((∃ inputs, node.resolveInputs context.input = .ok inputs) ↔
      ∀ spec ∈ node.inputs, spec.required = true → spec.HasSource node.config context.input) ∧
    (∀ failure, node.resolveInputs context.input = .error failure ↔
      ∃ spec, node.FirstMissing context.input spec ∧ failure = node.missing spec) ∧
    ∀ inputs, node.resolveInputs context.input = .ok inputs →
      node.Resolved context.input inputs.fields := by
  have hall : (∀ spec ∈ node.inputs, spec.required = true →
      spec.HasSource node.config context.input) ↔
        ∀ spec ∈ node.inputs, ¬ spec.IsMissing node.config context.input := by
    simp only [InputSpec.IsMissing, not_and, not_not]
  rw [hall]
  by_cases h : ∀ spec ∈ node.inputs, ¬ spec.IsMissing node.config context.input
  · have hok := resolveInputs_of_none h
    refine ⟨⟨fun _ => h, fun _ => ⟨_, hok⟩⟩, fun failure => ⟨fun herror => ?_, ?_⟩, ?_⟩
    · rw [hok] at herror
      cases herror
    · rintro ⟨spec, hfirst, -⟩
      obtain ⟨before, after, hinputs, hspec, -⟩ := hfirst
      exact absurd hspec (h spec (by rw [hinputs]; simp))
    · rintro inputs hinputs
      rw [hok] at hinputs
      cases hinputs
      exact resolved_writtenInputs node context.input
  · obtain ⟨spec, hfirst⟩ := exists_firstMissing h
    have herror := resolveInputs_of_first hfirst
    refine ⟨⟨?_, fun hnone => absurd hnone h⟩, fun failure => ⟨fun hfailure => ?_, ?_⟩, ?_⟩
    · rintro ⟨inputs, hok⟩
      rw [herror] at hok
      cases hok
    · rw [herror] at hfailure
      cases hfailure
      exact ⟨spec, hfirst, rfl⟩
    · rintro ⟨other, hother, rfl⟩
      exact resolveInputs_of_first hother
    · rintro inputs hok
      rw [herror] at hok
      cases hok

/-- Declarations that repeat their ids, with defaults and without. -/
def layered : Node where
  id := "n"
  nodeType := .action
  inputs :=
    [{ id := "c" }, { id := "a", required := true }, { id := "b", fallback := some (.str "first") },
      { id := "b", fallback := some (.str "last") }, { id := "b" },
      { id := "a", fallback := some (.str "spare") }, { id := "d", required := true }]
  config := [("d", .str "configured")]

/-- A `null` of the run's input counts, and of the defaults the last one.  The default of one
declaration does not make up for another that is required. -/
theorem resolveInputs_precedence_layered :
    let context : Context := { executionId := "run", input := [("a", .null)] }
    let bare : Context := { executionId := "run", input := [] }
    let table : Fields := [("a", .null), ("b", .str "last"), ("d", .str "configured")]
    layered.resolveInputs context.input = .ok ⟨table⟩ ∧ layered.Resolved context.input table ∧
      (∀ spec ∈ layered.inputs, spec.required = true →
        spec.HasSource layered.config context.input) ∧
      layered.resolveInputs bare.input =
        .error (.missingInput "Required input a not provided for node n") ∧
      ∃ spec, layered.FirstMissing bare.input spec ∧
        .missingInput "Required input a not provided for node n" = layered.missing spec := by
  intro context bare table
  have hok : layered.resolveInputs context.input = .ok ⟨table⟩ := rfl
  have herror : layered.resolveInputs bare.input =
      .error (.missingInput "Required input a not provided for node n") := rfl
  obtain ⟨hsucceeds, -, hresolved⟩ := resolveInputs_precedence layered context
  obtain ⟨-, hfails, -⟩ := resolveInputs_precedence layered bare
  exact ⟨hok, hresolved _ hok, hsucceeds.1 ⟨_, hok⟩, herror, (hfails _).1 herror⟩

end Node

end FlowGraph
