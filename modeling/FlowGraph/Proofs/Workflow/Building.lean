import FlowGraph.Context
import FlowGraph.Proofs.Workflow.Rereading
import FlowGraph.Workflow.Builder

/-!
# Writing what was built

`Workflow.Built` holds of the workflows that the builders make.  Writing such a workflow and reading
it again loses defaults of `null` and nothing else, and it fails exactly when a node was placed
where no number is: `Workflow.Built.ofJson_toJson`.

A lost default shows in a run.  Before, an input that neither the run nor the configuration provides
is `null`; after, it is missing, and a node that needs it cannot be called.
-/

namespace FlowGraph

/-! ## What the builders make -/

/-- Declarations that the builders make. -/
inductive InputSpec.Built : InputSpec → Prop
  | mandatory (id : String) : Built (.mandatory id)
  | optional (id : String) : Built (.optional id)
  | withDefault {spec : InputSpec} {value : Json} :
      Built spec → value.WellFormed → Built (spec.withDefault value)

/-- Nodes that the builders make. -/
inductive Node.Built : Node → Prop
  | make (id : String) (nodeType : NodeType) : Built (.make id nodeType)
  | withLabel {node : Node} (label : String) : Built node → Built (node.withLabel label)
  | withConfig {node : Node} {value : Json} (key : String) :
      Built node → value.WellFormed → Built (node.withConfig key value)
  | withKind {node : Node} (kind : String) : Built node → Built (node.withKind kind)
  | withInput {node : Node} {spec : InputSpec} :
      Built node → spec.Built → Built (node.withInput spec)
  | withOutput {node : Node} (id : String) : Built node → Built (node.withOutput id)
  | withPosition {node : Node} (x y : Single) : Built node → Built (node.withPosition x y)

/-- Workflows that the builders make. -/
inductive Workflow.Built : Workflow → Prop
  | make (id : String) : Built (.make id)
  | withName {w : Workflow} (name : String) : Built w → Built (w.withName name)
  | addNode {w : Workflow} {node : Node} : Built w → node.Built → Built (w.addNode node)
  | connect {w : Workflow} (source target : String) : Built w → Built (w.connect source target)
  | connectOnError {w : Workflow} (source target : String) :
      Built w → Built (w.connectOnError source target)

lemma InputSpec.Built.wellFormed {spec : InputSpec} (h : spec.Built) :
    ∀ v, spec.fallback = some v → v.WellFormed := by
  induction h with
  | mandatory id | optional id => nofun
  | withDefault _ hvalue _ =>
    rintro v ⟨⟩
    exact hvalue

/-- Setting one more value keeps all keys of a configuration apart. -/
lemma Node.WellFormed.withConfig {node : Node} {value : Json} (h : node.WellFormed) (key : String)
    (hvalue : value.WellFormed) : (node.withConfig key value).WellFormed where
  fallbacks := h.fallbacks
  config := ⟨h.config.1.insert key value, Json.wellFormedFields_insert h.config.2 key hvalue⟩

lemma Node.Built.wellFormed {node : Node} (h : node.Built) : node.WellFormed := by
  induction h with
  | make id nodeType => exact ⟨nofun, List.nodup_nil, trivial⟩
  | withLabel label _ ih => exact ⟨ih.fallbacks, ih.config⟩
  | withConfig key _ hvalue ih => exact ih.withConfig key hvalue
  | withKind kind _ ih => exact ih.withConfig "type" trivial
  | withInput _ hspec ih =>
    refine ⟨fun other hother => ?_, ih.config⟩
    rcases List.mem_append.1 hother with hold | hnew
    · exact ih.fallbacks other hold
    · obtain rfl := List.mem_singleton.1 hnew
      exact hspec.wellFormed
  | withOutput id _ ih => exact ⟨ih.fallbacks, ih.config⟩
  | withPosition x y _ ih => exact ⟨ih.fallbacks, ih.config⟩

lemma Workflow.Built.wellFormed {w : Workflow} (h : w.Built) : w.WellFormed := by
  induction h with
  | make id => nofun
  | withName name _ ih => exact ih
  | addNode _ hnode ih =>
    intro other hother
    rcases List.mem_append.1 hother with hold | hnew
    · exact ih other hold
    · obtain rfl := List.mem_singleton.1 hnew
      exact hnode.wellFormed
  | connect source target _ ih => exact ih
  | connectOnError source target _ ih => exact ih

/-! ## Inputs of a node that was read again -/

/-- A value for the input is there without its default. -/
def InputSpec.Provided (spec : InputSpec) (config input : Fields) : Prop :=
  ((Keyed.get? input spec.id).or (Keyed.get? config spec.id)).isSome = true

/-- A value that is provided is taken from the same place. -/
lemma InputSpec.source?_reread {spec : InputSpec} {config input : Fields}
    (h : spec.fallback = some .null → spec.Provided config input) :
    spec.reread.source? config input = spec.source? config input := by
  by_cases hnull : spec.fallback = some .null
  · obtain ⟨v, hv⟩ := Option.isSome_iff_exists.1 (h hnull)
    have hsource : spec.source? config input = some v := by rw [source?, hv, Option.some_or]
    have hreread : spec.reread.source? config input = some v := by
      simp only [source?, reread, hv, Option.some_or]
    rw [hsource, hreread]
  · rw [reread_eq_self.2 hnull]

section Resolving

variable {nodeId : String} {config input : Fields}

lemma resolveSpecs_reread {specs : List InputSpec}
    (h : ∀ spec ∈ specs, spec.fallback = some .null → spec.Provided config input)
    (resolved : Fields) :
    resolveSpecs nodeId config input (specs.map InputSpec.reread) resolved =
      resolveSpecs nodeId config input specs resolved := by
  induction specs generalizing resolved with
  | nil => rfl
  | cons spec specs ih =>
    rw [List.forall_mem_cons] at h
    have hid : spec.reread.id = spec.id := rfl
    have hrequired : spec.reread.required = spec.required := rfl
    rw [List.map_cons, resolveSpecs, resolveSpecs, InputSpec.source?_reread h.1, hid, hrequired]
    simp only [ih h.2]

/-- An input that is needed and that nothing gives a value keeps all inputs from being resolved. -/
lemma resolveSpecs_error {specs : List InputSpec} {spec : InputSpec} (hmem : spec ∈ specs)
    (hrequired : spec.required = true) (hnone : spec.source? config input = none)
    (resolved : Fields) :
    ∃ message,
      resolveSpecs nodeId config input specs resolved = .error (.missingInput message) := by
  induction specs generalizing resolved with
  | nil => cases hmem
  | cons first specs ih =>
    rw [resolveSpecs]
    rcases List.mem_cons.1 hmem with rfl | hrest
    · rw [hnone]
      exact ⟨_, if_pos hrequired⟩
    · rcases first.source? config input with _ | value
      · dsimp only
        split
        · exact ⟨_, rfl⟩
        · exact ih hrest resolved
      · exact ih hrest _

end Resolving

namespace Node

variable {node : Node} {input : Fields}

/-- A node that was read again resolves its inputs as before, if those with the default `null` are
provided. -/
lemma resolveInputs_reread
    (h : ∀ spec ∈ node.inputs, spec.fallback = some .null → spec.Provided node.config input) :
    node.reread.resolveInputs input = node.resolveInputs input := by
  simp only [resolveInputs, reread, resolveSpecs_reread h]

/-- A node that was read again misses an input that it needs, if only the default `null` stood for
it. -/
lemma resolveInputs_reread_error {spec : InputSpec} (hspec : spec ∈ node.inputs)
    (hrequired : spec.required = true) (hnull : spec.fallback = some .null)
    (h : ¬ spec.Provided node.config input) :
    ∃ message, node.reread.resolveInputs input = .error (.missingInput message) := by
  have hlost : spec.reread.fallback = none := by
    show spec.fallback.filter _ = none
    rw [hnull]
    rfl
  have hnone : spec.reread.source? node.config input = none := by
    rw [InputSpec.source?, hlost, Option.or_none]
    exact Option.not_isSome_iff_eq_none.1 h
  obtain ⟨message, hmessage⟩ : ∃ message, resolveSpecs node.id node.config input
      (node.inputs.map InputSpec.reread) [] = .error (.missingInput message) :=
    resolveSpecs_error (List.mem_map_of_mem hspec) hrequired hnone []
  refine ⟨message, ?_⟩
  simp only [resolveInputs, reread, hmessage]

end Node

namespace Workflow

/-- **What is lost of a built workflow.**  A workflow with finite places is read again as it was
written, without its defaults of `null`; one with another place cannot be read.  So it comes back
as it was exactly when all its places are finite and no default is `null`.  Its nodes resolve
their inputs as before where the inputs with such defaults are provided, and fail where one of
them is needed and not provided. -/
theorem Built.ofJson_toJson {w : Workflow} (h : w.Built) :
    (w.IsFinite → Workflow.ofJson w.toJson = .ok w.reread) ∧
    (¬ w.IsFinite → ∃ fault, Workflow.ofJson w.toJson = .error fault) ∧
    (Workflow.ofJson w.toJson = .ok w ↔ w.IsFinite ∧ w.NullFree) ∧
    ∀ node ∈ w.nodes, ∀ input : Fields,
      ((∀ spec ∈ node.inputs, spec.fallback = some .null → spec.Provided node.config input) →
        node.reread.resolveInputs input = node.resolveInputs input) ∧
      ∀ spec ∈ node.inputs, spec.required = true → spec.fallback = some .null →
        ¬ spec.Provided node.config input →
        ∃ message, node.reread.resolveInputs input = .error (.missingInput message) := by
  have hread : w.IsFinite → Workflow.ofJson w.toJson = .ok w.reread :=
    fun hfinite => ofDraft_toJson h.wellFormed hfinite
  have hfail : ¬ w.IsFinite → ∃ fault, Workflow.ofJson w.toJson = .error fault :=
    fun hfinite => ofDraft_toJson_error hfinite
  refine ⟨hread, hfail, ⟨fun hsame => ?_, fun ⟨hfinite, hnull⟩ => ?_⟩, fun node _ input =>
    ⟨Node.resolveInputs_reread, fun spec hspec => Node.resolveInputs_reread_error hspec⟩⟩
  · have hfinite : w.IsFinite := by
      by_contra hinfinite
      obtain ⟨fault, hfault⟩ := hfail hinfinite
      rw [hsame] at hfault
      cases hfault
    rw [hread hfinite] at hsame
    exact ⟨hfinite, reread_eq_self.1 (Except.ok.inj hsame)⟩
  · rw [hread hfinite, reread_eq_self.2 hnull]

/-- A node that needs an input, with the default `null`. -/
def nullDefault : Workflow :=
  (make "w").addNode
    ((Node.make "n" .trigger).withInput ((InputSpec.mandatory "a").withDefault .null))

/-- The default is lost, and with it the input that the node needs. -/
theorem nullDefault_lost :
    nullDefault.Built ∧ Workflow.ofJson nullDefault.toJson ≠ .ok nullDefault ∧
      nullDefault.nodes.map (fun node => node.resolveInputs []) = [.ok ⟨[("a", .null)]⟩] ∧
      ∃ again, Workflow.ofJson nullDefault.toJson = .ok again ∧
        again.nodes.map (fun node => node.resolveInputs []) =
          [.error (.missingInput "Required input a not provided for node n")] := by
  refine ⟨.addNode (.make "w") (.withInput (.make "n" .trigger)
    (.withDefault (.mandatory "a") trivial)), ?_, rfl, _, rfl, rfl⟩
  intro hsame
  have hlost : nullDefault.reread = nullDefault := Except.ok.inj hsame
  exact absurd hlost (by decide)

/-- A placed node with a configuration and a default. -/
def placedNode : Node :=
  ((((Node.make "first" .trigger).withKind "manual").withConfig "limits" (.arr [.null])).withInput
    ((InputSpec.optional "size").withDefault (.ofNat 3))).withPosition (.ofInt 3) (.ofInt (-1))

/-- A placed node, and a node after it that needs an input. -/
def placedPair : Workflow :=
  (((make "pair").addNode placedNode).addNode
    (((Node.make "second" .output).withInput (.mandatory "text")).withOutput "done")).connect
    "first" "second"

/-- Nothing is lost where no default is `null`. -/
theorem ofJson_toJson_placedPair :
    placedPair.Built ∧ Workflow.ofJson placedPair.toJson = .ok placedPair := by
  have hbuilt : placedPair.Built :=
    .connect "first" "second" (.addNode (.addNode (.make "pair")
      (.withPosition _ _ (.withInput (.withConfig "limits" (.withKind "manual"
        (.make "first" .trigger)) ⟨trivial, trivial⟩) (.withDefault (.optional "size") trivial))))
      (.withOutput "done" (.withInput (.make "second" .output) (.mandatory "text"))))
  have hfinite : placedPair.IsFinite := by
    intro node hnode p hp
    rcases List.mem_cons.1 hnode with rfl | hnode
    · obtain rfl := Option.some.inj hp
      exact ⟨by decide, by decide⟩
    · obtain rfl := List.mem_singleton.1 hnode
      cases hp
  have hnull : placedPair.NullFree := by
    intro node hnode spec hspec
    rcases List.mem_cons.1 hnode with rfl | hnode
    · obtain rfl := List.mem_singleton.1 hspec
      nofun
    · obtain rfl := List.mem_singleton.1 hnode
      obtain rfl := List.mem_singleton.1 hspec
      nofun
  exact ⟨hbuilt, (Built.ofJson_toJson hbuilt).2.2.1.2 ⟨hfinite, hnull⟩⟩

end Workflow

end FlowGraph
