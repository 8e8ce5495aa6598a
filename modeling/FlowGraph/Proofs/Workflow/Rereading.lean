import FlowGraph.Proofs.Json.Records
import FlowGraph.Proofs.Number.Widening
import FlowGraph.Workflow.Json

/-!
# Reading a workflow that was written

A workflow is written in one form and read in many.  What is written is read back part by part, and
two things may be lost: a declared default of `null` comes back as no default, and a node whose
place is not finite makes the whole workflow unreadable, since there is no text for its
coordinates.  `Workflow.ofDraft_toJson` and `Workflow.ofDraft_toJson_error` say so exactly.

No workflow that was itself read has a default of `null` (`Workflow.of_ofDraft`), in whatever
spelling it was written.  So reading normalizes: `Workflow.ofJson_toJson_of_ofDraft`.
-/

namespace FlowGraph

open Draft

variable {d : Dialect}

/-! ## What may be lost -/

/-- Both coordinates are numbers. -/
def Position.IsFinite (p : Position) : Prop :=
  p.x.isFinite = true ∧ p.y.isFinite = true

/-- The declaration as it is read again: a default of `null` is none. -/
def InputSpec.reread (spec : InputSpec) : InputSpec :=
  { spec with fallback := spec.fallback.filter fun v => v ≠ .null }

lemma InputSpec.reread_eq_self {spec : InputSpec} :
    spec.reread = spec ↔ spec.fallback ≠ some .null := by
  obtain ⟨id, valueType, required, _ | v⟩ := spec
  · simp [reread]
  · by_cases hv : v = .null <;> simp [reread, Option.filter, hv]

namespace Node

/-- The node, if it has a place, has one that can be written. -/
def IsFinite (node : Node) : Prop :=
  ∀ p, node.position = some p → p.IsFinite

/-- No value of the node repeats a key. -/
structure WellFormed (node : Node) : Prop where
  fallbacks : ∀ spec ∈ node.inputs, ∀ v, spec.fallback = some v → v.WellFormed
  config : (Json.obj node.config).WellFormed

/-- No input of the node declares the default `null`. -/
def NullFree (node : Node) : Prop :=
  ∀ spec ∈ node.inputs, spec.fallback ≠ some .null

/-- The node as it is read again. -/
def reread (node : Node) : Node :=
  { node with inputs := node.inputs.map InputSpec.reread }

lemma reread_eq_self {node : Node} : node.reread = node ↔ node.NullFree := by
  have hmap : node.inputs.map InputSpec.reread = node.inputs ↔ node.NullFree := by
    conv => lhs; rhs; rw [← List.map_id node.inputs]
    simp only [List.map_inj_left, id_eq, InputSpec.reread_eq_self, NullFree]
  rw [← hmap]
  exact ⟨congrArg Node.inputs, fun h => by rw [reread, h]⟩

end Node

namespace Workflow

/-- All nodes have places that can be written. -/
def IsFinite (w : Workflow) : Prop :=
  ∀ node ∈ w.nodes, node.IsFinite

/-- No value of the workflow repeats a key. -/
def WellFormed (w : Workflow) : Prop :=
  ∀ node ∈ w.nodes, node.WellFormed

/-- No input in the workflow declares the default `null`. -/
def NullFree (w : Workflow) : Prop :=
  ∀ node ∈ w.nodes, node.NullFree

/-- The workflow as it is read again. -/
def reread (w : Workflow) : Workflow :=
  { w with nodes := w.nodes.map Node.reread }

lemma reread_eq_self {w : Workflow} : w.reread = w ↔ w.NullFree := by
  have hmap : w.nodes.map Node.reread = w.nodes ↔ w.NullFree := by
    conv => lhs; rhs; rw [← List.map_id w.nodes]
    simp only [List.map_inj_left, id_eq, Node.reread_eq_self, NullFree]
  rw [← hmap]
  exact ⟨congrArg Workflow.nodes, fun h => by rw [reread, h]⟩

end Workflow

/-! ## What was written is read -/

@[simp] lemma NodeType.ofDraft_toJson (t : NodeType) :
    NodeType.ofDraft d (ofJson t.toJson) = .ok t := by
  cases t <;> rfl

@[simp] lemma EdgeKind.ofDraft_toJson (k : EdgeKind) :
    EdgeKind.ofDraft d (ofJson k.toJson) = .ok k := by
  cases k <;> rfl

lemma Edge.ofDraft_toJson (e : Edge) : Edge.ofDraft d (ofJson e.toJson) = .ok e := by
  simp [Edge.ofDraft, Edge.toJson, Record.decode_ofJson_obj, Except.map]

lemma OutputSpec.ofDraft_toJson (spec : OutputSpec) :
    OutputSpec.ofDraft d (ofJson spec.toJson) = .ok spec := by
  simp [OutputSpec.ofDraft, OutputSpec.toJson, Record.decode_ofJson_obj, Except.map]

lemma InputSpec.ofDraft_toJson {spec : InputSpec}
    (h : ∀ v, spec.fallback = some v → v.WellFormed) :
    InputSpec.ofDraft d (ofJson spec.toJson) = .ok spec.reread := by
  obtain ⟨id, valueType, required, _ | v⟩ := spec
  · simp [InputSpec.ofDraft, InputSpec.toJson, optionalField, Record.decode_ofJson_obj, Except.map,
      reread]
  · by_cases hnull : v = .null
    · -- the default is written, and read as an absent one
      subst hnull
      simp [InputSpec.ofDraft, InputSpec.toJson, optionalField, Record.decode_ofJson_obj,
        Except.map, reread, Option.filter]
    · have hread : (ofJson v).toOption Draft.toJson = .ok (some v) := by
        rw [toOption_ofJson hnull, toJson_ofJson (h v rfl)]
        rfl
      simp [InputSpec.ofDraft, InputSpec.toJson, optionalField, Record.decode_ofJson_obj,
        Except.map, reread, Option.filter, hread, hnull]

/-- A coordinate that is finite is written as a number. -/
lemma toSingle_ofDouble {x : Single} (h : x.isFinite = true) :
    (ofJson (Json.ofDouble x.toDouble)).toSingle = .ok x := by
  rw [Json.ofDouble, Single.isFinite_toDouble, if_pos h]
  exact congrArg Except.ok (Single.ofDouble_toDouble h)

/-- A coordinate that is not finite is written as `null`, which is no number. -/
lemma toSingle_ofDouble_error {x : Single} (h : ¬ x.isFinite = true) :
    ∃ fault, (ofJson (Json.ofDouble x.toDouble)).toSingle = .error fault := by
  rw [Json.ofDouble, Single.isFinite_toDouble, if_neg h]
  exact ⟨_, rfl⟩

namespace Position

lemma ofDraft_toJson {p : Position} (h : p.IsFinite) :
    Position.ofDraft d (ofJson p.toJson) = .ok p := by
  simp [Position.ofDraft, Position.toJson, Record.decode_ofJson_obj, Except.map,
    toSingle_ofDouble h.1, toSingle_ofDouble h.2]

lemma ofDraft_toJson_error {p : Position} (h : ¬ p.IsFinite) :
    ∃ fault, Position.ofDraft d (ofJson p.toJson) = .error fault := by
  by_cases hx : p.x.isFinite = true
  · have hy : ¬ p.y.isFinite = true := fun hy => h ⟨hx, hy⟩
    obtain ⟨fault, hfault⟩ := toSingle_ofDouble_error hy
    refine ⟨fault, ?_⟩
    simp [Position.ofDraft, Position.toJson, Record.decode_ofJson_obj, Except.map,
      toSingle_ofDouble hx, hfault]
  · obtain ⟨fault, hfault⟩ := toSingle_ofDouble_error hx
    refine ⟨fault, ?_⟩
    simp [Position.ofDraft, Position.toJson, Record.decode_ofJson_obj, Except.map, hfault]

lemma toJson_ne_null (p : Position) : p.toJson ≠ .null := nofun

end Position

namespace Node

/-- The part of a node that describes what it does, as a value. -/
lemma Payload.ofDraft_toJson {node : Node} (h : node.WellFormed) :
    Payload.ofDraft d (ofJson (.obj ([("label", .str node.label)]
      ++ optionalField "description" (node.description.map .str)
      ++ [("inputs", .arr (node.inputs.map InputSpec.toJson)),
        ("outputs", .arr (node.outputs.map OutputSpec.toJson)),
        ("config", .obj node.config)]))) =
      .ok ⟨node.label, node.description, node.inputs.map InputSpec.reread, node.outputs,
        node.config⟩ := by
  have hinputs : (ofJson (.arr (node.inputs.map InputSpec.toJson))).toList (InputSpec.ofDraft d) =
      .ok (node.inputs.map InputSpec.reread) :=
    toList_ofJson_arr fun spec hspec => InputSpec.ofDraft_toJson (h.fallbacks spec hspec)
  have houtputs : (ofJson (.arr (node.outputs.map OutputSpec.toJson))).toList
      (OutputSpec.ofDraft d) = .ok node.outputs := by
    rw [toList_ofJson_arr fun spec _ => OutputSpec.ofDraft_toJson spec, List.map_id']
  rcases node.description with _ | description
  · simp [Payload.ofDraft, optionalField, Record.decode_ofJson_obj, Except.map, hinputs, houtputs,
      toFields_ofJson h.config]
  · simp [Payload.ofDraft, optionalField, Record.decode_ofJson_obj, Except.map, hinputs, houtputs,
      toFields_ofJson h.config]

/-- **A node is read as it was written**, without its defaults of `null`. -/
theorem ofDraft_toJson {node : Node} (h : node.WellFormed) (hfinite : node.IsFinite) :
    Node.ofDraft d (ofJson node.toJson) = .ok node.reread := by
  have hdata := Payload.ofDraft_toJson (d := d) h
  rw [toJson]
  set data : Json := .obj ([("label", .str node.label)]
      ++ optionalField "description" (node.description.map .str)
      ++ [("inputs", .arr (node.inputs.map InputSpec.toJson)),
        ("outputs", .arr (node.outputs.map OutputSpec.toJson)),
        ("config", .obj node.config)])
  rcases hposition : node.position with _ | p
  · simp [Node.ofDraft, optionalField, Record.decode_ofJson_obj, Except.map, hdata, reread,
      hposition]
  · have hp : (ofJson p.toJson).toOption (Position.ofDraft d) = .ok (some p) := by
      rw [toOption_ofJson p.toJson_ne_null, Position.ofDraft_toJson (hfinite p hposition)]
      rfl
    simp [Node.ofDraft, optionalField, Record.decode_ofJson_obj, Except.map, hdata, hp, reread,
      hposition]

lemma ofDraft_toJson_error {node : Node} (h : ¬ node.IsFinite) :
    ∃ fault, Node.ofDraft d (ofJson node.toJson) = .error fault := by
  simp only [IsFinite, not_forall] at h
  obtain ⟨p, hposition, hp⟩ := h
  obtain ⟨fault, hfault⟩ := Position.ofDraft_toJson_error (d := d) hp
  have hread : (ofJson p.toJson).toOption (Position.ofDraft d) = .error fault := by
    rw [toOption_ofJson p.toJson_ne_null, hfault]
    rfl
  refine ⟨fault, ?_⟩
  simp [toJson, Node.ofDraft, optionalField, Record.decode_ofJson_obj, Except.map, hread,
    hposition]

end Node

namespace Workflow

/-- **A workflow is read as it was written**, without its defaults of `null`. -/
theorem ofDraft_toJson {w : Workflow} (h : w.WellFormed) (hfinite : w.IsFinite) :
    Workflow.ofDraft d (Draft.ofJson w.toJson) = .ok w.reread := by
  have hnodes : (Draft.ofJson (.arr (w.nodes.map Node.toJson))).toList (Node.ofDraft d) =
      .ok (w.nodes.map Node.reread) :=
    toList_ofJson_arr fun node hnode => Node.ofDraft_toJson (h node hnode) (hfinite node hnode)
  have hedges : (Draft.ofJson (.arr (w.edges.map Edge.toJson))).toList (Edge.ofDraft d) =
      .ok w.edges := by
    rw [toList_ofJson_arr fun e _ => Edge.ofDraft_toJson e, List.map_id']
  rcases hdescription : w.description with _ | description <;>
    simp [toJson, Workflow.ofDraft, optionalField, Record.decode_ofJson_obj, Except.map, hnodes,
      hedges, hdescription, reread]

/-- A workflow with a place that is not finite is written, and cannot be read. -/
theorem ofDraft_toJson_error {w : Workflow} (h : ¬ w.IsFinite) :
    ∃ fault, Workflow.ofDraft d (Draft.ofJson w.toJson) = .error fault := by
  simp only [IsFinite, not_forall] at h
  obtain ⟨node, hnode, hplace⟩ := h
  obtain ⟨fault, hfault⟩ : ∃ fault,
      (Draft.ofJson (.arr (w.nodes.map Node.toJson))).toList (Node.ofDraft d) = .error fault :=
    toList_ofJson_arr_error hnode (Node.ofDraft_toJson_error hplace)
  refine ⟨fault, ?_⟩
  rcases hdescription : w.description with _ | description <;>
    simp [toJson, Workflow.ofDraft, optionalField, Record.decode_ofJson_obj, Except.map, hfault,
      hdescription]

end Workflow

/-! ## What is read -/

/-- The default, if there is one, repeats no key and is not `null`. -/
def InputSpec.IsNormal (spec : InputSpec) : Prop :=
  ∀ v, spec.fallback = some v → v.WellFormed ∧ v ≠ .null

lemma InputSpec.of_fallback {x : Draft} {fallback : Option Json}
    (h : x.toOption Draft.toJson = .ok fallback) :
    ∀ v, fallback = some v → v.WellFormed ∧ v ≠ .null := by
  rintro v rfl
  obtain ⟨hx, hv⟩ := of_toOption h
  refine ⟨wellFormed_of_value (of_toJson hv), ?_⟩
  rintro rfl
  exact hx (value_eq_null (of_toJson hv))

/-- What is read as a declaration is normal. -/
lemma InputSpec.of_ofDraft {x : Draft} {spec : InputSpec} (h : InputSpec.ofDraft d x = .ok spec) :
    spec.IsNormal := by
  have hfallback : (Record.field "default" (fun _ x => x.toOption Draft.toJson)
      (.anywhere none)).Ensures _ (fun fallback : Option Json =>
        ∀ v, fallback = some v → v.WellFormed ∧ v ≠ .null) :=
    Record.ensures_field "default" (fun hread => of_fallback hread) nofun
  refine Record.Ensures.decode (Record.Ensures.map ((Record.ensures_true _).and
    ((Record.ensures_true _).and ((Record.ensures_true _).and hfallback))) ?_) h
  rintro ⟨id, valueType, required, fallback⟩ ⟨-, -, -, hv⟩
  exact hv

namespace Node

/-- All defaults are normal, and the configuration repeats no key. -/
structure Payload.IsNormal (data : Payload) : Prop where
  inputs : ∀ spec ∈ data.inputs, spec.IsNormal
  config : (Json.obj data.config).WellFormed

lemma Payload.of_ofDraft {x : Draft} {data : Payload} (h : Payload.ofDraft d x = .ok data) :
    data.IsNormal := by
  have hinputs : (Record.field "inputs" (fun d x => x.toList (InputSpec.ofDraft d))
      (.anywhere [])).Ensures _ (fun specs : List InputSpec => ∀ spec ∈ specs, spec.IsNormal) :=
    Record.ensures_field "inputs" (fun hread => of_toList InputSpec.of_ofDraft hread)
      (List.forall_mem_nil _)
  have hconfig : (Record.field "config" (fun _ x => x.toFields) (.anywhere [])).Ensures _
      (fun fields : Fields => (Json.obj fields).WellFormed) :=
    Record.ensures_field "config" (fun hread => of_toFields hread) ⟨List.nodup_nil, trivial⟩
  refine Record.Ensures.decode (Record.Ensures.map ((Record.ensures_true _).and
    ((Record.ensures_true _).and (hinputs.and ((Record.ensures_true _).and hconfig)))) ?_) h
  rintro ⟨label, description, inputs, outputs, config⟩ ⟨-, -, hinputs, -, hconfig⟩
  exact ⟨hinputs, hconfig⟩

/-- What is read as a node repeats no key, and has no default of `null`. -/
lemma of_ofDraft {x : Draft} {node : Node} (h : Node.ofDraft d x = .ok node) :
    node.WellFormed ∧ node.NullFree := by
  have hdata : (Record.field "data" Payload.ofDraft .required).Ensures _ Payload.IsNormal :=
    Record.ensures_field "data" (fun hread => Payload.of_ofDraft hread) trivial
  refine Record.Ensures.decode (P := fun node => node.WellFormed ∧ node.NullFree)
    (Record.Ensures.map ((Record.ensures_true _).and ((Record.ensures_true _).and
      ((Record.ensures_true _).and hdata))) ?_) h
  rintro ⟨id, nodeType, position, data⟩ ⟨-, -, -, hdata⟩
  exact ⟨⟨fun spec hspec v hv => (hdata.inputs spec hspec v hv).1, hdata.config⟩,
    fun spec hspec hnull => (hdata.inputs spec hspec .null hnull).2 rfl⟩

end Node

namespace Workflow

/-- **What is read as a workflow** repeats no key, and has no default of `null`. -/
theorem of_ofDraft {x : Draft} {w : Workflow} (h : Workflow.ofDraft d x = .ok w) :
    w.WellFormed ∧ w.NullFree := by
  have hnodes : (Record.field "nodes" (fun d x => x.toList (Node.ofDraft d)) .required).Ensures _
      (fun nodes : List Node => ∀ node ∈ nodes, node.WellFormed ∧ node.NullFree) :=
    Record.ensures_field "nodes" (fun hread => of_toList Node.of_ofDraft hread) trivial
  refine Record.Ensures.decode (P := fun w => w.WellFormed ∧ w.NullFree)
    (Record.Ensures.map ((Record.ensures_true _).and ((Record.ensures_true _).and
      ((Record.ensures_true _).and (hnodes.and (Record.ensures_true _))))) ?_) h
  rintro ⟨id, name, description, nodes, edges⟩ ⟨-, -, -, hnodes, -⟩
  exact ⟨fun node hnode => (hnodes node hnode).1, fun node hnode => (hnodes node hnode).2⟩

/-- A workflow that was read, from a value or from a text, is written in a form that is read as the
same workflow. -/
theorem ofJson_toJson_of_ofDraft {x : Draft} {w : Workflow} (h : Workflow.ofDraft d x = .ok w)
    (hfinite : w.IsFinite) : Workflow.ofJson w.toJson = .ok w := by
  obtain ⟨hwell, hnull⟩ := of_ofDraft h
  rw [Workflow.ofJson, ofDraft_toJson hwell hfinite, reread_eq_self.2 hnull]

/-- **Reading normalizes once.**  Whatever value a workflow was read from, it is written as a value
that is read again; what is read then is written the same way, and has the same nodes, triggers and
successors. -/
theorem ofJson_normalizes {j : Json} {w : Workflow} (h : Workflow.ofJson j = .ok w)
    (hfinite : w.IsFinite) :
    ∃ again, Workflow.ofJson w.toJson = .ok again ∧ again.toJson = w.toJson ∧
      (∀ id, again.findNode? id = w.findNode? id) ∧ again.triggers = w.triggers ∧
      (∀ source kind, again.successors source kind = w.successors source kind) ∧ again = w :=
  ⟨w, ofJson_toJson_of_ofDraft h hfinite, rfl, fun _ => rfl, rfl, fun _ _ => rfl, rfl⟩

/-- A workflow with old names, unknown fields, `null` for what is absent, lists for records and
objects for names. -/
def oldSpelling : Json :=
  .obj [("version", .ofNat 2), ("id", .str "old"), ("description", .null),
    ("nodes", .arr [
      .arr [.str "start", .obj [("trigger", .null)], .null, .obj [("hint", .arr [])]],
      .obj [("data", .arr [.str "Ask", .null, .arr [.arr [.str "question"],
          .obj [("id", .str "tone"), ("default", .null)]], .arr [.obj [("id", .str "answer")]]]),
        ("type", .str "ai_model"), ("id", .str "ask"),
        ("position", .arr [.ofNat 3, .ofInt (-1)])]]),
    ("edges", .arr [.arr [.str "e", .str "start", .str "ask"],
      .obj [("id", .str "f"), ("source", .str "ask"), ("target", .str "ask"),
        ("type", .obj [("success", .null)])]])]

/-- What is read from `oldSpelling`. -/
def oldWorkflow : Workflow where
  id := "old"
  nodes := [
    { id := "start", nodeType := .trigger },
    { id := "ask", nodeType := .modelCall, label := "Ask"
      position := some ⟨.ofInt 3, .ofInt (-1)⟩
      inputs := [{ id := "question" }, { id := "tone" }]
      outputs := [{ id := "answer" }] }]
  edges := [⟨"e", "start", "ask", .success⟩, ⟨"f", "ask", "ask", .success⟩]

/-- The old spelling is read, and is written in the form of today. -/
theorem ofJson_normalizes_oldSpelling :
    Workflow.ofJson oldSpelling = .ok oldWorkflow ∧ oldWorkflow.IsFinite ∧
      oldWorkflow.toJson ≠ oldSpelling ∧
      ∃ again, Workflow.ofJson oldWorkflow.toJson = .ok again ∧
        again.toJson = oldWorkflow.toJson := by
  have hread : Workflow.ofJson oldSpelling = .ok oldWorkflow := rfl
  have hfinite : oldWorkflow.IsFinite := by
    intro node hnode p hp
    simp only [oldWorkflow, List.mem_cons, List.not_mem_nil, or_false] at hnode
    rcases hnode with rfl | rfl
    · cases hp
    · obtain rfl := Option.some.inj hp
      exact ⟨by decide, by decide⟩
  obtain ⟨again, hagain, hwritten, -⟩ := ofJson_normalizes hread hfinite
  exact ⟨hread, hfinite, by decide, again, hagain, hwritten⟩

end Workflow

end FlowGraph
