import FlowGraph.Proofs.Except
import FlowGraph.Workflow.Check
import FlowGraph.Workflow.Json

/-!
# What is checked of a workflow

A workflow without faults has a trigger, no two nodes with one id, and no node whose configuration
asks for a kind that its category does not have; and every workflow of that sort is without faults:
`Workflow.faults_eq_nil`.  A kind is asked for in either of the two ways in which a variant is
written (`Node.choosesKind_iff`).
-/

namespace FlowGraph

/-! ## Writing variants -/

namespace Draft

variable {α : Type}

lemma toNamed_eq_ok {variants : List (String × α)} {name : String} {a : α} :
    toNamed variants name = .ok a ↔ Keyed.get? variants name = some a := by
  rw [toNamed]
  rcases Keyed.get? variants name with _ | b
  · exact ⟨nofun, nofun⟩
  · exact ⟨fun h => congrArg some (Except.ok.inj h), fun h => congrArg _ (Option.some.inj h)⟩

lemma toNothing_ofJson {v : Json} : (ofJson v).toNothing .value = .ok () ↔ v = .null := by
  refine ⟨fun h => ?_, fun h => by rw [h]; rfl⟩
  cases v with
  | null => rfl
  | bool _ | str _ | arr _ => cases h
  | num n => cases n <;> cases h
  | obj fields => cases fields <;> cases h

/-- **A variant is written** as its name, or as an object from its name to `null`. -/
theorem toVariant_ofJson {variants : List (String × α)} {v : Json} {a : α} :
    (ofJson v).toVariant .value variants = .ok a ↔
      ∃ name, Keyed.get? variants name = some a ∧ (v = .str name ∨ v = .obj [(name, .null)]) := by
  constructor
  · intro h
    cases v with
    | str name => exact ⟨name, toNamed_eq_ok.1 h, .inl rfl⟩
    | null | bool _ | arr _ => cases h
    | num n => cases n <;> cases h
    | obj fields =>
      rcases fields with _ | ⟨⟨name, x⟩, _ | ⟨other, fields⟩⟩
      · cases h
      · obtain ⟨name, ⟨⟩, h⟩ := Except.of_bind_eq_ok h
        obtain ⟨b, hb, h⟩ := Except.of_bind_eq_ok h
        obtain ⟨⟨⟩, hx, h⟩ := Except.of_bind_eq_ok h
        obtain rfl := Except.ok.inj h
        exact ⟨name, toNamed_eq_ok.1 hb, .inr (by rw [toNothing_ofJson.1 hx])⟩
      · cases h
  · rintro ⟨name, hname, rfl | rfl⟩
    · exact toNamed_eq_ok.2 hname
    · show (toNamed variants name >>= fun b => _) = _
      rw [toNamed_eq_ok.2 hname]
      rfl

end Draft

/-! ## Kinds -/

/-- The names of the kinds within a category. -/
def NodeType.kindNames : NodeType → List String
  | .trigger => (KindOf.names (κ := TriggerKind)).map Prod.fst
  | .action => (KindOf.names (κ := ActionKind)).map Prod.fst
  | .condition => (KindOf.names (κ := ConditionKind)).map Prod.fst
  | .transformation => (KindOf.names (κ := TransformKind)).map Prod.fst
  | .modelCall => (KindOf.names (κ := ModelKind)).map Prod.fst
  | .dataSource => (KindOf.names (κ := DataSourceKind)).map Prod.fst
  | .output => (KindOf.names (κ := OutputKind)).map Prod.fst

/-- The configuration asks for no kind, or for one of the category, written as a variant. -/
def Node.ChoosesKind (node : Node) : Prop :=
  ∀ choice, node.config? "type" = some choice →
    (Draft.ofJson choice).toVariant .value (node.nodeType.kindNames.map fun name => (name, ())) =
      .ok ()

/-- A name of the list, in either of the forms of a variant. -/
def Json.Names (names : List String) (choice : Json) : Prop :=
  ∃ name ∈ names, choice = .str name ∨ choice = .obj [(name, .null)]

lemma Node.choosesKind_iff {node : Node} :
    node.ChoosesKind ↔
      ∀ choice, node.config? "type" = some choice → choice.Names node.nodeType.kindNames := by
  have hkey (names : List String) (name : String) :
      Keyed.get? (names.map fun name => (name, ())) name = some () ↔ name ∈ names := by
    have hkeys : Keyed.keys (names.map fun name => (name, ())) = names := by
      simp [Keyed.keys, Function.comp_def]
    have hmem := Keyed.mem_keys_iff (names.map fun name => (name, ())) name
    rw [hkeys] at hmem
    rw [hmem]
    rcases Keyed.get? (names.map fun name => (name, ())) name with _ | ⟨⟨⟩⟩ <;> simp
  simp only [ChoosesKind, Json.Names, Draft.toVariant_ofJson, hkey]

namespace Kind

lemma chosenName?_eq_some {v : Json} {name : String} :
    chosenName? v = some name ↔ v = .str name ∨ v = .obj [(name, .null)] := by
  constructor
  · intro h
    unfold chosenName? at h
    split at h
    · exact .inl (by rw [Option.some.inj h])
    · exact .inr (by rw [Option.some.inj h])
    · cases h
  · rintro (rfl | rfl) <;> rfl

/-- A configuration chooses a kind if it asks for none, or for one that there is. -/
lemma ofConfig_isOk (κ : Type) [Inhabited κ] [KindOf κ] (config : Fields) :
    (∃ kind, ofConfig κ config = .ok kind) ↔
      ∀ choice, Keyed.get? config "type" = some choice →
        choice.Names ((KindOf.names (κ := κ)).map Prod.fst) := by
  rw [ofConfig]
  rcases hchoice : Keyed.get? config "type" with _ | choice
  · exact ⟨fun _ => nofun, fun _ => ⟨_, rfl⟩⟩
  · have hnames : choice.Names ((KindOf.names (κ := κ)).map Prod.fst) ↔
        ∃ kind, (chosenName? choice).bind (Keyed.get? (KindOf.names (κ := κ))) = some kind := by
      simp only [Json.Names, Option.bind_eq_some_iff, chosenName?_eq_some]
      constructor
      · rintro ⟨name, hname, hform⟩
        obtain ⟨kind, hkind⟩ := Keyed.exists_of_mem_keys hname
        exact ⟨kind, name, hform, hkind⟩
      · rintro ⟨kind, name, hform, hkind⟩
        exact ⟨name, Keyed.mem_keys_of_get? hkind, hform⟩
    simp only [Option.some.injEq, forall_eq']
    rw [hnames]
    rcases (chosenName? choice).bind (Keyed.get? (KindOf.names (κ := κ))) with _ | kind
    · exact ⟨nofun, nofun⟩
    · exact ⟨fun _ => ⟨kind, rfl⟩, fun _ => ⟨kind, rfl⟩⟩

end Kind

lemma Node.kindFaults_eq_nil_iff_check {node : Node} :
    node.kindFaults = [] ↔ Kind.check node = .ok () := by
  rw [kindFaults]
  rcases Kind.check node with failure | ⟨⟨⟩⟩ <;> simp

lemma Kind.forget_eq_ok {κ : Type} {kind : Except NodeError κ} :
    (kind.map fun _ => ()) = .ok () ↔ ∃ k, kind = .ok k := by
  rcases kind with failure | k
  · exact ⟨nofun, nofun⟩
  · exact ⟨fun _ => ⟨k, rfl⟩, fun _ => rfl⟩

/-- A node has no fault if it is a trigger or chooses a kind of its category. -/
lemma Node.kindFaults_eq_nil {node : Node} :
    node.kindFaults = [] ↔ (node.nodeType ≠ .trigger → node.ChoosesKind) := by
  rw [kindFaults_eq_nil_iff_check, choosesKind_iff, Kind.check]
  rcases htype : node.nodeType <;>
    simp [Kind.forget_eq_ok, Kind.ofNode, Kind.ofConfig_isOk, NodeType.kindNames, config?]

/-- Nodes have no faults if their ids are new and all different, and none of them has a fault. -/
lemma nodeFaults_eq_nil {seen : List String} {nodes : List Node} :
    nodeFaults seen nodes = [] ↔
      (∀ node ∈ nodes, node.id ∉ seen) ∧ (nodes.map Node.id).Nodup ∧
        ∀ node ∈ nodes, node.kindFaults = [] := by
  -- over all ids seen before, since each node adds its own for those after it
  induction nodes generalizing seen with
  | nil => simp [nodeFaults]
  | cons node nodes ih =>
    have hhere : (if seen.contains node.id then [WorkflowFault.duplicateId node.id] else []) = [] ↔
        node.id ∉ seen := by
      by_cases hseen : node.id ∈ seen <;> simp [hseen]
    have hlater : (∀ other ∈ nodes, other.id ∉ node.id :: seen) ↔
        node.id ∉ nodes.map Node.id ∧ ∀ other ∈ nodes, other.id ∉ seen := by
      simp only [List.mem_cons, not_or, List.mem_map, not_exists, not_and, ← forall_and]
    rw [nodeFaults, List.append_eq_nil_iff, List.append_eq_nil_iff, hhere, ih, hlater,
      List.forall_mem_cons, List.forall_mem_cons, List.map_cons, List.nodup_cons]
    tauto

namespace Workflow

/-- **A workflow has no fault** exactly if it has a trigger, its nodes have different ids, and each
of its nodes that is no trigger chooses a kind of its category. -/
theorem faults_eq_nil {w : Workflow} :
    w.faults = [] ↔
      w.triggers ≠ [] ∧ (w.nodes.map Node.id).Nodup ∧
        ∀ node ∈ w.nodes, node.nodeType ≠ .trigger → node.ChoosesKind := by
  rw [faults, List.append_eq_nil_iff, nodeFaults_eq_nil]
  simp [Node.kindFaults_eq_nil]

end Workflow

end FlowGraph
