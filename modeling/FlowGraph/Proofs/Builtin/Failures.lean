import FlowGraph.Builtin.Executor
import FlowGraph.Proofs.Template.Expansion
import FlowGraph.Proofs.Workflow.Checking

/-!
# What built-in executors fail with

A node whose kind is supported fails for many reasons, but never because its kind is not supported:
no message that it fails with begins like that complaint (`Plain`).  `Gives` carries this through
the steps of an executor, together with what is known of the results of the steps, and `run_plainly`
puts the executors together.
-/

namespace FlowGraph

/-! ## Plain messages -/

/-- The text does not begin like the complaint about a kind that is not supported. -/
def Plain (text : String) : Prop :=
  text.toList.take 2 ≠ ['U', 'n']

instance (text : String) : Decidable (Plain text) :=
  inferInstanceAs (Decidable (_ ≠ _))

lemma Plain.append {text : String} (h : Plain text) (hlength : 2 ≤ text.toList.length)
    (more : String) : Plain (text ++ more) := by
  rw [Plain, String.toList_append, List.take_append_of_le_length hlength]
  exact h

/-- **A plain message is never that of an unsupported kind.** -/
lemma Plain.ne_unsupported {text : String} (h : Plain text) (category : NodeType) (kind : String) :
    text ≠ (NodeError.unsupported category kind).message := by
  rintro rfl
  apply h
  show ("Unsupported " ++ category.name ++ " type: " ++ kind).toList.take 2 = ['U', 'n']
  rw [String.append_assoc, String.append_assoc, String.toList_append,
    List.take_append_of_le_length (by decide)]
  decide

/-- A computation gives something with the property `P`, or fails with a plain message. -/
def Gives {α : Type} (P : α → Prop) : Except NodeError α → Prop
  | .ok a => P a
  | .error failure => Plain failure.message

/-- A computation fails with plain messages only. -/
abbrev FailsPlainly {α : Type} (x : Except NodeError α) : Prop :=
  Gives (fun _ => True) x

namespace Gives

variable {α β : Type} {P : α → Prop} {Q : β → Prop} {x : Except NodeError α}

lemma bind {f : α → Except NodeError β} (h : Gives P x) (hf : ∀ a, P a → Gives Q (f a)) :
    Gives Q (x >>= f) := by
  cases x with
  | ok a => exact hf a h
  | error failure => exact h

lemma of_isOk (h : ∃ a, x = .ok a) : FailsPlainly x := by
  obtain ⟨a, rfl⟩ := h
  trivial

lemma plain {failure : NodeError} (h : Gives P x) (hfailure : x = .error failure) :
    Plain failure.message := by
  rw [hfailure] at h
  exact h

end Gives

lemma plain_invalidInputType (field expected actual : String) :
    Plain (NodeError.invalidInputType field expected actual).message := by
  show Plain
    ("Invalid input type for '" ++ field ++ "': expected " ++ expected ++ ", got " ++ actual)
  rw [String.append_assoc, String.append_assoc, String.append_assoc, String.append_assoc]
  exact Plain.append (by decide) (by decide) _

lemma plain_collaborator {text : String} (h : Plain text) (hlength : 2 ≤ text.toList.length)
    (more : String) : Plain (NodeError.collaborator (text ++ more)).message :=
  h.append hlength more

/-! ## Inputs -/

/-- A missing input is named in a plain message. -/
lemma plain_of_resolveInputs {node : Node} {input : Fields} {failure : NodeError}
    (h : node.resolveInputs input = .error failure) : Plain failure.message := by
  have hspecs : ∀ (specs : List InputSpec) (resolved : Fields),
      FailsPlainly (resolveSpecs node.id node.config input specs resolved) := by
    intro specs
    induction specs with
    | nil => intro resolved; trivial
    | cons spec specs ih =>
      intro resolved
      rw [resolveSpecs]
      split
      · exact ih _
      · split
        · show Plain ("Required input " ++ spec.id ++ " not provided for node " ++ node.id)
          rw [String.append_assoc, String.append_assoc]
          exact Plain.append (by decide) (by decide) _
        · exact ih resolved
  rw [Node.resolveInputs] at h
  split at h
  · cases h
  · next hfailed =>
    cases h
    exact (hspecs _ _).plain hfailed

namespace NodeInputs

variable {inputs : NodeInputs} {name message : String}

lemma require_plainly (h : Plain message) : FailsPlainly (inputs.require name message) := by
  unfold require
  split
  · trivial
  · exact h

lemma requireText_plainly (h : Plain message) : FailsPlainly (inputs.requireText name message) := by
  refine (require_plainly h).bind fun v _ => ?_
  split
  · split
    · exact h
    · trivial
  · exact plain_invalidInputType _ _ _

lemma objectOrEmpty_plainly : FailsPlainly (inputs.objectOrEmpty name) := by
  unfold objectOrEmpty
  split
  · trivial
  · trivial
  · exact plain_invalidInputType _ _ _

end NodeInputs

namespace Template

/-- A template is expanded, or a part of it is missing. -/
lemma expand_plainly (input template : Json) : FailsPlainly (expand input template) := by
  rcases h : expand input template with failure | v
  · have honly : failure = missingTemplate := (expand_eq_error.1 h).1
    rw [honly]
    show Plain "Transform template is required"
    decide
  · trivial

end Template

/-! ## Storage -/

namespace Builtin

open Http

variable {s : ExecutorSettings} {node : Node} {inputs : NodeInputs}

lemma resolve_plainly (root : StorageRoot) (requested : String) :
    FailsPlainly (root.resolve requested) := by
  unfold StorageRoot.resolve
  split
  · trivial
  · exact Plain.append (by decide) (by decide) _

lemma readFile_plainly (fs : FileSystem) : FailsPlainly (readFile s inputs fs) := by
  have hfile : FailsPlainly (filePath s inputs) :=
    (NodeInputs.requireText_plainly (by decide)).bind fun requested _ =>
      (resolve_plainly _ requested).bind fun path _ => trivial
  refine hfile.bind fun file _ => ?_
  dsimp only
  split
  · trivial
  · show Plain ("Failed to read file " ++ file.2 ++ ": " ++ _)
    rw [String.append_assoc, String.append_assoc]
    exact plain_collaborator (by decide) (by decide) _

lemma fileWrite_plainly : FailsPlainly (fileWrite s node inputs) :=
  (NodeInputs.requireText_plainly (by decide)).bind fun requested _ =>
    (NodeInputs.require_plainly (by decide)).bind fun content _ =>
      (resolve_plainly _ requested).bind fun path _ => trivial

lemma writeFile_plainly (fs : FileSystem) : FailsPlainly (writeFile s node inputs fs).1 := by
  unfold writeFile
  split
  · next h => exact fileWrite_plainly.plain h
  · split
    · trivial
    · show Plain ("Failed to write file " ++ _ ++ ": " ++ _)
      rw [String.append_assoc, String.append_assoc]
      exact plain_collaborator (by decide) (by decide) _

lemma databaseRequest_plainly : FailsPlainly (databaseRequest s node inputs) :=
  (NodeInputs.requireText_plainly (by decide)).bind fun query _ =>
    (resolve_plainly _ _).bind fun path _ => trivial

lemma queryOutput_plainly (result : Except Sql.LibraryFault Sql.ResultSet) :
    FailsPlainly (queryOutput result) := by
  rcases result with (message | message) | result
  · exact plain_collaborator (by decide) (by decide) message
  · exact plain_collaborator (by decide) (by decide) message
  · trivial

lemma queryDatabase_plainly {ν : Type} (library : Sql.Library ν) (fs : FileSystem) (peers : ν) :
    FailsPlainly (queryDatabase library s node inputs fs peers).1 := by
  unfold queryDatabase
  split
  · next h => exact databaseRequest_plainly.plain h
  · exact queryOutput_plainly _

/-! ## Computing -/

lemma condition_plainly (h : ∃ kind, Kind.ofNode ConditionKind node = .ok kind) :
    FailsPlainly (condition node inputs) := by
  refine (Gives.of_isOk h).bind fun kind _ => ?_
  cases kind with
  | ifElse => exact (NodeInputs.require_plainly (by decide)).bind fun _ _ => trivial
  | switch =>
    refine (NodeInputs.require_plainly (by decide)).bind fun value _ => ?_
    dsimp only
    split
    · trivial
    · exact plain_invalidInputType _ _ _

lemma transformation_plainly (h : ∃ kind, Kind.ofNode TransformKind node = .ok kind) :
    FailsPlainly (transformation node inputs) := by
  have hjson : FailsPlainly (jsonTransform inputs) :=
    (NodeInputs.require_plainly (by decide)).bind fun input _ =>
      (NodeInputs.require_plainly (by decide)).bind fun template _ =>
        Template.expand_plainly input template
  have htext : FailsPlainly (textTemplate inputs) := by
    refine (NodeInputs.require_plainly (by decide)).bind fun template _ => ?_
    split
    · exact NodeInputs.objectOrEmpty_plainly.bind fun _ _ => trivial
    · exact plain_invalidInputType _ _ _
  refine (Gives.of_isOk h).bind fun kind _ => ?_
  cases kind with
  | jsonTransform => exact hjson.bind fun _ _ => trivial
  | textTemplate => exact htext.bind fun _ _ => trivial

lemma httpResponse_plainly : FailsPlainly (httpResponse inputs) :=
  (NodeInputs.require_plainly (by decide)).bind fun _ _ =>
    NodeInputs.objectOrEmpty_plainly.bind fun _ _ => trivial

/-! ## The network -/

/-- Whatever answer it gets, the plan fails plainly. -/
def NetworkPlan.IsPlain (plan : NetworkPlan) : Prop :=
  ∀ a, FailsPlainly (plan.output a)

lemma requireClient_plainly (client : Bool) : FailsPlainly (requireClient client) := by
  unfold requireClient
  split
  · trivial
  · show Plain ("Executor initialization failed: " ++ "HTTP client not initialized")
    exact Plain.append (by decide) (by decide) _

lemma httpRequest_plainly (client : Bool) :
    Gives NetworkPlan.IsPlain (httpRequest client inputs) :=
  (requireClient_plainly client).bind fun _ _ =>
    (NodeInputs.requireText_plainly (by decide)).bind fun _ _ =>
      NodeInputs.objectOrEmpty_plainly.bind fun _ _ _ => trivial

lemma apiRequest_plainly (client : Bool) :
    Gives NetworkPlan.IsPlain (apiRequest client inputs) :=
  (requireClient_plainly client).bind fun _ _ =>
    (NodeInputs.requireText_plainly (by decide)).bind fun _ _ =>
      NodeInputs.objectOrEmpty_plainly.bind fun _ _ =>
        NodeInputs.objectOrEmpty_plainly.bind fun _ _ _ => trivial

lemma webhook_plainly (client : Bool) : Gives NetworkPlan.IsPlain (webhook client inputs) :=
  (requireClient_plainly client).bind fun _ _ =>
    (NodeInputs.requireText_plainly (by decide)).bind fun _ _ =>
      (NodeInputs.require_plainly (by decide)).bind fun _ _ =>
        NodeInputs.objectOrEmpty_plainly.bind fun _ _ _ => trivial

lemma requireSuccess_plainly (a : HttpAnswer) : FailsPlainly (requireSuccess a) := by
  unfold requireSuccess
  split
  · trivial
  · rw [String.append_assoc, String.append_assoc]
    exact plain_collaborator (by decide) (by decide) _

lemma modelPlan_plainly (h : ∃ kind, Kind.ofNode ModelKind node = .ok kind) :
    Gives NetworkPlan.IsPlain (modelPlan s node inputs) := by
  refine (Gives.of_isOk h).bind fun kind _ => ?_
  cases kind with
  | textGeneration =>
    exact (NodeInputs.requireText_plainly (by decide)).bind fun _ _ a =>
      (requireSuccess_plainly a).bind fun _ _ => trivial
  | imageGeneration =>
    exact (NodeInputs.requireText_plainly (by decide)).bind fun _ _ a =>
      (requireSuccess_plainly a).bind fun _ _ => trivial

lemma plain_toNodeError (fault : HttpFault) : Plain fault.toNodeError.message := by
  cases fault with
  | badMethod text => exact plain_invalidInputType _ _ _
  | malformed | badScheme _ | unreachable _ | endless _ =>
    exact plain_collaborator (by decide) (by decide) _
  | brokenBody =>
    show Plain "Failed to read response: error decoding response body"
    decide

lemma perform_plainly {ν : Type} {plan : NetworkPlan} (h : plan.IsPlain) (exchange : Exchange ν)
    (client cancelled : Bool) (peers : ν) :
    FailsPlainly (plan.perform exchange client cancelled peers).1 := by
  unfold NetworkPlan.perform
  split
  · show Plain ("Executor initialization failed: " ++ "HTTP client not initialized")
    exact Plain.append (by decide) (by decide) _
  · split
    · show Plain "Cancelled"
      decide
    · split
      · exact h _
      · exact plain_toNodeError _

lemma sendEmail_plainly {ν : Type} (exchange : Exchange ν) (library : Sql.Library ν)
    (w : World ν) :
    FailsPlainly (sendEmail ⟨exchange, deliverNothing, library⟩ inputs w).1 := by
  have hmessage : FailsPlainly (do
      let recipient ← inputs.requireText "to" "Recipient (to) is required"
      let subject ← inputs.requireText "subject" "Subject is required"
      let body ← inputs.requireText "body" "Body is required"
      .ok (EmailMessage.mk recipient subject body)) :=
    (NodeInputs.requireText_plainly (by decide)).bind fun _ _ =>
      (NodeInputs.requireText_plainly (by decide)).bind fun _ _ =>
        (NodeInputs.requireText_plainly (by decide)).bind fun _ _ => trivial
  unfold sendEmail
  dsimp only
  split
  · next hfailed => exact hmessage.plain hfailed
  · trivial

end Builtin

namespace BuiltinExecutor

open Builtin

variable {ν : Type} {e : BuiltinExecutor} {exchange : Http.Exchange ν} {library : Sql.Library ν}
variable {call : ExecutorCall}

lemma withNetwork_plainly {plan : Except NodeError NetworkPlan}
    (h : Gives NetworkPlan.IsPlain plan) (services : Services ν) (cancelled : Bool) (w : World ν) :
    FailsPlainly (e.withNetwork services cancelled w plan).answer := by
  cases plan with
  | error failure => exact h
  | ok plan => exact perform_plainly h services.exchange e.client cancelled w.peers

/-- **A node whose kind is supported never fails for its kind**, if its own executor runs it. -/
theorem run_plainly (htype : e.nodeType = call.node.nodeType) (hkind : call.node.kindFaults = [])
    (cancelled : Bool) (w : World ν) :
    FailsPlainly (e.run ⟨exchange, deliverNothing, library⟩ call cancelled w).answer := by
  -- the check looks for a kind of the executor's category, as the executor does
  rw [Node.kindFaults_eq_nil_iff_check, Kind.check, ← htype] at hkind
  unfold run
  dsimp only
  split
  · trivial
  · next hcategory =>
    rw [hcategory] at hkind
    obtain ⟨kind, hkind⟩ := Kind.forget_eq_ok.1 hkind
    rw [hkind]
    cases kind with
    | httpRequest => exact withNetwork_plainly (httpRequest_plainly _) _ _ _
    | sendEmail => exact sendEmail_plainly exchange library w
  · next hcategory =>
    rw [hcategory] at hkind
    exact condition_plainly (Kind.forget_eq_ok.1 hkind)
  · next hcategory =>
    rw [hcategory] at hkind
    exact transformation_plainly (Kind.forget_eq_ok.1 hkind)
  · next hcategory =>
    rw [hcategory] at hkind
    exact withNetwork_plainly (modelPlan_plainly (Kind.forget_eq_ok.1 hkind)) _ _ _
  · next hcategory =>
    rw [hcategory] at hkind
    obtain ⟨kind, hkind⟩ := Kind.forget_eq_ok.1 hkind
    rw [hkind]
    cases kind with
    | databaseQuery => exact queryDatabase_plainly library w.files w.peers
    | fileReader => exact readFile_plainly w.files
    | apiRequest => exact withNetwork_plainly (apiRequest_plainly _) _ _ _
  · next hcategory =>
    rw [hcategory] at hkind
    obtain ⟨kind, hkind⟩ := Kind.forget_eq_ok.1 hkind
    rw [hkind]
    cases kind with
    | httpResponse => exact httpResponse_plainly
    | fileWriter => exact writeFile_plainly w.files
    | webhook => exact withNetwork_plainly (webhook_plainly _) _ _ _

end BuiltinExecutor

end FlowGraph
