import FlowGraph.Error

/-!
# Inputs of a node

The resolved inputs of one call of an executor. `null` counts as absent everywhere.
-/

namespace FlowGraph

/-- The inputs that a node is run with. -/
structure NodeInputs where
  fields : Fields := []
deriving DecidableEq, Repr, Inhabited

namespace NodeInputs

/-- Set an input. -/
def insert (inputs : NodeInputs) (name : String) (value : Json) : NodeInputs :=
  ⟨Keyed.insert inputs.fields name value⟩

/-- An input that is not `null`. -/
def get? (inputs : NodeInputs) (name : String) : Option Json :=
  match Keyed.get? inputs.fields name with
  | some v => if v.isNull then none else some v
  | none => none

/-- An input that must be there. -/
def require (inputs : NodeInputs) (name message : String) : Except NodeError Json :=
  match inputs.get? name with
  | some v => .ok v
  | none => .error (.missingInput message)

/-- An input that must be a text and not empty. -/
def requireText (inputs : NodeInputs) (name message : String) : Except NodeError String := do
  match ← inputs.require name message with
  | .str s => if s = "" then .error (.missingInput message) else .ok s
  | other => .error (.invalidInputType name "string" other.typeName)

/-- A text input, or `fallback` when it is anything else. -/
def textOr (inputs : NodeInputs) (name fallback : String) : String :=
  ((inputs.get? name).bind Json.asText?).getD fallback

/-- An object input, empty when absent. -/
def objectOrEmpty (inputs : NodeInputs) (name : String) : Except NodeError Fields :=
  match inputs.get? name with
  | none => .ok []
  | some (.obj fields) => .ok fields
  | some other => .error (.invalidInputType name "object" other.typeName)

/-- An input, or `fallback` when absent. -/
def valueOr (inputs : NodeInputs) (name : String) (fallback : Json) : Json :=
  (inputs.get? name).getD fallback

end NodeInputs

end FlowGraph
