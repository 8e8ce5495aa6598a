import FlowGraph.Error
import FlowGraph.Template.Path

/-!
# Templates of values

A template is a value with reserved keys. In an object the first effective reserved key, in the
order written, stands for the whole object: `$value` is the input, `$select` with a text the part
of the input that the path leads to, `$transform` with an object the expansion of its `template`.
Other keys that begin with `$` are dropped; everything else is expanded in place.
-/

namespace FlowGraph.Template

/-- A transform without a template. -/
def missingTemplate : NodeError := .missingInput "Transform template is required"

/-- Whether a key is reserved. -/
def isReserved (key : String) : Bool :=
  key.toList.head? = some '$'

mutual
/-- Expand a template against an input. -/
def expand (input : Json) : Json → Except NodeError Json
  | .obj fields => expandFields input fields []
  | .arr items =>
    match expandItems input items with
    | .ok values => .ok (.arr values)
    | .error e => .error e
  | .null => .ok .null
  | .bool b => .ok (.bool b)
  | .num n => .ok (.num n)
  | .str s => .ok (.str s)

/-- Expand the fields of an object after those already expanded. -/
def expandFields (input : Json) : List (String × Json) → Fields → Except NodeError Json
  | [], done => .ok (.obj done)
  | (key, v) :: rest, done =>
    if key = "$value" then .ok input
    else
      match v with
      | .str path =>
        if key = "$select" then .ok ((input.select path).getD .null)
        else if isReserved key then expandFields input rest done
        else expandFields input rest (Keyed.insert done key (.str path))
      | .obj transform =>
        if key = "$transform" then expandTransform input transform
        else if isReserved key then expandFields input rest done
        else
          match expandFields input transform [] with
          | .ok x => expandFields input rest (Keyed.insert done key x)
          | .error e => .error e
      | v =>
        if isReserved key then expandFields input rest done
        else
          match expand input v with
          | .ok x => expandFields input rest (Keyed.insert done key x)
          | .error e => .error e

/-- Expand the template among the fields of a transform. -/
def expandTransform (input : Json) : List (String × Json) → Except NodeError Json
  | [] => .error missingTemplate
  | (key, v) :: rest =>
    if key = "template" then expand input v else expandTransform input rest

/-- Expand items in order. -/
def expandItems (input : Json) : List Json → Except NodeError (List Json)
  | [] => .ok []
  | x :: xs =>
    match expand input x with
    | .error e => .error e
    | .ok y =>
      match expandItems input xs with
      | .error e => .error e
      | .ok ys => .ok (y :: ys)
end

end FlowGraph.Template
