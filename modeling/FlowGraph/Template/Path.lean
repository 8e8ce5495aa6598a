import FlowGraph.Json.Basic
import FlowGraph.Text.Blank

/-!
# Paths into values

A path such as `a.b`, `items[0].name` or `items.0.name` is a list of steps. `Path.read` splits a
text into its steps, whatever value it will be used on, and `Path.follow` takes the steps one
after the other; `select` does both. Empty segments between dots are skipped.
-/

namespace FlowGraph

/-- One step from a value to a part of it. -/
inductive PathStep where
  /-- The value under a key of an object; on a list, the item whose number the key spells. -/
  | name (key : List Char)
  /-- The item at an index of a list. -/
  | index (i : Nat)
deriving DecidableEq, Repr

namespace PathStep

/-- The part of a value that a step leads to. -/
def apply (step : PathStep) (v : Json) : Option Json :=
  match step, v with
  | .name key, .obj fields => Keyed.get? fields (String.ofList key)
  | .name key, .arr items => (Text.word64? key).bind fun i => items[i]?
  | .index i, .arr items => items[i]?
  | _, _ => none

end PathStep

namespace Path

/-- The parts of a text between dots. -/
def segments : List Char → List (List Char)
  | [] => [[]]
  | c :: rest =>
    if c = '.' then [] :: segments rest
    else match segments rest with
      | [] => [[c]]
      | s :: ss => (c :: s) :: ss

/-- Read indexes such as `[0][1]`. The first argument holds what has been read, backwards, of an
index whose bracket is still open. -/
def readIndexes : Option (List Char) → List Char → Option (List PathStep)
  | none, [] => some []
  | some _, [] => none
  | none, c :: rest => if c = '[' then readIndexes (some []) rest else none
  | some digits, c :: rest =>
    if c = ']' then
      match Text.word64? (Text.trim digits.reverse), readIndexes none rest with
      | some i, some steps => some (.index i :: steps)
      | _, _ => none
    else readIndexes (some (c :: digits)) rest

/-- Read one segment: a name, then indexes, either of which may be missing. -/
def readSegment (segment : List Char) : Option (List PathStep) :=
  let name := segment.takeWhile (· ≠ '[')
  let steps := readIndexes none (segment.dropWhile (· ≠ '['))
  if name.isEmpty then steps else steps.map (.name name :: ·)

/-- Read the segments that are not empty. -/
def readSegments : List (List Char) → Option (List PathStep)
  | [] => some []
  | segment :: rest =>
    if segment.isEmpty then readSegments rest
    else
      match readSegment segment, readSegments rest with
      | some steps, some more => some (steps ++ more)
      | _, _ => none

/-- The steps of a path, unless it is malformed. -/
def read (path : List Char) : Option (List PathStep) :=
  readSegments (segments path)

/-- Take steps from a value. -/
def follow : List PathStep → Json → Option Json
  | [], v => some v
  | step :: steps, v => (step.apply v).bind (follow steps)

end Path

/-- The part of a value that a path leads to. -/
def Json.select (v : Json) (path : String) : Option Json :=
  (Path.read path.toList).bind fun steps => Path.follow steps v

end FlowGraph
