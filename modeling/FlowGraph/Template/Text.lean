import FlowGraph.Json.Printer
import FlowGraph.Text.Blank

/-!
# Templates of text

A text template is a sequence of literal pieces and placeholders in double braces. `pieces`
splits a template without looking at any variable; `render` replaces each placeholder whose
trimmed name is a variable, in one pass, and leaves the others as they stand.
-/

namespace FlowGraph.TextTemplate

/-- A piece of a template. -/
inductive Piece where
  | literal (text : List Char)
  /-- What stands between the braces. -/
  | placeholder (inner : List Char)
deriving DecidableEq, Repr

namespace Piece

/-- The piece as it stands in the template. -/
def source : Piece → List Char
  | literal text => text
  | placeholder inner => '{' :: '{' :: inner ++ ['}', '}']

end Piece

mutual
/-- Split a template outside of a placeholder; `text` is the literal read so far, backwards. -/
def outside (text : List Char) : List Char → List Piece
  | [] => [.literal text.reverse]
  | '{' :: '{' :: rest => .literal text.reverse :: inside [] rest
  | c :: rest => outside (c :: text) rest

/-- Split a template inside a placeholder; `inner` is what has been read of it, backwards. An
unclosed placeholder is literal. -/
def inside (inner : List Char) : List Char → List Piece
  | [] => [.literal ('{' :: '{' :: inner.reverse)]
  | '}' :: '}' :: rest => .placeholder inner.reverse :: outside [] rest
  | c :: rest => inside (c :: inner) rest
end

/-- The pieces of a template. -/
def pieces (template : List Char) : List Piece :=
  outside [] template

mutual
/-- Outside of placeholders no character is lost or added. -/
theorem flatMap_source_outside (text template : List Char) :
    (outside text template).flatMap Piece.source = text.reverse ++ template := by
  unfold outside
  split
  · simp [Piece.source]
  · next rest =>
    simp [Piece.source, flatMap_source_inside [] rest]
  · next c rest _ =>
    rw [flatMap_source_outside (c :: text) rest]
    simp

/-- Inside of a placeholder no character is lost or added. -/
theorem flatMap_source_inside (inner template : List Char) :
    (inside inner template).flatMap Piece.source = '{' :: '{' :: inner.reverse ++ template := by
  unfold inside
  split
  · simp [Piece.source]
  · next rest =>
    simp [Piece.source, flatMap_source_outside [] rest]
  · next c rest _ =>
    rw [flatMap_source_inside (c :: inner) rest]
    simp
end

/-- The pieces of a template are the template in parts. -/
theorem flatMap_source_pieces (template : List Char) :
    (pieces template).flatMap Piece.source = template := by
  simpa [pieces] using flatMap_source_outside [] template

/-- A piece with the values of its variables put in. -/
def renderPiece (values : Fields) : Piece → List Char
  | .literal text => text
  | .placeholder inner =>
    match Keyed.get? values (String.ofList (Text.trim inner)) with
    | some v => v.display.toList
    | none => (Piece.placeholder inner).source

/-- Put the values of variables into a template. -/
def render (template : String) (values : Fields) : String :=
  String.ofList ((pieces template.toList).flatMap (renderPiece values))

end FlowGraph.TextTemplate
