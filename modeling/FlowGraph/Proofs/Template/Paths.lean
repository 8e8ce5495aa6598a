import FlowGraph.Proofs.Json.Parts
import FlowGraph.Template.Path
import Mathlib.Tactic.Common

/-!
# Paths into values

A path leads to parts of a value and to nothing else (`Json.within_of_select`), and paths compose: to
follow two paths that a dot joins is to follow one after the other (`Json.select_append_dot`).  This
holds of every text, well-formed or not, because nothing in a path reaches over a dot: the segments of
the joined text are those of the two texts (`Path.segments_append`), a segment that cannot be read
spoils the whole text (`Path.readSegments_append`), and steps are taken one by one
(`Path.follow_append`).
-/

namespace FlowGraph

/-! ## Where steps lead -/

lemma PathStep.part_of_apply {step : PathStep} {v u : Json} (h : step.apply v = some u) :
    Json.Part u v := by
  unfold apply at h
  split at h
  · exact .field (Keyed.mem_of_get? h)
  · obtain ⟨i, -, hi⟩ := Option.bind_eq_some_iff.1 h
    exact .item (List.mem_of_getElem? hi)
  · exact .item (List.mem_of_getElem? h)
  · cases h

namespace Path

lemma within_of_follow {steps : List PathStep} {v u : Json} (h : follow steps v = some u) :
    Json.Within u v := by
  induction steps generalizing v with
  | nil =>
    obtain rfl := Option.some.inj h
    exact .refl
  | cons step steps ih =>
    obtain ⟨w, hstep, hrest⟩ := Option.bind_eq_some_iff.1 h
    exact (ih hrest).tail (PathStep.part_of_apply hstep)

lemma follow_append (steps more : List PathStep) (v : Json) :
    follow (steps ++ more) v = (follow steps v).bind (follow more) := by
  induction steps generalizing v with
  | nil => rfl
  | cons step steps ih =>
    rw [List.cons_append, follow, follow, Option.bind_assoc]
    exact congrArg _ (funext ih)

/-! ## Segments -/

lemma segments_ne_nil (path : List Char) : segments path ≠ [] := by
  cases path with
  | nil => exact List.cons_ne_nil _ _
  | cons c rest =>
    rw [segments]
    split
    · exact List.cons_ne_nil _ _
    · split <;> exact List.cons_ne_nil _ _

/-- A dot ends a segment, whatever stands before it. -/
lemma segments_append (p q : List Char) : segments (p ++ '.' :: q) = segments p ++ segments q := by
  induction p with
  | nil => rfl
  | cons c p ih =>
    rw [List.cons_append, segments, segments, ih]
    by_cases hc : c = '.'
    · rw [if_pos hc, if_pos hc, List.cons_append]
    · obtain ⟨s, ss, hs⟩ := List.exists_cons_of_ne_nil (segments_ne_nil p)
      rw [if_neg hc, if_neg hc, hs]
      rfl

/-- Segments are read one by one, and the empty ones hold no steps. -/
lemma readSegments_cons (segment : List Char) (rest : List (List Char)) :
    readSegments (segment :: rest) =
      (if segment.isEmpty then some [] else readSegment segment).bind fun steps =>
        (readSegments rest).map (steps ++ ·) := by
  rw [readSegments]
  split
  · rw [Option.bind_some]
    simp only [List.nil_append, Option.map_id']
  · rcases readSegment segment with _ | steps
    · rfl
    · rcases readSegments rest with _ | more <;> rfl

lemma readSegments_append (xs ys : List (List Char)) :
    readSegments (xs ++ ys) =
      (readSegments xs).bind fun steps => (readSegments ys).map (steps ++ ·) := by
  induction xs with
  | nil =>
    rw [List.nil_append, readSegments, Option.bind_some]
    simp only [List.nil_append, Option.map_id']
  | cons segment xs ih =>
    rw [List.cons_append, readSegments_cons, readSegments_cons, ih, Option.bind_assoc]
    congr 1
    funext steps
    simp only [Option.map_bind, Option.bind_map, Option.map_map, Function.comp_def,
      List.append_assoc]

/-- What is read of two texts with a dot between them. -/
lemma read_append (p q : List Char) :
    read (p ++ '.' :: q) = (read p).bind fun steps => (read q).map (steps ++ ·) := by
  rw [read, segments_append, readSegments_append]
  rfl

end Path

namespace Json

/-- A path leads to parts of a value only. -/
lemma within_of_select {v u : Json} {path : String} (h : v.select path = some u) : Within u v := by
  obtain ⟨steps, -, hfollow⟩ := Option.bind_eq_some_iff.1 h
  exact Path.within_of_follow hfollow

/-- **Paths compose.**  For any two texts, well-formed or not, the path that joins them with a dot
leads from a value to where the second leads from the end of the first: it leads nowhere if the first
does, or if the second does from there. -/
theorem select_append_dot (v : Json) (p q : String) :
    v.select (p ++ "." ++ q) = (v.select p).bind fun u => u.select q := by
  have htext : (p ++ "." ++ q).toList = p.toList ++ '.' :: q.toList := by
    simp only [String.toList_append, List.append_assoc]
    rfl
  simp only [select, htext, Path.read_append]
  rcases Path.read p.toList with _ | steps
  · rfl
  · rcases Path.read q.toList with _ | more
    · -- a second text that is malformed leads nowhere, wherever it starts
      simp
    · simp only [Option.bind_some, Option.map_some]
      exact Path.follow_append steps more v

example : (Json.arr [.arr [.null, .bool true]]).select ("[0" ++ "." ++ "0]") = none := by decide

end Json

end FlowGraph
