import FlowGraph.Template.Text
import Mathlib.Data.List.Basic

/-!
# Text templates are rendered in one pass

A template splits at its leftmost opening mark and the first closing mark behind that, and what
follows the placeholder splits in the same way (`Splits`).  No variable has a part in this, and
there is one way only to split a template: into the pieces that the scanner finds (`splits_iff`).
Rendering fills the pieces in one by one (`render_of_splits`), so what was put in for a placeholder
is never looked at again.
-/

namespace FlowGraph

namespace TextTemplate

/-! ## Marks -/

/-- What opens a placeholder. -/
def opening : List Char := ['{', '{']

/-- What closes a placeholder. -/
def closing : List Char := ['}', '}']

/-- The first place of a mark in a text is behind `before`, and `after` is what follows the mark. -/
structure FirstAt (mark text before after : List Char) : Prop where
  split : text = before ++ mark ++ after
  first : ∀ before' after', text = before' ++ mark ++ after' → before.length ≤ before'.length

variable {mark text before after : List Char}

/-- A mark that does not stand at the beginning of a text stands first where it does behind the
first character. -/
lemma firstAt_cons {c : Char} (h : ¬mark <+: c :: text) :
    FirstAt mark (c :: text) (c :: before) after ↔ FirstAt mark text before after := by
  constructor
  · rintro ⟨hsplit, hfirst⟩
    refine ⟨(List.cons.inj hsplit).2, fun before' after' heq => ?_⟩
    have hle := hfirst (c :: before') after' (by rw [heq]; rfl)
    simpa using hle
  · rintro ⟨rfl, hfirst⟩
    refine ⟨rfl, fun before' after' heq => ?_⟩
    cases before' with
    | nil => exact absurd ⟨after', heq.symm⟩ h
    | cons d before' =>
      have hle := hfirst before' after' (List.cons.inj heq).2
      simpa using hle

lemma firstAt_prefix (mark after : List Char) : FirstAt mark (mark ++ after) [] after :=
  ⟨rfl, fun _ _ _ => Nat.zero_le _⟩

/-- The first place of a mark is at the beginning of the text or behind its first character. -/
lemma FirstAt.cases (h : FirstAt mark text before after) :
    (before = [] ∧ text = mark ++ after) ∨
      ∃ c rest more, before = c :: more ∧ text = c :: rest ∧ ¬mark <+: c :: rest ∧
        FirstAt mark rest more after := by
  cases before with
  | nil => exact .inl ⟨rfl, h.split⟩
  | cons c more =>
    have hnot : ¬mark <+: text := by
      rintro ⟨after', heq⟩
      simpa using h.first [] after' heq.symm
    have hsplit : text = c :: (more ++ mark ++ after) := h.split
    rw [hsplit] at h hnot
    exact .inr ⟨c, _, more, rfl, hsplit, hnot, (firstAt_cons hnot).1 h⟩

/-- A mark that stands in a text has a first place in it. -/
lemma exists_firstAt (h : mark <:+: text) : ∃ before after, FirstAt mark text before after := by
  induction text with
  | nil =>
    obtain rfl := List.eq_nil_of_infix_nil h
    exact ⟨[], [], firstAt_prefix [] []⟩
  | cons c rest ih =>
    by_cases hprefix : mark <+: c :: rest
    · obtain ⟨after, heq⟩ := hprefix
      exact ⟨[], after, heq ▸ firstAt_prefix mark after⟩
    · obtain ⟨before, after, hfirst⟩ := ih ((List.infix_cons_iff.1 h).resolve_left hprefix)
      exact ⟨c :: before, after, (firstAt_cons hprefix).2 hfirst⟩

/-! ## Ways to split a template -/

/-- The template splits into the pieces, from left to right: a literal up to the leftmost opening
mark, a placeholder up to the first closing mark behind that, and so on.  Without a closing mark all
the rest is literal. -/
inductive Splits : List Char → List Piece → Prop where
  | literal {text : List Char} (hopen : ¬opening <:+: text) : Splits text [.literal text]
  | unclosed {text before after : List Char} (hopen : FirstAt opening text before after)
      (hclose : ¬closing <:+: after) : Splits text [.literal before, .literal (opening ++ after)]
  | placeholder {text before after inner rest : List Char} {pieces : List Piece}
      (hopen : FirstAt opening text before after) (hclose : FirstAt closing after inner rest)
      (hrest : Splits rest pieces) :
      Splits text (.literal before :: .placeholder inner :: pieces)

/-! ## The scanner -/

lemma outside_cons {c : Char} {rest : List Char} (h : ¬opening <+: c :: rest) (read : List Char) :
    outside read (c :: rest) = outside (c :: read) rest := by
  rw [outside]
  rintro after rfl rfl
  exact h ⟨after, rfl⟩

lemma inside_cons {c : Char} {rest : List Char} (h : ¬closing <+: c :: rest) (read : List Char) :
    inside read (c :: rest) = inside (c :: read) rest := by
  rw [inside]
  rintro after rfl rfl
  exact h ⟨after, rfl⟩

/-- A text without an opening mark is literal. -/
lemma outside_of_not_infix (h : ¬opening <:+: text) (read : List Char) :
    outside read text = [.literal (read.reverse ++ text)] := by
  induction text generalizing read with
  | nil => rw [outside, List.append_nil]
  | cons c rest ih =>
    rw [List.infix_cons_iff, not_or] at h
    rw [outside_cons h.1, ih h.2]
    simp

/-- A placeholder that is not closed is literal. -/
lemma inside_of_not_infix (h : ¬closing <:+: text) (read : List Char) :
    inside read text = [.literal (opening ++ read.reverse ++ text)] := by
  induction text generalizing read with
  | nil => simp [inside, opening]
  | cons c rest ih =>
    rw [List.infix_cons_iff, not_or] at h
    rw [inside_cons h.1, ih h.2]
    simp

/-- A placeholder begins at the first opening mark. -/
lemma outside_of_firstAt (h : FirstAt opening text before after) (read : List Char) :
    outside read text = .literal (read.reverse ++ before) :: inside [] after := by
  induction before generalizing text read with
  | nil =>
    obtain rfl := h.split
    rw [List.append_nil]
    rfl
  | cons c more ih =>
    obtain ⟨⟨⟩, -⟩ | ⟨d, rest, more', heq, rfl, hprefix, hrest⟩ := h.cases
    obtain ⟨rfl, rfl⟩ := List.cons.inj heq
    rw [outside_cons hprefix, ih hrest]
    simp

/-- A placeholder ends at the first closing mark. -/
lemma inside_of_firstAt (h : FirstAt closing text before after) (read : List Char) :
    inside read text = .placeholder (read.reverse ++ before) :: outside [] after := by
  induction before generalizing text read with
  | nil =>
    obtain rfl := h.split
    rw [List.append_nil]
    rfl
  | cons c more ih =>
    obtain ⟨⟨⟩, -⟩ | ⟨d, rest, more', heq, rfl, hprefix, hrest⟩ := h.cases
    obtain ⟨rfl, rfl⟩ := List.cons.inj heq
    rw [inside_cons hprefix, ih hrest]
    simp

lemma pieces_of_firstAt {inner rest : List Char} (hopen : FirstAt opening text before after)
    (hclose : FirstAt closing after inner rest) :
    pieces text = .literal before :: .placeholder inner :: pieces rest := by
  rw [pieces, outside_of_firstAt hopen, inside_of_firstAt hclose]
  rfl

lemma Splits.eq_pieces {ps : List Piece} (h : Splits text ps) : ps = pieces text := by
  induction h with
  | literal hopen => rw [pieces, outside_of_not_infix hopen]; rfl
  | unclosed hopen hclose =>
    rw [pieces, outside_of_firstAt hopen, inside_of_not_infix hclose]
    rfl
  | placeholder hopen hclose _ ih => rw [pieces_of_firstAt hopen hclose, ih]

/-- Every template splits.  What is left behind a placeholder is shorter than the template. -/
lemma splits_pieces (text : List Char) : Splits text (pieces text) := by
  induction hlength : text.length using Nat.strongRecOn generalizing text with
  | ind length ih =>
    by_cases hopen : opening <:+: text
    · obtain ⟨before, after, hopen⟩ := exists_firstAt hopen
      by_cases hclose : closing <:+: after
      · obtain ⟨inner, rest, hclose⟩ := exists_firstAt hclose
        rw [pieces_of_firstAt hopen hclose]
        have hshorter : rest.length < length := by
          rw [← hlength, hopen.split, hclose.split]
          simp only [List.length_append, opening, closing, List.length_cons, List.length_nil]
          omega
        exact .placeholder hopen hclose (ih _ hshorter rest rfl)
      · have hsplits := Splits.unclosed hopen hclose
        exact hsplits.eq_pieces ▸ hsplits
    · have hsplits := Splits.literal hopen
      exact hsplits.eq_pieces ▸ hsplits

/-- A template splits in one way only. -/
lemma splits_iff {ps : List Piece} : Splits text ps ↔ ps = pieces text := by
  constructor
  · exact Splits.eq_pieces
  · rintro rfl
    exact splits_pieces text

/-! ## Filling in -/

/-- The variable that a placeholder names. -/
def variableName (inner : List Char) : String :=
  String.ofList (Text.trim inner)

/-- What is put in for pieces: the values of variables for the placeholders that name them, and all
other pieces as they stand. -/
structure Fills (values : Fields) (fill : Piece → List Char) : Prop where
  literal : ∀ text, fill (.literal text) = text
  named : ∀ {inner v}, Keyed.get? values (variableName inner) = some v →
    fill (.placeholder inner) = v.display.toList
  unnamed : ∀ {inner}, variableName inner ∉ Keyed.keys values →
    fill (.placeholder inner) = (Piece.placeholder inner).source

lemma fills_renderPiece (values : Fields) : Fills values (renderPiece values) where
  literal _ := rfl
  named h := by
    rw [variableName] at h
    rw [renderPiece, h]
  unnamed h := by
    have hnone := Keyed.get?_eq_none_iff.2 h
    rw [variableName] at hnone
    rw [renderPiece, hnone]

lemma Fills.source_of_unnamed {values : Fields} {fill : Piece → List Char} (h : Fills values fill)
    {ps : List Piece}
    (hps : ∀ inner, Piece.placeholder inner ∈ ps → variableName inner ∉ Keyed.keys values) :
    ps.flatMap fill = ps.flatMap Piece.source := by
  refine List.flatMap_congr fun piece hpiece => ?_
  cases piece with
  | literal text => exact h.literal text
  | placeholder inner => exact h.unnamed (hps inner hpiece)

/-- **Rendering is one pass over the pieces.**  A template splits in one way, whatever the variables
are, and its pieces are the template in parts.  With values for variables each piece is filled in on
its own, so what stands behind a placeholder is rendered as if nothing had been put in before it;
and if no placeholder names a variable, the template stays as it is. -/
theorem render_of_splits (template : String) :
    ∃ ps, (∀ qs, Splits template.toList qs ↔ qs = ps) ∧
      ps.flatMap Piece.source = template.toList ∧
      ∀ values, ∃ fill, Fills values fill ∧
        (render template values).toList = ps.flatMap fill ∧
        (∀ before after inner rest, FirstAt opening template.toList before after →
          FirstAt closing after inner rest →
          (render template values).toList =
            before ++ fill (.placeholder inner) ++ (render (String.ofList rest) values).toList) ∧
        ((∀ inner, Piece.placeholder inner ∈ ps → variableName inner ∉ Keyed.keys values) →
          render template values = template) := by
  refine ⟨pieces template.toList, fun qs => splits_iff, flatMap_source_pieces template.toList,
    fun values => ⟨renderPiece values, fills_renderPiece values, ?_, ?_, ?_⟩⟩
  · rw [render, String.toList_ofList]
  · intro before after inner rest hopen hclose
    rw [render, render, String.toList_ofList, String.toList_ofList, String.toList_ofList,
      pieces_of_firstAt hopen hclose, List.flatMap_cons, List.flatMap_cons, List.append_assoc]
    rfl
  · intro hunnamed
    rw [render, (fills_renderPiece values).source_of_unnamed hunnamed, flatMap_source_pieces,
      String.ofList_toList]

/-- A value that looks like a placeholder is not rendered again. -/
example :
    render "\x7b\x7ba\x7d\x7d" [("a", .str "\x7b\x7bb\x7d\x7d"), ("b", .bool true)] =
      "\x7b\x7bb\x7d\x7d" := by
  decide

end TextTemplate

end FlowGraph
