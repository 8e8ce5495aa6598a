import FlowGraph.Proofs.Template.Paths

/-!
# Addresses of the parts of a value

Hops lead from a value to a part of it, each under a key of an object or to an item of a list
(`Json.Chain`).  Such a chain can be written as a path in several ways, because an index stands in a
segment of its own or in brackets behind the segment before it (`Spelling`, `Path.write`).  Whichever
way is taken, the path leads where the chain does; and wherever a path leads, a chain leads too
(`Json.select_write`).

What is written is read back as the steps that were meant (`Path.read_write`).  That is an induction
over the spelled hops in which the segment that is still open, a name and the indexes behind it,
grows with each index in brackets.
-/

namespace FlowGraph

/-! ## Numerals -/

namespace Text

lemma toNat_of_isDigit {c : Char} (h : c.isDigit = true) : 48 ≤ c.toNat ∧ c.toNat ≤ 57 := by
  simpa [Char.isDigit, UInt32.le_iff_toNat_le] using h

lemma isBlank_of_isDigit {c : Char} (h : c.isDigit = true) : isBlank c = false := by
  have hc := toNat_of_isDigit h
  simp only [isBlank, Bool.or_eq_false_iff, Bool.and_eq_false_iff, decide_eq_false_iff_not]
  omega

/-- A text without blanks is trimmed. -/
lemma trim_of_not_blank {text : List Char} (h : ∀ c ∈ text, isBlank c = false) :
    trim text = text := by
  have hdrop : ∀ xs : List Char, (∀ c ∈ xs, isBlank c = false) → xs.dropWhile isBlank = xs := by
    intro xs hxs
    cases xs with
    | nil => rfl
    | cons c rest => rw [List.dropWhile_cons_of_neg (by simp [hxs c])]
  rw [trim, hdrop text h, hdrop _ fun c hc => h c (List.mem_reverse.1 hc), List.reverse_reverse]

lemma digitsValue?_eq {digits : List Char} (hne : digits ≠ [])
    (h : ∀ c ∈ digits, c.isDigit = true) :
    digitsValue? digits = some (Nat.ofDigitChars 10 digits 0) := by
  rw [digitsValue?, if_neg (by simpa using hne), Nat.ofDigitChars]
  generalize 0 = n
  clear hne
  induction digits generalizing n with
  | nil => rfl
  | cons c rest ih =>
    have hc : c.isDigit = true := h c List.mem_cons_self
    simp only [List.foldl_cons, hc, if_true]
    rw [ih fun d hd => h d (List.mem_cons_of_mem c hd), Nat.mul_comm]
    rfl

lemma word64?_lt {text : List Char} {i : Nat} (h : word64? text = some i) : i < UInt64.size := by
  unfold word64? at h
  dsimp only at h
  split at h
  · split at h
    · next hlt =>
      obtain rfl := Option.some.inj h
      exact hlt
    · cases h
  · cases h

end Text

/-- A number in decimal digits.  Zeros may stand before it. -/
structure Numeral where
  digits : List Char
  notEmpty : digits ≠ []
  isDigit : ∀ c ∈ digits, c.isDigit = true

namespace Numeral

/-- The number that a numeral stands for. -/
def value (n : Numeral) : Nat :=
  Nat.ofDigitChars 10 n.digits 0

/-- The numeral of a number without zeros before it. -/
def ofNat (i : Nat) : Numeral where
  digits := Nat.toDigits 10 i
  notEmpty := Nat.toDigits_ne_nil
  isDigit _ hc := Nat.isDigit_of_mem_toDigits (by decide) (by decide) hc

@[simp] lemma value_ofNat (i : Nat) : (ofNat i).value = i :=
  Nat.ofDigitChars_toDigits (by decide) (by decide)

variable (n : Numeral)

lemma not_mem {c : Char} (hc : c.isDigit = false) : c ∉ n.digits := by
  intro hmem
  rw [n.isDigit c hmem] at hc
  cases hc

lemma word64?_digits (h : n.value < UInt64.size) : Text.word64? n.digits = some n.value := by
  have hvalue : Text.digitsValue? n.digits = some n.value :=
    Text.digitsValue?_eq n.notEmpty n.isDigit
  rw [Text.word64?, hvalue]
  · exact if_pos h
  · -- no sign stands before the digits
    intro rest hsign
    have hplus : '+' ∉ n.digits := n.not_mem (by decide)
    rw [hsign] at hplus
    exact hplus List.mem_cons_self

lemma trim_digits : Text.trim n.digits = n.digits :=
  Text.trim_of_not_blank fun c hc => Text.isBlank_of_isDigit (n.isDigit c hc)

end Numeral

/-! ## Chains of hops -/

/-- One hop from a value to a part right inside of it. -/
inductive Hop where
  /-- To the value under a key of an object. -/
  | key (k : String)
  /-- To the item at an index of a list. -/
  | index (i : Nat)
deriving DecidableEq, Repr

/-- The hop can be written in a path: a key is not empty and holds no dot and no opening bracket.
An index is a machine word, as those of all lists in memory are. -/
def Hop.Writable : Hop → Prop
  | key k => k ≠ "" ∧ '.' ∉ k.toList ∧ '[' ∉ k.toList
  | index i => i < UInt64.size

/-- Hops lead from one value to another. -/
inductive Json.Chain : Json → List Hop → Json → Prop where
  | nil {v : Json} : Chain v [] v
  | key {fields : Fields} {k : String} {w u : Json} {hops : List Hop}
      (hget : Keyed.get? fields k = some w) (rest : Chain w hops u) :
      Chain (.obj fields) (.key k :: hops) u
  | index {items : List Json} {i : Nat} {w u : Json} {hops : List Hop}
      (hget : items[i]? = some w) (rest : Chain w hops u) : Chain (.arr items) (.index i :: hops) u

/-! ## Ways to write a chain -/

/-- A hop as it is written in a path. -/
inductive Spelling where
  /-- A key as a segment. -/
  | key (k : String)
  /-- An index as a segment. -/
  | dotted (n : Numeral)
  /-- An index in brackets. -/
  | bracketed (n : Numeral)

namespace Spelling

/-- The hop that is written. -/
def hop : Spelling → Hop
  | key k => .key k
  | dotted n => .index n.value
  | bracketed n => .index n.value

/-- The hop in letters. -/
def text : Spelling → List Char
  | key k => k.toList
  | dotted n => n.digits
  | bracketed n => '[' :: n.digits ++ [']']

/-- What stands before a hop that is not the first: segments are set off by dots, brackets belong to
the segment before them. -/
def separator : Spelling → List Char
  | bracketed _ => []
  | _ => ['.']

/-- The step of a path that the hop is read as. -/
def step : Spelling → PathStep
  | key k => .name k.toList
  | dotted n => .name n.digits
  | bracketed n => .index n.value

end Spelling

namespace Path

/-- What is written behind the first hop. -/
def writeMore (spelled : List Spelling) : List Char :=
  spelled.flatMap fun s => s.separator ++ s.text

/-- The path of spelled hops. -/
def write : List Spelling → String
  | [] => ""
  | s :: rest => String.ofList (s.text ++ writeMore rest)

end Path

/-! ## Segments -/

/-- A segment of a path: a name, which may be missing, and indexes in brackets. -/
structure Segment where
  name : List Char
  indexes : List Numeral

namespace Segment

/-- The indexes in brackets. -/
def brackets (indexes : List Numeral) : List Char :=
  indexes.flatMap fun n => '[' :: n.digits ++ [']']

/-- The segment in letters. -/
def text (seg : Segment) : List Char :=
  seg.name ++ brackets seg.indexes

/-- The steps that the segment holds. -/
def steps (seg : Segment) : List PathStep :=
  (if seg.name.isEmpty then [] else [.name seg.name]) ++ seg.indexes.map fun n => .index n.value

/-- The segment with one more index. -/
def extend (seg : Segment) (n : Numeral) : Segment :=
  { seg with indexes := seg.indexes ++ [n] }

/-- The segment is read as it is meant. -/
structure Readable (seg : Segment) : Prop where
  noDot : '.' ∉ seg.name
  noBracket : '[' ∉ seg.name
  words : ∀ n ∈ seg.indexes, n.value < UInt64.size
  notEmpty : seg.text ≠ []

variable {seg : Segment}

lemma text_extend (seg : Segment) (n : Numeral) :
    (seg.extend n).text = seg.text ++ (Spelling.bracketed n).text := by
  simp [text, extend, brackets, Spelling.text]

lemma steps_extend (seg : Segment) (n : Numeral) :
    (seg.extend n).steps = seg.steps ++ [.index n.value] := by
  simp [steps, extend]

lemma Readable.extend (h : seg.Readable) {n : Numeral} (hn : n.value < UInt64.size) :
    (seg.extend n).Readable where
  noDot := h.noDot
  noBracket := h.noBracket
  words m hm := by
    rcases List.mem_append.1 hm with hm | hm
    · exact h.words m hm
    · obtain rfl := List.mem_singleton.1 hm
      exact hn
  notEmpty := by simp [text_extend, Spelling.text]

lemma Readable.dot_not_mem (h : seg.Readable) : '.' ∉ seg.text := by
  intro hmem
  rcases List.mem_append.1 hmem with hname | hbrackets
  · exact h.noDot hname
  · obtain ⟨n, -, hn⟩ := List.mem_flatMap.1 hbrackets
    have hdigits : '.' ∉ n.digits := n.not_mem (by decide)
    simp [hdigits] at hn

end Segment

namespace Path

open Segment (brackets)

variable {seg : Segment} {spelled : List Spelling}

/-- An index is read up to its closing bracket. -/
lemma readIndexes_open (digits more rest : List Char) (h : ']' ∉ more) :
    readIndexes (some digits) (more ++ ']' :: rest) =
      readIndexes (some (more.reverse ++ digits)) (']' :: rest) := by
  induction more generalizing digits with
  | nil => rfl
  | cons c more ih =>
    rw [List.mem_cons, not_or] at h
    rw [List.cons_append, readIndexes, if_neg (Ne.symm h.1), ih _ h.2]
    simp

lemma readIndexes_brackets {indexes : List Numeral} (h : ∀ n ∈ indexes, n.value < UInt64.size) :
    readIndexes none (brackets indexes) = some (indexes.map fun n => .index n.value) := by
  induction indexes with
  | nil => rfl
  | cons n rest ih =>
    have hrest := ih fun m hm => h m (List.mem_cons_of_mem n hm)
    have htext : brackets (n :: rest) = '[' :: (n.digits ++ ']' :: brackets rest) := by
      simp [brackets]
    have hdigits : Text.word64? (Text.trim (n.digits.reverse ++ []).reverse) = some n.value := by
      rw [List.append_nil, List.reverse_reverse, n.trim_digits]
      exact n.word64?_digits (h n List.mem_cons_self)
    rw [htext, readIndexes, if_pos rfl, readIndexes_open [] _ _ (n.not_mem (by decide)),
      readIndexes, if_pos rfl, hdigits, hrest]
    rfl

/-- The name of a segment ends where the brackets begin. -/
lemma readSegment_text (h : seg.Readable) : readSegment seg.text = some seg.steps := by
  have hname : ∀ c ∈ seg.name, decide (c ≠ '[') = true := by
    intro c hc
    simpa using fun heq : c = '[' => h.noBracket (heq ▸ hc)
  have hstop : (brackets seg.indexes).takeWhile (· ≠ '[') = [] ∧
      (brackets seg.indexes).dropWhile (· ≠ '[') = brackets seg.indexes := by
    cases seg.indexes <;> simp [brackets]
  rw [readSegment, Segment.text, List.takeWhile_append_of_pos hname,
    List.dropWhile_append_of_pos hname, hstop.1, hstop.2, List.append_nil,
    readIndexes_brackets h.words, Segment.steps]
  by_cases hempty : seg.name.isEmpty <;> simp [hempty]

lemma segments_of_not_mem {path : List Char} (h : '.' ∉ path) : segments path = [path] := by
  induction path with
  | nil => rfl
  | cons c path ih =>
    rw [List.mem_cons, not_or] at h
    rw [segments, if_neg (Ne.symm h.1), ih h.2]

lemma read_text (h : seg.Readable) : read seg.text = some seg.steps := by
  rw [read, segments_of_not_mem h.dot_not_mem, readSegments_cons,
    if_neg (by simpa using h.notEmpty), readSegment_text h, readSegments]
  exact congrArg some (List.append_nil _)

end Path

/-! ## Reading back what is written -/

namespace Spelling

/-- The segment that a hop opens. -/
def opening : Spelling → Segment
  | key k => ⟨k.toList, []⟩
  | dotted n => ⟨n.digits, []⟩
  | bracketed n => ⟨[], [n]⟩

variable {s : Spelling}

lemma text_opening (s : Spelling) : s.opening.text = s.text := by
  cases s <;> simp [opening, Segment.text, Segment.brackets, text]

lemma steps_opening (h : s.hop.Writable) : s.opening.steps = [s.step] := by
  cases s with
  | key k => simp [opening, Segment.steps, step, h.1]
  | dotted n => simp [opening, Segment.steps, step, n.notEmpty]
  | bracketed n => simp [opening, Segment.steps, step]

lemma readable_opening (h : s.hop.Writable) : s.opening.Readable where
  noDot := by
    cases s with
    | key k => exact h.2.1
    | dotted n => exact n.not_mem (by decide)
    | bracketed n => exact List.not_mem_nil
  noBracket := by
    cases s with
    | key k => exact h.2.2
    | dotted n => exact n.not_mem (by decide)
    | bracketed n => exact List.not_mem_nil
  words := by
    cases s with
    | key k => exact nofun
    | dotted n => exact nofun
    | bracketed n =>
      intro m hm
      obtain rfl := List.mem_singleton.1 hm
      exact h
  notEmpty := by
    rw [text_opening]
    cases s with
    | key k => exact fun hempty => h.1 (String.toList_inj.1 hempty)
    | dotted n => exact n.notEmpty
    | bracketed n => exact List.cons_ne_nil _ _

end Spelling

namespace Path

variable {seg : Segment} {spelled : List Spelling}

/-- The invariant of reading back: the segment that is open takes in the indexes in brackets that
follow, and a segment that is set off by a dot is read on its own. -/
lemma read_text_writeMore (hseg : seg.Readable) (h : ∀ s ∈ spelled, s.hop.Writable) :
    read (seg.text ++ writeMore spelled) = some (seg.steps ++ spelled.map Spelling.step) := by
  induction spelled generalizing seg with
  | nil => simpa [writeMore] using read_text hseg
  | cons s rest ih =>
    have hs : s.hop.Writable := h s List.mem_cons_self
    have hrest : ∀ t ∈ rest, t.hop.Writable := fun t ht => h t (List.mem_cons_of_mem s ht)
    have hset : s.separator = ['.'] → read (seg.text ++ writeMore (s :: rest)) =
        some (seg.steps ++ (s :: rest).map Spelling.step) := by
      intro hdot
      have hnext := ih (Spelling.readable_opening hs) hrest
      rw [Spelling.text_opening, Spelling.steps_opening hs] at hnext
      have hwrite : writeMore (s :: rest) = '.' :: (s.text ++ writeMore rest) := by
        simp [writeMore, hdot]
      rw [hwrite, read_append, read_text hseg, hnext]
      rfl
    cases s with
    | key k => exact hset rfl
    | dotted n => exact hset rfl
    | bracketed n =>
      have hread := ih (hseg.extend hs) hrest
      rw [Segment.text_extend, Segment.steps_extend] at hread
      simpa [writeMore, Spelling.separator, Spelling.step] using hread

/-- **Reading back.**  A written path is read as the steps of its hops. -/
lemma read_write (h : ∀ s ∈ spelled, s.hop.Writable) :
    read (write spelled).toList = some (spelled.map Spelling.step) := by
  cases spelled with
  | nil => rfl
  | cons s rest =>
    have hs : s.hop.Writable := h s List.mem_cons_self
    have hread := read_text_writeMore (Spelling.readable_opening hs) fun t ht =>
      h t (List.mem_cons_of_mem s ht)
    rw [Spelling.text_opening, Spelling.steps_opening hs] at hread
    rw [write, String.toList_ofList, hread]
    rfl

end Path

/-! ## Where a chain leads, and where a path leads -/

lemma Spelling.apply_step_key (k : String) (fields : Fields) :
    (key k).step.apply (.obj fields) = Keyed.get? fields k := by
  rw [step, PathStep.apply, String.ofList_toList]

/-- Both ways to write an index lead to the item. -/
lemma Spelling.apply_step_index {s : Spelling} {i : Nat} (hs : s.hop = .index i)
    (hi : i < UInt64.size) (items : List Json) : s.step.apply (.arr items) = items[i]? := by
  cases s with
  | key k => cases hs
  | dotted n =>
    obtain rfl := Hop.index.inj hs
    rw [step, PathStep.apply, n.word64?_digits hi, Option.bind_some]
  | bracketed n =>
    obtain rfl := Hop.index.inj hs
    rfl

namespace Json

variable {u v : Json}

/-- The steps of a written chain lead where the chain does. -/
lemma Chain.follow {hops : List Hop} (h : Chain v hops u) {spelled : List Spelling}
    (hspelled : spelled.map Spelling.hop = hops) (hwritable : ∀ hop ∈ hops, hop.Writable) :
    Path.follow (spelled.map Spelling.step) v = some u := by
  induction h generalizing spelled with
  | nil =>
    obtain rfl := List.map_eq_nil_iff.1 hspelled
    rfl
  | @key fields k w u hops hget _ ih =>
    obtain ⟨s, rest, rfl, hs, hrest⟩ := List.map_eq_cons_iff.1 hspelled
    obtain rfl : s = .key k := by
      cases s with
      | key l => rw [Spelling.hop, Hop.key.injEq] at hs; rw [hs]
      | dotted n => cases hs
      | bracketed n => cases hs
    rw [List.map_cons, Path.follow, Spelling.apply_step_key, hget, Option.bind_some]
    exact ih hrest fun hop hmem => hwritable hop (List.mem_cons_of_mem _ hmem)
  | @index items i w u hops hget _ ih =>
    obtain ⟨s, rest, rfl, hs, hrest⟩ := List.map_eq_cons_iff.1 hspelled
    have hi : i < UInt64.size := hwritable (.index i) List.mem_cons_self
    rw [List.map_cons, Path.follow, Spelling.apply_step_index hs hi, hget, Option.bind_some]
    exact ih hrest fun hop hmem => hwritable hop (List.mem_cons_of_mem _ hmem)

end Json

namespace PathStep

/-- The step stands in some path. -/
def Readable : PathStep → Prop
  | name key => key ≠ [] ∧ '.' ∉ key ∧ '[' ∉ key
  | index i => i < UInt64.size

/-- A step is a hop. -/
lemma exists_hop {step : PathStep} (hstep : step.Readable) {v w : Json}
    (h : step.apply v = some w) :
    ∃ hop : Hop, hop.Writable ∧ ∀ {hops u}, Json.Chain w hops u → Json.Chain v (hop :: hops) u := by
  unfold apply at h
  split at h
  · next key fields =>
    obtain ⟨hne, hdot, hbracket⟩ := hstep
    refine ⟨.key (String.ofList key), ⟨?_, ?_, ?_⟩, .key h⟩
    · exact fun hempty => hne (String.ofList_injective hempty)
    · rwa [String.toList_ofList]
    · rwa [String.toList_ofList]
  · obtain ⟨i, hi, hget⟩ := Option.bind_eq_some_iff.1 h
    exact ⟨.index i, Text.word64?_lt hi, .index hget⟩
  · next i items => exact ⟨.index i, hstep, .index h⟩
  · cases h

end PathStep

namespace Path

lemma dot_not_mem_segment {path segment : List Char} (h : segment ∈ segments path) :
    '.' ∉ segment := by
  induction path generalizing segment with
  | nil =>
    obtain rfl := List.mem_singleton.1 h
    exact List.not_mem_nil
  | cons c path ih =>
    rw [segments] at h
    split at h
    · rcases List.mem_cons.1 h with rfl | h
      · exact List.not_mem_nil
      · exact ih h
    · next hc =>
      obtain ⟨first, rest, hsplit⟩ := List.exists_cons_of_ne_nil (segments_ne_nil path)
      rw [hsplit] at h ih
      rcases List.mem_cons.1 h with rfl | h
      · rw [List.mem_cons, not_or]
        exact ⟨Ne.symm hc, ih List.mem_cons_self⟩
      · exact ih (List.mem_cons_of_mem _ h)

lemma readable_of_readIndexes {digits? : Option (List Char)} {text : List Char}
    {steps : List PathStep} (h : readIndexes digits? text = some steps) :
    ∀ step ∈ steps, step.Readable := by
  fun_induction readIndexes digits? text generalizing steps with
  | case1 =>
    obtain rfl := Option.some.inj h
    exact nofun
  | case2 => cases h
  | case3 rest ih => exact ih h
  | case4 => cases h
  | case5 digits rest more i hmore hi ih =>
    obtain rfl := Option.some.inj h
    exact List.forall_mem_cons.2 ⟨Text.word64?_lt hi, ih hmore⟩
  | case6 => cases h
  | case7 digits c rest _ ih => exact ih h

lemma readable_of_readSegment {segment : List Char} {steps : List PathStep}
    (hdot : '.' ∉ segment) (h : readSegment segment = some steps) :
    ∀ step ∈ steps, step.Readable := by
  rw [readSegment] at h
  split at h
  · exact readable_of_readIndexes h
  · next hname =>
    obtain ⟨more, hmore, rfl⟩ := Option.map_eq_some_iff.1 h
    refine List.forall_mem_cons.2 ⟨⟨?_, ?_, ?_⟩, readable_of_readIndexes hmore⟩
    · simpa using hname
    · exact fun hmem => hdot ((List.takeWhile_prefix _).subset hmem)
    · intro hmem
      simpa using List.all_eq_true.1 List.all_takeWhile _ hmem

/-- Whatever is read of a path holds steps that could be written. -/
lemma readable_of_read {path : List Char} {steps : List PathStep} (h : read path = some steps) :
    ∀ step ∈ steps, step.Readable := by
  have hall : ∀ segment ∈ segments path, '.' ∉ segment := fun _ => dot_not_mem_segment
  rw [read] at h
  generalize segments path = rest at h hall
  induction rest generalizing steps with
  | nil =>
    obtain rfl := Option.some.inj h
    exact List.forall_mem_nil _
  | cons segment rest ih =>
    rw [readSegments_cons] at h
    obtain ⟨first, hfirst, h⟩ := Option.bind_eq_some_iff.1 h
    obtain ⟨more, hmore, rfl⟩ := Option.map_eq_some_iff.1 h
    have hrest := ih hmore fun s hs => hall s (List.mem_cons_of_mem _ hs)
    refine List.forall_mem_append.2 ⟨?_, hrest⟩
    split at hfirst
    · obtain rfl := Option.some.inj hfirst
      exact List.forall_mem_nil _
    · exact readable_of_readSegment (hall segment List.mem_cons_self) hfirst

lemma exists_chain_of_follow {steps : List PathStep} (hsteps : ∀ step ∈ steps, step.Readable)
    {v u : Json} (h : follow steps v = some u) :
    ∃ hops, Json.Chain v hops u ∧ ∀ hop ∈ hops, hop.Writable := by
  induction steps generalizing v with
  | nil =>
    obtain rfl := Option.some.inj h
    exact ⟨[], .nil, nofun⟩
  | cons step steps ih =>
    obtain ⟨w, hstep, hrest⟩ := Option.bind_eq_some_iff.1 h
    obtain ⟨hop, hwritable, hcons⟩ := step.exists_hop (hsteps step List.mem_cons_self) hstep
    obtain ⟨hops, hchain, hall⟩ := ih (fun s hs => hsteps s (List.mem_cons_of_mem _ hs)) hrest
    exact ⟨hop :: hops, hcons hchain, List.forall_mem_cons.2 ⟨hwritable, hall⟩⟩

end Path

namespace Json

/-- **Paths address the parts of a value.**  When hops that can be written lead from a value to a
part of it, so does the path, in whichever way the hops are written.  Conversely, wherever a path
leads, whatever its text is, such hops lead. -/
theorem select_write (v : Json) :
    (∀ hops u, Chain v hops u → (∀ hop ∈ hops, hop.Writable) →
      ∀ spelled, spelled.map Spelling.hop = hops → v.select (Path.write spelled) = some u) ∧
    ∀ path u, v.select path = some u →
      ∃ hops, Chain v hops u ∧ ∀ hop ∈ hops, hop.Writable := by
  constructor
  · rintro hops u hchain hwritable spelled hspelled
    have hall : ∀ s ∈ spelled, s.hop.Writable := by
      intro s hs
      exact hwritable s.hop (hspelled ▸ List.mem_map_of_mem hs)
    rw [select, Path.read_write hall, Option.bind_some]
    exact hchain.follow hspelled hwritable
  · intro path u hselect
    obtain ⟨steps, hread, hfollow⟩ := Option.bind_eq_some_iff.1 hselect
    exact Path.exists_chain_of_follow (Path.readable_of_read hread) hfollow

/-- A path with both spellings of indexes, one of them behind another. -/
theorem select_write_mixed :
    let tags : Json := .arr [.null, .arr [.str "a", .str "b"]]
    let v : Json := .obj [("items", .arr [.bool true, .obj [("0", tags)]])]
    let spelled : List Spelling :=
      [.key "items", .dotted (.ofNat 1), .key "0", .bracketed (.ofNat 1), .bracketed (.ofNat 0)]
    Path.write spelled = "items.1.0[1][0]" ∧ v.select "items.1.0[1][0]" = some (.str "a") ∧
      ∃ hops, Chain v hops (.str "a") ∧ ∀ hop ∈ hops, hop.Writable := by
  intro tags v spelled
  have hwrite : Path.write spelled = "items.1.0[1][0]" := by decide
  have hchain : Chain v [.key "items", .index 1, .key "0", .index 1, .index 0] (.str "a") :=
    .key rfl (.index rfl (.key rfl (.index rfl (.index rfl .nil))))
  have hwritable : ∀ hop ∈ [Hop.key "items", .index 1, .key "0", .index 1, .index 0],
      hop.Writable := by
    simp [Hop.Writable, UInt64.size]
  obtain ⟨hpath, hparts⟩ := select_write v
  have hselect : v.select "items.1.0[1][0]" = some (.str "a") :=
    hwrite ▸ hpath _ _ hchain hwritable spelled (by decide)
  exact ⟨hwrite, hselect, hparts _ _ hselect⟩

end Json

end FlowGraph
