import FlowGraph.Proofs.Json.Drafts

/-!
# Reading records

Two things about readers of records, put together field by field.  What every field's value has as a
property, the fields of the record have, whichever way the record was written
(`Ensures.decode`).  And the draft of an object with known fields is read field by field in the
order written (`decode_ofJson_obj` and the simp lemmas after it), so that reading what was written
is a computation.
-/

namespace FlowGraph

variable {π ρ α β : Type}

namespace Record

/-! ## What a record is read to be -/

/-- Whatever is read as a value of the record has the property `P`, and on the way what was taken
so far has the property `Taken`. -/
structure Ensures (record : Record π α) (Taken : π → Prop) (P : α → Prop) : Prop where
  start : Taken record.start
  take : ∀ {dialect key x taken taken'}, Taken taken →
    record.take dialect key x taken = some (.ok taken') → Taken taken'
  finish : ∀ {taken v}, Taken taken → record.finish taken = .ok v → P v
  fromList : ∀ {dialect expected place items ending v rest},
    record.fromList dialect expected place items ending = .ok (v, rest) → P v

/-- The value that stands for a missing field has the property `P`. -/
def Absent.Ensures (P : α → Prop) : Absent α → Prop
  | .required => True
  | .inObject v | .anywhere v => P v

/-- A field has the property that its decoder gives and that its default has. -/
lemma ensures_field {P : α → Prop} (name : String) {decode : Dialect → Draft → Decoded α}
    {absent : Absent α} (hdecode : ∀ {dialect x v}, decode dialect x = .ok v → P v)
    (habsent : Absent.Ensures P absent) :
    (field name decode absent).Ensures (fun taken => ∀ v, taken = some v → P v) P where
  start := nofun
  take {dialect key x taken taken'} _ h := by
    simp only [field] at h
    split at h
    · obtain h := Option.some.inj h
      split at h
      · cases h
      · obtain ⟨v, hv, rfl⟩ := Except.of_map_eq_ok h
        rintro v' ⟨⟩
        exact hdecode hv
    · cases h
  finish {taken v} htaken h := by
    simp only [field] at h
    split at h
    · cases h
      exact htaken _ rfl
    · split at h
      · cases h
      · cases h
        exact habsent
      · cases h
        exact habsent
  fromList {dialect expected place items ending v rest} h := by
    simp only [field] at h
    split at h
    · obtain ⟨v', hv, heq⟩ := Except.of_map_eq_ok h
      cases heq
      exact hdecode hv
    · split at h
      · cases h
      · split at h
        · cases h
          exact habsent
        · cases h

/-- Nothing is asked of what a record is read to be. -/
lemma ensures_true (record : Record π α) : record.Ensures (fun _ => True) (fun _ => True) where
  start := trivial
  take _ _ := trivial
  finish _ _ := trivial
  fromList _ := trivial

lemma Ensures.and {a : Record π α} {b : Record ρ β} {Ta : π → Prop} {Tb : ρ → Prop}
    {P : α → Prop} {Q : β → Prop} (ha : a.Ensures Ta P) (hb : b.Ensures Tb Q) :
    (a.and b).Ensures (fun taken => Ta taken.1 ∧ Tb taken.2) (fun v => P v.1 ∧ Q v.2) where
  start := ⟨ha.start, hb.start⟩
  take {dialect key x taken taken'} htaken h := by
    simp only [Record.and] at h
    split at h
    · next result hresult =>
      obtain ⟨t, rfl, rfl⟩ := Except.of_map_eq_ok (Option.some.inj h)
      exact ⟨ha.take htaken.1 hresult, htaken.2⟩
    · obtain ⟨result, hresult, hmap⟩ := Option.map_eq_some_iff.1 h
      obtain ⟨t, rfl, rfl⟩ := Except.of_map_eq_ok hmap
      exact ⟨htaken.1, hb.take htaken.2 hresult⟩
  finish {taken v} htaken h := by
    obtain ⟨x, hx, h⟩ := Except.of_bind_eq_ok h
    obtain ⟨y, hy, h⟩ := Except.of_bind_eq_ok h
    cases h
    exact ⟨ha.finish htaken.1 hx, hb.finish htaken.2 hy⟩
  fromList {dialect expected place items ending v rest} h := by
    obtain ⟨⟨x, rest'⟩, hx, h⟩ := Except.of_bind_eq_ok h
    obtain ⟨⟨y, rest''⟩, hy, h⟩ := Except.of_bind_eq_ok h
    cases h
    exact ⟨ha.fromList hx, hb.fromList hy⟩

lemma Ensures.map {a : Record π α} {Taken : π → Prop} {P : α → Prop} {Q : β → Prop} {f : α → β}
    (ha : a.Ensures Taken P) (hf : ∀ v, P v → Q (f v)) : (a.map f).Ensures Taken Q where
  start := ha.start
  take htaken h := ha.take htaken h
  finish htaken h := by
    obtain ⟨v, hv, rfl⟩ := Except.of_map_eq_ok h
    exact hf v (ha.finish htaken hv)
  fromList h := by
    obtain ⟨⟨v, rest⟩, hv, heq⟩ := Except.of_map_eq_ok h
    cases heq
    exact hf v (ha.fromList hv)

lemma Ensures.takeAll {record : Record π α} {Taken : π → Prop} {P : α → Prop}
    (h : record.Ensures Taken P) {dialect : Dialect} :
    ∀ {fields : List (Except TextFault String × Draft)} {taken taken' : π}, Taken taken →
      record.takeAll dialect fields taken = .ok taken' → Taken taken' := by
  intro fields
  induction fields with
  | nil =>
    rintro taken taken' htaken ⟨⟩
    exact htaken
  | cons entry fields ih =>
    obtain ⟨key | key, x⟩ := entry
    · nofun
    · intro taken taken' htaken hall
      rw [Record.takeAll] at hall
      split at hall
      · next next hnext => exact ih (h.take htaken hnext) hall
      · cases hall
      · split at hall
        · cases hall
        · exact ih htaken hall

/-- **What is read as a record has the properties of its fields**, whether it was written as an
object or as a list. -/
theorem Ensures.decode {record : Record π α} {Taken : π → Prop} {P : α → Prop}
    (h : record.Ensures Taken P) {expected : String} {dialect : Dialect} {x : Draft} {v : α}
    (hread : record.decode expected dialect x = .ok v) : P v := by
  unfold Record.decode at hread
  split at hread
  · obtain ⟨taken, htaken, hread⟩ := Except.of_bind_eq_ok hread
    split at hread
    · cases hread
    · split at hread
      · next hfinish =>
        cases hread
        exact h.finish (h.takeAll h.start htaken) hfinish
      · cases hread
  · obtain ⟨⟨v', rest⟩, hlist, hread⟩ := Except.of_bind_eq_ok hread
    have hv := h.fromList hlist
    dsimp only at hread
    split at hread
    · cases hread
      exact hv
    · split at hread
      · cases hread
        exact hv
      · cases hread
    · split at hread
      · cases hread
      · split at hread
        · cases hread
        · cases hread
          exact hv
  · unfold Draft.mismatch at hread
    split at hread <;> cases hread

/-! ## Reading what was written -/

variable {record : Record π α} {a : Record π α} {b : Record ρ β}
variable {dialect : Dialect} {key : String} {x : Draft}

/-- An object is read field by field. -/
lemma decode_ofJson_obj (record : Record π α) (expected : String) (dialect : Dialect)
    (fields : List (String × Json)) :
    record.decode expected dialect (.ofJson (.obj fields)) =
      match record.takeAll dialect (Draft.ofFields fields) record.start with
      | .error fault => .error fault
      | .ok taken => match record.finish taken with
        | .ok v => .ok v
        | .error fault => .error (.data fault) := by
  rw [Draft.ofJson, Record.decode, ofObject]
  rcases record.takeAll dialect (Draft.ofFields fields) record.start with fault | taken <;> rfl

@[simp] lemma takeAll_nil (taken : π) :
    record.takeAll dialect (Draft.ofFields []) taken = .ok taken := rfl

@[simp] lemma takeAll_cons (v : Json) (fields : List (String × Json)) (taken : π) :
    record.takeAll dialect (Draft.ofFields ((key, v) :: fields)) taken =
      match record.take dialect key (.ofJson v) taken with
      | some (.ok taken) => record.takeAll dialect (Draft.ofFields fields) taken
      | some (.error fault) => .error fault
      | none => match (Draft.ofJson v).skipFault? with
        | some fault => .error (.text fault)
        | none => record.takeAll dialect (Draft.ofFields fields) taken := rfl

@[simp] lemma field_start (name : String) (decode : Dialect → Draft → Decoded α)
    (absent : Absent α) : (field name decode absent).start = none := rfl

/-- A field that is not taken yet is decoded under its name; other names are not its. -/
@[simp] lemma field_take_none (name : String) (decode : Dialect → Draft → Decoded α)
    (absent : Absent α) : (field name decode absent).take dialect key x none =
      if key = name then some ((decode dialect x).map some) else none := rfl

@[simp] lemma field_take_of_ne {name : String} (h : key ≠ name)
    (decode : Dialect → Draft → Decoded α) (absent : Absent α) (taken : Option α) :
    (field name decode absent).take dialect key x taken = none := if_neg h

@[simp] lemma field_finish_some (name : String) (decode : Dialect → Draft → Decoded α)
    (absent : Absent α) (v : α) : (field name decode absent).finish (some v) = .ok v := rfl

@[simp] lemma field_finish_none (name : String) (decode : Dialect → Draft → Decoded α) (v : α) :
    (field name decode (.anywhere v)).finish none = .ok v := rfl

@[simp] lemma and_start : (a.and b).start = (a.start, b.start) := rfl

@[simp] lemma and_take (taken : π) (taken' : ρ) :
    (a.and b).take dialect key x (taken, taken') =
      match a.take dialect key x taken with
      | some result => some (result.map fun p => (p, taken'))
      | none => (b.take dialect key x taken').map fun result =>
        result.map fun p => (taken, p) := rfl

@[simp] lemma and_finish (taken : π) (taken' : ρ) :
    (a.and b).finish (taken, taken') =
      match a.finish taken with
      | .error fault => .error fault
      | .ok v => match b.finish taken' with
        | .error fault => .error fault
        | .ok v' => .ok (v, v') := by
  show (do
    let v ← a.finish taken
    let v' ← b.finish taken'
    .ok (v, v')) = _
  rcases a.finish taken with fault | v
  · rfl
  · rcases b.finish taken' with fault | v' <;> rfl

@[simp] lemma map_start (f : α → β) : (a.map f).start = a.start := rfl

@[simp] lemma map_take (f : α → β) (taken : π) :
    (a.map f).take dialect key x taken = a.take dialect key x taken := rfl

@[simp] lemma map_finish (f : α → β) (taken : π) :
    (a.map f).finish taken = (a.finish taken).map f := rfl

end Record

/-! ## Lists, options and fields -/

namespace Draft

/-- What is read as a list consists of what is read of its items. -/
lemma of_toList {decode : Draft → Decoded α} {P : α → Prop}
    (hdecode : ∀ {x v}, decode x = .ok v → P v) {x : Draft} {vs : List α}
    (h : x.toList decode = .ok vs) : ∀ v ∈ vs, P v := by
  have hitems : ∀ {items : List Draft} {vs : List α}, decodeItems decode items = .ok vs →
      ∀ v ∈ vs, P v := by
    intro items
    induction items with
    | nil =>
      rintro vs ⟨⟩
      exact List.forall_mem_nil _
    | cons item items ih =>
      intro vs h
      obtain ⟨head, hhead, h⟩ := Except.of_bind_eq_ok h
      obtain ⟨tail, htail, h⟩ := Except.of_bind_eq_ok h
      cases h
      exact List.forall_mem_cons.2 ⟨hdecode hhead, ih htail⟩
  unfold toList at h
  split at h
  · obtain ⟨values, hvalues, h⟩ := Except.of_bind_eq_ok h
    split at h
    · cases h
    · cases h
      exact hitems hvalues
  · unfold mismatch at h
    split at h <;> cases h

/-- What is read as an option is nothing, or was read from something other than `null`. -/
lemma of_toOption {decode : Draft → Decoded α} {x : Draft} {v : α}
    (h : x.toOption decode = .ok (some v)) : x ≠ .null ∧ decode x = .ok v := by
  unfold toOption at h
  split at h
  · cases h
  · next hnull =>
    obtain ⟨v', hv, heq⟩ := Except.of_map_eq_ok h
    cases heq
    exact ⟨fun hx => hnull hx, hv⟩

lemma of_toJson {x : Draft} {v : Json} (h : x.toJson = .ok v) : x.value = .ok v := by
  unfold toJson at h
  split at h
  · next hvalue =>
    cases h
    exact hvalue
  · cases h

/-- Only the draft `null` has the value `null`. -/
lemma value_eq_null {x : Draft} (h : x.value = .ok .null) : x = .null := by
  cases x with
  | null => rfl
  | bool _ | num _ | str _ | broken _ _ => cases h
  | list items ending =>
    obtain ⟨values, -, h⟩ := Except.of_bind_eq_ok (by rwa [value] at h)
    split at h <;> cases h
  | object fields ending =>
    obtain ⟨entries, -, h⟩ := Except.of_bind_eq_ok (by rwa [value] at h)
    split at h <;> cases h

/-- What is read as the fields of an object is well-formed. -/
lemma of_toFields {x : Draft} {fields : Fields} (h : x.toFields = .ok fields) :
    (Json.obj fields).WellFormed := by
  unfold toFields at h
  split at h
  · next entries ending =>
    have hvalue : ∀ {v}, (object entries ending).toJson = .ok v → v.WellFormed :=
      fun hv => wellFormed_of_value (of_toJson hv)
    split at h
    · next hread =>
      cases h
      exact hvalue hread
    · cases h
      exact ⟨List.nodup_nil, trivial⟩
    · cases h
  · unfold mismatch at h
    split at h <;> cases h

/-- A list is read back item by item. -/
lemma toList_ofJson_arr {decode : Draft → Decoded β} {write : α → Json} {f : α → β} {xs : List α}
    (h : ∀ x ∈ xs, decode (ofJson (write x)) = .ok (f x)) :
    (ofJson (.arr (xs.map write))).toList decode = .ok (xs.map f) := by
  have hitems : decodeItems decode (ofItems (xs.map write)) = .ok (xs.map f) := by
    induction xs with
    | nil => rfl
    | cons x xs ih =>
      rw [List.forall_mem_cons] at h
      rw [List.map_cons, ofItems, decodeItems, h.1, ih h.2]
      rfl
  rw [ofJson, toList, hitems]
  rfl

/-- A list is not read if one of its items is not. -/
lemma toList_ofJson_arr_error {decode : Draft → Decoded β} {write : α → Json} {xs : List α}
    {x : α} (hx : x ∈ xs) (h : ∃ fault, decode (ofJson (write x)) = .error fault) :
    ∃ fault, (ofJson (.arr (xs.map write))).toList decode = .error fault := by
  have hitems : ∃ fault, decodeItems decode (ofItems (xs.map write)) = .error fault := by
    induction xs with
    | nil => cases hx
    | cons y xs ih =>
      rw [List.map_cons, ofItems, decodeItems]
      rcases hy : decode (ofJson (write y)) with fault | v
      · exact ⟨fault, rfl⟩
      · rcases List.mem_cons.1 hx with rfl | hrest
        · obtain ⟨fault, hfault⟩ := h
          rw [hfault] at hy
          cases hy
        · obtain ⟨fault, hfault⟩ := ih hrest
          exact ⟨fault, by rw [hfault]; rfl⟩
  obtain ⟨fault, hfault⟩ := hitems
  exact ⟨fault, by rw [ofJson, toList, hfault]; rfl⟩

@[simp] lemma toText_ofJson (s : String) : (ofJson (.str s)).toText = .ok s := rfl

@[simp] lemma toBool_ofJson (b : Bool) : (ofJson (.bool b)).toBool = .ok b := rfl

@[simp] lemma toJson_ofJson {v : Json} (h : v.WellFormed) : (ofJson v).toJson = .ok v := by
  rw [toJson, value_ofJson h]

lemma ofJson_ne_null {v : Json} (h : v ≠ .null) : ofJson v ≠ .null := by
  cases v <;> simp_all [ofJson]

@[simp] lemma toOption_ofJson_null (decode : Draft → Decoded α) :
    (ofJson .null).toOption decode = .ok none := rfl

@[simp] lemma toOption_toText_ofJson (s : String) :
    (ofJson (.str s)).toOption toText = .ok (some s) := rfl

/-- What is not `null` is read as something. -/
lemma toOption_ofJson {v : Json} (h : v ≠ .null) (decode : Draft → Decoded α) :
    (ofJson v).toOption decode = (decode (ofJson v)).map some := by
  unfold toOption
  split
  · next hnull => exact absurd hnull (ofJson_ne_null h)
  · rfl

@[simp] lemma toFields_ofJson {fields : Fields} (h : (Json.obj fields).WellFormed) :
    (ofJson (.obj fields)).toFields = .ok fields := by
  have hread : (object (ofFields fields) .closed).toJson = .ok (.obj fields) := toJson_ofJson h
  rw [ofJson, toFields, hread]

end Draft

end FlowGraph
