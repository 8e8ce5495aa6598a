import Mathlib.Data.List.Forall2
import Mathlib.Tactic.Common

/-!
# Computations that may fail

What a computation in steps says about its steps, when its outcome is known.  The same computation,
done for each item of a list, succeeds if it does for every item (`mapM_eq_ok`); where it can fail
in one way only, it fails in that way if it does for some item (`mapM_eq_error`).
-/

namespace FlowGraph

namespace Except

variable {ε α β : Type}

/-- A computation that succeeds has succeeded in both of its steps. -/
lemma of_bind_eq_ok {x : Except ε α} {f : α → Except ε β} {b : β} (h : (x >>= f) = .ok b) :
    ∃ a, x = .ok a ∧ f a = .ok b := by
  cases x with
  | error e => cases h
  | ok a => exact ⟨a, rfl, h⟩

lemma of_map_eq_ok {x : Except ε α} {f : α → β} {b : β} (h : x.map f = .ok b) :
    ∃ a, x = .ok a ∧ f a = b := by
  cases x with
  | error e => cases h
  | ok a => exact ⟨a, rfl, Except.ok.inj h⟩

lemma of_toOption_eq_some {x : Except ε α} {a : α} (h : x.toOption = some a) : x = .ok a := by
  cases x with
  | error e => cases h
  | ok b => exact congrArg Except.ok (Option.some.inj h)

/-- Steps that fail alike count as one failure. -/
lemma toOption_bind (x : Except ε α) (f : α → Except ε β) :
    (x >>= f).toOption = x.toOption.bind fun a => (f a).toOption := by
  cases x <;> rfl

lemma exists_eq_error_of_toOption {x : Except ε α} (h : x.toOption = none) : ∃ e, x = .error e := by
  cases x with
  | error e => exact ⟨e, rfl⟩
  | ok a => cases h

lemma exists_eq_ok {x : Except ε α} (h : ∀ e, x ≠ .error e) : ∃ a, x = .ok a := by
  cases x with
  | error e => exact absurd rfl (h e)
  | ok a => exact ⟨a, rfl⟩

/-- Computations with the same result fail alike, or succeed alike. -/
lemma of_map_eq_map {γ : Type} {x : Except ε α} {y : Except ε β} {f : α → γ} {g : β → γ}
    (h : x.map f = y.map g) :
    (∃ e, x = .error e ∧ y = .error e) ∨ ∃ a b, x = .ok a ∧ y = .ok b ∧ f a = g b := by
  rcases x with e | a <;> rcases y with e' | b
  · obtain rfl := Except.error.inj h
    exact .inl ⟨e, rfl, rfl⟩
  · cases h
  · cases h
  · exact .inr ⟨a, b, rfl, rfl, Except.ok.inj h⟩

lemma bind_eq_error {x : Except ε α} {f : α → Except ε β} {e : ε} :
    (x >>= f) = .error e ↔ x = .error e ∨ ∃ a, x = .ok a ∧ f a = .error e := by
  constructor
  · intro h
    cases x with
    | error e' => exact .inl (congrArg Except.error (Except.error.inj h))
    | ok a => exact .inr ⟨a, rfl, h⟩
  · rintro (rfl | ⟨a, rfl, h⟩)
    · rfl
    · exact h

lemma map_eq_error {x : Except ε α} {f : α → β} {e : ε} :
    x.map f = .error e ↔ x = .error e := by
  constructor
  · intro h
    cases x with
    | error e' => exact congrArg Except.error (Except.error.inj h)
    | ok a => cases h
  · rintro rfl
    rfl

/-! ## The items of a list -/

variable {f : α → Except ε β} {xs : List α}

lemma mapM_cons (x : α) (xs : List α) :
    (x :: xs).mapM f = f x >>= fun y => xs.mapM f >>= fun ys => .ok (y :: ys) :=
  List.mapM_cons

lemma mapM_eq_ok {ys : List β} :
    xs.mapM f = .ok ys ↔ List.Forall₂ (fun x y => f x = .ok y) xs ys := by
  induction xs generalizing ys with
  | nil =>
    rw [List.mapM_nil, List.forall₂_nil_left_iff]
    exact ⟨fun h => (Except.ok.inj h).symm, fun h => congrArg _ h.symm⟩
  | cons x xs ih =>
    rw [mapM_cons, List.forall₂_cons_left_iff]
    constructor
    · intro h
      obtain ⟨y, hy, h⟩ := of_bind_eq_ok h
      obtain ⟨rest, hrest, h⟩ := of_bind_eq_ok h
      exact ⟨y, rest, hy, ih.1 hrest, (Except.ok.inj h).symm⟩
    · rintro ⟨y, rest, hy, hrest, rfl⟩
      rw [hy, ih.2 hrest]
      rfl

/-- Each result comes from some item. -/
lemma exists_of_mapM_eq_ok {ys : List β} {y : β} (h : xs.mapM f = .ok ys) (hy : y ∈ ys) :
    ∃ x ∈ xs, f x = .ok y := by
  have hall := mapM_eq_ok.1 h
  clear h
  induction hall with
  | nil => cases hy
  | @cons x z xs zs hx _ ih =>
    rcases List.mem_cons.1 hy with rfl | hy
    · exact ⟨x, List.mem_cons_self, hx⟩
    · obtain ⟨w, hw, hwy⟩ := ih hy
      exact ⟨w, List.mem_cons_of_mem x hw, hwy⟩

/-- Where all items fail alike, a list fails as soon as one of its items does. -/
lemma mapM_eq_error {failure e : ε} {Fails : α → Prop}
    (h : ∀ x ∈ xs, ∀ e, f x = .error e ↔ e = failure ∧ Fails x) :
    xs.mapM f = .error e ↔ e = failure ∧ ∃ x ∈ xs, Fails x := by
  induction xs with
  | nil =>
    rw [List.mapM_nil]
    exact ⟨nofun, fun h => by simpa using h.2⟩
  | cons x xs ih =>
    have ih := ih fun y hy => h y (List.mem_cons_of_mem x hy)
    rw [mapM_cons, List.exists_mem_cons_iff]
    rcases hx : f x with e' | y
    · obtain ⟨rfl, hfails⟩ := (h x List.mem_cons_self e').1 hx
      constructor
      · rintro ⟨⟩
        exact ⟨rfl, .inl hfails⟩
      · rintro ⟨rfl, -⟩
        rfl
    · have hfine : ¬Fails x := by
        intro hfails
        have hfailed := (h x List.mem_cons_self failure).2 ⟨rfl, hfails⟩
        rw [hx] at hfailed
        cases hfailed
      rw [or_iff_right hfine, ← ih]
      change (xs.mapM f >>= fun ys => Except.ok (y :: ys)) = .error e ↔ xs.mapM f = .error e
      rw [bind_eq_error]
      exact or_iff_left (by rintro ⟨ys, -, ⟨⟩⟩)

end Except

end FlowGraph
