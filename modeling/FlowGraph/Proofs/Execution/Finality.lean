import FlowGraph.Execution.Record
import Mathlib.Tactic.Common

/-!
# What is final in a record

The record of a run and the results of nodes in it change by calls, in any order and number
(`RecordCall`, `Execution.after`).  A result that has left running is final: no call changes it.
The record itself is final only up to a call that marks it as running, because such a call is never
refused.  `Execution.final_iff` says which calls leave a record that is over as it stands, and which
keep the completion time in step with the status.

Both are inductions over the calls.  In the second one a record is first open, until the call that
finishes it, and then over; so the two conditions on the calls, `EndsOnce` for an open record and no
mark for one that is over, pass into each other.
-/

namespace FlowGraph

/-- A call on a record or on the result of a node in it. -/
inductive RecordCall where
  | markRunning
  | finish (status : ExecutionStatus) (error : Option String) (now : Timestamp)
  | succeed (nodeId : String) (output : Fields) (duration : Double) (now : Timestamp)
  | fail (nodeId error : String) (duration : Double) (now : Timestamp)
deriving DecidableEq, Repr

/-- The first call that finishes the record gives it a terminal status, and none behind it marks the
record as running. -/
def EndsOnce : List RecordCall → Prop
  | [] => True
  | .finish status _ _ :: later => status.isTerminal = true ∧ .markRunning ∉ later
  | _ :: later => EndsOnce later

/-! ## Results of nodes -/

namespace NodeResult

variable {r : NodeResult}

lemma succeed_of_settled (h : r.status ≠ .running) (output : Fields) (duration : Double)
    (now : Timestamp) : r.succeed output duration now = r := by
  rw [succeed, if_neg h]

lemma fail_of_settled (h : r.status ≠ .running) (error : String) (duration : Double)
    (now : Timestamp) : r.fail error duration now = r := by
  rw [fail, if_neg h]

end NodeResult

namespace Execution

/-! ## Calls -/

/-- Change the result of a node. -/
def changeResult (e : Execution) (nodeId : String) (change : NodeResult → NodeResult) : Execution :=
  { e with results := Keyed.modify e.results nodeId change }

/-- The record after a call. -/
def call (e : Execution) : RecordCall → Execution
  | .markRunning => e.markRunning
  | .finish status error now => e.finish status error now
  | .succeed nodeId output duration now =>
    e.changeResult nodeId fun r => r.succeed output duration now
  | .fail nodeId error duration now => e.changeResult nodeId fun r => r.fail error duration now

/-- The record after calls. -/
def after (e : Execution) (calls : List RecordCall) : Execution :=
  calls.foldl call e

/-- How the record stands: its status, its error and its completion time. -/
def standing (e : Execution) : ExecutionStatus × Option String × Option Timestamp :=
  (e.status, e.error, e.completedAt)

/-- The record has a completion time if and only if it is over. -/
def InStep (e : Execution) : Prop :=
  e.completedAt.isSome = true ↔ e.status.isTerminal = true

instance (e : Execution) : Decidable e.InStep :=
  inferInstanceAs (Decidable (_ ↔ _))

variable {e e' : Execution} {calls : List RecordCall}

/-- What holds at every moment holds at first, and at every moment after the first call. -/
lemma forall_prefix_cons {P : Execution → Prop} {c : RecordCall} :
    (∀ before, before <+: c :: calls → P (e.after before)) ↔
      P e ∧ ∀ before, before <+: calls → P ((e.call c).after before) := by
  constructor
  · intro h
    refine ⟨h [] List.nil_prefix, fun before hbefore => ?_⟩
    exact h (c :: before) (List.cons_prefix_cons.2 ⟨rfl, hbefore⟩)
  · rintro ⟨hfirst, hrest⟩ before hbefore
    rcases before with _ | ⟨d, before⟩
    · exact hfirst
    · obtain ⟨rfl, hmore⟩ := List.cons_prefix_cons.1 hbefore
      exact hrest before hmore

lemma InStep.congr (h : e.standing = e'.standing) : e.InStep ↔ e'.InStep := by
  obtain ⟨hstatus, -, hcompleted⟩ : e.status = e'.status ∧ e.error = e'.error ∧
      e.completedAt = e'.completedAt := by
    simpa [standing] using h
  rw [InStep, InStep, hstatus, hcompleted]

/-! ## Results are final -/

/-- No call changes a result that has left running. -/
lemma result?_call {nodeId : String} {r : NodeResult} (h : e.result? nodeId = some r)
    (hr : r.status ≠ .running) (c : RecordCall) : (e.call c).result? nodeId = some r := by
  have hchange : ∀ (other : String) (change : NodeResult → NodeResult), change r = r →
      (e.changeResult other change).result? nodeId = some r := by
    intro other change hsame
    rw [result?] at h
    rw [result?, changeResult, Keyed.get?_modify, h]
    split
    · exact congrArg some hsame
    · rfl
  cases c with
  | markRunning => exact h
  | finish status error now =>
    rw [call, finish]
    split <;> exact h
  | succeed other output duration now =>
    exact hchange other _ (r.succeed_of_settled hr output duration now)
  | fail other error duration now => exact hchange other _ (r.fail_of_settled hr error duration now)

lemma result?_after {nodeId : String} {r : NodeResult} (h : e.result? nodeId = some r)
    (hr : r.status ≠ .running) (calls : List RecordCall) :
    (e.after calls).result? nodeId = some r := by
  induction calls generalizing e with
  | nil => exact h
  | cons c calls ih => exact ih (result?_call h hr c)

/-! ## Records that are over -/

/-- A record that is over stands as it is, unless it is marked as running. -/
lemma standing_call (h : e.status.isTerminal = true) {c : RecordCall} (hc : c ≠ .markRunning) :
    (e.call c).standing = e.standing := by
  cases c with
  | markRunning => exact absurd rfl hc
  | finish status error now => rw [call, finish, if_pos h]
  | succeed nodeId output duration now => rfl
  | fail nodeId error duration now => rfl

lemma isTerminal_of_standing (h : e.standing = e'.standing) (he' : e'.status.isTerminal = true) :
    e.status.isTerminal = true := by
  have hstatus : e.status = e'.status := congrArg Prod.fst h
  rw [hstatus, he']

/-- A mark is seen in the status only. -/
lemma standing_markRunning (h : e.standing = e'.standing) :
    (e.call .markRunning).standing = (e'.call .markRunning).standing :=
  congrArg (Prod.mk _) (congrArg Prod.snd h)

/-- What is said of how a record stands, and is true of one that is over, stays true at every moment
up to the first mark.  If the mark makes it false, there must be none. -/
lemma throughout_iff {P : Execution → Prop} (hP : ∀ {e e'}, e.standing = e'.standing → (P e ↔ P e'))
    (hover : e.status.isTerminal = true) (he : P e) (hmark : ¬P (e.call .markRunning)) :
    (∀ before, before <+: calls → P (e.after before)) ↔ .markRunning ∉ calls := by
  induction calls generalizing e with
  | nil =>
    refine ⟨fun _ => List.not_mem_nil, fun _ before hbefore => ?_⟩
    rw [List.prefix_nil.1 hbefore]
    exact he
  | cons c calls ih =>
    rw [forall_prefix_cons, List.mem_cons, not_or]
    by_cases hc : c = .markRunning
    · subst hc
      exact ⟨fun h => absurd (h.2 [] List.nil_prefix) hmark, fun h => absurd rfl h.1⟩
    · have hcall := standing_call hover hc
      have hrest := ih (isTerminal_of_standing hcall hover) ((hP hcall).2 he)
        (mt (hP (standing_markRunning hcall)).1 hmark)
      exact and_congr (iff_of_true he (Ne.symm hc)) hrest

/-! ## Completion times -/

/-- An open record without a completion time stays in step if and only if the calls end it once. -/
lemma inStep_after_iff (hopen : e.status.isTerminal = false) (hcompleted : e.completedAt = none) :
    (∀ before, before <+: calls → (e.after before).InStep) ↔ EndsOnce calls := by
  have hstep : e.InStep := by simp [InStep, hopen, hcompleted]
  induction calls generalizing e with
  | nil =>
    refine ⟨fun _ => trivial, fun _ before hbefore => ?_⟩
    rw [List.prefix_nil.1 hbefore]
    exact hstep
  | cons c calls ih =>
    rw [forall_prefix_cons, and_iff_right hstep]
    cases c with
    | markRunning =>
      have hmarked : (e.call .markRunning).InStep := by simp [InStep, call, markRunning,
        ExecutionStatus.isTerminal, hcompleted]
      exact ih rfl hcompleted hmarked
    | finish status error now =>
      -- from here on there is a completion time
      have hfinish : e.call (.finish status error now) =
          { e with status, error, completedAt := some now } := by
        rw [call, finish, if_neg (by simp [hopen])]
      rw [hfinish, EndsOnce]
      rcases hstatus : status.isTerminal with _ | _
      · refine ⟨fun hall => ?_, fun h => absurd h.1 (by simp)⟩
        have hterminal : status.isTerminal = true := (hall [] List.nil_prefix).1 rfl
        rw [hstatus] at hterminal
        cases hterminal
      · rw [throughout_iff InStep.congr hstatus ⟨fun _ => hstatus, fun _ => rfl⟩]
        · exact (and_iff_right rfl).symm
        · intro hmark
          exact absurd (hmark.1 rfl) (by simp [call, markRunning, ExecutionStatus.isTerminal])
    | succeed nodeId output duration now => exact ih hopen hcompleted hstep
    | fail nodeId error duration now => exact ih hopen hcompleted hstep

/-- **What is final in a record.**  A record that is over stands as it is at every moment, with its
status, error and completion time, if and only if no call marks it as running.  A record that is
open and has no completion time has one at every moment if and only if it is over then, just when
the first call that finishes it ends the run and none behind it marks it as running.  A result of a
node that has left running is final, whatever the calls are. -/
theorem final_iff (e : Execution) (calls : List RecordCall) :
    (e.status.isTerminal = true →
      ((∀ before, before <+: calls → (e.after before).standing = e.standing) ↔
        .markRunning ∉ calls)) ∧
    (e.status.isTerminal = false → e.completedAt = none →
      ((∀ before, before <+: calls → (e.after before).InStep) ↔ EndsOnce calls)) ∧
    ∀ nodeId r, e.result? nodeId = some r → r.status ≠ .running →
      (e.after calls).result? nodeId = some r := by
  refine ⟨fun hover => ?_, inStep_after_iff, fun nodeId r h hr => result?_after h hr calls⟩
  refine throughout_iff (P := fun e' => e'.standing = e.standing) ?_ hover rfl ?_
  · intro e₁ e₂ h
    rw [h]
  · intro hmark
    have hrunning : ExecutionStatus.running = e.status := congrArg Prod.fst hmark
    rw [← hrunning] at hover
    cases hover

/-- A record that is over and is marked as running again, and one that is finished without being
over. -/
theorem not_final_of_markRunning :
    let e := Execution.make "exec" "wf" [] default
    let ended := e.after [.markRunning, .finish .completed none default]
    ended.standing = (.completed, none, some default) ∧
      (ended.after [.markRunning]).standing = (.running, none, some default) ∧
      ¬(ended.after [.markRunning]).InStep ∧
      ¬(e.after [.finish .pending none default]).InStep := by
  decide

/-- A run that completes, and late calls that try to fail it and its node. -/
theorem final_iff_completed :
    let e := (Execution.make "exec" "wf" [] default).setResult "n" (.started "n" 0 default)
    let calls : List RecordCall :=
      [.markRunning, .succeed "n" [] default default, .finish .completed none default]
    let late : List RecordCall :=
      [.fail "n" "late" default default, .finish .failed (some "late") default]
    (e.after (calls ++ late)).InStep ∧
      ((e.after calls).after late).standing = (.completed, none, some default) ∧
      ∃ r, ((e.after calls).after late).result? "n" = some r ∧ r.status = .success := by
  intro e calls late
  have hends : EndsOnce (calls ++ late) := ⟨rfl, by decide⟩
  have hinStep := ((final_iff e (calls ++ late)).2.1 rfl rfl).2 hends
  obtain ⟨hstanding, -, hresult⟩ := final_iff (e.after calls) late
  have hlate := (hstanding rfl).2 (by decide) late (List.prefix_refl late)
  exact ⟨hinStep _ (List.prefix_refl _), hlate, _, hresult "n" _ rfl (by decide), rfl⟩

end Execution

end FlowGraph
