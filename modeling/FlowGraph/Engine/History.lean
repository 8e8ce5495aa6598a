import FlowGraph.Engine.Step

/-!
# Histories of an engine

A history is a list of acts: moves of tasks and what users do, in any order. The state after a
history is what the engine comes to when nothing is broadcast in between, so its `emitted` holds
all events. In a history of happenings, emitters are used in between the acts.

Runs are told apart by their ids and calls by their numbers. Both are generated, never twice.
-/

namespace FlowGraph

/-- What can happen to an engine in a world of type `ω`. -/
inductive Act (ω : Type) where
  /-- A task moves. -/
  | move (t : Task)
  /-- A user starts a run. -/
  | execute (id : String) (workflow : Workflow) (input : Fields)
  /-- A user asks for a run to be cancelled. -/
  | cancel (id : String)
  /-- A user drops a record. -/
  | forget (id : String)
  /-- A user makes a call that may have to wait. -/
  | request (n : Nat) (r : Request)
  /-- A user gives up a call. -/
  | abandon (n : Nat)
  /-- The world changes. -/
  | outside (world : ω)

namespace Act

variable {ω : Type}

/-- The id of the run that an act asks for. -/
def runId? : Act ω → Option String
  | execute id _ _ => some id
  | _ => none

/-- The number of the call that an act makes. -/
def callNumber? : Act ω → Option Nat
  | request n _ => some n
  | _ => none

/-- The number of the shutdown that an act calls for. -/
def shutdown? : Act ω → Option Nat
  | request n .shutdown => some n
  | _ => none

/-- No two runs have the same id. -/
def DistinctRuns (acts : List (Act ω)) : Prop := (acts.filterMap runId?).Nodup

/-- No two calls have the same number. -/
def DistinctCalls (acts : List (Act ω)) : Prop := (acts.filterMap callNumber?).Nodup

end Act

namespace EngineState

variable {ε π ω : Type}

/-- The state after an act. -/
def act (ex : Executors ε π ω) (s : EngineState ε π ω) : Act ω → EngineState ε π ω
  | .move t => s.poll ex t
  | .execute id workflow input => (s.execute ex id workflow input).2
  | .cancel id => (s.cancel id).2
  | .forget id => (s.forget id).2
  | .request n r => s.makeCall n r
  | .abandon n => s.abandon n
  | .outside world => { s with world }

/-- The state after a history. -/
def after (ex : Executors ε π ω) (s : EngineState ε π ω) (acts : List (Act ω)) :
    EngineState ε π ω :=
  acts.foldl (act ex) s

/-- A run was admitted in a history. -/
def Admitted (ex : Executors ε π ω) (s : EngineState ε π ω) (acts : List (Act ω)) (id : String) :
    Prop :=
  ∃ before workflow input rest record,
    acts = before ++ .execute id workflow input :: rest ∧
      ((s.after ex before).execute ex id workflow input).1 = .ok record

/-- The record of a run was handed out and dropped in a history. -/
def Forgotten (ex : Executors ε π ω) (s : EngineState ε π ω) (acts : List (Act ω)) (id : String) :
    Prop :=
  ∃ before rest record,
    acts = before ++ .forget id :: rest ∧ ((s.after ex before).forget id).1 = some record

end EngineState

/-! ## Emitters

What an executor reports of the node that it is called for, while it is polled, is part of its
progress. Its context makes emitters for other nodes, too, and any emitter may be handed on, kept,
and used when the call is over. -/

/-- What can happen to an engine whose emitters are in use. -/
inductive Happening (ω : Type) where
  | act (a : Act ω)
  /-- Something is reported through an emitter. -/
  | report (emitter : Emitter) (event : NodeEvent)

namespace Happening

variable {ω : Type}

/-- The act that has happened. -/
def act? : Happening ω → Option (Act ω)
  | act a => some a
  | report .. => none

/-- What happened but for the reports. -/
def acts (history : List (Happening ω)) : List (Act ω) := history.filterMap act?

end Happening

namespace EngineState

variable {ε π ω : Type}

/-- The state after something has happened. -/
def happen (ex : Executors ε π ω) (s : EngineState ε π ω) : Happening ω → EngineState ε π ω
  | .act a => s.act ex a
  | .report emitter event => s.emit [emitter.event event (ex.now s.world)]

/-- The state after a history in which emitters are used. -/
def happened (ex : Executors ε π ω) (s : EngineState ε π ω) (history : List (Happening ω)) :
    EngineState ε π ω :=
  history.foldl (happen ex) s

end EngineState

end FlowGraph
