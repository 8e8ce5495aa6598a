import FlowGraph.Keyed

/-!
# Broadcasting events

A bus keeps the events most recently sent, as many as its capacity, and each subscriber reads
them at its own pace. A subscriber that falls behind is told once how many events it lost and
goes on with the oldest that is kept. Without subscribers an event is not kept at all.
-/

namespace FlowGraph

/-- What a subscriber gets when it asks for an event. -/
inductive Received (ε : Type) where
  | event (value : ε)
  /-- Nothing new. -/
  | empty
  /-- So many events were lost. -/
  | lagged (count : Nat)
deriving DecidableEq, Repr

/-- A bus for events of type `ε`. -/
structure EventBus (ε : Type) where
  capacity : Nat
  /-- How many events have been sent to subscribers. -/
  sent : Nat := 0
  /-- The events that are kept, oldest first. -/
  kept : List ε := []
  /-- The subscribers, each with the number of events it has passed. -/
  subscribers : Keyed Nat := []
deriving Repr

namespace EventBus

variable {ε : Type}

/-- The least power of two that is not below `n`, for positive `n`. -/
def roundCapacity (n : Nat) : Nat :=
  Nat.pow 2 (if Nat.pow 2 n.log2 = n then n.log2 else n.log2 + 1)

/-- A bus without subscribers. There is room for at least one event. -/
def make (capacity : Nat) : EventBus ε :=
  { capacity := roundCapacity (max capacity 1) }

/-- Add a subscriber, which gets the events sent from now on. -/
def subscribe (bus : EventBus ε) (name : String) : EventBus ε :=
  { bus with subscribers := Keyed.insert bus.subscribers name bus.sent }

/-- Remove a subscriber. -/
def unsubscribe (bus : EventBus ε) (name : String) : EventBus ε :=
  { bus with subscribers := Keyed.erase bus.subscribers name }

/-- Send an event to all subscribers. -/
def send (bus : EventBus ε) (event : ε) : EventBus ε :=
  if bus.subscribers.isEmpty then bus
  else
    let kept := bus.kept ++ [event]
    { bus with
      sent := bus.sent + 1
      kept := kept.drop (kept.length - bus.capacity) }

/-- Send several events in order. -/
def sendAll (bus : EventBus ε) (events : List ε) : EventBus ε :=
  events.foldl send bus

/-- What a subscriber gets next; `none` if there is no such subscriber. -/
def receive (bus : EventBus ε) (name : String) : Option (Received ε × EventBus ε) :=
  match Keyed.get? bus.subscribers name with
  | none => none
  | some passed =>
    let oldest := bus.sent - bus.kept.length
    let moveTo (place : Nat) : EventBus ε :=
      { bus with subscribers := Keyed.insert bus.subscribers name place }
    if passed < oldest then some (.lagged (oldest - passed), moveTo oldest)
    else match bus.kept[passed - oldest]? with
      | some event => some (.event event, moveTo (passed + 1))
      | none => some (.empty, bus)

/-- Everything that a subscriber can get at once: the events and the number of lost ones. -/
def drain (bus : EventBus ε) (name : String) : List ε × Nat × EventBus ε :=
  match Keyed.get? bus.subscribers name with
  | none => ([], 0, bus)
  | some passed =>
    let oldest := bus.sent - bus.kept.length
    (bus.kept.drop (passed - oldest), oldest - passed,
      { bus with subscribers := Keyed.insert bus.subscribers name bus.sent })

end EventBus

end FlowGraph
