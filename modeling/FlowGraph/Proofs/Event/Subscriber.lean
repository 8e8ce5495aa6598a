import FlowGraph.Event.Bus
import Mathlib.Data.List.Infix
import Mathlib.Tactic.Common

/-!
# Subscribers that miss nothing

A subscriber hears events at its own pace, while others are sent, and other subscribers come, read
and go.  `Hears` is such a time on a bus in which the subscriber is never told that it has lost
events.  What it has not heard yet is `Pending`: a suffix of what is kept, unless the bus has
dropped some of it in the meantime.  So a subscriber that has nothing left to hear and was never
told of a loss has heard everything (`heard_all`).
-/

namespace FlowGraph

namespace EventBus

variable {ε : Type}

/-- A time on a bus: the events that were sent, and those that a subscriber has heard.  It was never
told that it has lost one. -/
inductive Hears (name : String) (start : EventBus ε) : List ε → List ε → EventBus ε → Prop
  | start : Hears name start [] [] start
  /-- An event is sent. -/
  | send {sent heard : List ε} {bus : EventBus ε} (h : Hears name start sent heard bus)
      (event : ε) : Hears name start (sent ++ [event]) heard (bus.send event)
  /-- The subscriber hears the next event. -/
  | receive {sent heard : List ε} {bus bus' : EventBus ε} (h : Hears name start sent heard bus)
      {event : ε} (hreceive : bus.receive name = some (.event event, bus')) :
      Hears name start sent (heard ++ [event]) bus'
  /-- There is nothing new. -/
  | nothing {sent heard : List ε} {bus bus' : EventBus ε} (h : Hears name start sent heard bus)
      (hreceive : bus.receive name = some (.empty, bus')) : Hears name start sent heard bus'
  /-- The subscriber hears everything that is left. -/
  | drain {sent heard : List ε} {bus bus' : EventBus ε} (h : Hears name start sent heard bus)
      {events : List ε} (hdrain : bus.drain name = (events, 0, bus')) :
      Hears name start sent (heard ++ events) bus'
  /-- Another subscriber comes, reads or goes. -/
  | other {sent heard : List ε} {bus bus' : EventBus ε} (h : Hears name start sent heard bus)
      (hsent : bus'.sent = bus.sent) (hkept : bus'.kept = bus.kept)
      (hsame : Keyed.get? bus'.subscribers name = Keyed.get? bus.subscribers name) :
      Hears name start sent heard bus'

/-- What a subscriber has not heard yet. -/
structure Pending (name : String) (bus : EventBus ε) (pending : List ε) : Prop where
  kept : bus.kept.length ≤ bus.sent
  place : ∃ place, Keyed.get? bus.subscribers name = some place ∧
    place + pending.length = bus.sent
  suffix : pending <:+ bus.kept ∨ bus.kept <:+ pending

variable {name : String} {bus bus' : EventBus ε} {pending : List ε}

lemma pending_subscribe (hkept : bus.kept.length ≤ bus.sent) :
    Pending name (bus.subscribe name) [] :=
  ⟨hkept, ⟨bus.sent, Keyed.get?_insert_self _ _ _, rfl⟩, Or.inl (List.nil_suffix)⟩

lemma Pending.send (h : Pending name bus pending) (event : ε) :
    Pending name (bus.send event) (pending ++ [event]) := by
  obtain ⟨place, hplace, hlength⟩ := h.place
  have hsome : bus.subscribers.isEmpty = false := by
    rcases hsubscribers : bus.subscribers with _ | ⟨first, rest⟩
    · rw [hsubscribers] at hplace
      cases hplace
    · rfl
  have hsend : bus.send event = { bus with
      sent := bus.sent + 1
      kept := (bus.kept ++ [event]).drop ((bus.kept ++ [event]).length - bus.capacity) } := by
    rw [EventBus.send, hsome]
    rfl
  rw [hsend]
  have hdrop := List.drop_suffix ((bus.kept ++ [event]).length - bus.capacity) (bus.kept ++ [event])
  refine ⟨?_, ⟨place, hplace, ?_⟩, ?_⟩
  · refine hdrop.length_le.trans ?_
    rw [List.length_append, List.length_singleton]
    exact Nat.succ_le_succ h.kept
  · rw [List.length_append, List.length_singleton, ← Nat.add_assoc, hlength]
  · -- what is kept and what is pending end in the same way
    rcases h.suffix with ⟨front, hfront⟩ | ⟨front, hfront⟩
    · have hpending : pending ++ [event] <:+ bus.kept ++ [event] :=
        ⟨front, by rw [← hfront, List.append_assoc]⟩
      exact List.suffix_or_suffix_of_suffix hpending hdrop
    · have hkept : bus.kept ++ [event] <:+ pending ++ [event] :=
        ⟨front, by rw [← hfront, List.append_assoc]⟩
      exact Or.inr (hdrop.trans hkept)

/-- As long as nothing pending is lost, it is kept. -/
lemma Pending.drop (h : Pending name bus pending) {place : ℕ}
    (hplace : Keyed.get? bus.subscribers name = some place)
    (hlost : bus.sent - bus.kept.length ≤ place) :
    pending <:+ bus.kept ∧ place + pending.length = bus.sent ∧
      bus.kept.drop (place - (bus.sent - bus.kept.length)) = pending := by
  obtain ⟨same, hsame, hlength⟩ := h.place
  rw [hplace] at hsame
  cases hsame
  have hkept := h.kept
  have hsuffix : pending <:+ bus.kept := by
    rcases h.suffix with hpending | hmore
    · exact hpending
    · rw [hmore.eq_of_length_le (by omega)]
  refine ⟨hsuffix, hlength, ?_⟩
  have hindex : place - (bus.sent - bus.kept.length) = bus.kept.length - pending.length := by
    have hle := hsuffix.length_le
    omega
  rw [hindex]
  exact (List.suffix_iff_eq_drop.1 hsuffix).symm

/-- What a subscriber gets next is the first event that is pending. -/
lemma Pending.receive (h : Pending name bus pending) {received : Received ε}
    (hreceive : bus.receive name = some (received, bus')) :
    match received with
    | .event event => ∃ rest, pending = event :: rest ∧ Pending name bus' rest
    | .empty => pending = [] ∧ bus' = bus
    | .lagged _ => True := by
  obtain ⟨place, hplace, -⟩ := h.place
  rw [EventBus.receive, hplace] at hreceive
  dsimp only at hreceive
  split at hreceive
  · cases hreceive
    trivial
  next hlost =>
  obtain ⟨hsuffix, hlength, hdrop⟩ := h.drop hplace (Nat.le_of_not_lt hlost)
  rw [← List.head?_drop, hdrop] at hreceive
  cases pending with
  | nil =>
    cases hreceive
    exact ⟨rfl, rfl⟩
  | cons first rest =>
    cases hreceive
    refine ⟨rest, rfl, h.kept, ⟨place + 1, Keyed.get?_insert_self _ _ _, ?_⟩, Or.inl ?_⟩
    · rw [List.length_cons] at hlength
      show place + 1 + rest.length = bus.sent
      omega
    · exact (List.suffix_cons first rest).trans hsuffix

/-- What can be got at once without a loss is everything that is pending. -/
lemma Pending.drain (h : Pending name bus pending) {events : List ε}
    (hdrain : bus.drain name = (events, 0, bus')) : events = pending ∧ Pending name bus' [] := by
  obtain ⟨place, hplace, -⟩ := h.place
  rw [EventBus.drain, hplace] at hdrain
  obtain ⟨rfl, hrest⟩ := Prod.mk.inj hdrain
  obtain ⟨hlost, rfl⟩ := Prod.mk.inj hrest
  obtain ⟨-, -, hdrop⟩ := h.drop hplace (Nat.le_of_sub_eq_zero hlost)
  exact ⟨hdrop, h.kept, ⟨bus.sent, Keyed.get?_insert_self _ _ _, rfl⟩, Or.inl List.nil_suffix⟩

/-- What was heard and what is pending is what was sent. -/
lemma Hears.accounted {start : EventBus ε} {sent heard : List ε}
    (h : Hears name start sent heard bus) (hstart : Pending name start []) :
    ∃ pending, heard ++ pending = sent ∧ Pending name bus pending := by
  induction h with
  | start => exact ⟨[], rfl, hstart⟩
  | send _ event ih =>
    obtain ⟨pending, rfl, hpending⟩ := ih
    exact ⟨pending ++ [event], (List.append_assoc _ _ _).symm, hpending.send event⟩
  | receive _ hreceive ih =>
    obtain ⟨pending, rfl, hpending⟩ := ih
    obtain ⟨rest, rfl, hrest⟩ := hpending.receive hreceive
    exact ⟨rest, List.append_assoc _ _ _, hrest⟩
  | nothing _ hreceive ih =>
    obtain ⟨pending, hsent, hpending⟩ := ih
    obtain ⟨-, rfl⟩ := hpending.receive hreceive
    exact ⟨pending, hsent, hpending⟩
  | drain _ hdrain ih =>
    obtain ⟨pending, rfl, hpending⟩ := ih
    obtain ⟨rfl, hnone⟩ := hpending.drain hdrain
    exact ⟨[], List.append_nil _, hnone⟩
  | other _ hsent hkept hsame ih =>
    obtain ⟨pending, hheard, hpending⟩ := ih
    refine ⟨pending, hheard, ?_, ?_, ?_⟩
    · rw [hkept, hsent]
      exact hpending.kept
    · rw [hsame, hsent]
      exact hpending.place
    · rw [hkept]
      exact hpending.suffix

/-- Who has heard everything is told that there is nothing new. -/
lemma receive_of_heard_all {first : EventBus ε} (hkept : first.kept.length ≤ first.sent)
    {sent : List ε} (h : Hears name (first.subscribe name) sent sent bus) :
    bus.receive name = some (.empty, bus) := by
  obtain ⟨pending, hsent, hpending⟩ := h.accounted (pending_subscribe hkept)
  obtain rfl := List.append_right_eq_self.1 hsent
  obtain ⟨place, hplace, hlength⟩ := hpending.place
  have hend : bus.kept.length ≤ place - (bus.sent - bus.kept.length) := by
    have hkept := hpending.kept
    rw [List.length_nil] at hlength
    omega
  rw [receive, hplace]
  dsimp only
  rw [List.getElem?_eq_none hend, if_neg]
  rw [← hlength]
  exact Nat.not_lt.2 (Nat.sub_le _ _)

/-- While a subscriber does not read, it hears nothing. -/
lemma hears_sendAll (name : String) (start : EventBus ε) (events : List ε) :
    Hears name start events [] (start.sendAll events) := by
  induction events using List.reverseRecOn with
  | nil => exact .start
  | append_singleton events event ih =>
    rw [sendAll, List.foldl_append]
    exact ih.send event

/-- **A subscriber that misses nothing hears everything.**  If a subscriber was never told of a
loss since it came, and there is nothing new for it, it has heard exactly the events that were
sent since, in their order. -/
theorem heard_all {first : EventBus ε} (hkept : first.kept.length ≤ first.sent)
    {sent heard : List ε} (h : Hears name (first.subscribe name) sent heard bus)
    (hnothing : bus.receive name = some (.empty, bus')) : heard = sent := by
  obtain ⟨pending, hsent, hpending⟩ := h.accounted (pending_subscribe hkept)
  obtain ⟨rfl, -⟩ := hpending.receive hnothing
  rw [← hsent, List.append_nil]

end EventBus

end FlowGraph
