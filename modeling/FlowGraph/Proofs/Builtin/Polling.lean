import FlowGraph.Builtin.Executor
import FlowGraph.Proofs.Except
import FlowGraph.Proofs.Traversal.Course

/-!
# How calls of the built-in executors go on

A call that makes a request of the database library does what the library does whenever it is polled
(`poll_of_request`); any other call answers at once (`poll_of_none`).  So a call comes to its end
when its request does (`finishCall_of_ends`), and as long as its request is under way it has none
(`finishCall_of_endless`).
-/

namespace FlowGraph

/-! ## Libraries -/

namespace Sql.Library

variable {ν : Type}

/-- What a library does with a request when it is looked at: it answers, or the request stays under
way. -/
def look (library : Library ν) (r : Request) (fs : FileSystem) (peers : ν) :
    Option (Except LibraryFault ResultSet) × FileSystem × ν :=
  match library.underWay r fs peers with
  | some after => (none, after)
  | none =>
    let (result, after) := library.answer r fs peers
    (some result, after)

/-- A request comes to its end: looked at again and again it is over at last. -/
inductive Ends (library : Library ν) (r : Request) : FileSystem → ν → Prop
  | now {fs : FileSystem} {peers : ν} (h : library.underWay r fs peers = none) :
      Ends library r fs peers
  | later {fs fs' : FileSystem} {peers peers' : ν}
      (h : library.underWay r fs peers = some (fs', peers')) (hends : Ends library r fs' peers') :
      Ends library r fs peers

end Sql.Library

/-! ## Calls with a request -/

namespace BuiltinExecutor

open Builtin

variable {ν : Type} {e : BuiltinExecutor} {call : ExecutorCall} {r : Sql.Request}
variable {services : Services ν} {cancelled : Bool} {w : World ν}

/-- Requests are made by the nodes that query databases. -/
lemma of_request? (h : e.request? call = some r) :
    e.nodeType = .dataSource ∧ Kind.ofNode DataSourceKind call.node = .ok .databaseQuery ∧
      databaseRequest e.settings call.node call.inputs = .ok r := by
  unfold request? at h
  split at h
  · next htype =>
    split at h
    · next hkind => exact ⟨htype, hkind, Except.of_toOption_eq_some h⟩
    · cases h
  · cases h

/-- The request does not depend on the context of the call. -/
lemma request?_context (e : BuiltinExecutor) (node : Node) (inputs : NodeInputs)
    (context context' : Context) :
    e.request? ⟨node, inputs, context⟩ = e.request? ⟨node, inputs, context'⟩ := rfl

/-- A call gives the library's answer as its own. -/
lemma run_of_request (h : e.request? call = some r) :
    e.run services call cancelled w =
      let (result, files, peers) := services.database.answer r w.files w.peers
      { answer := queryOutput result, world := { w with files, peers } } := by
  obtain ⟨htype, hkind, hrequest⟩ := of_request? h
  simp only [run, htype, hkind, queryDatabase, hrequest]

end BuiltinExecutor

namespace Builtin

open BuiltinExecutor

variable {ν : Type} {p : BuiltinWork} {r : Sql.Request} {services : Services ν} {cancelled : Bool}
variable {w : World ν}

/-- A call with a request does what the library does. -/
lemma poll_of_request (h : p.executor.request? p.call = some r) :
    poll services p cancelled w =
      match services.database.look r w.files w.peers with
      | (none, files, peers) => ({ state := .inl p }, { w with files, peers })
      | (some result, files, peers) =>
        ({ state := .inr (.answered (queryOutput result)) }, { w with files, peers }) := by
  rw [poll, h, Option.bind_some, Sql.Library.look]
  rcases services.database.underWay r w.files w.peers with _ | ⟨files, peers⟩
  · dsimp only
    rw [run_of_request h]
  · rfl

/-- A call without a request ends. -/
lemma poll_of_none (h : p.executor.request? p.call = none) :
    poll services p cancelled w =
      ({ events := (p.executor.run services p.call cancelled w).events
         state := .inr (.answered (p.executor.run services p.call cancelled w).answer) },
        (p.executor.run services p.call cancelled w).world) := by
  rw [poll, h, Option.bind_none]

/-- A call that is polled again is the same. -/
lemma eq_of_poll {p' : BuiltinWork} (h : (poll services p cancelled w).1.state = .inl p') :
    p' = p := by
  unfold poll at h
  split at h
  · exact (Sum.inl.inj h).symm
  · cases h

/-- What a call answers is what its executor makes of the node. -/
lemma answer_of_poll {answer : Except NodeError Fields}
    (h : (poll services p cancelled w).1.state = .inr (.answered answer)) :
    (p.executor.run services p.call cancelled w).answer = answer := by
  unfold poll at h
  split at h
  · cases h
  · exact CallOutcome.answered.inj (Sum.inr.inj h)

lemma cancels_poll (services : Services ν) (p : BuiltinWork) (cancelled : Bool) (w : World ν) :
    (poll services p cancelled w).1.cancels = false := by
  unfold poll
  split <;> rfl

/-! ## Calls to the end -/

open Traversal

variable {id nodeId : String} {scene : Scene (World ν)}

/-- A call with a request that is under way goes on. -/
lemma poll_of_underWay (h : p.executor.request? p.call = some r) {files : FileSystem} {peers : ν}
    (hunder : services.database.underWay r w.files w.peers = some (files, peers)) :
    poll services p cancelled w = ({ state := .inl p }, { w with files, peers }) := by
  rw [poll_of_request h, Sql.Library.look, hunder]

/-- A call that answers is over when it is polled once more. -/
lemma finishCall_of_answered {answer : Except NodeError Fields}
    (h : (poll services p scene.cancelled scene.world).1.state = .inr (.answered answer)) :
    finishCall (executors services) id nodeId 1 p scene =
      some (.answered answer, scene.polled (executors services) id nodeId p) := by
  rw [finishCall_succ, executors, h]

/-- A call whose request is under way goes on among the files and peers as they are by now. -/
lemma finishCall_of_underWay (h : p.executor.request? p.call = some r) {files : FileSystem}
    {peers : ν}
    (hunder : services.database.underWay r scene.world.files scene.world.peers =
      some (files, peers)) :
    ∃ scene' : Scene (World ν), scene'.world.files = files ∧ scene'.world.peers = peers ∧
      ∀ patience, finishCall (executors services) id nodeId (patience + 1) p scene =
        finishCall (executors services) id nodeId patience p scene' := by
  have hpoll : (executors services).poll p scene.cancelled scene.world =
      ({ state := .inl p }, { scene.world with files, peers }) := poll_of_underWay h hunder
  have hworld : (scene.polled (executors services) id nodeId p).world =
      { scene.world with files, peers } := congrArg Prod.snd hpoll
  refine ⟨scene.polled (executors services) id nodeId p, by rw [hworld], by rw [hworld], ?_⟩
  intro patience
  rw [finishCall_succ, hpoll]

lemma finishCall_of_request (hrequest : p.executor.request? p.call = some r) {files : FileSystem}
    {peers : ν} (hends : services.database.Ends r files peers) (hfiles : scene.world.files = files)
    (hpeers : scene.world.peers = peers) :
    ∃ patience answer scene',
      finishCall (executors services) id nodeId patience p scene =
        some (.answered answer, scene') := by
  induction hends generalizing scene with
  | now hover =>
    subst hfiles hpeers
    have hpoll : ∃ answer, (poll services p scene.cancelled scene.world).1.state =
        .inr (.answered answer) := by
      rw [poll_of_request hrequest, Sql.Library.look, hover]
      exact ⟨_, rfl⟩
    obtain ⟨answer, hanswer⟩ := hpoll
    exact ⟨1, answer, _, finishCall_of_answered hanswer⟩
  | later hunder _ ih =>
    subst hfiles hpeers
    obtain ⟨next, hfiles, hpeers, hnext⟩ := finishCall_of_underWay hrequest hunder
    obtain ⟨patience, answer, last, hrest⟩ := ih hfiles hpeers
    exact ⟨patience + 1, answer, last, (hnext patience).trans hrest⟩

/-- **A call comes to its end when its request does**, and without a request at once. -/
lemma finishCall_of_ends (h : ∀ r, p.executor.request? p.call = some r →
      services.database.Ends r scene.world.files scene.world.peers) :
    ∃ patience answer scene',
      finishCall (executors services) id nodeId patience p scene =
        some (.answered answer, scene') := by
  rcases hrequest : p.executor.request? p.call with _ | r
  · refine ⟨1, (p.executor.run services p.call scene.cancelled scene.world).answer, _,
      finishCall_of_answered ?_⟩
    rw [poll_of_none hrequest]
  · exact finishCall_of_request hrequest (h r hrequest) rfl rfl

/-- A call has no end as long as its request is under way. -/
lemma finishCall_of_endless (hrequest : p.executor.request? p.call = some r)
    (hendless : ∀ files peers, (services.database.underWay r files peers).isSome = true)
    (patience : ℕ) : finishCall (executors services) id nodeId patience p scene = none := by
  induction patience generalizing scene with
  | zero => rfl
  | succ patience ih =>
    obtain ⟨⟨files, peers⟩, hunder⟩ :=
      Option.isSome_iff_exists.1 (hendless scene.world.files scene.world.peers)
    obtain ⟨next, -, -, hnext⟩ := finishCall_of_underWay hrequest hunder
    rw [hnext, ih]

end Builtin

end FlowGraph
