/-!
# Permits and the lock of the registry

`Permits` bounds how many runs traverse at once: a permit given back goes to the run that has
waited longest. `RegistryLock` lets any number of tasks read or one task write, in the order in
which they asked: a task behind a waiting writer waits, too.
-/

namespace FlowGraph

/-- A task of the engine: the worker of a run, or a call by a user of the engine. -/
inductive Task where
  | worker (id : String)
  | call (number : Nat)
deriving DecidableEq, Repr

/-- Permits that are free, and the runs that wait for one. -/
structure Permits where
  free : Nat
  queue : List String := []
deriving DecidableEq, Repr

namespace Permits

/-- Give a permit back: to the first run in the queue, if there is one. -/
def release (p : Permits) : Option String × Permits :=
  match p.queue with
  | [] => (none, { p with free := p.free + 1 })
  | id :: rest => (some id, { p with queue := rest })

/-- Ask for a permit: at once, or behind those who wait. -/
def acquire (p : Permits) (id : String) : Bool × Permits :=
  if 0 < p.free ∧ p.queue = [] then (true, { p with free := p.free - 1 })
  else (false, { p with queue := p.queue ++ [id] })

/-- Stop waiting. -/
def leave (p : Permits) (id : String) : Permits :=
  { p with queue := p.queue.filter (· ≠ id) }

end Permits

/-- What a task wants the registry for. -/
inductive Access where
  | read
  | write
deriving DecidableEq, Repr

/-- Who holds the registry and who waits for it. -/
structure RegistryLock where
  readers : List Task := []
  writer : Option Task := none
  queue : List (Task × Access) := []
deriving DecidableEq, Repr

namespace RegistryLock

/-- Whether a task holds the lock. -/
def holds (l : RegistryLock) (t : Task) : Bool :=
  l.readers.contains t || l.writer = some t

/-- Let in those at the head of a queue that may go in: the tasks let in, the readers and the
writer, and those left waiting. -/
def letIn : List (Task × Access) → List Task → List Task × List Task × Option Task ×
    List (Task × Access)
  | [], readers => ([], readers, none, [])
  | (t, .read) :: rest, readers =>
    let (woken, readers, writer, queue) := letIn rest (readers ++ [t])
    (t :: woken, readers, writer, queue)
  | (t, .write) :: rest, readers =>
    if readers.isEmpty then ([t], readers, some t, rest)
    else ([], readers, none, (t, .write) :: rest)

/-- Let in whoever may go in: the tasks let in, and the lock. -/
def advance (l : RegistryLock) : List Task × RegistryLock :=
  match l.writer with
  | some _ => ([], l)
  | none =>
    let (woken, readers, writer, queue) := letIn l.queue l.readers
    (woken, { readers, writer, queue })

/-- Ask for the lock: at once, or behind those who wait. -/
def request (l : RegistryLock) (t : Task) (access : Access) : RegistryLock :=
  ({ l with queue := l.queue ++ [(t, access)] } : RegistryLock).advance.2

/-- Give the lock up, or stop waiting for it. -/
def release (l : RegistryLock) (t : Task) : List Task × RegistryLock :=
  ({ readers := l.readers.filter (· ≠ t)
     writer := if l.writer = some t then none else l.writer
     queue := l.queue.filter fun entry => entry.1 ≠ t } : RegistryLock).advance

end RegistryLock

end FlowGraph
