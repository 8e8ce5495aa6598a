import FlowGraph.Json.Decode

/-!
# Configuration of an engine

How many runs may be under way at once, how long a caller should wait for one, and how many
events are kept for slow observers.
-/

namespace FlowGraph

/-- The configuration of an engine. -/
structure EngineConfig where
  /-- Runs that may traverse at once; further runs queue. -/
  maxConcurrent : Nat := 10
  /-- A bound that callers may enforce by cancelling. -/
  timeoutSeconds : Nat := 300
  bufferSize : Nat := 1000
deriving DecidableEq, Repr, Inhabited

namespace EngineConfig

/-- How many runs are let in at once: at least one. -/
def limit (c : EngineConfig) : Nat := max 1 c.maxConcurrent

/-- The configuration as a value. -/
def toJson (c : EngineConfig) : Json :=
  .obj [("max_concurrent_executions", Json.ofNat c.maxConcurrent),
    ("execution_timeout_seconds", Json.ofNat c.timeoutSeconds),
    ("event_buffer_size", Json.ofNat c.bufferSize)]

/-- Read a configuration. What is missing has its usual value. -/
def ofDraft : Dialect → Draft → Decoded EngineConfig :=
  let usual : EngineConfig := {}
  (((Record.field "max_concurrent_executions" (fun _ x => x.toNat "usize")
        (.anywhere usual.maxConcurrent)).and
      ((Record.field "execution_timeout_seconds" (fun _ x => x.toNat "u64")
          (.anywhere usual.timeoutSeconds)).and
        (Record.field "event_buffer_size" (fun _ x => x.toNat "usize")
          (.anywhere usual.bufferSize)))).map
    fun (maxConcurrent, timeoutSeconds, bufferSize) =>
      EngineConfig.mk maxConcurrent timeoutSeconds bufferSize).decode "struct EngineConfig"

end EngineConfig

end FlowGraph
