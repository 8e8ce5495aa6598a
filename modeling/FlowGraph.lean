import FlowGraph.Event.Json
import FlowGraph.Main
import FlowGraph.Proofs.Traversal.Visit
import FlowGraph.Proofs.Traversal.Reach
import FlowGraph.Proofs.Engine.Shutdown
import FlowGraph.Proofs.Engine.Permits
import FlowGraph.Proofs.Engine.Turns
import FlowGraph.Proofs.Engine.Journeys
import FlowGraph.Proofs.Engine.Tables
import FlowGraph.Proofs.Engine.Following
import FlowGraph.Proofs.Engine.Winding
import FlowGraph.Proofs.Engine.Guarding
import FlowGraph.Proofs.Traversal.Course
import FlowGraph.Proofs.Engine.Isolation
import FlowGraph.Proofs.Engine.Stages
import FlowGraph.Proofs.Engine.Cut
import FlowGraph.Proofs.Event.Subscriber
import FlowGraph.Proofs.Traversal.Blocks
import FlowGraph.Proofs.Traversal.Replay
import FlowGraph.Proofs.Traversal.Apart
import FlowGraph.Proofs.Engine.Endings
import FlowGraph.Proofs.Engine.Streams
import FlowGraph.Proofs.Engine.Queueing
import FlowGraph.Proofs.Traversal.Outcomes
import FlowGraph.Proofs.Engine.Verdicts
import FlowGraph.Proofs.Engine.Observers
import FlowGraph.Proofs.Engine.Overlap
import FlowGraph.Proofs.Engine.Lifecycles
import FlowGraph.Proofs.Json.Drafts
import FlowGraph.Proofs.Number.Widening
import FlowGraph.Proofs.Json.Records
import FlowGraph.Proofs.Builtin.Failures
import FlowGraph.Proofs.Builtin.Running
import FlowGraph.Proofs.Storage.Confinement
import FlowGraph.Proofs.Workflow.Building
import FlowGraph.Proofs.Registry.Histories
import FlowGraph.Proofs.Traversal.Bounds
import FlowGraph.Proofs.Traversal.Dangling
import FlowGraph.Proofs.Resolution
import FlowGraph.Proofs.Json.Parts
import FlowGraph.Proofs.Template.Expansion
import FlowGraph.Proofs.Template.Paths
import FlowGraph.Proofs.Template.Reexpansion
import FlowGraph.Proofs.Template.Addresses
import FlowGraph.Proofs.Template.Rendering
import FlowGraph.Proofs.Execution.Finality
import FlowGraph.Proofs.Storage.Store
