import EphemeralAgent.Lib.Transition
import EphemeralAgent.Workflow.Step
import EphemeralAgent.Workflow.Inversion
import EphemeralAgent.Workflow.Stepped
import EphemeralAgent.Workflow.Threads
import EphemeralAgent.Workflow.Frozen
import EphemeralAgent.Workflow.Launch
import EphemeralAgent.Workflow.Serial
import EphemeralAgent.Workflow.Atomic
import EphemeralAgent.Lib.DepthFirst
import EphemeralAgent.Pursuit.State
import EphemeralAgent.Pursuit.Planner
import EphemeralAgent.Pursuit.Cycles
import EphemeralAgent.Pursuit.Progress
import EphemeralAgent.Pursuit.Module
import EphemeralAgent.Pursuit.Advance
import EphemeralAgent.Pursuit.Open
import EphemeralAgent.Pursuit.Plan
import EphemeralAgent.Pursuit.Evaluate
import EphemeralAgent.Workflow.Turns
import EphemeralAgent.Workflow.Handles
import EphemeralAgent.Workflow.Labelled
import EphemeralAgent.Pursuit.Deadlock
import EphemeralAgent.Pursuit.Runs
import EphemeralAgent.Pursuit.Tickets
import EphemeralAgent.Workflow.Timed
import EphemeralAgent.Pursuit.Once
import EphemeralAgent.LlmClient.Retry
import EphemeralAgent.LlmClient.RetryGate
import EphemeralAgent.Contracts.ToolCalls
import EphemeralAgent.Tool.Batch
import EphemeralAgent.Lib.History
import EphemeralAgent.Tool.BatchStep
import EphemeralAgent.Tool.BatchContract
import EphemeralAgent.Background.Registry
import EphemeralAgent.Background.Contract
import EphemeralAgent.Notification.Inbox
import EphemeralAgent.Engine.Loop
import EphemeralAgent.Engine.LoopStep
import EphemeralAgent.Engine.ProviderHistory
import EphemeralAgent.Engine.Park
import EphemeralAgent.Engine.TextExit
import EphemeralAgent.Runtime.System
import EphemeralAgent.Runtime.SystemStep
import EphemeralAgent.Engine.Steers
import EphemeralAgent.Runtime.Wiring
import EphemeralAgent.Runtime.Interruption
import EphemeralAgent.Runtime.GateParity
import EphemeralAgent.Runtime.SteerQueue
import EphemeralAgent.Runtime.SingleMutator
import EphemeralAgent.Pursuit.Structure
import EphemeralAgent.Pursuit.Tracking
import EphemeralAgent.Pursuit.Lifetime
import EphemeralAgent.Pursuit.Predefined
import EphemeralAgent.RalphLoop.Module
import EphemeralAgent.RalphLoop.Protocol
import EphemeralAgent.RalphLoop.Settle
import EphemeralAgent.Workflow.Running
import EphemeralAgent.RalphLoop.Runs
import EphemeralAgent.Workflow.Interrupt
import EphemeralAgent.Workflow.Waiting
import EphemeralAgent.LlmClient.Wire
import EphemeralAgent.LlmClient.LegContract
import EphemeralAgent.Agents.CanonicalJson
import EphemeralAgent.Tool.Hooks
import EphemeralAgent.Agents.Advisory
import EphemeralAgent.Agents.PassMatching
import EphemeralAgent.LlmClient.AnthropicEncode
import EphemeralAgent.Engine.EmptyBodies
import EphemeralAgent.Sandbox.Gateway
import EphemeralAgent.Sandbox.Once
import EphemeralAgent.Sandbox.Retry
import EphemeralAgent.Sandbox.Delivery
import EphemeralAgent.Sandbox.Binding
import EphemeralAgent.Agents.Engine
import EphemeralAgent.Agents.EngineStep
import EphemeralAgent.Agents.Orphans
import EphemeralAgent.Agents.Approval
import EphemeralAgent.Agents.ToolSelection
import EphemeralAgent.AgenticWorkflows.Visibility
import EphemeralAgent.Streams.EventStream
import EphemeralAgent.Streams.Copies
import EphemeralAgent.Streams.RunEvents
import EphemeralAgent.Lib.Coalesce
import EphemeralAgent.Notification.Coalescing
import EphemeralAgent.Workflow.Versions
import EphemeralAgent.Workflow.FailedStart
import EphemeralAgent.Background.Disposal
import EphemeralAgent.Engine.Accounting
import EphemeralAgent.Runtime.FinishingLatch
import EphemeralAgent.Lib.Sessions
import EphemeralAgent.LlmClient.Decode
import EphemeralAgent.LlmClient.AnthropicDecoder
import EphemeralAgent.LlmClient.OpenAiDecoder
import EphemeralAgent.Pursuit.Identity
import EphemeralAgent.Pursuit.Coherence
import EphemeralAgent.Pursuit.Validation
import EphemeralAgent.Pursuit.References
import EphemeralAgent.Pursuit.WorkerPrompts
import EphemeralAgent.Pursuit.Propagation
import EphemeralAgent.Lib.Entries
import EphemeralAgent.Pursuit.Context
import EphemeralAgent.Pursuit.ContextPlaces
import EphemeralAgent.Pursuit.ContextPaths
import EphemeralAgent.Pursuit.ContextSearch
import EphemeralAgent.AgenticWorkflows.ContextStores
import EphemeralAgent.AgenticWorkflows.Loader
import EphemeralAgent.Engine.Endings
import EphemeralAgent.Runtime.Acceptance
import EphemeralAgent.Workflow.Ports
import EphemeralAgent.Nodes.Runner
import EphemeralAgent.Nodes.Calls
import EphemeralAgent.Nodes.Records
import EphemeralAgent.Tool.HookPipeline
import EphemeralAgent.Notification.Envelope
import EphemeralAgent.Records.EventLog
import EphemeralAgent.Records.AgentRun
import EphemeralAgent.Records.WorkflowRun
import EphemeralAgent.Nodes.Nested
import EphemeralAgent.Records.NodeRun
import EphemeralAgent.Engine.Replay
import EphemeralAgent.LlmClient.Kept
import EphemeralAgent.Engine.KeptTurns
