import VivimOmega.Library.OrderedMap
import VivimOmega.Library.Transition
import VivimOmega.Library.Text
import VivimOmega.Library.Json.Quoting
import VivimOmega.Library.Json.Number
import VivimOmega.Library.Json.Value
import VivimOmega.Library.Json.Canonical
import VivimOmega.Library.Json.Stringify
import VivimOmega.Library.Sha256
import VivimOmega.Library.Table
import VivimOmega.Library.HashChain
import VivimOmega.Library.Transaction
import VivimOmega.Contracts.Port
import VivimOmega.Contracts.Lifecycle
import VivimOmega.Contracts.Manifest
import VivimOmega.Contracts.Recipe
import VivimOmega.Host.Kernel
import VivimOmega.Host.Ports
import VivimOmega.Host.Ledger
import VivimOmega.Host.Slots
import VivimOmega.Host.Router
import VivimOmega.Host.Run
import VivimOmega.Host.Shape
import VivimOmega.Host.Dispatch
import VivimOmega.Host.Wiring
import VivimOmega.Host.Turns
import VivimOmega.Host.Admission
import VivimOmega.Host.Tokens
import VivimOmega.Host.Grants
import VivimOmega.Host.Integrity
import VivimOmega.Host.Deadlines
import VivimOmega.Host.Posts
import VivimOmega.Host.Gate
import VivimOmega.Host.FailClosed
import VivimOmega.Host.Flights
import VivimOmega.Host.Retries
import VivimOmega.Host.Readiness
import VivimOmega.Host.Canon
import VivimOmega.Vault.Canon
import VivimOmega.Vault.Sql
import VivimOmega.Vault.Cas
import VivimOmega.Vault.Validate
import VivimOmega.Vault.Changelog
import VivimOmega.Vault.Compaction
import VivimOmega.Vault.Verify
import VivimOmega.Library.Counting
import VivimOmega.Vault.Store
import VivimOmega.Vault.Readers
import VivimOmega.Vault.Roundtrip
import VivimOmega.Library.FileTree
import VivimOmega.Library.Fold
import VivimOmega.Library.Collect
import VivimOmega.Agent.Evolution
import VivimOmega.Agent.Exec
import VivimOmega.Agent.Ledger
import VivimOmega.Host.Binding
import VivimOmega.Host.Boot
import VivimOmega.Host.Coverage
import VivimOmega.Host.Recovery
import VivimOmega.Host.Resolution
import VivimOmega.Host.Routing
import VivimOmega.Host.Provenance
import VivimOmega.Host.Arbitration
import VivimOmega.Email.Message
import VivimOmega.Email.Updates
import VivimOmega.Intent.Submit
import VivimOmega.Nlcl.Text
import VivimOmega.Director.Rules
import VivimOmega.Director.Registry
import VivimOmega.Library.Process
import VivimOmega.Vault.Port
import VivimOmega.Law.Amendment
import VivimOmega.Law.Divergence
import VivimOmega.Law.Identity
import VivimOmega.Law.Overlay
import VivimOmega.Law.Enforcement
import VivimOmega.Law.Journal
import VivimOmega.Law.Classification
import VivimOmega.Law.Scopes
import VivimOmega.Law.Consented
import VivimOmega.Vault.Prefix
import VivimOmega.Vault.Disjoint
import VivimOmega.Daemon.SpawnLock
import VivimOmega.Daemon.Running
import VivimOmega.Daemon.Requests
import VivimOmega.Discovery.Lifecycle
import VivimOmega.Broker.Capacity
import VivimOmega.Lens.Centrality
import VivimOmega.Mcp.Tools
import VivimOmega.Console.Execute
import VivimOmega.Console.Resolutions
import VivimOmega.Console.Parity
import VivimOmega.Console.WorldPoll
import VivimOmega.Console.JournalTail
import VivimOmega.Mcp.Serving
import VivimOmega.Library.Framing
import VivimOmega.Library.Digits
import VivimOmega.Library.Json.Pretty
import VivimOmega.Daemon.Wire
import VivimOmega.Library.Json.Parsed
import VivimOmega.Library.Lines
import VivimOmega.Llm.Sse
import VivimOmega.Contracts.Parser
import VivimOmega.Llm.Parse
import VivimOmega.Credentials.Record
import VivimOmega.Run.Health
import VivimOmega.Run.Pool
import VivimOmega.Tooling.Watchdog
import VivimOmega.Chat.Import
import VivimOmega.Forge.Author
import VivimOmega.Forge.Emission
import VivimOmega.Sdk.Stream
import VivimOmega.Library.Double
import VivimOmega.Library.Pattern
import VivimOmega.Nlcl.Lexer
import VivimOmega.Library.Tiling
import VivimOmega.Nlcl.Tiling
import VivimOmega.Nlcl.Ground
import VivimOmega.Nlcl.Frames
import VivimOmega.Nlcl.Grammar
import VivimOmega.Nlcl.Recognize
import VivimOmega.Nlcl.Interpret
import VivimOmega.Nlcl.Proposals
import VivimOmega.Nlcl.Resolved
import VivimOmega.Nlcl.Executable
import VivimOmega.Nlcl.Mentions
import VivimOmega.Nlcl.Separation
import VivimOmega.Perception.Graph
import VivimOmega.Perception.Places
import VivimOmega.Observation.Trace
import VivimOmega.Observation.Attribution
import VivimOmega.Observation.Lineage
import VivimOmega.Perception.Selectors
import VivimOmega.Inference.Candidates
import VivimOmega.Inference.Severity
import VivimOmega.Mapping.Solve
import VivimOmega.Mapping.Exact
import VivimOmega.Discovery.Drift
import VivimOmega.Discovery.Replacement
import VivimOmega.Nlcl.Distance
import VivimOmega.Gates.Reconcile
import VivimOmega.Gates.Invoke
import VivimOmega.Gates.Delegate
import VivimOmega.Library.Elimination
import VivimOmega.Gates.Genome
import VivimOmega.Gates.Layout
import VivimOmega.Gates.Decisions
import VivimOmega.Gates.GateImport
import VivimOmega.Gates.Retry
import VivimOmega.Library.Serial
import VivimOmega.Chat.Records
import VivimOmega.Chat.Handlers
import VivimOmega.Chat.Transcript
import VivimOmega.Chat.Conversations
import VivimOmega.Chat.Runs
import VivimOmega.Daemon.IsolatePool
import VivimOmega.Gates.SessionRuns
import VivimOmega.Gates.Orchestrate
import VivimOmega.Director.Tick
import VivimOmega.Director.Kept
