import Applik8s.Authority.GrantSelection
import Applik8s.Authority.TargetConflicts
import Applik8s.Authority.ReceiptProofs
import Applik8s.Authority.RoleBootstraps
import Applik8s.Authority.Atomicity
import Applik8s.Authority.ManifestIdempotence
import Applik8s.Signals.Expiry
import Applik8s.Signals.Disclosure
import Applik8s.Operators.PlanOrder
import Applik8s.Operators.EffectsProofs
import Applik8s.Relational.ChangeScopes
import Applik8s.Relational.ModelClient
import Applik8s.Schema.Agreement
import Applik8s.Search.Freshness
import Applik8s.Search.Histories
import Applik8s.AI.Runtimes
import Applik8s.Conversations.Idempotence
import Applik8s.Conversations.Revisions
import Applik8s.Streams.Progress
import Applik8s.Outbox.Cleanups
import Applik8s.Identity.ConsentRuns
import Applik8s.Tasks.Conflation
import Applik8s.Multiplex.Relay
import Applik8s.QueryClient.MultiplexerProofs
import Applik8s.QueryClient.StoreProofs
import Applik8s.Identity.AdmissionProofs
import Applik8s.Mcp.Sweeps
import Applik8s.Commands.Settlement
import Applik8s.Commands.Observer
import Applik8s.Processors.RunProofs
import Applik8s.Batches.Identity
import Applik8s.Batches.Prefix
import Applik8s.Authority.NormalForm
import Applik8s.Valkey.Slots
import Applik8s.Valkey.Codec
import Applik8s.Authority.RequestedGrants
import Applik8s.OnlineProjection.Isolation
import Applik8s.Deployment.Sha256
import Applik8s.Deployment.Execution
import Applik8s.Billing.Reducer
import Applik8s.Billing.Signature
import Applik8s.Tasks.Schedules
import Applik8s.Operators.Finalizers
import Applik8s.Search.Prefilter
import Applik8s.Streams.Retention
import Applik8s.Operators.Names
import Applik8s.Signals.OutputCapabilities
import Applik8s.Commands.Keys
import Applik8s.Processors.Concurrency
