import ArgoTwin.Library.Effects
import ArgoTwin.Library.Runs
import ArgoTwin.Json
import ArgoTwin.Time
import ArgoTwin.Ownership
import ArgoTwin.State
import ArgoTwin.Caching
import ArgoTwin.Impact
import ArgoTwin.Supersession
import ArgoTwin.Identities
import ArgoTwin.Lifecycle
import ArgoTwin.Delivery
import ArgoTwin.Relay
import ArgoTwin.NonInterference
import ArgoTwin.StateStreams
import ArgoTwin.Contamination
import ArgoTwin.Rego
import ArgoTwin.Migration
import ArgoTwin.Publication
import ArgoTwin.Idempotency
import ArgoTwin.Columns
import ArgoTwin.SourceRecords
import ArgoTwin.JsonText
import ArgoTwin.Nats
import ArgoTwin.Messages
import ArgoTwin.Consumer
import ArgoTwin.Acknowledgements
import ArgoTwin.Upcast
import ArgoTwin.ServiceRuns
import ArgoTwin.Plans
import ArgoTwin.Telemetry
import ArgoTwin.RecordedTime
import ArgoTwin.SemanticBasis
import ArgoTwin.CanonicalText
import ArgoTwin.Backpressure
import ArgoTwin.Library.Sifting
import ArgoTwin.Claiming
import ArgoTwin.Library.Oldest
import ArgoTwin.Retention
import ArgoTwin.Draining
import ArgoTwin.Selection
import ArgoTwin.Library.Carried
import ArgoTwin.Contracts
import ArgoTwin.Transport
import ArgoTwin.Facade
import ArgoTwin.Unresolved
import ArgoTwin.Library.Bytes
import ArgoTwin.Library.Base64
import ArgoTwin.Documents
import ArgoTwin.Bronze
import ArgoTwin.Envelopes
import ArgoTwin.Authentic
import ArgoTwin.Library.Answering
import ArgoTwin.Catalogue
import ArgoTwin.Cursors
import ArgoTwin.KeyRing
import ArgoTwin.Isolation
import ArgoTwin.Retries
import ArgoTwin.Refusals
