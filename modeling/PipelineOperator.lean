import PipelineOperator.Cluster.Bench
import PipelineOperator.Cluster.Client
import PipelineOperator.Cluster.Fixture
import PipelineOperator.Cluster.Journal
import PipelineOperator.Cluster.Memory
import PipelineOperator.Cluster.Program
import PipelineOperator.Cluster.Request
import PipelineOperator.Cluster.Snapshot
import PipelineOperator.Cluster.Store
import PipelineOperator.Controller.Agenda
import PipelineOperator.Controller.Basic
import PipelineOperator.Controller.Timeline
import PipelineOperator.Decimal.Basic
import PipelineOperator.Decimal.Shortest
import PipelineOperator.Endpoint
import PipelineOperator.Fault
import PipelineOperator.Json.Basic
import PipelineOperator.Json.Kept
import PipelineOperator.Json.MergePatch
import PipelineOperator.Json.Pointer
import PipelineOperator.Json.Reader
import PipelineOperator.Json.Record
import PipelineOperator.Json.Text
import PipelineOperator.Json.Yaml
import PipelineOperator.Leadership.Candidate
import PipelineOperator.Leadership.Lease
import PipelineOperator.Main
import PipelineOperator.Manifest.Catalogue
import PipelineOperator.Manifest.Definition
import PipelineOperator.Manifest.Files
import PipelineOperator.Manifest.Schema
import PipelineOperator.Metrics.Basic
import PipelineOperator.Metrics.Exposition
import PipelineOperator.Naming
import PipelineOperator.Net.Exchange
import PipelineOperator.Net.Form
import PipelineOperator.Net.RequestTarget
import PipelineOperator.Net.SocketAddress
import PipelineOperator.Object.Access
import PipelineOperator.Object.Delivery
import PipelineOperator.Object.Jenkins
import PipelineOperator.Object.Kind
import PipelineOperator.Object.Metadata
import PipelineOperator.Object.Pipeline
import PipelineOperator.Object.Stage
import PipelineOperator.Object.Tenancy
import PipelineOperator.Proofs.Cluster.Contract
import PipelineOperator.Proofs.Cluster.Listing
import PipelineOperator.Proofs.Cluster.Serve
import PipelineOperator.Proofs.Cluster.Sound
import PipelineOperator.Proofs.Cluster.StatusPatch
import PipelineOperator.Proofs.Course.Basic
import PipelineOperator.Proofs.Course.Fanout
import PipelineOperator.Proofs.Course.Gate
import PipelineOperator.Proofs.Course.Journal
import PipelineOperator.Proofs.Course.Labels
import PipelineOperator.Proofs.Course.Releasing
import PipelineOperator.Proofs.Course.Targets
import PipelineOperator.Proofs.Course.Undoing
import PipelineOperator.Proofs.Course.VerifiedStreams
import PipelineOperator.Proofs.Json.HtmlSafe
import PipelineOperator.Proofs.Json.MergePatch
import PipelineOperator.Proofs.Json.Reading
import PipelineOperator.Proofs.Json.Record
import PipelineOperator.Proofs.Json.RoundTrip
import PipelineOperator.Proofs.Json.Scanning
import PipelineOperator.Proofs.Json.Shape
import PipelineOperator.Proofs.Metrics.Totals
import PipelineOperator.Proofs.Object.FinalizerLaws
import PipelineOperator.Proofs.Object.Finalizers
import PipelineOperator.Proofs.Object.Labels
import PipelineOperator.Proofs.Object.RoundTrip
import PipelineOperator.Proofs.Operation.Clean
import PipelineOperator.Proofs.Operation.Creating
import PipelineOperator.Proofs.Operation.Hindered
import PipelineOperator.Proofs.Operation.Keeping
import PipelineOperator.Proofs.Operation.OnBench
import PipelineOperator.Proofs.Operation.Settling
import PipelineOperator.Proofs.Operation.Trial
import PipelineOperator.Proofs.Operation.Verdict
import PipelineOperator.Proofs.Provision.Access
import PipelineOperator.Proofs.Provision.Chain
import PipelineOperator.Proofs.Provision.Custody
import PipelineOperator.Proofs.Provision.EnvironmentLabel
import PipelineOperator.Proofs.Provision.GateText
import PipelineOperator.Proofs.Provision.Job
import PipelineOperator.Proofs.Provision.JobText
import PipelineOperator.Proofs.Provision.Keeping
import PipelineOperator.Proofs.Provision.Privileges
import PipelineOperator.Proofs.Provision.Relay
import PipelineOperator.Proofs.Provision.Report
import PipelineOperator.Proofs.Provision.Requirements
import PipelineOperator.Proofs.Provision.Site
import PipelineOperator.Proofs.Provision.Streams
import PipelineOperator.Proofs.Provision.Takedown
import PipelineOperator.Proofs.Provision.Target
import PipelineOperator.Proofs.Provision.VerifiedStreams
import PipelineOperator.Proofs.Provision.Withdrawal
import PipelineOperator.Proofs.Reconcile.Effect
import PipelineOperator.Proofs.Reconcile.Footprint
import PipelineOperator.Proofs.Reconcile.Furnishing
import PipelineOperator.Proofs.Reconcile.Gate
import PipelineOperator.Proofs.Reconcile.Generation
import PipelineOperator.Proofs.Reconcile.Idempotence
import PipelineOperator.Proofs.Reconcile.Inputs
import PipelineOperator.Proofs.Reconcile.Labels
import PipelineOperator.Proofs.Reconcile.Pipeline
import PipelineOperator.Proofs.Reconcile.Reach
import PipelineOperator.Proofs.Reconcile.Releasable
import PipelineOperator.Proofs.Reconcile.Release
import PipelineOperator.Proofs.Reconcile.Requests
import PipelineOperator.Proofs.Reconcile.Retry
import PipelineOperator.Proofs.Reconcile.Rewiring
import PipelineOperator.Proofs.Reconcile.Safety
import PipelineOperator.Proofs.Reconcile.Siblings
import PipelineOperator.Proofs.Reconcile.Status
import PipelineOperator.Proofs.Reconcile.Streams
import PipelineOperator.Proofs.Reconcile.Supply
import PipelineOperator.Proofs.Reconcile.Teardown
import PipelineOperator.Proofs.Reconcile.Verdict
import PipelineOperator.Proofs.Reconcile.Wiring
import PipelineOperator.Proofs.Traffic.Edits
import PipelineOperator.Proofs.Traffic.Labels
import PipelineOperator.Provision.Access
import PipelineOperator.Provision.Chain
import PipelineOperator.Provision.EnvironmentLabel
import PipelineOperator.Provision.GateText
import PipelineOperator.Provision.Job
import PipelineOperator.Provision.JobParameters
import PipelineOperator.Provision.Relatives
import PipelineOperator.Provision.Report
import PipelineOperator.Provision.Target
import PipelineOperator.Provision.VerifiedStreams
import PipelineOperator.Reconcile.Fanout
import PipelineOperator.Reconcile.Outcome
import PipelineOperator.Reconcile.Pipeline
import PipelineOperator.Reconcile.Stage
import PipelineOperator.Settings.Environment
import PipelineOperator.Settings.Flags
import PipelineOperator.Settings.Logging
import PipelineOperator.Settings.Platform
import PipelineOperator.Settings.Startup
import PipelineOperator.Settings.Usage
import PipelineOperator.SortedMap
import PipelineOperator.Text.Blank
import PipelineOperator.Text.Hexadecimal
import PipelineOperator.Text.Letter
import PipelineOperator.Text.Pattern
import PipelineOperator.Text.Split
import PipelineOperator.Text.Utf8
import PipelineOperator.Time.Instant
import PipelineOperator.Time.Timestamp
