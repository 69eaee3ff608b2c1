import ReleaseUpgrade.Admission
import ReleaseUpgrade.Base64
import ReleaseUpgrade.Chart.CoreComponents
import ReleaseUpgrade.Chart.Evaluation
import ReleaseUpgrade.Chart.State
import ReleaseUpgrade.Cluster.Kind
import ReleaseUpgrade.Cluster.Program
import ReleaseUpgrade.Cluster.Rehearsal
import ReleaseUpgrade.Cluster.Rest
import ReleaseUpgrade.Cluster.Store
import ReleaseUpgrade.CommandLine.Arguments
import ReleaseUpgrade.CommandLine.Configuration
import ReleaseUpgrade.CommandLine.Flag
import ReleaseUpgrade.Controller.Cleanup
import ReleaseUpgrade.Controller.Reconciliation
import ReleaseUpgrade.Controller.Watch
import ReleaseUpgrade.Decimal.Layout
import ReleaseUpgrade.Decimal.Scaled
import ReleaseUpgrade.Decimal.Shortest
import ReleaseUpgrade.Definition.Manifest
import ReleaseUpgrade.Definition.Plan
import ReleaseUpgrade.Definition.Resource
import ReleaseUpgrade.Definition.Schema
import ReleaseUpgrade.Dict
import ReleaseUpgrade.Drain
import ReleaseUpgrade.Error
import ReleaseUpgrade.Gzip.Bits
import ReleaseUpgrade.Gzip.Huffman
import ReleaseUpgrade.Gzip.Inflate
import ReleaseUpgrade.Gzip.Member
import ReleaseUpgrade.Helm.Chart
import ReleaseUpgrade.Helm.Release
import ReleaseUpgrade.Helm.Upgrade
import ReleaseUpgrade.Helm.Values
import ReleaseUpgrade.Http.Message
import ReleaseUpgrade.Http.Target
import ReleaseUpgrade.Json.Basic
import ReleaseUpgrade.Json.MergePatch
import ReleaseUpgrade.Json.Number
import ReleaseUpgrade.Json.Reader
import ReleaseUpgrade.Json.Record
import ReleaseUpgrade.Json.Token
import ReleaseUpgrade.Json.Writer
import ReleaseUpgrade.Main
import ReleaseUpgrade.Metrics.Basic
import ReleaseUpgrade.Metrics.Exposition
import ReleaseUpgrade.Metrics.Histogram
import ReleaseUpgrade.Metrics.Series
import ReleaseUpgrade.Naming
import ReleaseUpgrade.NodePlan.Basic
import ReleaseUpgrade.NodePlan.Build
import ReleaseUpgrade.Nodes
import ReleaseUpgrade.Object.Deployment
import ReleaseUpgrade.Object.Job
import ReleaseUpgrade.Object.Metadata
import ReleaseUpgrade.Object.Node
import ReleaseUpgrade.Object.Pod
import ReleaseUpgrade.Object.Secret
import ReleaseUpgrade.Object.Selector
import ReleaseUpgrade.Object.Shape
import ReleaseUpgrade.Object.Volume
import ReleaseUpgrade.Phases.Context
import ReleaseUpgrade.Phases.Distribution
import ReleaseUpgrade.Phases.Manifest
import ReleaseUpgrade.Phases.Run
import ReleaseUpgrade.Phases.Start
import ReleaseUpgrade.Phases.System
import ReleaseUpgrade.Phases.Tier
import ReleaseUpgrade.Phases.Workload
import ReleaseUpgrade.Proofs.Admission
import ReleaseUpgrade.Proofs.Base64
import ReleaseUpgrade.Proofs.Chart.CoreComponents
import ReleaseUpgrade.Proofs.Chart.Course
import ReleaseUpgrade.Proofs.Chart.Fault
import ReleaseUpgrade.Proofs.Cluster.Still
import ReleaseUpgrade.Proofs.Cluster.Store
import ReleaseUpgrade.Proofs.Cluster.Trace
import ReleaseUpgrade.Proofs.Cluster.World
import ReleaseUpgrade.Proofs.Cluster.Writes
import ReleaseUpgrade.Proofs.Controller.Announcement
import ReleaseUpgrade.Proofs.Controller.Creation
import ReleaseUpgrade.Proofs.Controller.Deletion
import ReleaseUpgrade.Proofs.Controller.Estate
import ReleaseUpgrade.Proofs.Controller.Finalizer
import ReleaseUpgrade.Proofs.Controller.History
import ReleaseUpgrade.Proofs.Controller.Orphans
import ReleaseUpgrade.Proofs.Controller.Persistence
import ReleaseUpgrade.Proofs.Controller.Reconciliation
import ReleaseUpgrade.Proofs.Controller.Watch
import ReleaseUpgrade.Proofs.Dict
import ReleaseUpgrade.Proofs.Drain
import ReleaseUpgrade.Proofs.Helm.Replacement
import ReleaseUpgrade.Proofs.Helm.Revisions
import ReleaseUpgrade.Proofs.Helm.RoundTrip
import ReleaseUpgrade.Proofs.Helm.Storage
import ReleaseUpgrade.Proofs.Helm.Values
import ReleaseUpgrade.Proofs.Json.Document
import ReleaseUpgrade.Proofs.Json.Path
import ReleaseUpgrade.Proofs.Json.Record
import ReleaseUpgrade.Proofs.Json.RoundTrip
import ReleaseUpgrade.Proofs.Metrics.ActivePhase
import ReleaseUpgrade.Proofs.Metrics.Forgetting
import ReleaseUpgrade.Proofs.Naming
import ReleaseUpgrade.Proofs.Naming.InstallJob
import ReleaseUpgrade.Proofs.NodePlan.RoundTrip
import ReleaseUpgrade.Proofs.Nodes
import ReleaseUpgrade.Proofs.Object.Metadata
import ReleaseUpgrade.Proofs.Object.Selector
import ReleaseUpgrade.Proofs.Phases.AddOns
import ReleaseUpgrade.Proofs.Phases.Agreement
import ReleaseUpgrade.Proofs.Phases.Attempt
import ReleaseUpgrade.Proofs.Phases.Convergence
import ReleaseUpgrade.Proofs.Phases.Dispatch
import ReleaseUpgrade.Proofs.Phases.Distribution
import ReleaseUpgrade.Proofs.Phases.Draining
import ReleaseUpgrade.Proofs.Phases.Failure
import ReleaseUpgrade.Proofs.Phases.Findings
import ReleaseUpgrade.Proofs.Phases.Frame
import ReleaseUpgrade.Proofs.Phases.Idempotence
import ReleaseUpgrade.Proofs.Phases.Installation
import ReleaseUpgrade.Proofs.Phases.Manifest
import ReleaseUpgrade.Proofs.Phases.Order
import ReleaseUpgrade.Proofs.Phases.Passes
import ReleaseUpgrade.Proofs.Phases.Progress
import ReleaseUpgrade.Proofs.Phases.Publication
import ReleaseUpgrade.Proofs.Phases.Report
import ReleaseUpgrade.Proofs.Phases.Requeue
import ReleaseUpgrade.Proofs.Phases.Run
import ReleaseUpgrade.Proofs.Phases.Sequence
import ReleaseUpgrade.Proofs.Phases.Soundness
import ReleaseUpgrade.Proofs.Phases.Start
import ReleaseUpgrade.Proofs.Phases.Suffix
import ReleaseUpgrade.Proofs.Phases.System
import ReleaseUpgrade.Proofs.Phases.Tier
import ReleaseUpgrade.Proofs.Phases.Workload
import ReleaseUpgrade.Proofs.Release.RoundTrip
import ReleaseUpgrade.Proofs.RoundTrip
import ReleaseUpgrade.Proofs.Script
import ReleaseUpgrade.Proofs.SemVer
import ReleaseUpgrade.Proofs.SemVer.Text
import ReleaseUpgrade.Proofs.Text.Replacement
import ReleaseUpgrade.Proofs.Time.Calendar
import ReleaseUpgrade.Proofs.Time.Reader
import ReleaseUpgrade.Proofs.Upgrade.Conditions
import ReleaseUpgrade.Proofs.Upgrade.Document
import ReleaseUpgrade.Proofs.Upgrade.RoundTrip
import ReleaseUpgrade.Proofs.Upgrade.Status
import ReleaseUpgrade.Proofs.Upgrade.Timeline
import ReleaseUpgrade.Proofs.Yaml.Document
import ReleaseUpgrade.Readiness
import ReleaseUpgrade.Release.Chart
import ReleaseUpgrade.Release.Install
import ReleaseUpgrade.Release.Manifest
import ReleaseUpgrade.Script
import ReleaseUpgrade.SemVer
import ReleaseUpgrade.Settings
import ReleaseUpgrade.Text.Blank
import ReleaseUpgrade.Text.Digits
import ReleaseUpgrade.Text.LetterCase
import ReleaseUpgrade.Text.Lowercase
import ReleaseUpgrade.Text.Substring
import ReleaseUpgrade.Time.Calendar
import ReleaseUpgrade.Time.Instant
import ReleaseUpgrade.Time.Reader
import ReleaseUpgrade.Upgrade.Condition
import ReleaseUpgrade.Upgrade.Plan
import ReleaseUpgrade.Upgrade.Status
import ReleaseUpgrade.Yaml.Core
import ReleaseUpgrade.Yaml.Document
import ReleaseUpgrade.Yaml.Glyph
import ReleaseUpgrade.Yaml.Node
import ReleaseUpgrade.Yaml.Property
import ReleaseUpgrade.Yaml.Reading
import ReleaseUpgrade.Yaml.Scalar
import ReleaseUpgrade.Yaml.Token
import ReleaseUpgrade.Yaml.Writer
