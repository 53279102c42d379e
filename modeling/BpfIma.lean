import BpfIma.Library.Machine
import BpfIma.Library.HashChain
import BpfIma.Library.Occurrence
import BpfIma.Library.VersionedStore
import BpfIma.Library.DoubleBuffer
import BpfIma.Library.Threads
import BpfIma.Library.References
import BpfIma.Library.Bits
import BpfIma.Library.CString
import BpfIma.Library.YamlEvents
import BpfIma.Library.Layout
import BpfIma.Library.Text
import BpfIma.Library.Numerals
import BpfIma.Library.Sha256
import BpfIma.Model.Base
import BpfIma.Model.Policy
import BpfIma.Model.Commit
import BpfIma.Model.PolicyManager
import BpfIma.Model.PolicyWire
import BpfIma.Model.YamlParser
import BpfIma.Model.YamlReader
import BpfIma.Model.Operator
import BpfIma.Model.PolicySelector
import BpfIma.Model.Measurement
import BpfIma.Model.PolicyFiles
import BpfIma.Model.MeasurementBytes
import BpfIma.Model.Kernel
import BpfIma.Model.EntryPoints
import BpfIma.Model.PolicyAuthority
import BpfIma.Model.Callers
import BpfIma.Model.ContainerRefs
import BpfIma.Model.Hooks
import BpfIma.Model.Dependencies
import BpfIma.Model.LsmHooks
import BpfIma.Model.HistoryReaders
import BpfIma.Model.HistoryLists
import BpfIma.Model.Verifier
import BpfIma.Model.Simulator
import BpfIma.Verification.Commit.Effects
import BpfIma.Verification.Commit.Replay
import BpfIma.Verification.Commit.Epoch
import BpfIma.Verification.Commit.Failure
import BpfIma.Verification.Commit.Trimming
import BpfIma.Verification.Commit.Limit
import BpfIma.Verification.Commit.Restore
import BpfIma.Verification.History.Sections
import BpfIma.Verification.History.Persisted
import BpfIma.Verification.Policy.Snapshot
import BpfIma.Verification.Policy.EventText
import BpfIma.Verification.Policy.Effects
import BpfIma.Verification.Kernel.Effects
import BpfIma.Verification.Attestation.Replay
import BpfIma.Verification.Attestation.Exact
import BpfIma.Verification.Attestation.History
import BpfIma.Verification.Attestation.Soundness
import BpfIma.Verification.Attestation.Completeness
import BpfIma.Verification.Attestation.Evidence
import BpfIma.Verification.Attestation.RoundTrip
import BpfIma.Verification.Attestation.Reset
import BpfIma.Verification.Measurement.Template
import BpfIma.Verification.Measurement.Bounds
import BpfIma.Verification.Measurement.Registry
import BpfIma.Verification.Measurement.Sections
import BpfIma.Verification.Measurement.Recorded
import BpfIma.Verification.Measurement.Deduplication
import BpfIma.Verification.Measurement.Framing
import BpfIma.Verification.Container.Effects
import BpfIma.Verification.Container.Safety
import BpfIma.Verification.Container.Sequential
import BpfIma.Verification.Policy.Coverage
import BpfIma.Verification.Policy.Representation
import BpfIma.Verification.Policy.Transaction
import BpfIma.Verification.Policy.Store
import BpfIma.Verification.Policy.Audit
import BpfIma.Verification.Policy.MapReader
import BpfIma.Verification.Policy.Binding
import BpfIma.Verification.Policy.Rebase
import BpfIma.Verification.Policy.Success
import BpfIma.Verification.Policy.Refusal
import BpfIma.Verification.Policy.Edit
import BpfIma.Verification.Policy.Files
import BpfIma.Verification.Policy.LongRun
import BpfIma.Verification.Policy.Outcome
import BpfIma.Verification.Policy.Canonical
import BpfIma.Verification.Policy.Scope
import BpfIma.Verification.Hooks.Setattr
import BpfIma.Verification.Hooks.Dependencies
import BpfIma.Verification.Hooks.Scratch
import BpfIma.Verification.Hooks.Socket
import BpfIma.Verification.Hooks.Programs
import BpfIma.Verification.Hooks.Mediation
import BpfIma.Verification.Hooks.Lines
import BpfIma.Verification.Kernel.EntryPoints
import BpfIma.Verification.Kernel.Ledger
import BpfIma.Verification.Kernel.Queries
import BpfIma.Verification.Attestation.Simulator
import BpfIma.Verification.Policy.Wire
import BpfIma.Verification.Tool.Status
import BpfIma.Verification.Tool.HandOver
import BpfIma.Verification.Tool.Authority
import BpfIma.Verification.Operator.Encoder
import BpfIma.Verification.Operator.Rejection
import BpfIma.Verification.Operator.Selection
import BpfIma.Verification.Yaml.Build
import BpfIma.Verification.Yaml.PendingKey
import BpfIma.Verification.Yaml.Filters
import BpfIma.Verification.Yaml.Hooks
import BpfIma.Verification.Yaml.Termination
