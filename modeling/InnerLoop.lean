import InnerLoop.Text.Blank
import InnerLoop.Text.Split
import InnerLoop.Text.Unprintable
import InnerLoop.Text.Quoted
import InnerLoop.Text.Integer
import InnerLoop.Text.Duration
import InnerLoop.SortedMap
import InnerLoop.Json.Basic
import InnerLoop.Json.Written
import InnerLoop.Json.Double
import InnerLoop.Json.Decode
import InnerLoop.Json.Parser
import InnerLoop.Json.Render
import InnerLoop.Object.Meta
import InnerLoop.Object.Pod
import InnerLoop.Object.Secret
import InnerLoop.Object.Workload
import InnerLoop.Object.Build
import InnerLoop.Failure
import InnerLoop.Image.Reference
import InnerLoop.Image.Metadata
import InnerLoop.Image.Builder
import InnerLoop.Workload.Port
import InnerLoop.Workload.Env
import InnerLoop.Workload.Primary
import InnerLoop.Workload.Mode
import InnerLoop.Workload.Descriptor
import InnerLoop.Workload.Patch
import InnerLoop.Workload.Storage
import InnerLoop.Workload.VolumeName
import InnerLoop.Backoff
import InnerLoop.Watch.Selector
import InnerLoop.Watch.Event
import InnerLoop.Watch.Condition
import InnerLoop.Watch.Wait
import InnerLoop.Cluster.Store
import InnerLoop.Cluster.Basic
import InnerLoop.Files.Path
import InnerLoop.Files.Tree
import InnerLoop.Files.Walk
import InnerLoop.Text.Utf8
import InnerLoop.Transfer.Manifest
import InnerLoop.Transfer.Archive
import InnerLoop.Transfer.Pipe
import InnerLoop.Transfer.Listing
import InnerLoop.Transfer.Snapshot
import InnerLoop.Settings
import InnerLoop.Command.Usage
import InnerLoop.Command.Basic
import InnerLoop.Command.Fault
import InnerLoop.Program.Basic
import InnerLoop.Program.World
import InnerLoop.Program.Schedule
import InnerLoop.Operation.Retry
import InnerLoop.Operation.Wait
import InnerLoop.Operation.Patch
import InnerLoop.Operation.Switch
import InnerLoop.Operation.Push
import InnerLoop.Operation.Component
import InnerLoop.Operation.WatchLoop
import InnerLoop.Api.Target
import InnerLoop.Api.Answer
import InnerLoop.Api.Call
import InnerLoop.Api.Session
import InnerLoop.Api.Feed
import InnerLoop.Api.Server
import InnerLoop.Command.Run
import InnerLoop.Command.Rehearsal
import InnerLoop.Main
import InnerLoop.Proofs.Refusal
import InnerLoop.Proofs.Carry
import InnerLoop.Proofs.Descriptor
import InnerLoop.Proofs.RoundTrip
import InnerLoop.Proofs.StoreStep
import InnerLoop.Proofs.Others
import InnerLoop.Proofs.Run
import InnerLoop.Proofs.Edit
import InnerLoop.Proofs.Marks
import InnerLoop.Proofs.Patched
import InnerLoop.Proofs.Switch
import InnerLoop.Proofs.FailureKind
import InnerLoop.Proofs.Play
import InnerLoop.Proofs.StaleMarks
import InnerLoop.Proofs.Writers
import InnerLoop.Proofs.Together
import InnerLoop.Proofs.Serial
import InnerLoop.Proofs.FirstDecisive
import InnerLoop.Proofs.SharedVolumes
import InnerLoop.Proofs.Paths
import InnerLoop.Proofs.Lookup
import InnerLoop.Proofs.Unpacking
import InnerLoop.Proofs.Transcript
import InnerLoop.Proofs.WatchRounds
import InnerLoop.Proofs.InPlace
import InnerLoop.Proofs.Dangling
import InnerLoop.Proofs.Undisturbed
import InnerLoop.Proofs.Session
import InnerLoop.Proofs.Bindings
import InnerLoop.Proofs.Phases
import InnerLoop.Proofs.Retries
import InnerLoop.Proofs.Variables
import InnerLoop.Proofs.Course
import InnerLoop.Proofs.Transfers
import InnerLoop.Proofs.Written
import InnerLoop.Proofs.Twice
import InnerLoop.Proofs.InOrder
import InnerLoop.Proofs.PushedFiles
import InnerLoop.Proofs.Pushes
import InnerLoop.Proofs.Recorded
import InnerLoop.Proofs.SideSteps
import InnerLoop.Proofs.Alongside
import InnerLoop.Proofs.Paced
import InnerLoop.Proofs.Pace
import InnerLoop.Proofs.Clients
import InnerLoop.Proofs.Awaited
import InnerLoop.Proofs.DeletionWait
import InnerLoop.Proofs.BuildFate
import InnerLoop.Proofs.PodRace
import InnerLoop.Proofs.LateWatch
import InnerLoop.Proofs.StoreRun
import InnerLoop.Proofs.Optimistic
import InnerLoop.Proofs.Replay
import InnerLoop.Proofs.SwitchFrame
import InnerLoop.Proofs.Coding
import InnerLoop.Proofs.ObjectCoding
import InnerLoop.Proofs.Revert
import InnerLoop.Proofs.Manifests
import InnerLoop.Proofs.Ignored
import InnerLoop.Proofs.WholeRoot
import InnerLoop.Proofs.LastUpdate
import InnerLoop.Proofs.GivenVariables
import InnerLoop.Proofs.SoleWriter
import InnerLoop.Proofs.Alone
import InnerLoop.Proofs.Detaching
import InnerLoop.Proofs.EnvCommand
import InnerLoop.Proofs.ReferenceGrammar
import InnerLoop.Proofs.ReferenceText
import InnerLoop.Proofs.SourceTarget
import InnerLoop.Proofs.Capped
import InnerLoop.Proofs.ReplayOrder
import InnerLoop.Proofs.Difference
import InnerLoop.Proofs.Relayed
import InnerLoop.Proofs.PortGrammar
import InnerLoop.Proofs.Steps
import InnerLoop.Proofs.Misread
