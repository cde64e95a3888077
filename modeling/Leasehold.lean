import Leasehold.Text.Lines
import Leasehold.Request
import Leasehold.Command
import Leasehold.Retry
import Leasehold.Retry.ErrorClass
import Leasehold.Log.Timing
import Leasehold.Log.Settings
import Leasehold.Inventory.Location
import Leasehold.Artifact
import Leasehold.Event
import Leasehold.Tools.Server
import Leasehold.Audit
import Leasehold.Inventory
import Leasehold.Store
import Leasehold.Host
import Leasehold.Reconciliation.Execution
import Leasehold.Acquisition.Remote
import Leasehold.Acquisition.Negotiator
import Leasehold.Yaml.Document
import Leasehold.Executor
import Leasehold.Bus.Task
import Leasehold.Acquisition.Service
import Leasehold.Proofs.Cancellation
import Leasehold.Proofs.RestConsistency
import Leasehold.Proofs.PassAchievements
import Leasehold.Proofs.StandingInstallation
import Leasehold.Proofs.LeaseEvents
import Leasehold.Proofs.RepeatedPasses
import Leasehold.Proofs.StaticAssignment
import Leasehold.Proofs.PassScheduling
import Leasehold.Proofs.AuditTrail
import Leasehold.Proofs.EventDelivery
import Leasehold.Proofs.KindIsolation
import Leasehold.Proofs.ResolverDirectives
import Leasehold.Proofs.ServerRuns
import Leasehold.Proofs.DropByUuid
import Leasehold.Proofs.ConfiguredCommands
import Leasehold.Proofs.RemoteAnswers
import Leasehold.Proofs.AwaitedOutcomes
import Leasehold.Proofs.AuditRoundTrip
import Leasehold.Proofs.SourceWeights
import Leasehold.Proofs.WinnerStability
import Leasehold.Proofs.AuditQueries
import Leasehold.Proofs.ScriptExecution
import Leasehold.Proofs.ForeignLeases
import Leasehold.Proofs.LeaseNames
import Leasehold.Proofs.RequestsGivenBack
import Leasehold.Proofs.CommandLines
import Leasehold.Proofs.ListedResources
import Leasehold.Proofs.CancelledSubscriptions
import Leasehold.Proofs.AwaitedEvents
import Leasehold.Proofs.RepeatedAttempts
