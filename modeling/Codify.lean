import Codify.LineageRepair
import Codify.Harness.Attempts
import Codify.Harness.EventFile
import Codify.Harness.PiOwnerReopen
import Codify.Harness.OpenCodeStream
import Codify.Harness.OpenCodeIsolation
import Codify.Harness.CommandSubmission
import Codify.Harness.GateSafety
import Codify.Api.TaskUpdate
import Codify.TerminalStatus
import Codify.RescheduleRace
import Codify.TurnOrder
import Codify.Worker.RuntimeReadiness
import Codify.Api.ActiveRetry
import Codify.Harness.ConsoleLog
import Codify.Worker.DeliveryContract
import Codify.Harness.CodexUsage
import Codify.Harness.CodexIdentity
import Codify.Worker.LogStream
import Codify.Statistics.Deletion
import Codify.Kit.Manifest
import Codify.Api.Providers
import Codify.Api.RawLogWindow
import Codify.CiRepair.Gates
import Codify.Api.VerificationSafety
import Codify.Api.LockOrder
import Codify.Api.TaskContractRuns
import Codify.Worker.RemoteClassification
import Codify.Worker.CommitList
import Codify.Worker.ModelProxy
import Codify.Harness.ValidationErrors
import Codify.Harness.ReplayRejection
import Codify.Harness.LiveSplit
import Codify.Api.SkillLimits
import Codify.Api.TaskLogReconnect
import Codify.Harness.PiLenient
import Codify.SequenceDensity
import Codify.Scheduler.QueueDisplay
import Codify.Worker.DiffListing
import Codify.Harness.OpenCodeDeltas
import Codify.Api.Containers
import Codify.Harness.LastEvent
import Codify.Harness.VersionRange
