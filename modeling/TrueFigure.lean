import TrueFigure.Library.Chains
import TrueFigure.Library.Interruptible
import TrueFigure.Library.Newest
import TrueFigure.Library.Numbering
import TrueFigure.Library.Observations
import TrueFigure.Library.Outlines
import TrueFigure.Library.Precedence
import TrueFigure.Library.Raising
import TrueFigure.Library.Schedules
import TrueFigure.Library.Snapshots
import TrueFigure.Library.Windows
import TrueFigure.Python.IntText
import TrueFigure.Python.JsonDump
import TrueFigure.Python.JsonRoundTrip
import TrueFigure.Python.JsonScan
import TrueFigure.Python.JsonText
import TrueFigure.Python.TimestampOrder
import TrueFigure.Sdk.EventBuilders
import TrueFigure.Sdk.ExactlyOnce
import TrueFigure.Sdk.Flush
import TrueFigure.Sdk.FlushInvariant
import TrueFigure.Sdk.NoLoss
import TrueFigure.Sdk.Registration
import TrueFigure.Sdk.RetryWaits
import TrueFigure.Sdk.SpoolDurability
import TrueFigure.Sdk.TrackedBatches
import TrueFigure.Sdk.Transport
import TrueFigure.Sdk.WebhookSignatures
import TrueFigure.Server.AlertRuns
import TrueFigure.Server.Amounts
import TrueFigure.Server.ApiKeys
import TrueFigure.Server.Arrivals
import TrueFigure.Server.AtRest
import TrueFigure.Server.AttemptRuns
import TrueFigure.Server.CanonicalTs
import TrueFigure.Server.ChangeTreatment
import TrueFigure.Server.ConcurrentDedup
import TrueFigure.Server.CostAgreement
import TrueFigure.Server.DedupIdentity
import TrueFigure.Server.Deliverable
import TrueFigure.Server.DeliveryReferences
import TrueFigure.Server.DeliveryRuns
import TrueFigure.Server.DeliveryWorker
import TrueFigure.Server.DeploymentUpdates
import TrueFigure.Server.Deployments
import TrueFigure.Server.Engine
import TrueFigure.Server.EngineCalls
import TrueFigure.Server.EngineRows
import TrueFigure.Server.EventStatus
import TrueFigure.Server.FigureAcceptance
import TrueFigure.Server.FigureDelivery
import TrueFigure.Server.FigureReads
import TrueFigure.Server.Figures
import TrueFigure.Server.GaugeOrder
import TrueFigure.Server.HandlingMonths
import TrueFigure.Server.HealthRates
import TrueFigure.Server.IdentityOrder
import TrueFigure.Server.ImportEnding
import TrueFigure.Server.ImportFraming
import TrueFigure.Server.Imports
import TrueFigure.Server.ItemAttributes
import TrueFigure.Server.Keyring
import TrueFigure.Server.LaneAgreement
import TrueFigure.Server.LicenseHistory
import TrueFigure.Server.LicenseRuns
import TrueFigure.Server.Licenses
import TrueFigure.Server.MeasuredAlike
import TrueFigure.Server.MeterReadings
import TrueFigure.Server.MethodRuns
import TrueFigure.Server.Monitors
import TrueFigure.Server.NamespaceDeclarations
import TrueFigure.Server.ParameterVersions
import TrueFigure.Server.PeriodTiling
import TrueFigure.Server.Periods
import TrueFigure.Server.PipelineCapacity
import TrueFigure.Server.PipelineInvariant
import TrueFigure.Server.PipelineProgress
import TrueFigure.Server.Quota
import TrueFigure.Server.QuotaRuns
import TrueFigure.Server.RateLimit
import TrueFigure.Server.Records
import TrueFigure.Server.Redelivery
import TrueFigure.Server.References
import TrueFigure.Server.RefusalLifted
import TrueFigure.Server.ReportArtifacts
import TrueFigure.Server.ReportBinding
import TrueFigure.Server.ReportIssuance
import TrueFigure.Server.Reports
import TrueFigure.Server.Reresolution
import TrueFigure.Server.Resubmission
import TrueFigure.Server.RetrySchedule
import TrueFigure.Server.Roster
import TrueFigure.Server.RosterBatches
import TrueFigure.Server.RosterDirectory
import TrueFigure.Server.RosterOwnership
import TrueFigure.Server.RosterWindows
import TrueFigure.Server.SeatClasses
import TrueFigure.Server.SeatPeriods
import TrueFigure.Server.SeatPricing
import TrueFigure.Server.SecretStorage
import TrueFigure.Server.StoredEvents
import TrueFigure.Server.SubMeters
import TrueFigure.Server.Supersession
import TrueFigure.Server.Suspension
import TrueFigure.Server.TenantIsolation
import TrueFigure.Server.TestMode
import TrueFigure.Server.VerdictEffects
import TrueFigure.Server.VersionHistory
import TrueFigure.Server.WebhookDeletion
import TrueFigure.Server.WebhookRevival
