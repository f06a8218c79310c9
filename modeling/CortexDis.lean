import CortexDis.Accounting
import CortexDis.AckSafety
import CortexDis.ApplyMapping
import CortexDis.AtlasRuns
import CortexDis.BatchSize
import CortexDis.Bronze
import CortexDis.BronzeAgreement
import CortexDis.Canonical
import CortexDis.CanonicalShape
import CortexDis.Catalogue
import CortexDis.CatalogueRows
import CortexDis.ConnectorWizard
import CortexDis.ContractTranslation
import CortexDis.CrashSafety
import CortexDis.CreateGate
import CortexDis.CsvWorker
import CortexDis.Dashboard
import CortexDis.DashboardCounts
import CortexDis.Decimals
import CortexDis.DedupKeys
import CortexDis.DraftAttrs
import CortexDis.DraftDocs
import CortexDis.DraftIr
import CortexDis.DraftNames
import CortexDis.DraftStore
import CortexDis.DuplicateHits
import CortexDis.EngineTyping
import CortexDis.Envelope
import CortexDis.Errors
import CortexDis.EventRows
import CortexDis.EventTime
import CortexDis.ExactRows
import CortexDis.FailureStages
import CortexDis.Frames
import CortexDis.Freshness
import CortexDis.GroupHot
import CortexDis.Grouping
import CortexDis.HeldShown
import CortexDis.HotChecks
import CortexDis.HotSink
import CortexDis.HotWrites
import CortexDis.Intake
import CortexDis.IrCodec
import CortexDis.JsonDumps
import CortexDis.Jsonb
import CortexDis.Lineage
import CortexDis.LoadMapping
import CortexDis.LocaleNumbers
import CortexDis.LockOrder
import CortexDis.Locking
import CortexDis.LostEdits
import CortexDis.MappingRules
import CortexDis.Masked
import CortexDis.MergeLaw
import CortexDis.MirrorSync
import CortexDis.MissHistory
import CortexDis.MissRecovery
import CortexDis.MultipartStream
import CortexDis.Normalize
import CortexDis.Numerals
import CortexDis.ObjectPath
import CortexDis.Orchestrate
import CortexDis.PatchRuns
import CortexDis.PatchWaits
import CortexDis.PathRoundTrip
import CortexDis.Patterns
import CortexDis.PercentNumbers
import CortexDis.Pii
import CortexDis.PipelineRuns
import CortexDis.Poison
import CortexDis.ProfiledCapacity
import CortexDis.ProfiledPresence
import CortexDis.Profiler
import CortexDis.Proposer
import CortexDis.PushParser
import CortexDis.PyCsv
import CortexDis.PyDecimal
import CortexDis.PyDict
import CortexDis.PyJson
import CortexDis.PyText
import CortexDis.PyValue
import CortexDis.Quarantine
import CortexDis.QuarantineConsole
import CortexDis.QuarantineRouting
import CortexDis.Ratified
import CortexDis.RatifyGate
import CortexDis.Redelivery
import CortexDis.ReportTruth
import CortexDis.RequestScope
import CortexDis.RlsSessions
import CortexDis.RowIndependence
import CortexDis.RowLocks
import CortexDis.RowSecurity
import CortexDis.RulesDocument
import CortexDis.Runs
import CortexDis.SchemaIr
import CortexDis.SilentNull
import CortexDis.SourceSwitch
import CortexDis.Sql
import CortexDis.Stamped
import CortexDis.StoreRefinement
import CortexDis.TemplateScope
import CortexDis.Templates
import CortexDis.Terminal
import CortexDis.Tier0
import CortexDis.Totality
import CortexDis.UploadContract
import CortexDis.UploadParts
import CortexDis.UploadRuns
import CortexDis.UploadStream
import CortexDis.Upsert
import CortexDis.Utf8
import CortexDis.UuidText
import CortexDis.Values
import CortexDis.WireFormat
import CortexDis.WriteChunk
