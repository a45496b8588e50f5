import UhfGateway.Effects.Program
import UhfGateway.Effects.Layer
import UhfGateway.Effects.Lock
import UhfGateway.Effects.Trace
import UhfGateway.Effects.Interleave
import UhfGateway.Effects.Outbox
import UhfGateway.Domain.Bytes
import UhfGateway.Domain.Modbus
import UhfGateway.Domain.Snapshot
import UhfGateway.Acquisition.SnapshotStore
import UhfGateway.Acquisition.Poll
import UhfGateway.Acquisition.Exchange
import UhfGateway.Acquisition.AllOrNothing
import UhfGateway.Acquisition.Requests
import UhfGateway.Acquisition.SerialLine
import UhfGateway.Modbus.Servers
import UhfGateway.Modbus.Agreement
import UhfGateway.Modbus.Mirror
import UhfGateway.Network.Config
import UhfGateway.Network.FlatJson
import UhfGateway.Network.Transaction
import UhfGateway.Network.CrashSafety
import UhfGateway.Network.AppliedConfirm
import UhfGateway.Network.RollbackWindow
import UhfGateway.Network.LinuxBackend
import UhfGateway.Network.BackendFiles
import UhfGateway.Network.TwoActors
import UhfGateway.Storage.EventFile
import UhfGateway.Storage.EventStore
import UhfGateway.Storage.EventReaders
import UhfGateway.Web.Telemetry
import UhfGateway.Web.WebSocket
import UhfGateway.Web.Framing
import UhfGateway.Modbus.RtuLine
import UhfGateway.Storage.EventRoundTrip
import UhfGateway.Storage.EventDetector
import UhfGateway.Storage.DetectorRuns
import UhfGateway.Storage.DetectedBundles
import UhfGateway.Effects.Transition
import UhfGateway.Iec61850.Alarm
import UhfGateway.Web.HttpRequest
import UhfGateway.Containers.Table
import UhfGateway.Web.HttpServer
import UhfGateway.Web.Routes
import UhfGateway.Web.Served
import UhfGateway.Web.Gating
import UhfGateway.Web.AuthStore
import UhfGateway.Web.Visits
import UhfGateway.Web.SessionLifetime
import UhfGateway.Web.LoginLimiter
import UhfGateway.Posix.Paths
import UhfGateway.Web.StaticFiles
import UhfGateway.Acquisition.BusDiscipline
import UhfGateway.Acquisition.StoreHistory
import UhfGateway.Containers.Drain
import UhfGateway.Storage.CleanerRuns
import UhfGateway.Storage.OldestFirst
import UhfGateway.Storage.Retention
import UhfGateway.Config.Values
import UhfGateway.Config.FlatJsonParser
import UhfGateway.Config.Codec
import UhfGateway.Effects.Monitor
import UhfGateway.Posix.Disk
import UhfGateway.Storage.FileEffects
import UhfGateway.Config.ConfigStore
import UhfGateway.Config.ConfigRuns
import UhfGateway.Config.OptimisticUpdates
import UhfGateway.Storage.PersistenceWorker
import UhfGateway.Storage.Hysteresis
import UhfGateway.Iec61850.SclModel
import UhfGateway.Web.StateFiles
import UhfGateway.Web.IcdStore
import UhfGateway.Web.IcdCrashes
import UhfGateway.Effects.Mutex
import UhfGateway.Ftp.Server
import UhfGateway.Web.IcdRejection
import UhfGateway.Effects.Notes
import UhfGateway.Storage.WorkerAccounts
import UhfGateway.Network.ConfigText
import UhfGateway.Containers.Selection
import UhfGateway.Network.Candidates
import UhfGateway.Config.Documents
import UhfGateway.Config.Completeness
import UhfGateway.Network.ConfigSources
import UhfGateway.Network.Journal
import UhfGateway.Network.DamagedJournal
import UhfGateway.Domain.DataTable
import UhfGateway.Storage.TriggerRule
import UhfGateway.Acquisition.Classification
import UhfGateway.Web.EventExport
import UhfGateway.Containers.Pieces
import UhfGateway.Web.Packetisation
import UhfGateway.Web.JsonFields
import UhfGateway.Web.PasswordRuns
import UhfGateway.Ftp.Access
import UhfGateway.Ftp.Quota
import UhfGateway.Ftp.Uploads
import UhfGateway.Config.VersionReaders
import UhfGateway.Network.JournalOrder
import UhfGateway.Storage.FileTimes
import UhfGateway.Storage.FrameFile
import UhfGateway.Storage.Watermarks
import UhfGateway.Codes.ShiftRegister
import UhfGateway.Storage.Checksums
import UhfGateway.Iec61850.Entities
import UhfGateway.Iec61850.Markup
import UhfGateway.Iec61850.EmptyElements
import UhfGateway.Iec61850.ApprovedModel
import UhfGateway.Web.Base64
import UhfGateway.Network.LeaseFile
import UhfGateway.Network.VendorFile
import UhfGateway.Web.PeerFrames
import UhfGateway.Logging.Logger
import UhfGateway.Logging.Throttling
import UhfGateway.Effects.RelyGuarantee
import UhfGateway.Privileged.Messages
import UhfGateway.Privileged.UnixSocket
import UhfGateway.Privileged.Streams
import UhfGateway.Privileged.Serving
import UhfGateway.Privileged.Conversations
import UhfGateway.Privileged.Maintenance
import UhfGateway.Privileged.NetworkService
import UhfGateway.Privileged.ClientCalls
import UhfGateway.Privileged.ServiceRuns
import UhfGateway.Iec61850.Server
import UhfGateway.Iec61850.Publication
import UhfGateway.Posix.Processes
import UhfGateway.Network.DhcpClient
import UhfGateway.Acquisition.Loopback
import UhfGateway.Containers.Changes
import UhfGateway.Logging.Outages
import UhfGateway.App.PollLoop
import UhfGateway.Web.TlsContext
