import Luhmen.Theory.CrashLogic
import Luhmen.Theory.Contract
import Luhmen.Theory.JsonPrint
import Luhmen.Guest.JsonCursor
import Luhmen.Guest.JsonExact
import Luhmen.Guest.JsonValues
import Luhmen.Guest.ConfigEdit
import Luhmen.Guest.JsonStandard
import Luhmen.Guest.InfoResponse
import Luhmen.Host.DockerArgs
import Luhmen.Host.TemplateUpdate
import Luhmen.Guest.Shutdown
import Luhmen.Guest.CrashSafety
import Luhmen.Guest.ShutdownRuns
import Luhmen.Host.UpdateRecovery
import Luhmen.Theory.JsonTokens
import Luhmen.Guest.JsonLocator
import Luhmen.Guest.EditedConfig
import Luhmen.Guest.ExternalEdits
import Luhmen.Guest.NextStop
import Luhmen.Host.Creation
import Luhmen.Host.CreationRetry
import Luhmen.Manager.Request
import Luhmen.Host.MicrovmRequest
import Luhmen.Host.Storage
import Luhmen.Host.StorageTotals
import Luhmen.Host.Gateway
import Luhmen.Host.GatewayForward
import Luhmen.Manager.Record
import Luhmen.Manager.World
import Luhmen.Manager.Script
import Luhmen.Manager.Store
import Luhmen.Manager.Refinement
import Luhmen.Host.DockerPayload
import Luhmen.Host.StorageLog
import Luhmen.Host.RequestAgreement
import Luhmen.Host.GatewayAuthority
import Luhmen.Host.GatewayStream
import Luhmen.Host.GatewayUpload
import Luhmen.Host.Capture
import Luhmen.Host.BuildScript
import Luhmen.Guest.JsonTrace
import Luhmen.Guest.JsonSafety
import Luhmen.Manager.Walk
import Luhmen.Manager.Actions
import Luhmen.Manager.Serve
import Luhmen.Manager.Runs
import Luhmen.Manager.Rehearsal
import Luhmen.Manager.Lifetime
import Luhmen.Manager.Admission
import Luhmen.Host.StartAdmission
import Luhmen.Manager.Attribution
import Luhmen.Manager.Conduct
import Luhmen.Manager.FailedStart
import Luhmen.Theory.Guarded
import Luhmen.Manager.Registration
import Luhmen.Theory.JsonRead
import Luhmen.Theory.JsonRoundTrip
import Luhmen.Theory.JsonRecord
import Luhmen.Host.Settings
import Luhmen.Host.Mounts
import Luhmen.Theory.Quiet
import Luhmen.Host.Startup
import Luhmen.Host.Lifecycle
import Luhmen.Host.LifecycleRuns
import Luhmen.Host.Diagnostics
import Luhmen.Theory.Interleaving
import Luhmen.Host.GatewayIdentity
import Luhmen.Host.GatewayIdentityRuns
import Luhmen.Host.Termination
import Luhmen.Host.TerminationRuns
import Luhmen.Host.GatewayBudget
import Luhmen.Guest.ConfigSignature
import Luhmen.Guest.ConfigSignatureRuns
import Luhmen.Guest.Installation
import Luhmen.Theory.JsonCompact
import Luhmen.Manager.ReplyTexts
import Luhmen.Manager.Replies
import Luhmen.Host.MicrovmReply
