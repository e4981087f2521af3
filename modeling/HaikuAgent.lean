import HaikuAgent.Foundation.Bytes
import HaikuAgent.Model.Util
import HaikuAgent.Model.Mgs
import HaikuAgent.Analysis.MgsFields
import HaikuAgent.Analysis.MgsFraming
import HaikuAgent.Model.Json
import HaikuAgent.Analysis.ShellDeadline
import HaikuAgent.Foundation.RecencyWindow
import HaikuAgent.Foundation.Runs
import HaikuAgent.Model.Runner
import HaikuAgent.Analysis.CommandScripts
import HaikuAgent.Model.Http
import HaikuAgent.Model.Patch
import HaikuAgent.Analysis.PatchCompliance
import HaikuAgent.Model.JsonParse
import HaikuAgent.Model.Commands
import HaikuAgent.Analysis.AgentMoves
import HaikuAgent.Analysis.DedupWindow
import HaikuAgent.Analysis.WorkerTokens
import HaikuAgent.Analysis.TerminalReplies
import HaikuAgent.Foundation.SelfDelimiting
import HaikuAgent.Model.WebSocket
import HaikuAgent.Analysis.WebSocketFrames
import HaikuAgent.Analysis.WebSocketReception
import HaikuAgent.Model.Outbox
import HaikuAgent.Model.Sessions
import HaikuAgent.Analysis.AckedInput
import HaikuAgent.Analysis.ShellPerSession
import HaikuAgent.Analysis.OutboxWindow
import HaikuAgent.Analysis.DeadPeer
import HaikuAgent.Analysis.JsonGrammar
import HaikuAgent.Analysis.JsonRoundTrip
import HaikuAgent.Model.HttpTransfer
import HaikuAgent.Analysis.HttpReading
import HaikuAgent.Interface.HttpMessage
import HaikuAgent.Analysis.HttpBodies
import HaikuAgent.Analysis.HttpDecoding
import HaikuAgent.Analysis.HttpDamage
import HaikuAgent.Foundation.SelfSynchronizing
import HaikuAgent.Foundation.Utf8
import HaikuAgent.Analysis.ReplyText
import HaikuAgent.Analysis.ReplyEncoding
import HaikuAgent.Analysis.RunAsCommand
import HaikuAgent.Analysis.StepAccounting
import HaikuAgent.Analysis.BinarySwap
import HaikuAgent.Analysis.StartRefusals
import HaikuAgent.Analysis.WebSocketRefusals
import HaikuAgent.Foundation.PercentEncoding
import HaikuAgent.Interface.HttpRequest
import HaikuAgent.Model.Signing
import HaikuAgent.Interface.SigV4
import HaikuAgent.Analysis.SignedRequests
import HaikuAgent.Analysis.ChannelRequests
import HaikuAgent.Analysis.SessionPasses
import HaikuAgent.Analysis.OrderedInput
import HaikuAgent.Foundation.SendWindow
import HaikuAgent.Analysis.StreamRelease
import HaikuAgent.Analysis.PassesEnd
import HaikuAgent.Analysis.ShutdownDrain
import HaikuAgent.Analysis.ReplySteps
import HaikuAgent.Analysis.RuntimeConfig
import HaikuAgent.Analysis.Placeholders
import HaikuAgent.Analysis.PlaceholderTexts
import HaikuAgent.Analysis.OutputTruncation
import HaikuAgent.Analysis.StreamClips
import HaikuAgent.Analysis.ReplyLimits
import HaikuAgent.Analysis.EscapeOrder
import HaikuAgent.Analysis.UpdateListing
import HaikuAgent.Analysis.TransactionLines
import HaikuAgent.Analysis.VersionOrder
import HaikuAgent.Foundation.Calendar
import HaikuAgent.Model.CredentialProvider
import HaikuAgent.Analysis.CredentialCache
import HaikuAgent.Analysis.FrameCodec
import HaikuAgent.Analysis.SignalEscalation
import HaikuAgent.Analysis.OutputStreams
import HaikuAgent.Analysis.CivilDays
import HaikuAgent.Analysis.TimeRoundTrip
import HaikuAgent.Foundation.Reassembly
import HaikuAgent.Model.Uuid
import HaikuAgent.Analysis.SessionMoves
import HaikuAgent.Model.SessionChannel
import HaikuAgent.Analysis.OutputDelivery
import HaikuAgent.Analysis.SessionStory
import HaikuAgent.Model.Metadata
import HaikuAgent.Analysis.TokenAge
import HaikuAgent.Model.S3
import HaikuAgent.Analysis.TransferRetries
import HaikuAgent.Model.PollLoop
import HaikuAgent.Analysis.OrdersDelivered
import HaikuAgent.Model.UpdateFetch
import HaikuAgent.Analysis.UpdateProvenance
import HaikuAgent.Analysis.PollRecovery
import HaikuAgent.Model.HttpSend
import HaikuAgent.Interface.ObjectService
import HaikuAgent.Analysis.StoredObjects
import HaikuAgent.Analysis.WrittenFrames
import HaikuAgent.Analysis.ReportedOutputs
import HaikuAgent.Analysis.ChannelInput
import HaikuAgent.Analysis.ChannelOutput
import HaikuAgent.Model.ControlConnection
import HaikuAgent.Analysis.SessionsStarted
