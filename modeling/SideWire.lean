import SideWire.Base.TransitionSystem
import SideWire.Base.CreditWindow
import SideWire.Base.ByteString
import SideWire.Base.ByteLink
import SideWire.Base.ByteEmission
import SideWire.FlowControl
import SideWire.PushTransfer
import SideWire.PushInvariants
import SideWire.PushCalm
import SideWire.PushCredit
import SideWire.PushRuns
import SideWire.PushFailure
import SideWire.PullTransfer
import SideWire.PullInvariants
import SideWire.PullCredit
import SideWire.PullRuns
import SideWire.FileTransfer
import SideWire.FrameCodec
import SideWire.PairingStore
import SideWire.RecordLayer
import SideWire.RecordSequences
import SideWire.FrameTransport
import SideWire.Security
import SideWire.ProxyTunnel
import SideWire.SecurityHandshake
import SideWire.SessionHandshake
import SideWire.SessionAgreement
import SideWire.HonestSession
import SideWire.SharedWriter
import SideWire.WriterIntegrity
import SideWire.StreamRoutes
import SideWire.StreamDelivery
import SideWire.StreamIsolation
import SideWire.PtySession
import SideWire.RefusedFrame
import SideWire.DaemonServe
import SideWire.DaemonBookkeeping
import SideWire.DaemonTeardown
import SideWire.DaemonProxies
import SideWire.ClearHandshake
import SideWire.NegotiatedSession
import SideWire.Base.TaskPool
import SideWire.PairingListener
import SideWire.PairingAttempts
import SideWire.PairingExchange
import SideWire.PairingAgreement
import SideWire.DeviceRegistry
import SideWire.ClipboardExchange
import SideWire.PushFidelity
import SideWire.PullFidelity
import SideWire.FileFidelity
import SideWire.FrameBytes
import SideWire.RecordReassembly
import SideWire.DeviceSelection
import SideWire.Base.SequenceCode
import SideWire.Base.Utf8
import SideWire.ConsoleOutput
import SideWire.TrustStoreUpdates
import SideWire.OutboundReconnect
import SideWire.NoiseTunnel
import SideWire.StreamClosing
import SideWire.StreamIds
import SideWire.Base.Wakeup
import SideWire.CreditWait
import SideWire.StreamCreditWait
import SideWire.StreamSends
import SideWire.RefusedSends
import SideWire.Base.SlidingWindow
import SideWire.PairingRate
import SideWire.PairingRecords
import SideWire.TransferPaths
import SideWire.RootContainment
import SideWire.Base.ShellWords
import SideWire.ShellQuoting
import SideWire.PromptTail
import SideWire.PromptFraming
import SideWire.Base.CommonStart
import SideWire.Base.SizedText
import SideWire.PtyCompletion
import SideWire.PinRegeneration
import SideWire.ProcessCancellation
import SideWire.Base.Batching
import SideWire.HexTexts
import SideWire.RemoteDirs
import SideWire.Base.ColumnLayout
import SideWire.CompletionListing
import SideWire.Base.ShortWrites
import SideWire.PartialWrites
import SideWire.Base.Transcript
import SideWire.RecordProgress
import SideWire.TerminalInput
import SideWire.Base.OrderedChannel
import SideWire.ExecOutput
import SideWire.ExecStream
import SideWire.ExecProgress
import SideWire.PtyRelay
import SideWire.Base.Exploration
import SideWire.Base.JobPool
import SideWire.PushTree
import SideWire.RecursivePush
import SideWire.RecursivePull
import SideWire.Discovery
import SideWire.DiscoveredDevices
import SideWire.Base.TimedCache
import SideWire.CompletionCache
import SideWire.DaemonConfig
import SideWire.LineClient
import SideWire.Heartbeat
import SideWire.PairedPage
