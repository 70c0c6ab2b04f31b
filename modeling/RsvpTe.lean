import RsvpTe.Adjacency
import RsvpTe.Advertised
import RsvpTe.Arming
import RsvpTe.Attributes
import RsvpTe.Blockade
import RsvpTe.Builder
import RsvpTe.BypassRefs
import RsvpTe.BypassStability
import RsvpTe.Chain
import RsvpTe.ChainSetup
import RsvpTe.ChainTeardown
import RsvpTe.Checksum
import RsvpTe.CommandLine
import RsvpTe.Daemon
import RsvpTe.Effects
import RsvpTe.EgressLookup
import RsvpTe.Emission
import RsvpTe.ErrorRelay
import RsvpTe.EventCases
import RsvpTe.EventEffects
import RsvpTe.FailedLink
import RsvpTe.HandlerEffects
import RsvpTe.HeadEnd
import RsvpTe.Hello
import RsvpTe.HelloAdjacency
import RsvpTe.HelloAgreement
import RsvpTe.HelloConfig
import RsvpTe.HelloNetwork
import RsvpTe.InterfaceAgreement
import RsvpTe.Isolation
import RsvpTe.KernelRoutes
import RsvpTe.KeyStability
import RsvpTe.LabelMgr
import RsvpTe.LabelOwnership
import RsvpTe.LabelPool
import RsvpTe.Lib.Binary32
import RsvpTe.Lib.Bitmap
import RsvpTe.Lib.Buffer
import RsvpTe.Lib.Chains
import RsvpTe.Lib.FirstFit
import RsvpTe.Lib.Ledger
import RsvpTe.Lib.Network
import RsvpTe.Lib.OnesComplement
import RsvpTe.Lib.Records
import RsvpTe.Lib.Rings
import RsvpTe.Lib.Scan
import RsvpTe.Lib.Scanf
import RsvpTe.Lib.Slots
import RsvpTe.Lib.Table
import RsvpTe.Lib.Words
import RsvpTe.ListHead
import RsvpTe.LocalAddrs
import RsvpTe.MakeBeforeBreak
import RsvpTe.MbbHandover
import RsvpTe.MbbTeardown
import RsvpTe.MemoryThreads
import RsvpTe.Messages
import RsvpTe.MplsRoutes
import RsvpTe.Netlink
import RsvpTe.Outcomes
import RsvpTe.Parser
import RsvpTe.ParserBounds
import RsvpTe.ParserGrammar
import RsvpTe.PathLoops
import RsvpTe.PathRefresh
import RsvpTe.PathRejection
import RsvpTe.PathRelay
import RsvpTe.ProtectionOrder
import RsvpTe.Protocol
import RsvpTe.PsbRules
import RsvpTe.RefreshTimes
import RsvpTe.ReroutedMessages
import RsvpTe.Rerouting
import RsvpTe.ResvEffects
import RsvpTe.ResvRefresh
import RsvpTe.RevertedLink
import RsvpTe.RoundTrip
import RsvpTe.RouteRelay
import RsvpTe.Senders
import RsvpTe.SentMessages
import RsvpTe.Shutdown
import RsvpTe.ShutdownNotices
import RsvpTe.SignalledLabels
import RsvpTe.SoftState
import RsvpTe.State
import RsvpTe.StateDb
import RsvpTe.StateMachine
import RsvpTe.Switchover
import RsvpTe.SyncDeletion
import RsvpTe.SyncMemory
import RsvpTe.TimerDelivery
import RsvpTe.Timers
import RsvpTe.TransitEntries
import RsvpTe.TransitRuns
import RsvpTe.TspecRelay
import RsvpTe.WheelInvariant
import RsvpTe.WheelMemory
import RsvpTe.WheelRuns
import RsvpTe.WheelThreads
import RsvpTe.WheelTimer
import RsvpTe.Writes
