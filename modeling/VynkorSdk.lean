import VynkorSdk.ByteCodec
import VynkorSdk.KeyedTable
import VynkorSdk.Procedure
import VynkorSdk.Crc32
import VynkorSdk.Sha256
import VynkorSdk.WireBase
import VynkorSdk.FrameCodec
import VynkorSdk.StreamIo
import VynkorSdk.FrameCanonical
import VynkorSdk.FrameRoundTrip
import VynkorSdk.Reassembly
import VynkorSdk.ReassemblyInvariant
import VynkorSdk.ReassemblyDelivery
import VynkorSdk.Protocol
import VynkorSdk.Client
import VynkorSdk.ClientDelivery
import VynkorSdk.ClientAuthenticity
import VynkorSdk.ClientReconnect
import VynkorSdk.ConcurrentLoop
import VynkorSdk.ConfirmationGate
import VynkorSdk.GateExecution
import VynkorSdk.LoopReplies
import VynkorSdk.LoopShutdown
import VynkorSdk.BoundedReceives
import VynkorSdk.FrameWait
import VynkorSdk.LoopAgreement
import VynkorSdk.LoopEndings
import VynkorSdk.LoopWakeup
import VynkorSdk.PluginLifecycle
import VynkorSdk.RawBinary
import VynkorSdk.Fragmenting
import VynkorSdk.GateAnswers
import VynkorSdk.GateCaller
import VynkorSdk.GateDenial
import VynkorSdk.PollBudget
import VynkorSdk.WireReadable
import VynkorSdk.ClientMove
import VynkorSdk.LoopParking
import VynkorSdk.MixedStream
import VynkorSdk.Polling
import VynkorSdk.JsonLookup
import VynkorSdk.FrameBursts
import VynkorSdk.WsDecoder
import VynkorSdk.WsRoundTrip
import VynkorSdk.WsSizeLimit
import VynkorSdk.WsText
import VynkorSdk.WsUrlGrammar
import VynkorSdk.WsWholeMessage
import VynkorSdk.FrameAccess
import VynkorSdk.GateProcess
import VynkorSdk.PluginConversation
import VynkorSdk.PrefixCode
import VynkorSdk.WsOutbound
import VynkorSdk.ClientCalls
import VynkorSdk.ClientOutbound
import VynkorSdk.LoopProgress
import VynkorSdk.OutboundSecrets
import VynkorSdk.GateJson
import VynkorSdk.HttpHead
import VynkorSdk.WsHandshake
import VynkorSdk.WsClient
import VynkorSdk.ActionAnswers
