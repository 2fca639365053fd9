import QuicGo.Lib.Reachable
import QuicGo.Lib.Except
import QuicGo.Lib.List
import QuicGo.Lib.Search
import QuicGo.Protocol.Types
import QuicGo.Wire.Frames
import QuicGo.Streams.IncomingMap
import QuicGo.Streams.IncomingLimit
import QuicGo.Streams.OutgoingMap
import QuicGo.Streams.OutgoingLimit
import QuicGo.Ackhandler.Packet
import QuicGo.Ackhandler.PacketNumberGenerator
import QuicGo.Ackhandler.SentPacketHistory
import QuicGo.Ackhandler.HistoryView
import QuicGo.Ackhandler.HistoryRuns
import QuicGo.Ackhandler.SentPacketHandler
import QuicGo.Ackhandler.LinkInvariant
import QuicGo.Ackhandler.HandlerInv
import QuicGo.Ackhandler.LossDetection
import QuicGo.Ackhandler.AckedPackets
import QuicGo.Ackhandler.HandlerSafety
import QuicGo.Ackhandler.BytesInFlight
import QuicGo.Ackhandler.ReceivedPacketHistory
import QuicGo.Ackhandler.ReceivedPacketTracker
import QuicGo.Ackhandler.AckTiming
import QuicGo.Session.AckHandling
import QuicGo.Flowcontrol.FlowController
import QuicGo.Flowcontrol.SharedConnection
import QuicGo.Flowcontrol.WindowUpdates
import QuicGo.Streams.FrameSorter
import QuicGo.Streams.Gaps
import QuicGo.Streams.Reassembly
import QuicGo.Streams.CryptoStream
import QuicGo.Streams.CryptoStreamManager
import QuicGo.Streams.ReceiveStream
import QuicGo.Protocol.Version
import QuicGo.Protocol.PacketNumber
import QuicGo.Session.VersionNegotiation
import QuicGo.Session.Framer
import QuicGo.Streams.PostHandshakeCryptoStream
import QuicGo.Session.PacketHandlerMap
import QuicGo.Session.PacketPacker
import QuicGo.Session.Retransmission
import QuicGo.Ackhandler.NewlyAcked
import QuicGo.Ackhandler.Probes
import QuicGo.Lib.Codec
import QuicGo.Utils.VarInt
import QuicGo.Wire.AckFrameCodec
import QuicGo.Congestion.RTTStats
import QuicGo.Congestion.CubicSender
import QuicGo.Wire.FrameCodec
import QuicGo.Wire.FrameParser
import QuicGo.Wire.Header
import QuicGo.Wire.VersionNegotiation
import QuicGo.Handshake.TransportParameters
import QuicGo.Handshake.ParametersRoundTrip
import QuicGo.Streams.SendStream
import QuicGo.Session.AckEliciting
