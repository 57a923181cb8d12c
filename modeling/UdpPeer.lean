import UdpPeer.Packet.Wire
import UdpPeer.Packet.Crc
import UdpPeer.Packet.AppPacket
import UdpPeer.Packet.Codec
import UdpPeer.Packet.Monitor
import UdpPeer.Stats.LatencyStats
import UdpPeer.Thread.RingBuffer
import UdpPeer.Thread.TxPath
import UdpPeer.App.Shutdown
import UdpPeer.Packet.Contract
import UdpPeer.Packet.CrcPolynomial
import UdpPeer.Thread.RxPath
import UdpPeer.Thread.TxProgress
import UdpPeer.Stats.Percentile
import UdpPeer.App.ArgParser
import UdpPeer.App.ArgGrammar
import UdpPeer.App.Link
import UdpPeer.Event.EventLoop
import UdpPeer.Socket.UdpNode
import UdpPeer.Thread.Lifecycle
import UdpPeer.Timer.TimerHandle
import UdpPeer.App.Main
import UdpPeer.App.LinkProgress
import UdpPeer.App.Pacing
