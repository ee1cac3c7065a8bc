import Sponge.Lib.Fifo
import Sponge.Lib.FirstBest
import Sponge.Lib.Hoare
import Sponge.Lib.MachineInt
import Sponge.Lib.OnesComplement
import Sponge.Lib.Run
import Sponge.Lib.Slices
import Sponge.Lib.SortedMap
import Sponge.Lib.Throwing
import Sponge.ByteStream
import Sponge.ByteStreamFifo
import Sponge.StreamReassembler
import Sponge.Reassembly
import Sponge.WindowRetention
import Sponge.ArrivalOrder
import Sponge.WrappingIntegers
import Sponge.TcpSegment
import Sponge.TcpReceiver
import Sponge.ReceiverAck
import Sponge.BeforeSyn
import Sponge.TcpSender
import Sponge.SenderInvariant
import Sponge.SenderRun
import Sponge.SenderWindow
import Sponge.SenderAck
import Sponge.PrefixSafety
import Sponge.StraySegments
import Sponge.StreamSafety
import Sponge.TcpConnection
import Sponge.FinAck
import Sponge.DeadConnection
import Sponge.Flow
import Sponge.EndToEnd
import Sponge.ConnectionCalls
import Sponge.Retransmission
import Sponge.FillExactly
import Sponge.GivingUp
import Sponge.Lingering
import Sponge.Advertised
import Sponge.HiddenState
import Sponge.Listen
import Sponge.NetParser
import Sponge.SharedBuffer
import Sponge.InternetChecksum
import Sponge.EthernetFrame
import Sponge.ArpMessage
import Sponge.Ipv4Datagram
import Sponge.DatagramParse
import Sponge.TcpWire
import Sponge.SegmentParse
import Sponge.ParserBounds
import Sponge.NetworkInterface
import Sponge.AddressResolution
import Sponge.ResolverPerAddress
import Sponge.ArpExchange
import Sponge.TcpOverIpv4
import Sponge.Router
import Sponge.RouterSafety
import Sponge.LongestPrefix
import Sponge.ForwardOnce
import Sponge.FileDescriptor
import Sponge.EventLoop
import Sponge.StreamCopy
import Sponge.OutgoingSegments
import Sponge.FdAdapter
import Sponge.SpongeSocket
import Sponge.SocketSafety
import Sponge.SocketPair
import Sponge.Forwarding
import Sponge.RoutedNetwork
import Sponge.IpAdapters
import Sponge.EthernetAdapter
import Sponge.IpSockets
import Sponge.Completion
