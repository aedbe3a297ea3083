import BypassVpn.Config
import BypassVpn.ConfigManager
import BypassVpn.Packet.Wire
import BypassVpn.Packet.Checksum
import BypassVpn.Packet.ChecksumLaws
import BypassVpn.Packet.Dns
import BypassVpn.Packet.Processor
import BypassVpn.Packet.Outcomes
import BypassVpn.Packet.Split
import BypassVpn.Packet.SequenceSpace
import BypassVpn.Packet.DnsAnswer
import BypassVpn.Lib.DnsMessage
import BypassVpn.Packet.DnsRoundTrip
import BypassVpn.Packet.Question
import BypassVpn.Lib.Transition
import BypassVpn.Lib.Utf8
import BypassVpn.Lib.Regex
import BypassVpn.Service.Handshake
import BypassVpn.Service.Routing
import BypassVpn.Service.Monitor
import BypassVpn.Native.Engine
import BypassVpn.Service.Model
import BypassVpn.Service.Parts
import BypassVpn.Service.StopFinal
import BypassVpn.Service.Reader
import BypassVpn.Tun2socks.Udp
import BypassVpn.Packet.Doh
import BypassVpn.Packet.DohCache
import BypassVpn.Packet.Passthrough
import BypassVpn.Service.HandleClient
import BypassVpn.Service.ProtectServer
import BypassVpn.Service.EngineStart
import BypassVpn.Native.Join
import BypassVpn.Service.SessionEnd
import BypassVpn.Tun2socks.Bridge
import BypassVpn.Tun2socks.BridgeFds
import BypassVpn.Tun2socks.Teardown
import BypassVpn.Service.PacketLoop
import BypassVpn.Service.Asked
import BypassVpn.Service.AskedRun
import BypassVpn.Lib.FileSystem
import BypassVpn.CrashLog.Native
import BypassVpn.CrashLog.Checkpoint
import BypassVpn.CrashLog.Chain
import BypassVpn.Ciadpi.Params
import BypassVpn.Ciadpi.Positions
import BypassVpn.Ciadpi.Udp
import BypassVpn.Ciadpi.Packets
import BypassVpn.Ciadpi.Desync
import BypassVpn.Lib.Intervals
import BypassVpn.Lib.JsonText
import BypassVpn.Lib.Search
import BypassVpn.Lib.SearchTree
import BypassVpn.Lib.Prefixes
import BypassVpn.Ciadpi.PartLoop
import BypassVpn.Ciadpi.Offset
import BypassVpn.Ciadpi.Decoy
import BypassVpn.Ciadpi.Hello
import BypassVpn.Ciadpi.RealCut
import BypassVpn.Profile.HttpBody
import BypassVpn.Profile.ChunkedBody
import BypassVpn.Profile.JsonProfile
import BypassVpn.Profile.Preset
import BypassVpn.Lib.DoublyLinked
import BypassVpn.Ciadpi.Mpool
import BypassVpn.Ciadpi.Address
import BypassVpn.Ciadpi.AddrCache
import BypassVpn.Ciadpi.Conev
import BypassVpn.Ciadpi.Connections
import BypassVpn.Ciadpi.EventLoop
import BypassVpn.Tun2socks.BSocksClient
import BypassVpn.Ciadpi.Request
import BypassVpn.Tun2socks.SocksSession
import BypassVpn.Tun2socks.SocksSessionRuns
import BypassVpn.Tun2socks.UdpDevice
import BypassVpn.Tun2socks.SocksUdpClient
import BypassVpn.Ciadpi.UdpTunnel
import BypassVpn.Tun2socks.UdpRelay
import BypassVpn.Tun2socks.TcpRelay
import BypassVpn.Tun2socks.TcpRelayRuns
import BypassVpn.Tun2socks.TcpRelayCounts
