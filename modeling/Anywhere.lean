import Anywhere.Lib.Machine
import Anywhere.Lib.Framing
import Anywhere.Lib.Format
import Anywhere.Lib.Http2
import Anywhere.Lib.Hpack
import Anywhere.Lib.Linked
import Anywhere.Lib.Text
import Anywhere.Lib.Recency
import Anywhere.Lib.PrefixMap
import Anywhere.Lib.Transducer
import Anywhere.Lib.Effects
import Anywhere.Lib.Buckets
import Anywhere.Lib.Utf8
import Anywhere.Lib.ExactReader
import Anywhere.Lib.Aead
import Anywhere.Lib.Registry
import Anywhere.Lib.WriteQueue
import Anywhere.Lib.Json
import Anywhere.Lib.PrefixCode
import Anywhere.Lib.Ranges
import Anywhere.Config
import Anywhere.Tcp.ByteBuffer
import Anywhere.Tcp.Connection
import Anywhere.Tcp.Actions
import Anywhere.Tcp.Runs
import Anywhere.Tcp.Downlink
import Anywhere.Tcp.Window
import Anywhere.Tcp.Pcb
import Anywhere.Tcp.Uplink
import Anywhere.Tcp.Close
import Anywhere.Tls.Wire
import Anywhere.Tls.Certificate
import Anywhere.Tls.Handshake13
import Anywhere.Tls.Handshake12
import Anywhere.Tls.Client
import Anywhere.Tls.Versions
import Anywhere.Tls.Hello
import Anywhere.Tls.ClientHelloBuilder
import Anywhere.Tls.ClientHelloSniffer
import Anywhere.Tls.SnifferCursor
import Anywhere.Tls.SnifferGrammar
import Anywhere.Tls.BuiltHello
import Anywhere.Tls.HelloRecord
import Anywhere.Tls.Fragments
import Anywhere.Tls.Boundaries
import Anywhere.Tls.Boundaries12
import Anywhere.Tls.RecordConnection
import Anywhere.Tls.RecordCipher
import Anywhere.Tls.InnerContent
import Anywhere.Tls.RecordWriter
import Anywhere.Tls.SendLock
import Anywhere.Reality.Certificate
import Anywhere.Reality.Client
import Anywhere.Reality.EndOfStream
import Anywhere.Reality.Boundaries
import Anywhere.Handshakes
import Anywhere.Tls.Completion
import Anywhere.FakeIp.Address
import Anywhere.FakeIp.Pool
import Anywhere.FakeIp.History
import Anywhere.Router.Tries
import Anywhere.Router.DomainRouter
import Anywhere.Router.Matching
import Anywhere.Router.RuleSetRepository
import Anywhere.Router.Priority
import Anywhere.Router.Keywords
import Anywhere.Stack.Restart
import Anywhere.Stack.UdpFlows
import Anywhere.Stack.UdpCapture
import Anywhere.Stack.DnsQuery
import Anywhere.Stack.PortUnreachable
import Anywhere.Vless.UdpFraming
import Anywhere.Vless.Vision
import Anywhere.Vless.Unpadding
import Anywhere.Vless.Downlink
import Anywhere.Vless.Detection
import Anywhere.Vless.Uplink
import Anywhere.Vless.HandOver
import Anywhere.Vless.Client
import Anywhere.Vless.Protection
import Anywhere.Vless.Sockets
import Anywhere.Shadowsocks.Protocol
import Anywhere.Shadowsocks.UdpSession
import Anywhere.Shadowsocks.Replies
import Anywhere.Shadowsocks.Aead
import Anywhere.Shadowsocks.Request2022
import Anywhere.Mux.Frame
import Anywhere.Mux.Parser
import Anywhere.Mux.Client
import Anywhere.Mux.Session
import Anywhere.Net.NioSocket
import Anywhere.Net.Inet
import Anywhere.Shadowsocks.Header
import Anywhere.Shadowsocks.Isolation
import Anywhere.Trojan.Protocol
import Anywhere.Trojan.UdpConnection
import Anywhere.Socks5.Handshake
import Anywhere.Net.Destinations
import Anywhere.WebSocket.Frame
import Anywhere.WebSocket.Connection
import Anywhere.WebSocket.Delivery
import Anywhere.Vless.ResponseHeader
import Anywhere.WebSocket.Lengths
import Anywhere.HttpUpgrade.Connection
import Anywhere.Naive.Session
import Anywhere.Naive.Locality
import Anywhere.Naive.Downlink
import Anywhere.Naive.Waiters
import Anywhere.Naive.Drain
import Anywhere.Naive.FlowControl
import Anywhere.Naive.Credit
import Anywhere.Naive.Framer
import Anywhere.Naive.Padding
import Anywhere.Naive.Huffman
import Anywhere.Naive.Hpack
import Anywhere.Naive.HpackRange
import Anywhere.Naive.HpackEncoder
import Anywhere.Naive.HeaderSync
import Anywhere.Grpc.Message
import Anywhere.Grpc.Tunnel
import Anywhere.Grpc.Huffman
import Anywhere.Grpc.Hpack
import Anywhere.Grpc.Termination
import Anywhere.Http2.Sending
import Anywhere.Http2.WakeUps
import Anywhere.Http2.Ledger
import Anywhere.Http2.Windows
import Anywhere.Tls.RecordCopies
import Anywhere.Tls.HelloCursor
import Anywhere.Xhttp.PacketUp
import Anywhere.Xhttp.Posts
import Anywhere.Xhttp.PostSize
import Anywhere.Xhttp.Chunked
import Anywhere.Yaml.Bridge
import Anywhere.Lib.PercentCoding
import Anywhere.Lib.Base64
import Anywhere.Lib.ArrayReads
import Anywhere.Lib.OnesComplement
import Anywhere.Lib.Dns
import Anywhere.Link.Configuration
import Anywhere.Link.Url
import Anywhere.Link.Credentials
import Anywhere.Link.Encodings
import Anywhere.Link.Vless
import Anywhere.Link.ShareLink
import Anywhere.Link.ExtraJson
import Anywhere.Reality.KeyShare
import Anywhere.Reality.ClientHello
import Anywhere.Shadowsocks.ResponseStream
import Anywhere.Shadowsocks.Parts2022
import Anywhere.Shadowsocks.UdpRequest2022
import Anywhere.Shadowsocks.UdpReply2022
import Anywhere.Net.DnsCache
import Anywhere.Trojan.Connection
import Anywhere.Socks5.Udp
import Anywhere.Naive.Http11
