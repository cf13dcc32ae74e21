import SockDiag.Platform.Reference
import SockDiag.Inet.SocketId
import SockDiag.Inet.Codec
import SockDiag.Response
import SockDiag.Inet.Request
import SockDiag.Inet.Response
import SockDiag.Unix.Nlas
import SockDiag.Unix.Codec
import SockDiag.Unix.Request
import SockDiag.Unix.Response
import SockDiag.Message
import SockDiag.Grammar
import SockDiag.Totality
import SockDiag.RoundTrip
import SockDiag.Requests
import SockDiag.Canonical
import SockDiag.Buffer
import SockDiag.Truncation
import SockDiag.Unknown
import SockDiag.RichNlas
import SockDiag.Memory
import SockDiag.RequestCodecs
import SockDiag.NetworkOrder
import SockDiag.Compose
import SockDiag.Faults
import SockDiag.Sizes
import SockDiag.SocketNames
import SockDiag.Netlink.Reference
import SockDiag.Machine.Mailbox
import SockDiag.Dump.Client
import SockDiag.Dump.Datagram
import SockDiag.Envelope
import SockDiag.Dump.Delivery
import SockDiag.Dump.Service
import SockDiag.Dump.Builds
import SockDiag.Dump.Relay
