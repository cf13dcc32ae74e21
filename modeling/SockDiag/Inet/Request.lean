import SockDiag.Inet.SocketId

/-!
# `inet/request.rs` — the query for IPv4 and IPv6 sockets

What a program sends to ask for sockets of the internet families: a family and a protocol, a mask of
the states a socket may be in, a mask of what is to be reported of it besides, and the id of a
single socket, which a query for many leaves at its wildcard. It is 56 bytes on the wire, the last
48 of them the id of `SockDiag.Inet.SocketId`.

The two masks are `bitflags`. The type lets a mask hold bits that are no flag, `all` does not have
them, and the decoder drops them: that is the one thing a request can lose on the way, apart from an
address that is not of its family.

The module has the code and what follows at once from it: the decoder returns (`parse_returns`), and
`emit` is a single `copy_from_slice` into the whole buffer (`emit_eq`). That the two are inverse
otherwise is `requests_inverse` in `SockDiag.RequestCodecs`; what comes of the whole buffer is
`bigEnough_iff` in `SockDiag.Buffer`; and what the decoder of *messages* makes of a request, which
it takes for a response, is `request_decodes_iff` in `SockDiag.Requests`.
-/

set_option autoImplicit false

namespace SockDiag.Inet

open Rust

structure InetRequestBuffer where
  family : UInt8
  protocol : UInt8
  extensions : UInt8
  pad : UInt8
  states : UInt32
  socketId : Vector UInt8 48

def InetRequestBuffer.layout (o : ByteOrder) : Packed InetRequestBuffer :=
  Packed.iso
    (.pair .u8 <| .pair .u8 <| .pair .u8 <| .pair .u8 <| .pair (.u32 o) (.bytes 48))
    { toFun := fun r => (r.family, r.protocol, r.extensions, r.pad, r.states, r.socketId)
      invFun := fun (family, protocol, extensions, pad, states, socketId) =>
        ⟨family, protocol, extensions, pad, states, socketId⟩
      left_inv := fun _ => rfl
      right_inv := fun _ => rfl }

@[simp] theorem InetRequestBuffer.size_layout (o : ByteOrder) :
    (InetRequestBuffer.layout o).size = 56 := rfl

/-! ## Flags -/

/-- A filter of TCP socket states. The bits may hold flags that are not in `all`. -/
structure StateFlags where
  bits : UInt32
deriving DecidableEq, Repr

def StateFlags.all : StateFlags :=
  ⟨1 <<< tcpEstablished.toUInt32 ||| 1 <<< tcpSynSent.toUInt32 ||| 1 <<< tcpSynRecv.toUInt32 |||
    1 <<< tcpFinWait1.toUInt32 ||| 1 <<< tcpFinWait2.toUInt32 ||| 1 <<< tcpTimeWait.toUInt32 |||
    1 <<< tcpClose.toUInt32 ||| 1 <<< tcpCloseWait.toUInt32 ||| 1 <<< tcpLastAck.toUInt32 |||
    1 <<< tcpListen.toUInt32 ||| 1 <<< tcpClosing.toUInt32⟩

/-- What kind of extended information to report. -/
structure ExtensionFlags where
  bits : UInt8
deriving DecidableEq, Repr

def ExtensionFlags.all : ExtensionFlags :=
  ⟨1 <<< (inetDiagMeminfo - 1).toUInt8 ||| 1 <<< (inetDiagInfo - 1).toUInt8 |||
    1 <<< (inetDiagVegasinfo - 1).toUInt8 ||| 1 <<< (inetDiagCong - 1).toUInt8 |||
    1 <<< (inetDiagTos - 1).toUInt8 ||| 1 <<< (inetDiagTclass - 1).toUInt8 |||
    1 <<< (inetDiagSkmeminfo - 1).toUInt8 ||| 1 <<< (inetDiagShutdown - 1).toUInt8⟩

/-! ## The request -/

/-- A request for IPv4 and IPv6 sockets. -/
structure InetRequest where
  /-- `AF_INET` or `AF_INET6`. -/
  family : UInt8
  protocol : UInt8
  extensions : ExtensionFlags
  states : StateFlags
  socketId : SocketId
deriving DecidableEq, Repr

section Code

variable (P : Platform)

/-- `impl Parseable<[u8]> for InetRequest` -/
def InetRequest.parse (payload : Bytes) : Outcome P.DecodeError InetRequest := do
  let raw ← P.readPrefix (InetRequestBuffer.layout P.order) payload
  let socketId ← (SocketId.parseWithParam P raw.socketId.toList raw.family).mapErr
    (P.context "invalid socket_id value")
  .ok
    { family := raw.family
      protocol := raw.protocol
      extensions := ⟨P.fromBitsTruncate ExtensionFlags.all.bits raw.extensions⟩
      states := ⟨P.fromBitsTruncate StateFlags.all.bits raw.states⟩
      socketId }

/-- `impl From<&InetRequest> for InetRequestBuffer` -/
def InetRequestBuffer.fromInetRequest (value : InetRequest) : InetRequestBuffer where
  family := value.family
  protocol := value.protocol
  extensions := value.extensions.bits
  pad := 0
  states := value.states.bits
  socketId := P.asBytes (SocketIdBuffer.layout P.order) (.fromSocketId P.order value.socketId)

def InetRequest.bufferLen (_ : InetRequest) : Nat := (InetRequestBuffer.layout P.order).size

/-- `impl Emitable for InetRequest`: the whole buffer is copied into, not a part of it. -/
def InetRequest.emit (r : InetRequest) : Writer Empty :=
  .copyFromSlice
    (P.asBytes (InetRequestBuffer.layout P.order) (.fromInetRequest P r)).toList

/-- The 56 bytes of a request. -/
def InetRequest.bytes (r : InetRequest) : Bytes :=
  (InetRequestBuffer.layout P.order).toBytes (.fromInetRequest P r)

theorem InetRequest.parse_returns (payload : Bytes) : (InetRequest.parse P payload).Returns := by
  unfold InetRequest.parse
  refine P.readPrefix_returns.bind fun raw _ => ?_
  refine (Outcome.returns_mapErr.mpr (SocketId.parseWithParam_returns P _)).bind fun _ _ => ?_
  exact Outcome.returns_ok _

variable (r : InetRequest)

@[simp] theorem InetRequest.length_bytes : (r.bytes P).length = 56 :=
  (InetRequestBuffer.layout P.order).length_toBytes _

theorem InetRequest.head?_bytes : (r.bytes P).head? = some r.family := rfl

theorem InetRequest.emit_eq [P.Lawful] : r.emit P = .copyFromSlice (r.bytes P) := by
  unfold emit bytes
  rw [P.toList_asBytes]

end Code

end SockDiag.Inet
