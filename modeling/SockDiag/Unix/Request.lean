import SockDiag.Constants
import SockDiag.Platform

/-!
# `unix/request.rs` — the query for unix sockets

What a program sends to ask for unix sockets: a mask of states, a mask of what is to be reported,
and the inode and the cookie of a single socket, which a query for many does not use. It is 24 bytes
on the wire. Family, protocol and padding are written as constants and read by nobody, so a request
decodes from bytes that are of any family.

There is nothing in it that can fail but its length: `parse` is the struct off the front of the
bytes and two masks cut down to their flags. Both this and `emit`, one `copy_from_slice` into the
whole buffer (`emit_eq`), are the code of `SockDiag.Inet.Request` over another struct, and the
results about the two are proved together: `requests_inverse`, `bigEnough_iff`,
`request_decodes_iff`. The last is where they differ. An inet request is too short to be taken for a
response; this one is a response header, and its last eight bytes, the cookie, may spell an
attribute.
-/

set_option autoImplicit false

namespace SockDiag.Unix

open Rust

structure UnixRequestBuffer where
  family : UInt8
  protocol : UInt8
  pad : UInt16
  stateFlags : UInt32
  inode : UInt32
  showFlags : UInt32
  cookie : Vector UInt8 8

def UnixRequestBuffer.layout (o : ByteOrder) : Packed UnixRequestBuffer :=
  Packed.iso
    (.pair .u8 <| .pair .u8 <| .pair (.u16 o) <| .pair (.u32 o) <| .pair (.u32 o) <|
      .pair (.u32 o) (.bytes 8))
    { toFun := fun r => (r.family, r.protocol, r.pad, r.stateFlags, r.inode, r.showFlags, r.cookie)
      invFun := fun (family, protocol, pad, stateFlags, inode, showFlags, cookie) =>
        ⟨family, protocol, pad, stateFlags, inode, showFlags, cookie⟩
      left_inv := fun _ => rfl
      right_inv := fun _ => rfl }

@[simp] theorem UnixRequestBuffer.size_layout (o : ByteOrder) :
    (UnixRequestBuffer.layout o).size = 24 := rfl

/-- A filter of unix socket states. The bits may hold flags that are not in `all`. -/
structure StateFlags where
  bits : UInt32
deriving DecidableEq, Repr

def StateFlags.all : StateFlags :=
  ⟨1 <<< tcpEstablished.toUInt32 ||| 1 <<< tcpListen.toUInt32⟩

/-- What kind of information to report. -/
structure ShowFlags where
  bits : UInt32
deriving DecidableEq, Repr

def ShowFlags.all : ShowFlags :=
  ⟨udiagShowName ||| udiagShowVfs ||| udiagShowPeer ||| udiagShowIcons ||| udiagShowRqlen |||
    udiagShowMeminfo⟩

/-- The request for unix sockets. -/
structure UnixRequest where
  stateFlags : StateFlags
  /-- The inode of an individual socket; ignored in a query for a list. -/
  inode : UInt32
  showFlags : ShowFlags
  /-- Opaque, to specify an individual socket. -/
  cookie : Vector UInt8 8
deriving DecidableEq, Repr

section Code

variable (P : Platform)

/-- `impl Parseable<[u8]> for UnixRequest` -/
def UnixRequest.parse (payload : Bytes) : Outcome P.DecodeError UnixRequest := do
  let raw ← P.readPrefix (UnixRequestBuffer.layout P.order) payload
  .ok
    { stateFlags := ⟨P.fromBitsTruncate StateFlags.all.bits raw.stateFlags⟩
      inode := raw.inode
      showFlags := ⟨P.fromBitsTruncate ShowFlags.all.bits raw.showFlags⟩
      cookie := raw.cookie }

/-- `impl From<&UnixRequest> for UnixRequestBuffer` -/
def UnixRequestBuffer.fromUnixRequest (value : UnixRequest) : UnixRequestBuffer where
  family := afUnix
  protocol := 0
  pad := 0
  stateFlags := value.stateFlags.bits
  inode := value.inode
  showFlags := value.showFlags.bits
  cookie := value.cookie

def UnixRequest.bufferLen (_ : UnixRequest) : Nat := (UnixRequestBuffer.layout P.order).size

/-- `impl Emitable for UnixRequest`: the whole buffer is copied into, not a part of it. -/
def UnixRequest.emit (r : UnixRequest) : Writer Empty :=
  .copyFromSlice (P.asBytes (UnixRequestBuffer.layout P.order) (.fromUnixRequest r)).toList

/-- The 24 bytes of a request. -/
def UnixRequest.bytes (o : ByteOrder) (r : UnixRequest) : Bytes :=
  (UnixRequestBuffer.layout o).toBytes (.fromUnixRequest r)

theorem UnixRequest.parse_returns (payload : Bytes) : (UnixRequest.parse P payload).Returns :=
  P.readPrefix_map_returns _

variable (r : UnixRequest)

@[simp] theorem UnixRequest.length_bytes (o : ByteOrder) : (r.bytes o).length = 24 :=
  (UnixRequestBuffer.layout o).length_toBytes _

theorem UnixRequest.head?_bytes (o : ByteOrder) : (r.bytes o).head? = some afUnix := rfl

theorem UnixRequest.emit_eq [P.Lawful] : r.emit P = .copyFromSlice (r.bytes P.order) := by
  unfold emit bytes
  rw [P.toList_asBytes]

end Code

end SockDiag.Unix
