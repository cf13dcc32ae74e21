import SockDiag.Response
import SockDiag.Unix.Codec

/-!
# `unix/response.rs` — one unix socket

What the kernel reports of a socket: sixteen bytes of header and a list of attributes. The header
has no family: the first byte is not read and always written as `AF_UNIX`, so this byte and the
padding are what changes when a header is written again (`writeHeader_eq`). Nothing in the header
can be wrong, and its decoder fails on too few bytes only.

The attributes a program wants are found by accessors, each of which takes the first attribute of
one kind. `UNIX_DIAG_RQLEN` has two numbers that mean one thing for a listening socket and another
for any other; which they mean is decided here, by the state in the header, and `SockDiag.Accessors`
has what is right and what is wrong with that.

The result of the module is `implements`: the code of a response, decoder, `buffer_len` and `emit`,
is that of the format `format`, a header in front of the attributes of `Unix.Nla.codec`. All that is
proved of whole responses elsewhere is proved from it.
-/

set_option autoImplicit false

namespace SockDiag.Unix

open Rust Tlv

structure UnixResponseBuffer where
  family : UInt8
  kind : UInt8
  state : UInt8
  pad : UInt8
  inode : UInt32
  cookie : Vector UInt8 8

def UnixResponseBuffer.layout (o : ByteOrder) : Packed UnixResponseBuffer :=
  Packed.iso
    (.pair .u8 <| .pair .u8 <| .pair .u8 <| .pair .u8 <| .pair (.u32 o) (.bytes 8))
    { toFun := fun r => (r.family, r.kind, r.state, r.pad, r.inode, r.cookie)
      invFun := fun (family, kind, state, pad, inode, cookie) =>
        ⟨family, kind, state, pad, inode, cookie⟩
      left_inv := fun _ => rfl
      right_inv := fun _ => rfl }

@[simp] theorem UnixResponseBuffer.size_layout (o : ByteOrder) :
    (UnixResponseBuffer.layout o).size = 16 := rfl

def unixResponseHeaderLen : Nat := 16

structure UnixResponseHeader where
  /-- `SOCK_PACKET`, `SOCK_STREAM` or `SOCK_SEQPACKET`. -/
  kind : UInt8
  state : UInt8
  inode : UInt32
  cookie : Vector UInt8 8
deriving DecidableEq, Repr

structure UnixResponse where
  header : UnixResponseHeader
  nlas : List Nla

def UnixResponseHeader.ofRaw (raw : UnixResponseBuffer) : UnixResponseHeader where
  kind := raw.kind
  state := raw.state
  inode := raw.inode
  cookie := raw.cookie

/-- `impl From<&UnixResponseHeader> for UnixResponseBuffer` -/
def UnixResponseBuffer.fromUnixResponseHeader (header : UnixResponseHeader) :
    UnixResponseBuffer where
  family := afUnix
  kind := header.kind
  state := header.state
  pad := 0
  inode := header.inode
  cookie := header.cookie

/-! ## Accessors

Each looks for the first attribute of one kind, and what a queue length is depends on the state. -/

namespace UnixResponse

variable (r : UnixResponse)

def peer : Option UInt32 :=
  r.nlas.findSome? fun
    | .peer inode => some inode
    | _ => none

def name : Option UnixDiagName :=
  r.nlas.findSome? fun
    | .name name => some name
    | _ => none

def pendingConnections : Option (List UInt32) :=
  r.nlas.findSome? fun
    | .pendingConnections connections => some connections
    | _ => none

def memInfo : Option MemInfo :=
  r.nlas.findSome? fun
    | .memInfo memInfo => some memInfo
    | _ => none

def shutdownState : Option UInt8 :=
  r.nlas.findSome? fun
    | .shutdown shutdownState => some shutdownState
    | _ => none

def receiveQueueLength : Option (UInt32 × UInt32) :=
  r.nlas.findSome? fun
    | .receiveQueueLength x y => some (x, y)
    | _ => none

def numberOfPendingConnection : Option UInt32 :=
  if r.header.state = tcpListen then r.receiveQueueLength.map fun (n, _) => n else none

def maxNumberOfPendingConnection : Option UInt32 :=
  if r.header.state = tcpListen then r.receiveQueueLength.map fun (_, n) => n else none

def receiveQueueSize : Option UInt32 :=
  if r.header.state = tcpListen then none else r.receiveQueueLength.map fun (n, _) => n

/-- The first number, and of a listening socket: as the source has it. -/
def sendQueueSize : Option UInt32 :=
  if r.header.state = tcpListen then r.receiveQueueLength.map fun (n, _) => n else none

def maxDatagramSize : Option UInt32 := r.memInfo.map fun memInfo => memInfo.maxDatagramSize

def memoryUsedForOutgoingData : Option UInt32 := r.memInfo.map fun memInfo => memInfo.alloc

end UnixResponse

section Code

variable (P : Platform)

/-- `impl Parseable<[u8]> for UnixResponseHeader` -/
def UnixResponseHeader.parse (payload : Bytes) : Outcome P.DecodeError UnixResponseHeader := do
  let raw ← P.readPrefix (UnixResponseBuffer.layout P.order) payload
  .ok (.ofRaw raw)

/-- `impl Emitable for UnixResponseHeader` -/
def UnixResponseHeader.emit (header : UnixResponseHeader) : Writer Empty :=
  emitHeader P (UnixResponseBuffer.layout P.order) (.fromUnixResponseHeader header)

namespace UnixResponse

/-- `impl Parseable<[u8]> for UnixResponse` -/
def parse (payload : Bytes) : Outcome P.DecodeError UnixResponse :=
  parseResponse P unixResponseHeaderLen (UnixResponseHeader.parse P)
    "failed to parse unix response header" (Nla.parse P)
    "failed to parse unix response NLAs" UnixResponse.mk payload

def bufferLen (r : UnixResponse) : Nat :=
  responseBufferLen P unixResponseHeaderLen (r.nlas.map (Nla.toTrait P))

/-- `impl Emitable for UnixResponse` -/
def emit (r : UnixResponse) : Writer Empty :=
  emitResponse P unixResponseHeaderLen (r.header.emit P) (r.nlas.map (Nla.toTrait P))

end UnixResponse

end Code

/-! ## The response as a format -/

namespace UnixResponse

def format (o : ByteOrder) : Format UnixResponseHeader Nla where
  headerLen := unixResponseHeaderLen
  readHeader b := some (.ofRaw ((UnixResponseBuffer.layout o).ofBytes b))
  writeHeader h := (UnixResponseBuffer.layout o).toBytes (.fromUnixResponseHeader h)
  length_writeHeader _ := Packed.length_toBytes _ _
  codec := Nla.codec o

/-- A header always comes back. -/
theorem readHeader_writeHeader (o : ByteOrder) (h : UnixResponseHeader) :
    (format o).readHeader ((format o).writeHeader h) = some h :=
  congrArg (fun raw => some (UnixResponseHeader.ofRaw raw)) (Packed.ofBytes_toBytes _ _)

/-- Written again, a header is its bytes with the family set and the pad cleared. -/
theorem writeHeader_eq {o : ByteOrder} {b : Bytes} {h : UnixResponseHeader} (hlen : b.length = 16)
    (hread : (format o).readHeader b = some h) :
    (format o).writeHeader h = (b.set 0 afUnix).set 3 0 := by
  obtain rfl := Option.some.inj hread
  have hraw := (UnixResponseBuffer.layout o).toBytes_ofBytes b hlen
  show (UnixResponseBuffer.layout o).toBytes (.fromUnixResponseHeader (.ofRaw _)) = _
  generalize (UnixResponseBuffer.layout o).ofBytes b = raw at hraw ⊢
  rw [← hraw]
  rfl

variable (P : Platform) [P.Lawful]

theorem encodes_nlas (xs : List Nla) :
    List.Forall₂ NlaTrait.Encodes (xs.map (Nla.toTrait P))
      (xs.map ((format P.order).codec.encode)) := by
  rw [List.forall₂_map_left_iff, List.forall₂_map_right_iff]
  exact List.forall₂_same.mpr fun x _ => Nla.toTrait_encodes P x

theorem header_parse_eq_ok_iff {b : Bytes} {h : UnixResponseHeader} (hlen : b.length = 16) :
    UnixResponseHeader.parse P b = .ok h ↔ (format P.order).readHeader b = some h := by
  refine (P.readPrefix_map_eq_ok_iff).trans ?_
  unfold Packed.ReadsAs
  rw [UnixResponseBuffer.size_layout, List.take_of_length_le (Nat.le_of_eq hlen)]
  exact (and_iff_right (Nat.le_of_eq hlen.symm)).trans (iff_of_eq (Option.some.injEq _ _)).symm

theorem stable (o : ByteOrder) : (format o).Stable where
  header _ h _ := readHeader_writeHeader o h
  attr _ _ hread := Nla.reads_toAttr_iff.mpr (Nla.survives_of_reads hread)

theorem fits_iff {xs : List Nla} :
    (∀ x ∈ xs, ((format P.order).codec.encode x).Fits) ↔ ∀ x ∈ xs, x.valueLen P ≤ 65531 :=
  forall₂_congr fun x _ => (Nla.toTrait_encodes P x).fits_iff

/-- The family is always the same. -/
theorem head?_encode {o : ByteOrder} {h : UnixResponseHeader} {xs : List Nla} :
    ((format o).encode o h xs).head? = some afUnix := rfl

/-- **The code of a unix response is its format.** -/
theorem implements :
    Implements P (format P.order) UnixResponse.header UnixResponse.nlas (UnixResponse.parse P)
      (UnixResponse.bufferLen P) (UnixResponse.emit P) where
  parse_eq_ok_iff := by
    intro b r
    refine (parseResponse_eq_ok_iff (F := format P.order) rfl
      (fun b h hb => header_parse_eq_ok_iff P hb)
      (fun nla a x hv => Nla.parse_eq_ok_iff hv)).trans ?_
    refine ⟨?_, ?_⟩
    · intro hr
      obtain ⟨h, xs, rfl, hd⟩ := hr
      exact hd
    · intro hd
      exact ⟨r.header, r.nlas, rfl, hd⟩
  parse_returns := parseResponse_returns (fun _ => P.readPrefix_map_returns _)
    fun _ _ hv => Nla.parse_returns hv
  bufferLen_eq r := responseBufferLen_eq (F := format P.order) rfl (encodes_nlas P r.nlas)
  emit_emits fits := emitResponse_emits (F := format P.order) rfl (emitHeader_emits P _ _)
    (encodes_nlas P _) fits
  emit_panics hbad := emitResponse_panics (F := format P.order) rfl (emitHeader_emits P _ _)
    (emitHeader_needs P _ _) (encodes_nlas P _) hbad

end UnixResponse

end SockDiag.Unix
