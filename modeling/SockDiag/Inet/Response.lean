import SockDiag.Inet.Codec
import SockDiag.Inet.SocketId
import SockDiag.Response

/-!
# `inet/response.rs` — one IPv4 or IPv6 socket

What the kernel reports of a socket: 72 bytes of header, 48 of them its id, and a list of
attributes.

The timer is the one field that is not one field on the wire: three numbers of the header say
whether there is a timer, which, when it expires, and how often it has fired. The struct keeps an
expiry as a `Duration`, so it can hold more than the 32-bit millisecond count it came from; what is
written is that count and the rest is gone. `TimerFits` is what a timer has to be to come back,
`parseTimer_iff` says so, and `timerFields_parseTimer` says what is written of one that was read. A
kind of timer the crate does not know is read as none.

A header as a whole comes back when its timer does and its addresses are of its family
(`InetResponseHeader.ofRaw_from_iff`). The result of the module is `implements`: the code of a
response, decoder, `buffer_len` and `emit`, is that of the format `format`, such a header in front
of the attributes of `Inet.Nla.codec`. All that is proved of whole responses elsewhere is proved
from it.
-/

set_option autoImplicit false

namespace SockDiag.Inet

open Rust Tlv

structure InetResponseBuffer where
  family : UInt8
  state : UInt8
  timer : UInt8
  retransmits : UInt8
  socketId : Vector UInt8 48
  expires : UInt32
  recvQueue : UInt32
  sendQueue : UInt32
  uid : UInt32
  inode : UInt32

def InetResponseBuffer.layout (o : ByteOrder) : Packed InetResponseBuffer :=
  Packed.iso
    (.pair .u8 <| .pair .u8 <| .pair .u8 <| .pair .u8 <| .pair (.bytes 48) <| .pair (.u32 o) <|
      .pair (.u32 o) <| .pair (.u32 o) <| .pair (.u32 o) (.u32 o))
    { toFun := fun r => (r.family, r.state, r.timer, r.retransmits, r.socketId, r.expires,
        r.recvQueue, r.sendQueue, r.uid, r.inode)
      invFun := fun (family, state, timer, retransmits, socketId, expires, recvQueue, sendQueue,
        uid, inode) =>
        ⟨family, state, timer, retransmits, socketId, expires, recvQueue, sendQueue, uid, inode⟩
      left_inv := fun _ => rfl
      right_inv := fun _ => rfl }

@[simp] theorem InetResponseBuffer.size_layout (o : ByteOrder) :
    (InetResponseBuffer.layout o).size = 72 := rfl

def inetResponseHeaderLen : Nat := 72

/-! ## Timers -/

/-- The timer that is active for a TCP socket. -/
inductive Timer where
  | retransmit (expires : Duration) (retransmits : UInt8)
  | keepAlive (expires : Duration)
  /-- A `TIME_WAIT` timer. -/
  | timeWait
  /-- A zero window probe timer. -/
  | probe (expires : Duration)
deriving DecidableEq, Repr

/-- The `match raw.timer` of `InetResponseHeader::parse`. -/
def parseTimer (raw : InetResponseBuffer) : Option Timer :=
  if raw.timer = 1 then
    some (.retransmit (.fromMillis raw.expires.toUInt64) raw.retransmits)
  else if raw.timer = 2 then
    some (.keepAlive (.fromMillis raw.expires.toUInt64))
  else if raw.timer = 3 then
    some .timeWait
  else if raw.timer = 4 then
    some (.probe (.fromMillis raw.expires.toUInt64))
  else none

/-- `(expires.as_millis() & 0xffff_ffff) as u32` -/
def expiresWord (expires : Duration) : UInt32 := UInt32.ofNat (expires.asMillis &&& 0xffffffff)

/-- `(timer, expires, retransmits)`, the `match header.timer` of
    `impl From<&InetResponseHeader> for InetResponseBuffer`. -/
def timerFields : Option Timer → UInt8 × UInt32 × UInt8
  | some (.retransmit expires retransmits) => (1, expiresWord expires, retransmits)
  | some (.keepAlive expires) => (2, expiresWord expires, 0)
  | some .timeWait => (3, 0, 0)
  | some (.probe expires) => (4, expiresWord expires, 0)
  | none => (0, 0, 0)

/-! ## The header -/

structure InetResponseHeader where
  /-- `AF_INET` or `AF_INET6`. -/
  family : UInt8
  state : UInt8
  timer : Option Timer
  socketId : SocketId
  /-- Pending connections of a listening socket, the incoming queue of any other. -/
  recvQueue : UInt32
  /-- The backlog length of a listening socket, the memory available for sending of any other. -/
  sendQueue : UInt32
  uid : UInt32
  inode : UInt32
deriving DecidableEq, Repr

/-- The response to a query for IPv4 or IPv6 sockets. -/
structure InetResponse (rich : Bool) where
  header : InetResponseHeader
  nlas : List (Nla rich)

section Code

variable (P : Platform) {rich : Bool}

/-- `impl Parseable<[u8]> for InetResponseHeader` -/
def InetResponseHeader.parse (payload : Bytes) : Outcome P.DecodeError InetResponseHeader := do
  let raw ← P.readPrefix (InetResponseBuffer.layout P.order) payload
  let socketId ← (SocketId.parseWithParam P raw.socketId.toList raw.family).mapErr
    (P.context "invalid socket_id value")
  -- An unknown timer is no timer, not an error.
  .ok
    { family := raw.family
      state := raw.state
      timer := parseTimer raw
      socketId
      recvQueue := raw.recvQueue
      sendQueue := raw.sendQueue
      uid := raw.uid
      inode := raw.inode }

/-- `impl From<&InetResponseHeader> for InetResponseBuffer` -/
def InetResponseBuffer.fromInetResponseHeader (header : InetResponseHeader) : InetResponseBuffer :=
  let (timer, expires, retransmits) := timerFields header.timer
  { family := header.family
    state := header.state
    timer
    retransmits
    socketId := P.asBytes (SocketIdBuffer.layout P.order) (.fromSocketId P.order header.socketId)
    expires
    recvQueue := header.recvQueue
    sendQueue := header.sendQueue
    uid := header.uid
    inode := header.inode }

/-- `impl Emitable for InetResponseHeader` -/
def InetResponseHeader.emit (header : InetResponseHeader) : Writer Empty :=
  emitHeader P (InetResponseBuffer.layout P.order) (.fromInetResponseHeader P header)

namespace InetResponse

/-- `impl Parseable<[u8]> for InetResponse` -/
def parse (payload : Bytes) : Outcome P.DecodeError (InetResponse rich) :=
  parseResponse P inetResponseHeaderLen (InetResponseHeader.parse P)
    "failed to parse inet response header" (Nla.parse P)
    "failed to parse inet response NLAs" InetResponse.mk payload

def bufferLen (r : InetResponse rich) : Nat :=
  responseBufferLen P inetResponseHeaderLen (r.nlas.map (Nla.toTrait P))

/-- `impl Emitable for InetResponse` -/
def emit (r : InetResponse rich) : Writer Empty :=
  emitResponse P inetResponseHeaderLen (r.header.emit P) (r.nlas.map (Nla.toTrait P))

end InetResponse

end Code

/-! ## Timers, there and back -/

section Timers

variable {expires : Duration} {raw : InetResponseBuffer} {t : Option Timer}

/-- A whole number of milliseconds, and few enough for 32 bits. -/
def ExpiresFits (expires : Duration) : Prop :=
  expires.nanos % 1000000 = 0 ∧ expires.asMillis < 2 ^ 32

theorem toNat_expiresWord : (expiresWord expires).toNat = expires.asMillis % 2 ^ 32 := by
  have hmask : expires.asMillis &&& 0xffffffff = expires.asMillis % 2 ^ 32 :=
    Nat.and_two_pow_sub_one_eq_mod _ 32
  have hlt : expires.asMillis % 2 ^ 32 < UInt32.size := Nat.mod_lt _ (by decide)
  unfold expiresWord
  rw [hmask]
  exact UInt32.toNat_ofNat_of_lt' hlt

theorem fromMillis_expiresWord_iff :
    Duration.fromMillis (expiresWord expires).toUInt64 = expires ↔ ExpiresFits expires := by
  rw [Duration.fromMillis_eq_iff, UInt32.toNat_toUInt64, toNat_expiresWord]
  unfold ExpiresFits
  refine and_congr_right fun _ => ?_
  refine ⟨?_, ?_⟩
  · intro h
    rw [h]
    exact Nat.mod_lt _ (by decide)
  · intro h
    exact (Nat.mod_eq_of_lt h).symm

theorem expiresWord_fromMillis (v : UInt32) : expiresWord (.fromMillis v.toUInt64) = v := by
  apply UInt32.toNat_inj.mp
  rw [toNat_expiresWord, Duration.asMillis_fromMillis, UInt32.toNat_toUInt64]
  exact Nat.mod_eq_of_lt v.toNat_lt

/-- The timers that the three fields can carry. -/
def TimerFits : Option Timer → Prop
  | some (.retransmit expires _) | some (.keepAlive expires) | some (.probe expires) =>
      ExpiresFits expires
  | some .timeWait | none => True

/-- What was read off the three fields fits them. -/
theorem timerFits_parseTimer (raw : InetResponseBuffer) : TimerFits (parseTimer raw) := by
  have hfits : ExpiresFits (.fromMillis raw.expires.toUInt64) :=
    fromMillis_expiresWord_iff.mp (by rw [expiresWord_fromMillis])
  unfold parseTimer
  split
  · exact hfits
  split
  · exact hfits
  split
  · trivial
  split
  · exact hfits
  · trivial

theorem parseTimer_iff (hraw : (raw.timer, raw.expires, raw.retransmits) = timerFields t) :
    parseTimer raw = t ↔ TimerFits t := by
  obtain ⟨_, _, timer, retransmits, _, expires, _, _, _, _⟩ := raw
  unfold timerFields at hraw
  unfold parseTimer
  cases t with
  | none =>
    obtain ⟨rfl, rfl, rfl⟩ := hraw
    exact iff_of_true rfl trivial
  | some t =>
    cases t with
    | retransmit expires n =>
      obtain ⟨rfl, rfl, rfl⟩ := hraw
      show some (Timer.retransmit (.fromMillis (expiresWord expires).toUInt64) retransmits) =
        some (.retransmit expires retransmits) ↔ ExpiresFits expires
      rw [← fromMillis_expiresWord_iff, Option.some.injEq, Timer.retransmit.injEq, and_iff_left rfl]
    | keepAlive expires =>
      obtain ⟨rfl, rfl, rfl⟩ := hraw
      show some (Timer.keepAlive (.fromMillis (expiresWord expires).toUInt64)) =
        some (.keepAlive expires) ↔ ExpiresFits expires
      rw [← fromMillis_expiresWord_iff, Option.some.injEq, Timer.keepAlive.injEq]
    | timeWait =>
      obtain ⟨rfl, rfl, rfl⟩ := hraw
      exact iff_of_true rfl trivial
    | probe expires =>
      obtain ⟨rfl, rfl, rfl⟩ := hraw
      show some (Timer.probe (.fromMillis (expiresWord expires).toUInt64)) =
        some (.probe expires) ↔ ExpiresFits expires
      rw [← fromMillis_expiresWord_iff, Option.some.injEq, Timer.probe.injEq]

/-- What writing a decoded timer leaves of the three fields. -/
theorem timerFields_parseTimer (raw : InetResponseBuffer) :
    timerFields (parseTimer raw) =
      (if raw.timer ∈ [1, 2, 3, 4] then raw.timer else 0,
        if raw.timer ∈ [1, 2, 4] then raw.expires else 0,
        if raw.timer = 1 then raw.retransmits else 0) := by
  unfold parseTimer
  split
  · rename_i h
    simp [timerFields, h, expiresWord_fromMillis]
  split
  · rename_i h
    simp [timerFields, h, expiresWord_fromMillis]
  split
  · rename_i h
    simp [timerFields, h]
  split
  · rename_i h
    simp [timerFields, h, expiresWord_fromMillis]
  · rename_i h1 h2 h3 h4
    simp [timerFields, h1, h2, h3, h4]

end Timers

/-! ## The header, there and back -/

/-- `InetResponseHeader::parse` without its errors and without its bytes. -/
def InetResponseHeader.ofRaw (o : ByteOrder) (raw : InetResponseBuffer) :
    Option InetResponseHeader := do
  let socketId ← SocketId.ofRaw o raw.family ((SocketIdBuffer.layout o).ofBytes raw.socketId.toList)
  some
    { family := raw.family
      state := raw.state
      timer := parseTimer raw
      socketId
      recvQueue := raw.recvQueue
      sendQueue := raw.sendQueue
      uid := raw.uid
      inode := raw.inode }

/-- The headers that 72 bytes can carry. -/
structure InetResponseHeader.Fits (header : InetResponseHeader) : Prop where
  source : AddrFamily header.family header.socketId.sourceAddress
  destination : AddrFamily header.family header.socketId.destinationAddress
  timer : TimerFits header.timer

/-- A header is read off any 72 bytes whose family is one of the two. -/
theorem InetResponseHeader.exists_ofRaw_iff {o : ByteOrder}
    {raw : InetResponseBuffer} :
    (∃ header, InetResponseHeader.ofRaw o raw = some header) ↔
      raw.family = afInet ∨ raw.family = afInet6 := SocketId.exists_ofRaw_map_iff

theorem InetResponseHeader.Fits.family {header : InetResponseHeader} (h : header.Fits) :
    header.family = afInet ∨ header.family = afInet6 := by
  have hsrc := h.source
  unfold AddrFamily at hsrc
  split at hsrc
  · exact .inl hsrc
  · exact .inr hsrc

section Header

variable (P : Platform)

theorem InetResponseHeader.parse_returns (payload : Bytes) :
    (InetResponseHeader.parse P payload).Returns := by
  unfold InetResponseHeader.parse
  refine P.readPrefix_returns.bind fun raw _ => ?_
  refine (Outcome.returns_mapErr.mpr (SocketId.parseWithParam_returns P _)).bind fun _ _ => ?_
  exact Outcome.returns_ok _

variable [P.Lawful] {header : InetResponseHeader} {payload : Bytes}

theorem SocketId.parse_vector_iff {v : Vector UInt8 48} {af : UInt8} {s : SocketId} :
    SocketId.parseWithParam P v.toList af = .ok s ↔
      SocketId.ofRaw P.order af ((SocketIdBuffer.layout P.order).ofBytes v.toList) = some s := by
  have hlen : v.toList.length = 48 := by simp
  rw [SocketId.parseWithParam_eq_ok_iff, List.take_of_length_le (Nat.le_of_eq hlen)]
  exact and_iff_right (Nat.le_of_eq hlen.symm)

theorem InetResponseHeader.parse_eq_ok_iff (hlen : payload.length = 72) :
    InetResponseHeader.parse P payload = .ok header ↔
      InetResponseHeader.ofRaw P.order ((InetResponseBuffer.layout P.order).ofBytes payload) =
        some header := by
  unfold InetResponseHeader.parse InetResponseHeader.ofRaw
  simp only [Outcome.bind_eq_ok, P.readPrefix_eq_ok_iff, InetResponseBuffer.size_layout,
    Outcome.mapErr_eq_ok, SocketId.parse_vector_iff, List.take_of_length_le (Nat.le_of_eq hlen),
    Option.bind_eq_bind, Option.bind_eq_some_iff, Outcome.ok.injEq, Option.some.injEq]
  refine ⟨?_, ?_⟩
  · intro h
    obtain ⟨raw, ⟨-, rfl⟩, s, hs, rfl⟩ := h
    exact ⟨s, hs, rfl⟩
  · intro h
    obtain ⟨s, hs, rfl⟩ := h
    exact ⟨_, ⟨Nat.le_of_eq hlen.symm, rfl⟩, s, hs, rfl⟩

/-- **Which headers come back from their own bytes.** -/
theorem InetResponseHeader.ofRaw_from_iff :
    InetResponseHeader.ofRaw P.order (.fromInetResponseHeader P header) = some header ↔
      header.Fits := by
  have hid : SocketId.ofRaw P.order header.family ((SocketIdBuffer.layout P.order).ofBytes
      (InetResponseBuffer.fromInetResponseHeader P header).socketId.toList) =
        some header.socketId ↔ AddrFamily header.family header.socketId.sourceAddress ∧
          AddrFamily header.family header.socketId.destinationAddress := SocketId.ofRaw_asBytes_iff P
  have htimer : parseTimer (.fromInetResponseHeader P header) = header.timer ↔
      TimerFits header.timer := parseTimer_iff rfl
  unfold InetResponseHeader.ofRaw
  rw [Option.bind_eq_bind, Option.bind_eq_some_iff]
  refine ⟨?_, ?_⟩
  · intro hd
    obtain ⟨s, hs, hheader⟩ := hd
    have h := Option.some.inj hheader
    have hs' : s = header.socketId := congrArg InetResponseHeader.socketId h
    have ht : parseTimer (.fromInetResponseHeader P header) = header.timer :=
      congrArg InetResponseHeader.timer h
    rw [hs'] at hs
    obtain ⟨hsrc, hdst⟩ := hid.mp hs
    exact ⟨hsrc, hdst, htimer.mp ht⟩
  · intro hd
    obtain ⟨hsrc, hdst, ht⟩ := hd
    refine ⟨header.socketId, hid.mpr ⟨hsrc, hdst⟩, ?_⟩
    rw [htimer.mpr ht]
    rfl

/-- What was read comes back. -/
theorem InetResponseHeader.fits_of_ofRaw {raw : InetResponseBuffer} {o : ByteOrder}
    (h : InetResponseHeader.ofRaw o raw = some header) : header.Fits := by
  obtain ⟨s, hs, hheader⟩ := Option.bind_eq_some_iff.mp h
  obtain rfl := Option.some.inj hheader
  obtain ⟨hsrc, hdst, -⟩ := SocketId.ofRaw_eq_some.mp hs
  exact ⟨addrFamily_of_addressOf hsrc, addrFamily_of_addressOf hdst, timerFits_parseTimer raw⟩

end Header

/-! ## The response as a format -/

namespace InetResponse

def format (P : Platform) (rich : Bool) : Format InetResponseHeader (Nla rich) where
  headerLen := inetResponseHeaderLen
  readHeader b := InetResponseHeader.ofRaw P.order ((InetResponseBuffer.layout P.order).ofBytes b)
  writeHeader h := (InetResponseBuffer.layout P.order).toBytes (.fromInetResponseHeader P h)
  length_writeHeader _ := Packed.length_toBytes _ _
  codec := Nla.codec P.order rich

/-- The family is the first byte. -/
theorem head?_encode {P : Platform} {rich : Bool} {h : InetResponseHeader} {xs : List (Nla rich)} :
    ((format P rich).encode P.order h xs).head? = some h.family := rfl

/-- A header is read off 72 bytes exactly when they begin with one of the two families. -/
theorem exists_readHeader_iff {P : Platform} {rich : Bool} {b : Bytes} (hlen : b.length = 72) :
    (∃ h, (format P rich).readHeader b = some h) ↔
      b.head? = some afInet ∨ b.head? = some afInet6 := by
  have hraw := (InetResponseBuffer.layout P.order).toBytes_ofBytes b hlen
  refine InetResponseHeader.exists_ofRaw_iff.trans ?_
  generalize (InetResponseBuffer.layout P.order).ofBytes b = raw at hraw ⊢
  rw [← hraw]
  have hhead : ((InetResponseBuffer.layout P.order).toBytes raw).head? = some raw.family := rfl
  rw [hhead, Option.some.injEq, Option.some.injEq]

variable (P : Platform) [P.Lawful] {rich : Bool}

theorem encodes_nlas (xs : List (Nla rich)) :
    List.Forall₂ NlaTrait.Encodes (xs.map (Nla.toTrait P))
      (xs.map ((format P rich).codec.encode)) := by
  rw [List.forall₂_map_left_iff, List.forall₂_map_right_iff]
  exact List.forall₂_same.mpr fun x _ => Nla.toTrait_encodes P x

theorem readHeader_writeHeader_iff {h : InetResponseHeader} :
    (format P rich).readHeader ((format P rich).writeHeader h) = some h ↔ h.Fits := by
  refine Iff.trans ?_ (InetResponseHeader.ofRaw_from_iff P)
  show InetResponseHeader.ofRaw P.order ((InetResponseBuffer.layout P.order).ofBytes
    ((InetResponseBuffer.layout P.order).toBytes _)) = _ ↔ _
  rw [Packed.ofBytes_toBytes]

theorem stable : (format P rich).Stable where
  header _ _ hread :=
    (readHeader_writeHeader_iff P).mpr (InetResponseHeader.fits_of_ofRaw hread)
  attr _ _ hread := Nla.reads_toAttr_iff.mpr (Nla.survives_of_reads hread)

theorem fits_iff {xs : List (Nla rich)} :
    (∀ x ∈ xs, ((format P rich).codec.encode x).Fits) ↔ ∀ x ∈ xs, x.valueLen P ≤ 65531 :=
  forall₂_congr fun x _ => (Nla.toTrait_encodes P x).fits_iff

/-- **The code of an inet response is its format.** -/
theorem implements :
    Implements P (format P rich) InetResponse.header InetResponse.nlas (InetResponse.parse P)
      (InetResponse.bufferLen P) (InetResponse.emit P) where
  parse_eq_ok_iff := by
    intro b r
    refine (parseResponse_eq_ok_iff (F := format P rich) rfl
      (fun b h hb => InetResponseHeader.parse_eq_ok_iff P hb)
      (fun nla a x hv => Nla.parse_eq_ok_iff hv)).trans ?_
    refine ⟨?_, ?_⟩
    · intro hr
      obtain ⟨h, xs, rfl, hd⟩ := hr
      exact hd
    · intro hd
      exact ⟨r.header, r.nlas, rfl, hd⟩
  parse_returns := parseResponse_returns (InetResponseHeader.parse_returns P)
    fun _ _ hv => Nla.parse_returns hv
  bufferLen_eq r := responseBufferLen_eq (F := format P rich) rfl (encodes_nlas P r.nlas)
  emit_emits fits := emitResponse_emits (F := format P rich) rfl (emitHeader_emits P _ _)
    (encodes_nlas P _) fits
  emit_panics hbad := emitResponse_panics (F := format P rich) rfl (emitHeader_emits P _ _)
    (emitHeader_needs P _ _) (encodes_nlas P _) hbad

end InetResponse

end SockDiag.Inet
