import SockDiag.Platform

/-!
# `inet/nlas.rs` — `TcpInfo`, with the feature `rich_nlas`

The kernel's `struct tcp_info` as a packed struct, and the public struct it is copied into field by
field, and back. There are 54 fields, and four lists of them that are written by hand in the source:
the two structs and the two conversions. All are kept here as they are written there, since a field
left out or two fields exchanged would be a slip that no type notices: most of them are of the same
type.

That there is no such slip is the last section. The two conversions are inverse to each other
(`TcpInfo.ofRaw_fromTcpInfo`, `TcpInfoBuffer.fromTcpInfo_ofRaw`), so what is read off 232 bytes and
written again are those bytes. The decoder reads the struct off the front of the payload, however
long that is, and rejects one that is shorter (`TcpInfo.parse_eq_ok_iff`): a kernel whose struct is
longer is understood, and one whose struct is shorter is not, which is where the two builds of the
crate part ways (`SockDiag.RichNlas`, `SockDiag.Dump.Builds`).
-/

set_option autoImplicit false

namespace SockDiag.Inet

open Rust

structure TcpInfoBuffer where
  state : UInt8
  congestionAvoidanceState : UInt8
  retransmits : UInt8
  probes : UInt8
  backoff : UInt8
  options : UInt8
  wscale : UInt8
  deliveryRateAppLimited : UInt8
  rto : UInt32
  ato : UInt32
  sndMss : UInt32
  rcvMss : UInt32
  unacked : UInt32
  sacked : UInt32
  lost : UInt32
  retrans : UInt32
  fackets : UInt32
  lastDataSent : UInt32
  lastAckSent : UInt32
  lastDataRecv : UInt32
  lastAckRecv : UInt32
  pmtu : UInt32
  rcvSsthresh : UInt32
  rtt : UInt32
  rttvar : UInt32
  sndSsthresh : UInt32
  sndCwnd : UInt32
  advmss : UInt32
  reordering : UInt32
  rcvRtt : UInt32
  rcvSpace : UInt32
  totalRetrans : UInt32
  pacingRate : UInt64
  maxPacingRate : UInt64
  bytesAcked : UInt64
  bytesReceived : UInt64
  segsOut : UInt32
  segsIn : UInt32
  notsentBytes : UInt32
  minRtt : UInt32
  dataSegsIn : UInt32
  dataSegsOut : UInt32
  deliveryRate : UInt64
  busyTime : UInt64
  rwndLimited : UInt64
  sndbufLimited : UInt64
  delivered : UInt32
  deliveredCe : UInt32
  bytesSent : UInt64
  bytesRetrans : UInt64
  dsackDups : UInt32
  reordSeen : UInt32
  rcvOoopack : UInt32
  sndWnd : UInt32

def TcpInfoBuffer.layout (o : ByteOrder) : Packed TcpInfoBuffer :=
  Packed.iso
    (.pair .u8 <| .pair .u8 <| .pair .u8 <| .pair .u8 <| .pair .u8 <| .pair .u8 <| .pair .u8 <|
      .pair .u8 <| .pair (.u32 o) <| .pair (.u32 o) <| .pair (.u32 o) <| .pair (.u32 o) <|
      .pair (.u32 o) <| .pair (.u32 o) <| .pair (.u32 o) <| .pair (.u32 o) <| .pair (.u32 o) <|
      .pair (.u32 o) <| .pair (.u32 o) <| .pair (.u32 o) <| .pair (.u32 o) <| .pair (.u32 o) <|
      .pair (.u32 o) <| .pair (.u32 o) <| .pair (.u32 o) <| .pair (.u32 o) <| .pair (.u32 o) <|
      .pair (.u32 o) <| .pair (.u32 o) <| .pair (.u32 o) <| .pair (.u32 o) <| .pair (.u32 o) <|
      .pair (.u64 o) <| .pair (.u64 o) <| .pair (.u64 o) <| .pair (.u64 o) <| .pair (.u32 o) <|
      .pair (.u32 o) <| .pair (.u32 o) <| .pair (.u32 o) <| .pair (.u32 o) <| .pair (.u32 o) <|
      .pair (.u64 o) <| .pair (.u64 o) <| .pair (.u64 o) <| .pair (.u64 o) <| .pair (.u32 o) <|
      .pair (.u32 o) <| .pair (.u64 o) <| .pair (.u64 o) <| .pair (.u32 o) <| .pair (.u32 o) <|
      .pair (.u32 o) <| .u32 o)
    { toFun := fun s => (s.state, s.congestionAvoidanceState, s.retransmits, s.probes, s.backoff,
        s.options, s.wscale, s.deliveryRateAppLimited, s.rto, s.ato, s.sndMss, s.rcvMss, s.unacked,
        s.sacked, s.lost, s.retrans, s.fackets, s.lastDataSent, s.lastAckSent, s.lastDataRecv,
        s.lastAckRecv, s.pmtu, s.rcvSsthresh, s.rtt, s.rttvar, s.sndSsthresh, s.sndCwnd,
        s.advmss, s.reordering, s.rcvRtt, s.rcvSpace, s.totalRetrans, s.pacingRate,
        s.maxPacingRate, s.bytesAcked, s.bytesReceived, s.segsOut, s.segsIn, s.notsentBytes,
        s.minRtt, s.dataSegsIn, s.dataSegsOut, s.deliveryRate, s.busyTime, s.rwndLimited,
        s.sndbufLimited, s.delivered, s.deliveredCe, s.bytesSent, s.bytesRetrans, s.dsackDups,
        s.reordSeen, s.rcvOoopack, s.sndWnd)
      invFun := fun (state, congestionAvoidanceState, retransmits, probes, backoff, options, wscale,
        deliveryRateAppLimited, rto, ato, sndMss, rcvMss, unacked, sacked, lost, retrans,
        fackets, lastDataSent, lastAckSent, lastDataRecv, lastAckRecv, pmtu, rcvSsthresh, rtt,
        rttvar, sndSsthresh, sndCwnd, advmss, reordering, rcvRtt, rcvSpace, totalRetrans,
        pacingRate, maxPacingRate, bytesAcked, bytesReceived, segsOut, segsIn, notsentBytes,
        minRtt, dataSegsIn, dataSegsOut, deliveryRate, busyTime, rwndLimited, sndbufLimited,
        delivered, deliveredCe, bytesSent, bytesRetrans, dsackDups, reordSeen, rcvOoopack, sndWnd) =>
        ⟨state, congestionAvoidanceState, retransmits, probes, backoff, options, wscale,
        deliveryRateAppLimited, rto, ato, sndMss, rcvMss, unacked, sacked, lost, retrans,
        fackets, lastDataSent, lastAckSent, lastDataRecv, lastAckRecv, pmtu, rcvSsthresh, rtt,
        rttvar, sndSsthresh, sndCwnd, advmss, reordering, rcvRtt, rcvSpace, totalRetrans,
        pacingRate, maxPacingRate, bytesAcked, bytesReceived, segsOut, segsIn, notsentBytes,
        minRtt, dataSegsIn, dataSegsOut, deliveryRate, busyTime, rwndLimited, sndbufLimited,
        delivered, deliveredCe, bytesSent, bytesRetrans, dsackDups, reordSeen, rcvOoopack, sndWnd⟩
      left_inv := fun _ => rfl
      right_inv := fun _ => rfl }

structure TcpInfo where
  state : UInt8
  caState : UInt8
  retransmits : UInt8
  probes : UInt8
  backoff : UInt8
  options : UInt8
  wscale : UInt8
  deliveryRateAppLimited : UInt8
  rto : UInt32
  ato : UInt32
  sndMss : UInt32
  rcvMss : UInt32
  unacked : UInt32
  sacked : UInt32
  lost : UInt32
  retrans : UInt32
  fackets : UInt32
  lastDataSent : UInt32
  lastAckSent : UInt32
  lastDataRecv : UInt32
  lastAckRecv : UInt32
  pmtu : UInt32
  rcvSsthresh : UInt32
  rtt : UInt32
  rttvar : UInt32
  sndSsthresh : UInt32
  sndCwnd : UInt32
  advmss : UInt32
  reordering : UInt32
  rcvRtt : UInt32
  rcvSpace : UInt32
  totalRetrans : UInt32
  pacingRate : UInt64
  maxPacingRate : UInt64
  bytesAcked : UInt64
  bytesReceived : UInt64
  segsOut : UInt32
  segsIn : UInt32
  notsentBytes : UInt32
  minRtt : UInt32
  dataSegsIn : UInt32
  dataSegsOut : UInt32
  deliveryRate : UInt64
  busyTime : UInt64
  rwndLimited : UInt64
  sndbufLimited : UInt64
  delivered : UInt32
  deliveredCe : UInt32
  bytesSent : UInt64
  bytesRetrans : UInt64
  dsackDups : UInt32
  reordSeen : UInt32
  rcvOoopack : UInt32
  sndWnd : UInt32

/-- What `TcpInfo::parse` makes of the struct. -/
def TcpInfo.ofRaw (raw : TcpInfoBuffer) : TcpInfo where
  state := raw.state
  caState := raw.congestionAvoidanceState
  retransmits := raw.retransmits
  probes := raw.probes
  backoff := raw.backoff
  options := raw.options
  wscale := raw.wscale
  deliveryRateAppLimited := raw.deliveryRateAppLimited
  rto := raw.rto
  ato := raw.ato
  sndMss := raw.sndMss
  rcvMss := raw.rcvMss
  unacked := raw.unacked
  sacked := raw.sacked
  lost := raw.lost
  retrans := raw.retrans
  fackets := raw.fackets
  lastDataSent := raw.lastDataSent
  lastAckSent := raw.lastAckSent
  lastDataRecv := raw.lastDataRecv
  lastAckRecv := raw.lastAckRecv
  pmtu := raw.pmtu
  rcvSsthresh := raw.rcvSsthresh
  rtt := raw.rtt
  rttvar := raw.rttvar
  sndSsthresh := raw.sndSsthresh
  sndCwnd := raw.sndCwnd
  advmss := raw.advmss
  reordering := raw.reordering
  rcvRtt := raw.rcvRtt
  rcvSpace := raw.rcvSpace
  totalRetrans := raw.totalRetrans
  pacingRate := raw.pacingRate
  maxPacingRate := raw.maxPacingRate
  bytesAcked := raw.bytesAcked
  bytesReceived := raw.bytesReceived
  segsOut := raw.segsOut
  segsIn := raw.segsIn
  notsentBytes := raw.notsentBytes
  minRtt := raw.minRtt
  dataSegsIn := raw.dataSegsIn
  dataSegsOut := raw.dataSegsOut
  deliveryRate := raw.deliveryRate
  busyTime := raw.busyTime
  rwndLimited := raw.rwndLimited
  sndbufLimited := raw.sndbufLimited
  delivered := raw.delivered
  deliveredCe := raw.deliveredCe
  bytesSent := raw.bytesSent
  bytesRetrans := raw.bytesRetrans
  dsackDups := raw.dsackDups
  reordSeen := raw.reordSeen
  rcvOoopack := raw.rcvOoopack
  sndWnd := raw.sndWnd

/-- `TcpInfo::parse` -/
def TcpInfo.parse (P : Platform) (payload : Bytes) : Outcome P.DecodeError TcpInfo := do
  let raw ← P.readPrefix (TcpInfoBuffer.layout P.order) payload
  .ok (.ofRaw raw)

/-- `impl From<&TcpInfo> for TcpInfoBuffer` -/
def TcpInfoBuffer.fromTcpInfo (value : TcpInfo) : TcpInfoBuffer where
  state := value.state
  congestionAvoidanceState := value.caState
  retransmits := value.retransmits
  probes := value.probes
  backoff := value.backoff
  options := value.options
  wscale := value.wscale
  deliveryRateAppLimited := value.deliveryRateAppLimited
  rto := value.rto
  ato := value.ato
  sndMss := value.sndMss
  rcvMss := value.rcvMss
  unacked := value.unacked
  sacked := value.sacked
  lost := value.lost
  retrans := value.retrans
  fackets := value.fackets
  lastDataSent := value.lastDataSent
  lastAckSent := value.lastAckSent
  lastDataRecv := value.lastDataRecv
  lastAckRecv := value.lastAckRecv
  pmtu := value.pmtu
  rcvSsthresh := value.rcvSsthresh
  rtt := value.rtt
  rttvar := value.rttvar
  sndSsthresh := value.sndSsthresh
  sndCwnd := value.sndCwnd
  advmss := value.advmss
  reordering := value.reordering
  rcvRtt := value.rcvRtt
  rcvSpace := value.rcvSpace
  totalRetrans := value.totalRetrans
  pacingRate := value.pacingRate
  maxPacingRate := value.maxPacingRate
  bytesAcked := value.bytesAcked
  bytesReceived := value.bytesReceived
  segsOut := value.segsOut
  segsIn := value.segsIn
  notsentBytes := value.notsentBytes
  minRtt := value.minRtt
  dataSegsIn := value.dataSegsIn
  dataSegsOut := value.dataSegsOut
  deliveryRate := value.deliveryRate
  busyTime := value.busyTime
  rwndLimited := value.rwndLimited
  sndbufLimited := value.sndbufLimited
  delivered := value.delivered
  deliveredCe := value.deliveredCe
  bytesSent := value.bytesSent
  bytesRetrans := value.bytesRetrans
  dsackDups := value.dsackDups
  reordSeen := value.reordSeen
  rcvOoopack := value.rcvOoopack
  sndWnd := value.sndWnd

/-- `impl Emitable for TcpInfo` -/
def TcpInfo.emit (P : Platform) (info : TcpInfo) : Writer Empty :=
  .copyFromSlice (P.asBytes (TcpInfoBuffer.layout P.order) (.fromTcpInfo info)).toList

@[simp] theorem TcpInfoBuffer.size_layout (o : ByteOrder) : (TcpInfoBuffer.layout o).size = 232 := by
  simp [TcpInfoBuffer.layout]

variable (P : Platform)

theorem TcpInfo.parse_returns (payload : Bytes) : (TcpInfo.parse P payload).Returns :=
  P.readPrefix_map_returns _

variable [P.Lawful]

theorem TcpInfo.parse_eq_ok_iff {payload : Bytes} {info : TcpInfo} :
    TcpInfo.parse P payload = .ok info ↔
      (TcpInfoBuffer.layout P.order).ReadsAs TcpInfo.ofRaw payload info :=
  P.readPrefix_map_eq_ok_iff

/-! ## Nothing is lost between the two structs -/

theorem TcpInfo.ofRaw_fromTcpInfo (info : TcpInfo) :
    TcpInfo.ofRaw (.fromTcpInfo info) = info := rfl

theorem TcpInfoBuffer.fromTcpInfo_ofRaw (raw : TcpInfoBuffer) :
    TcpInfoBuffer.fromTcpInfo (.ofRaw raw) = raw := rfl

end SockDiag.Inet
