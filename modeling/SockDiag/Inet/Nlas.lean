import SockDiag.Constants
import SockDiag.Inet.TcpInfo

/-!
# `inet/nlas.rs` — the attributes of an inet response

The code of the attributes, in the order of the source: the two sets of memory counters, and the
attribute with its four tables `value_len`, `kind`, `emit_value` and `parse`. What they mean is said
in `SockDiag.Inet.Codec`, and nothing is proved of them here.

`rich` is the feature `rich_nlas`: with it the payload of `INET_DIAG_INFO` is the struct `TcpInfo`,
without it the bytes as they came (`TcpInfoValue`). It is the only difference between the two
builds, and a parameter of every type that has an attribute in it, so that what holds of both is
stated once and what holds between them can be stated at all (`SockDiag.RichNlas`).

The tables are kept as tables. In the source the length of an attribute, its type and its bytes are
three `match`es that nothing forces to agree; that they do is a theorem, `Inet.Nla.toTrait_encodes`,
and not a consequence of how they are modelled.
-/

set_option autoImplicit false

namespace SockDiag.Inet

open Rust

/-! ## Memory information -/

structure LegacyMemInfoBuffer where
  receiveQueue : UInt32
  bottomSendQueue : UInt32
  cache : UInt32
  sendQueue : UInt32

def LegacyMemInfoBuffer.layout (o : ByteOrder) : Packed LegacyMemInfoBuffer :=
  Packed.iso (.pair (.u32 o) <| .pair (.u32 o) <| .pair (.u32 o) (.u32 o))
    { toFun := fun s => (s.receiveQueue, s.bottomSendQueue, s.cache, s.sendQueue)
      invFun := fun (receiveQueue, bottomSendQueue, cache, sendQueue) =>
        ⟨receiveQueue, bottomSendQueue, cache, sendQueue⟩
      left_inv := fun _ => rfl
      right_inv := fun _ => rfl }

/-- `INET_DIAG_MEMINFO`, which recent kernels no longer report. -/
structure LegacyMemInfo where
  receiveQueue : UInt32
  bottomSendQueue : UInt32
  cache : UInt32
  sendQueue : UInt32

def LegacyMemInfo.ofRaw (raw : LegacyMemInfoBuffer) : LegacyMemInfo where
  receiveQueue := raw.receiveQueue
  bottomSendQueue := raw.bottomSendQueue
  cache := raw.cache
  sendQueue := raw.sendQueue

/-- `LegacyMemInfo::parse` -/
def LegacyMemInfo.parse (P : Platform) (payload : Bytes) : Outcome P.DecodeError LegacyMemInfo := do
  let raw ← P.readPrefix (LegacyMemInfoBuffer.layout P.order) payload
  .ok (.ofRaw raw)

/-- `impl From<&LegacyMemInfo> for LegacyMemInfoBuffer` -/
def LegacyMemInfoBuffer.fromLegacyMemInfo (value : LegacyMemInfo) : LegacyMemInfoBuffer where
  receiveQueue := value.receiveQueue
  bottomSendQueue := value.bottomSendQueue
  cache := value.cache
  sendQueue := value.sendQueue

/-- `impl Emitable for LegacyMemInfo` -/
def LegacyMemInfo.emit (P : Platform) (value : LegacyMemInfo) : Writer Empty :=
  .copyFromSlice
    (P.asBytes (LegacyMemInfoBuffer.layout P.order) (.fromLegacyMemInfo value)).toList

structure MemInfoBuffer where
  receiveQueue : UInt32
  receiveQueueMax : UInt32
  bottomSendQueues : UInt32
  sendQueueMax : UInt32
  cache : UInt32
  sendQueue : UInt32
  options : UInt32
  backlogQueueLength : UInt32
  drops : UInt32

def MemInfoBuffer.layout (o : ByteOrder) : Packed MemInfoBuffer :=
  Packed.iso
    (.pair (.u32 o) <| .pair (.u32 o) <| .pair (.u32 o) <| .pair (.u32 o) <| .pair (.u32 o) <|
      .pair (.u32 o) <| .pair (.u32 o) <| .pair (.u32 o) (.u32 o))
    { toFun := fun s => (s.receiveQueue, s.receiveQueueMax, s.bottomSendQueues, s.sendQueueMax,
        s.cache, s.sendQueue, s.options, s.backlogQueueLength, s.drops)
      invFun := fun (receiveQueue, receiveQueueMax, bottomSendQueues, sendQueueMax, cache,
        sendQueue, options, backlogQueueLength, drops) =>
        ⟨receiveQueue, receiveQueueMax, bottomSendQueues, sendQueueMax, cache, sendQueue, options,
        backlogQueueLength, drops⟩
      left_inv := fun _ => rfl
      right_inv := fun _ => rfl }

/-- `INET_DIAG_SKMEMINFO`. The kernel's names are `sk_rmem_alloc`, `sk_rcvbuf`, `sk_wmem_queued`,
    `sk_sndbuf`, `sk_wmem_alloc`, `sk_fwd_alloc`, `sk_optmem`, the backlog and the drops. -/
structure MemInfo where
  receiveQueue : UInt32
  receiveQueueMax : UInt32
  sendQueue : UInt32
  sendQueueMax : UInt32
  bottomSendQueues : UInt32
  cache : UInt32
  options : UInt32
  backlogQueueLength : UInt32
  drops : UInt32

def MemInfo.ofRaw (raw : MemInfoBuffer) : MemInfo where
  receiveQueue := raw.receiveQueue
  receiveQueueMax := raw.receiveQueueMax
  bottomSendQueues := raw.bottomSendQueues
  sendQueueMax := raw.sendQueueMax
  cache := raw.cache
  sendQueue := raw.sendQueue
  options := raw.options
  backlogQueueLength := raw.backlogQueueLength
  drops := raw.drops

/-- `MemInfo::parse` -/
def MemInfo.parse (P : Platform) (payload : Bytes) : Outcome P.DecodeError MemInfo := do
  let raw ← P.readPrefix (MemInfoBuffer.layout P.order) payload
  .ok (.ofRaw raw)

/-- `impl From<&MemInfo> for MemInfoBuffer` -/
def MemInfoBuffer.fromMemInfo (value : MemInfo) : MemInfoBuffer where
  receiveQueue := value.receiveQueue
  receiveQueueMax := value.receiveQueueMax
  bottomSendQueues := value.bottomSendQueues
  sendQueueMax := value.sendQueueMax
  cache := value.cache
  sendQueue := value.sendQueue
  options := value.options
  backlogQueueLength := value.backlogQueueLength
  drops := value.drops

/-- `impl Emitable for MemInfo` -/
def MemInfo.emit (P : Platform) (value : MemInfo) : Writer Empty :=
  .copyFromSlice (P.asBytes (MemInfoBuffer.layout P.order) (.fromMemInfo value)).toList

/-- Where the nine words are. -/
theorem MemInfo.ofRaw_ofBytes (o : ByteOrder) (p : Bytes) :
    MemInfo.ofRaw ((MemInfoBuffer.layout o).ofBytes (p.take 36)) =
      { receiveQueue := Packed.wordAt o p 0
        receiveQueueMax := Packed.wordAt o p 4
        bottomSendQueues := Packed.wordAt o p 8
        sendQueueMax := Packed.wordAt o p 12
        cache := Packed.wordAt o p 16
        sendQueue := Packed.wordAt o p 20
        options := Packed.wordAt o p 24
        backlogQueueLength := Packed.wordAt o p 28
        drops := Packed.wordAt o p 32 } := by
  have hlong : ∀ i, i + 4 ≤ 36 → Packed.wordAt o p i = Packed.wordAt o (p.take 36) i :=
    fun i hi => (Packed.wordAt_take hi).symm
  -- Nothing comes behind the last word, so that is no more than four bytes either way.
  have hlast : ((p.take 36).drop 32).take 4 = (p.take 36).drop 32 :=
    List.take_of_length_le (by rw [List.length_drop, List.length_take]; omega)
  rw [hlong 0 (by decide), hlong 4 (by decide), hlong 8 (by decide), hlong 12 (by decide),
    hlong 16 (by decide), hlong 20 (by decide), hlong 24 (by decide), hlong 28 (by decide),
    hlong 32 (by decide)]
  simp only [MemInfo.ofRaw, MemInfoBuffer.layout, Packed.ofBytes_iso, Packed.ofBytes_pair,
    Equiv.coe_fn_symm_mk, Packed.size_u32, List.drop_drop, List.drop_zero, Packed.wordAt_eq, hlast]

/-! ## The attribute -/

/-- What `Nla::TcpInfo` holds: `TcpInfo` with `rich_nlas`, `Vec<u8>` without. -/
abbrev TcpInfoValue : Bool → Type
  | true => TcpInfo
  | false => Bytes

inductive Nla (rich : Bool) where
  | legacyMemInfo (value : LegacyMemInfo)
  | tcpInfo (value : TcpInfoValue rich)
  /-- The congestion control algorithm. -/
  | congestion (s : String)
  | tos (b : UInt8)
  /-- The traffic class. -/
  | tc (b : UInt8)
  | memInfo (value : MemInfo)
  | shutdown (b : UInt8)
  | protocol (b : UInt8)
  | skV6Only (value : Bool)
  | mark (value : UInt32)
  | classId (value : UInt32)
  | other (attr : DefaultNla)

section Model

variable (P : Platform) {rich : Bool}

/-- The two `TcpInfo` arms of `value_len`. -/
def tcpInfoLen : {rich : Bool} → TcpInfoValue rich → Nat
  | true, _ => (TcpInfoBuffer.layout P.order).size
  | false, bytes => bytes.length

/-- The two `TcpInfo` arms of `emit_value`. -/
def tcpInfoEmit : {rich : Bool} → TcpInfoValue rich → Writer Empty
  | true, value => TcpInfo.emit P value
  | false, bytes => .onPrefix bytes.length (.copyFromSlice bytes)

/-- The two `INET_DIAG_INFO` arms of `parse`. -/
def tcpInfoParse : (rich : Bool) → Bytes → Outcome P.DecodeError (TcpInfoValue rich)
  | true, payload => (TcpInfo.parse P payload).mapErr (P.context "invalid INET_DIAG_INFO value")
  | false, payload => .ok payload

namespace Nla

def valueLen : Nla rich → Nat
  | legacyMemInfo _ => (LegacyMemInfoBuffer.layout P.order).size
  | tcpInfo value => tcpInfoLen P value
  -- +1 because we need to append a null byte
  | congestion s => s.utf8ByteSize + 1
  | tos _ | tc _ | shutdown _ | protocol _ | skV6Only _ => 1
  | memInfo _ => (MemInfoBuffer.layout P.order).size
  | mark _ | classId _ => 4
  | other attr => (P.defaultNla attr).valueLen

def kind : Nla rich → UInt16
  | legacyMemInfo _ => inetDiagMeminfo
  | tcpInfo _ => inetDiagInfo
  | congestion _ => inetDiagCong
  | tos _ => inetDiagTos
  | tc _ => inetDiagTclass
  | memInfo _ => inetDiagSkmeminfo
  | shutdown _ => inetDiagShutdown
  | protocol _ => inetDiagProtocol
  | skV6Only _ => inetDiagSkv6only
  | mark _ => inetDiagMark
  | classId _ => inetDiagClassId
  | other attr => (P.defaultNla attr).kind

def emitValue : Nla rich → Writer Empty
  | legacyMemInfo value => value.emit P
  | tcpInfo value => tcpInfoEmit P value
  | congestion s =>
      .onPrefix s.utf8ByteSize (.copyFromSlice (asBytes s)) >> .set s.utf8ByteSize 0
  -- One byte at index 0, not a copy: these would also write into a longer slice.
  | tos b | tc b | shutdown b | protocol b => .set 0 b
  | skV6Only value => .set 0 (if value then 1 else 0)
  | memInfo value => value.emit P
  | mark value | classId value => (P.emitU32 value).unwrap
  | other attr => (P.defaultNla attr).emitValue

/-- `impl netlink_packet_core::Nla for Nla` -/
def toTrait (nla : Nla rich) : NlaTrait := ⟨nla.valueLen P, nla.kind P, nla.emitValue P⟩

/-- `impl Parseable<NlaBuffer<&T>> for Nla` -/
def parse (buf : P.NlaBuffer) : Outcome P.DecodeError (Nla rich) := do
  let payload ← P.nlaValue buf
  let kind := P.nlaKind buf
  if kind = inetDiagMeminfo then
    legacyMemInfo <$> (LegacyMemInfo.parse P payload).mapErr
      (P.context "invalid INET_DIAG_MEMINFO value")
  else if kind = inetDiagInfo then
    tcpInfo <$> tcpInfoParse P rich payload
  else if kind = inetDiagCong then
    congestion <$> (P.parseString payload).mapErr (P.context "invalid INET_DIAG_CONG value")
  else if kind = inetDiagTos then
    tos <$> (P.parseU8 payload).mapErr (P.context "invalid INET_DIAG_TOS value")
  else if kind = inetDiagTclass then
    tc <$> (P.parseU8 payload).mapErr (P.context "invalid INET_DIAG_TCLASS value")
  else if kind = inetDiagSkmeminfo then
    memInfo <$> (MemInfo.parse P payload).mapErr (P.context "invalid INET_DIAG_SKMEMINFO value")
  else if kind = inetDiagShutdown then
    shutdown <$> (P.parseU8 payload).mapErr (P.context "invalid INET_DIAG_SHUTDOWN value")
  else if kind = inetDiagProtocol then
    protocol <$> (P.parseU8 payload).mapErr (P.context "invalid INET_DIAG_PROTOCOL value")
  else if kind = inetDiagSkv6only then
    (fun b => skV6Only (b != 0)) <$>
      (P.parseU8 payload).mapErr (P.context "invalid INET_DIAG_SKV6ONLY value")
  else if kind = inetDiagMark then
    mark <$> (P.parseU32 payload).mapErr (P.context "invalid INET_DIAG_MARK value")
  else if kind = inetDiagClassId then
    classId <$> (P.parseU32 payload).mapErr (P.context "invalid INET_DIAG_CLASS_ID value")
  else
    other <$> (P.defaultNlaParse buf).mapErr (P.context s!"unknown NLA type {kind}")

end Nla

end Model

end SockDiag.Inet
