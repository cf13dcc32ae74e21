import SockDiag.Constants
import SockDiag.Platform

/-!
# `inet/socket_id.rs` — the identity of an inet socket

What the kernel tells one connection from another by: two ports, two addresses, an interface and a
cookie, in 48 bytes that are the same in a request and in a response. Ports and addresses are in
network order, the interface in host order; whether the sixteen address bytes are an IPv4 address
and twelve bytes of nothing, or an IPv6 address, is decided by the family byte of the struct around
this one.

So there are two ways to lose something here. An address of the other family is written as if it
were of this one, and the twelve bytes of nothing are not read. `AddrFamily` is what an address has
to be not to be lost, `addressOf` what is read of sixteen bytes, and the two meet in
`addressOf_addressBytes_iff` and `addressBytes_of_addressOf`. The decoder of the whole struct is
then the function `ofRaw` on its first 48 bytes (`parseWithParam_eq_ok_iff`): requests and responses
use it by that. Where each byte is, independently of the host, is the subject of
`SockDiag.NetworkOrder`.
-/

set_option autoImplicit false

namespace SockDiag.Inet

open Rust

structure SocketIdBuffer where
  sourcePort : UInt16
  destinationPort : UInt16
  sourceAddress : Vector UInt8 16
  destinationAddress : Vector UInt8 16
  interfaceId : UInt32
  cookie : Vector UInt8 8
deriving DecidableEq, Repr

def SocketIdBuffer.layout (o : ByteOrder) : Packed SocketIdBuffer :=
  Packed.iso
    (.pair (.u16 o) <| .pair (.u16 o) <| .pair (.bytes 16) <| .pair (.bytes 16) <|
      .pair (.u32 o) (.bytes 8))
    { toFun := fun s => (s.sourcePort, s.destinationPort, s.sourceAddress, s.destinationAddress,
        s.interfaceId, s.cookie)
      invFun := fun (sourcePort, destinationPort, sourceAddress, destinationAddress, interfaceId,
        cookie) => ⟨sourcePort, destinationPort, sourceAddress, destinationAddress, interfaceId,
        cookie⟩
      left_inv := fun _ => rfl
      right_inv := fun _ => rfl }

structure SocketId where
  sourcePort : UInt16
  destinationPort : UInt16
  sourceAddress : IpAddr
  destinationAddress : IpAddr
  interfaceId : UInt32
  /-- Opaque; ignored by the kernel when all its bytes are `0xff`. -/
  cookie : Vector UInt8 8
deriving DecidableEq, Repr

def SocketId.newV4 : SocketId where
  sourcePort := 0
  destinationPort := 0
  sourceAddress := .v4 (.new 0 0 0 0)
  destinationAddress := .v4 (.new 0 0 0 0)
  interfaceId := 0
  cookie := .replicate 8 0

def SocketId.newV6 : SocketId where
  sourcePort := 0
  destinationPort := 0
  sourceAddress := .v6 ⟨.replicate 16 0⟩
  destinationAddress := .v6 ⟨.replicate 16 0⟩
  interfaceId := 0
  cookie := .replicate 8 0

/-- The `match af` of `parse_with_param`: both addresses, in the family of `af`. -/
def SocketId.parseAddresses (P : Platform) (raw : SocketIdBuffer) (af : UInt8) :
    Outcome P.DecodeError (IpAddr × IpAddr) :=
  -- Of the sixteen bytes an IPv4 address is the first four; the others are not looked at.
  if af = afInet then
    let source := IpAddr.v4 (.new raw.sourceAddress[0] raw.sourceAddress[1]
      raw.sourceAddress[2] raw.sourceAddress[3])
    let destination := IpAddr.v4 (.new raw.destinationAddress[0] raw.destinationAddress[1]
      raw.destinationAddress[2] raw.destinationAddress[3])
    .ok (source, destination)
  else if af = afInet6 then
    let source := IpAddr.v6 ⟨raw.sourceAddress⟩
    let destination := IpAddr.v6 ⟨raw.destinationAddress⟩
    .ok (source, destination)
  else
    .err (P.decodeError
      s!"unsupported address family {af}: expected AF_INET ({afInet}) or AF_INET6 ({afInet6})")

/-- `impl ParseableParametrized<[u8], u8> for SocketId` -/
def SocketId.parseWithParam (P : Platform) (payload : Bytes) (af : UInt8) :
    Outcome P.DecodeError SocketId := do
  let raw ← P.readPrefix (SocketIdBuffer.layout P.order) payload
  let (sourceAddress, destinationAddress) ← parseAddresses P raw af
  .ok
    { sourcePort := fromBe P.order raw.sourcePort
      destinationPort := fromBe P.order raw.destinationPort
      sourceAddress
      destinationAddress
      interfaceId := raw.interfaceId
      cookie := raw.cookie }

/-- The sixteen bytes an address takes: all of them, or four and twelve zeros. -/
def addressBytes : IpAddr → Vector UInt8 16
  | .v4 ip => (ip.octets ++ (Vector.replicate 12 0 : Vector UInt8 12) : Vector UInt8 (4 + 12))
  | .v6 ip => ip.octets

/-- `impl From<&SocketId> for SocketIdBuffer` -/
def SocketIdBuffer.fromSocketId (o : ByteOrder) (value : SocketId) : SocketIdBuffer where
  sourcePort := fromBe o value.sourcePort
  destinationPort := fromBe o value.destinationPort
  sourceAddress := addressBytes value.sourceAddress
  destinationAddress := addressBytes value.destinationAddress
  interfaceId := value.interfaceId
  cookie := value.cookie

/-- `impl Emitable for SocketId` -/
def SocketId.emit (P : Platform) (s : SocketId) : Writer Empty :=
  .copyFromSlice (P.asBytes (SocketIdBuffer.layout P.order) (.fromSocketId P.order s)).toList

/-! ## What decoding and encoding do to the struct

`SocketId.ofRaw` is the decoder without its errors and without its bytes: from the packed struct to
the socket, under a family. -/

/-- The family an address is written in. -/
def AddrFamily (af : UInt8) : IpAddr → Prop
  | .v4 _ => af = afInet
  | .v6 _ => af = afInet6

instance (af : UInt8) (ip : IpAddr) : Decidable (AddrFamily af ip) := by
  cases ip <;> exact inferInstanceAs (Decidable (_ = _))

/-- The address a family reads out of sixteen bytes. -/
def addressOf (af : UInt8) (raw : Vector UInt8 16) : Option IpAddr :=
  if af = afInet then some (.v4 (.new raw[0] raw[1] raw[2] raw[3]))
  else if af = afInet6 then some (.v6 ⟨raw⟩)
  else none

def SocketId.ofRaw (o : ByteOrder) (af : UInt8) (raw : SocketIdBuffer) : Option SocketId := do
  let sourceAddress ← addressOf af raw.sourceAddress
  let destinationAddress ← addressOf af raw.destinationAddress
  some
    { sourcePort := fromBe o raw.sourcePort
      destinationPort := fromBe o raw.destinationPort
      sourceAddress
      destinationAddress
      interfaceId := raw.interfaceId
      cookie := raw.cookie }

@[simp] theorem SocketIdBuffer.size_layout (o : ByteOrder) : (SocketIdBuffer.layout o).size = 48 := rfl

section Addresses

variable {af : UInt8} {ip : IpAddr} {raw : Vector UInt8 16}

/-- The four bytes in front are the address. -/
theorem new_addressBytes (ip : Ipv4Addr) :
    Ipv4Addr.new (addressBytes (.v4 ip))[0] (addressBytes (.v4 ip))[1] (addressBytes (.v4 ip))[2]
      (addressBytes (.v4 ip))[3] = ip := by
  have h : ∀ i (hi : i < 4), (addressBytes (.v4 ip))[i] = ip.octets[i] := by
    intro i hi
    show (ip.octets ++ _)[i] = _
    exact Vector.getElem_append_left hi
  rw [h 0 (by decide), h 1 (by decide), h 2 (by decide), h 3 (by decide)]
  obtain ⟨octets⟩ := ip
  unfold Ipv4Addr.new
  congr 1
  apply Vector.ext
  intro i hi
  match i, hi with
  | 0, _ => rfl
  | 1, _ => rfl
  | 2, _ => rfl
  | 3, _ => rfl

/-- What an address's sixteen bytes read back as. -/
theorem addressOf_addressBytes_iff : addressOf af (addressBytes ip) = some ip ↔ AddrFamily af ip := by
  have hne : afInet6 ≠ afInet := by decide
  unfold addressOf AddrFamily
  cases ip with
  | v4 ip =>
    by_cases h : af = afInet
    · rw [if_pos h, new_addressBytes]
      exact iff_of_true rfl h
    · by_cases h6 : af = afInet6 <;> simp [h, h6, hne]
  | v6 ip =>
    by_cases h : af = afInet
    · simp [h, hne.symm]
    · by_cases h6 : af = afInet6 <;> simp [h6, hne, h, addressBytes]

/-- An address that was read is one of the family it was read under. -/
theorem addrFamily_of_addressOf (h : addressOf af raw = some ip) : AddrFamily af ip := by
  unfold addressOf at h
  split at h
  · rename_i h4
    obtain rfl := Option.some.inj h
    exact h4
  split at h
  · rename_i h6
    obtain rfl := Option.some.inj h
    exact h6
  · exact absurd h (by simp)

theorem addressOf_isSome_iff (raw : Vector UInt8 16) :
    (addressOf af raw).isSome ↔ af = afInet ∨ af = afInet6 := by
  have hne : afInet6 ≠ afInet := by decide
  unfold addressOf
  by_cases h : af = afInet
  · simp [h]
  · by_cases h6 : af = afInet6 <;> simp [h, h6, hne]

/-- Encoding a decoded address loses the last twelve bytes of an IPv4 one. -/
theorem addressBytes_of_addressOf (h : addressOf af raw = some ip) :
    (addressBytes ip).toList =
      if af = afInet then raw.toList.take 4 ++ List.replicate 12 0 else raw.toList := by
  unfold addressOf at h
  by_cases h4 : af = afInet
  · rw [if_pos h4] at h ⊢
    obtain rfl := Option.some.inj h
    obtain ⟨⟨l⟩, hl⟩ := raw
    obtain ⟨a, b, c, d, t, rfl⟩ : ∃ a b c d t, l = a :: b :: c :: d :: t := by
      match l, hl with
      | a :: b :: c :: d :: t, _ => exact ⟨a, b, c, d, t, rfl⟩
    rfl
  · rw [if_neg h4] at h ⊢
    by_cases h6 : af = afInet6
    · rw [if_pos h6] at h
      obtain rfl := Option.some.inj h
      rfl
    · rw [if_neg h6] at h
      exact absurd h (by simp)

end Addresses

namespace SocketId

variable {o : ByteOrder} {af : UInt8} {s : SocketId} {raw : SocketIdBuffer}

theorem ofRaw_eq_some : ofRaw o af raw = some s ↔
    addressOf af raw.sourceAddress = some s.sourceAddress ∧
    addressOf af raw.destinationAddress = some s.destinationAddress ∧
    fromBe o raw.sourcePort = s.sourcePort ∧ fromBe o raw.destinationPort = s.destinationPort ∧
    raw.interfaceId = s.interfaceId ∧ raw.cookie = s.cookie := by
  unfold ofRaw
  cases hs : addressOf af raw.sourceAddress with
  | none => simp
  | some src =>
    cases hd : addressOf af raw.destinationAddress with
    | none => simp
    | some dst =>
      obtain ⟨sp, dp, sa, da, i, c⟩ := s
      simp only [Option.bind_eq_bind, Option.bind_some, Option.some.injEq, SocketId.mk.injEq]
      refine ⟨?_, ?_⟩
      · intro h
        obtain ⟨hsp, hdp, hsa, hda, hi, hc⟩ := h
        exact ⟨hsa, hda, hsp, hdp, hi, hc⟩
      · intro h
        obtain ⟨hsa, hda, hsp, hdp, hi, hc⟩ := h
        exact ⟨hsp, hdp, hsa, hda, hi, hc⟩

/-- A socket comes back from its own struct when both its addresses are of the family. -/
theorem ofRaw_fromSocketId_iff : ofRaw o af (.fromSocketId o s) = some s ↔
    AddrFamily af s.sourceAddress ∧ AddrFamily af s.destinationAddress := by
  rw [ofRaw_eq_some]
  simp [SocketIdBuffer.fromSocketId, addressOf_addressBytes_iff]

theorem ofRaw_isSome_iff (raw : SocketIdBuffer) :
    (ofRaw o af raw).isSome ↔ af = afInet ∨ af = afInet6 := by
  rw [← addressOf_isSome_iff raw.sourceAddress]
  unfold ofRaw
  cases hs : addressOf af raw.sourceAddress with
  | none => simp
  | some src =>
    have hd : (addressOf af raw.destinationAddress).isSome :=
      (addressOf_isSome_iff _).mpr ((addressOf_isSome_iff _).mp (Option.isSome_of_eq_some hs))
    obtain ⟨dst, hd⟩ := Option.isSome_iff_exists.mp hd
    simp [hd]

/-- What is decoded around a socket is decoded under either family. -/
theorem exists_ofRaw_map_iff {R : Type} {f : SocketId → R} :
    (∃ r, (do let s ← ofRaw o af raw; some (f s)) = some r) ↔ af = afInet ∨ af = afInet6 := by
  rw [← ofRaw_isSome_iff (o := o) raw, Option.isSome_iff_exists]
  refine ⟨?_, ?_⟩
  · intro hd
    obtain ⟨r, h⟩ := hd
    obtain ⟨s, hs, -⟩ := Option.bind_eq_some_iff.mp h
    exact ⟨s, hs⟩
  · intro hd
    obtain ⟨s, hs⟩ := hd
    exact ⟨f s, by rw [hs]; rfl⟩

theorem parseAddresses_returns (P : Platform) : (parseAddresses P raw af).Returns := by
  unfold parseAddresses
  split
  · exact Outcome.returns_ok _
  · split
    · exact Outcome.returns_ok _
    · exact Outcome.returns_err _

theorem parseAddresses_eq_ok_iff {P : Platform} {src dst : IpAddr} :
    parseAddresses P raw af = .ok (src, dst) ↔
      addressOf af raw.sourceAddress = some src ∧ addressOf af raw.destinationAddress = some dst := by
  unfold parseAddresses addressOf
  by_cases h4 : af = afInet
  · simp [h4]
  · by_cases h6 : af = afInet6
    · have hne : afInet6 ≠ afInet := by decide
      simp [h6, hne]
    · simp [h4, h6]

variable (P : Platform)

theorem parseWithParam_returns (payload : Bytes) : (parseWithParam P payload af).Returns := by
  unfold parseWithParam
  refine (P.readPrefix_returns).bind fun raw _ => ?_
  exact (parseAddresses_returns P).bind fun _ _ => Outcome.returns_ok _

variable [P.Lawful]

/-- A socket written into the bytes of another struct comes back from there under the same
    condition. -/
theorem ofRaw_asBytes_iff :
    ofRaw P.order af ((SocketIdBuffer.layout P.order).ofBytes
      (P.asBytes (SocketIdBuffer.layout P.order) (.fromSocketId P.order s)).toList) = some s ↔
      AddrFamily af s.sourceAddress ∧ AddrFamily af s.destinationAddress := by
  rw [P.toList_asBytes, Packed.ofBytes_toBytes]
  exact ofRaw_fromSocketId_iff

/-- **The decoder is `ofRaw` on the first 48 bytes.** -/
theorem parseWithParam_eq_ok_iff {payload : Bytes} :
    parseWithParam P payload af = .ok s ↔
      48 ≤ payload.length ∧
      ofRaw P.order af ((SocketIdBuffer.layout P.order).ofBytes (payload.take 48)) = some s := by
  unfold parseWithParam
  simp only [Outcome.bind_eq_ok, P.readPrefix_eq_ok_iff, SocketIdBuffer.size_layout, ofRaw_eq_some]
  refine ⟨?_, ?_⟩
  · intro h
    obtain ⟨raw, ⟨hlen, rfl⟩, ⟨src, dst⟩, haddr, hs⟩ := h
    obtain ⟨hsrc, hdst⟩ := parseAddresses_eq_ok_iff.mp haddr
    obtain rfl := Outcome.ok.inj hs
    exact ⟨hlen, hsrc, hdst, rfl, rfl, rfl, rfl⟩
  · intro h
    obtain ⟨hlen, hsrc, hdst, hsp, hdp, hi, hc⟩ := h
    refine ⟨_, ⟨hlen, rfl⟩, _, parseAddresses_eq_ok_iff.mpr ⟨hsrc, hdst⟩, ?_⟩
    obtain ⟨sp, dp, sa, da, i, c⟩ := s
    simp only at hsp hdp hi hc
    subst hsp hdp hi hc
    rfl

end SocketId

end SockDiag.Inet
