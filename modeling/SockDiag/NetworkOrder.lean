import SockDiag.Inet.SocketId
import SockDiag.Platform.Reference

/-!
# Network order

Of the 48 bytes of a socket only the interface is in the order of the host. Everything else is where
`NetworkOrder` says, which does not know the host: an encoder puts it there
(`SocketId.networkOrder_socketBytes`) and a decoder takes it from there
(`SocketId.parseWithParam_iff`), so what one host writes another reads.

The code gets there by two roads. Ports are swapped on a host that needs it, with `to_be` and
`from_be`; addresses and the cookie are arrays of bytes, and are never swapped. The statement has no
swap in it, only bytes at positions, and `socketId_networkOrder` puts it together for two hosts,
each of either order: what one writes for a socket the other decodes as the same ports, addresses
and cookie.
-/

set_option autoImplicit false

namespace SockDiag

namespace Inet

open Rust

/-! ## Addresses -/

/-- The bytes of an address, four of them or sixteen. -/
def octets : IpAddr → Bytes
  | .v4 ip => ip.octets.toList
  | .v6 ip => ip.octets.toList

/-- An address with the zeros it is filled up with to sixteen bytes. -/
def paddedOctets (ip : IpAddr) : Bytes :=
  octets ip ++ List.replicate (16 - (octets ip).length) 0

/-- How many bytes an address has is a matter of its family. -/
theorem length_octets {af : UInt8} {ip : IpAddr} (h : AddrFamily af ip) :
    (octets ip).length = if af = afInet then 4 else 16 := by
  cases ip with
  | v4 ip =>
    have h4 : af = afInet := h
    rw [if_pos h4]
    exact Vector.length_toList
  | v6 ip =>
    have h6 : af = afInet6 := h
    rw [if_neg (by rw [h6]; decide)]
    exact Vector.length_toList

theorem toList_addressBytes (ip : IpAddr) : (addressBytes ip).toList = paddedOctets ip := by
  cases ip with
  | v4 ip =>
    have hlen : (octets (.v4 ip)).length = 4 := Vector.length_toList
    show (ip.octets ++ (Vector.replicate 12 0 : Vector UInt8 12) : Vector UInt8 (4 + 12)).toList = _
    unfold paddedOctets
    rw [Vector.toList_append, Vector.toList_replicate, hlen]
    rfl
  | v6 ip =>
    have hlen : (octets (.v6 ip)).length = 16 := Vector.length_toList
    unfold paddedOctets
    rw [hlen]
    exact (List.append_nil _).symm

theorem length_paddedOctets (ip : IpAddr) : (paddedOctets ip).length = 16 := by
  rw [← toList_addressBytes]
  exact Vector.length_toList

/-- The bytes of an address are the first of the sixteen it has room for. -/
theorem take_slice_octets (b : Bytes) (lo : Nat) (ip : IpAddr) :
    (slice b lo (lo + 16)).take (octets ip).length = slice b lo (lo + (octets ip).length) := by
  have hle : (octets ip).length ≤ 16 := by
    rw [← length_paddedOctets ip]
    unfold paddedOctets
    rw [List.length_append]
    exact Nat.le_add_right _ _
  exact take_slice (Nat.add_le_add_left hle lo) b

/-- Two addresses of one family are told apart by their bytes. -/
theorem octets_inj {af : UInt8} {ip ip' : IpAddr} (h : AddrFamily af ip) (h' : AddrFamily af ip')
    (hoctets : octets ip = octets ip') : ip = ip' := by
  have hne : afInet ≠ afInet6 := by decide
  cases ip with
  | v4 ip =>
    cases ip' with
    | v4 ip' => exact congrArg (IpAddr.v4 ⟨·⟩) (Vector.toList_inj.mp hoctets)
    | v6 ip' => exact absurd (h.symm.trans h') hne
  | v6 ip =>
    cases ip' with
    | v4 ip' => exact absurd (h'.symm.trans h) hne
    | v6 ip' => exact congrArg (IpAddr.v6 ⟨·⟩) (Vector.toList_inj.mp hoctets)

/-- The bytes an address is read from are its own. -/
theorem take_of_addressOf {af : UInt8} {raw : Vector UInt8 16} {ip : IpAddr}
    (h : addressOf af raw = some ip) : raw.toList.take (octets ip).length = octets ip := by
  have hbytes := addressBytes_of_addressOf h
  have hpadded : (paddedOctets ip).take (octets ip).length = octets ip := List.take_left
  rw [toList_addressBytes] at hbytes
  rw [hbytes] at hpadded
  have hlen := length_octets (addrFamily_of_addressOf h)
  by_cases h4 : af = afInet
  · -- Of an IPv4 address the zeros behind it are not among them.
    rw [if_pos h4] at hpadded hlen
    rwa [hlen, List.take_left' (by simp), ← hlen] at hpadded
  · rwa [if_neg h4] at hpadded

/-- **An address is read where its bytes are**, under its own family. -/
theorem addressOf_eq_some_iff {af : UInt8} {raw : Vector UInt8 16} {ip : IpAddr} :
    addressOf af raw = some ip ↔
      AddrFamily af ip ∧ raw.toList.take (octets ip).length = octets ip := by
  refine ⟨?_, ?_⟩
  · intro h
    exact ⟨addrFamily_of_addressOf h, take_of_addressOf h⟩
  · intro h
    obtain ⟨hfamily, hoctets⟩ := h
    have haf : af = afInet ∨ af = afInet6 := by
      cases ip with
      | v4 ip => exact .inl hfamily
      | v6 ip => exact .inr hfamily
    obtain ⟨ip', hip⟩ := Option.isSome_iff_exists.mp ((addressOf_isSome_iff raw).mpr haf)
    have hfamily' := addrFamily_of_addressOf hip
    have hoctets' := take_of_addressOf hip
    rw [length_octets hfamily', ← length_octets hfamily, hoctets] at hoctets'
    rw [hip, octets_inj hfamily hfamily' hoctets']

/-! ## The socket -/

/-- The fields that are in network order, where they are. -/
structure NetworkOrder (s : SocketId) (b : Bytes) : Prop where
  sourcePort : slice b 0 2 = beBytes s.sourcePort
  destinationPort : slice b 2 4 = beBytes s.destinationPort
  sourceAddress : slice b 4 (4 + (octets s.sourceAddress).length) = octets s.sourceAddress
  destinationAddress :
    slice b 20 (20 + (octets s.destinationAddress).length) = octets s.destinationAddress
  cookie : slice b 40 48 = s.cookie.toList

/-- The first 36 bytes of a socket, the same on every host. -/
def networkBytes (s : SocketId) : Bytes :=
  beBytes s.sourcePort ++ (beBytes s.destinationPort ++
    (paddedOctets s.sourceAddress ++ paddedOctets s.destinationAddress))

/-- The 48 bytes of a socket: the interface is in host order. -/
def socketBytes (o : ByteOrder) (s : SocketId) : Bytes :=
  networkBytes s ++ ((Packed.u32 o).toBytes s.interfaceId ++ s.cookie.toList)

namespace SocketId

section Bytes

variable {o : ByteOrder} {s : SocketId} {b : Bytes}

theorem toBytes_fromSocketId : (SocketIdBuffer.layout o).toBytes (.fromSocketId o s) =
    socketBytes o s := by
  show (Packed.u16 o).toBytes (fromBe o s.sourcePort) ++
    ((Packed.u16 o).toBytes (fromBe o s.destinationPort) ++
      ((addressBytes s.sourceAddress).toList ++ ((addressBytes s.destinationAddress).toList ++
        ((Packed.u32 o).toBytes s.interfaceId ++ s.cookie.toList)))) = _
  unfold socketBytes networkBytes
  rw [toBytes_fromBe, toBytes_fromBe, toList_addressBytes, toList_addressBytes]
  simp only [List.append_assoc]

@[simp] theorem length_socketBytes : (socketBytes o s).length = 48 := by
  rw [← toBytes_fromSocketId]
  exact Packed.length_toBytes _ _

/-- Where the six fields are, in 48 bytes with or without something behind them. -/
theorem slices_of_take {sp dp src dst id cookie : Bytes}
    (hb : b.take 48 = sp ++ (dp ++ (src ++ (dst ++ (id ++ cookie))))) (hsp : sp.length = 2)
    (hdp : dp.length = 2) (hsrc : src.length = 16) (hdst : dst.length = 16) (hid : id.length = 4)
    (hcookie : cookie.length = 8) :
    slice b 0 2 = sp ∧ slice b 2 4 = dp ∧ slice b 4 20 = src ∧ slice b 20 36 = dst ∧
      slice b 36 40 = id ∧ slice b 40 48 = cookie := by
  have hslice : ∀ lo hi, hi ≤ 48 → slice b lo hi = slice (b.take 48) lo hi :=
    fun _ _ hhi => (slice_take hhi b).symm
  have e1 : slice ([] ++ (sp ++ (dp ++ (src ++ (dst ++ (id ++ cookie)))))) 0 2 = sp :=
    slice_append List.length_nil (by rw [hsp]) _
  have e2 : slice (sp ++ (dp ++ (src ++ (dst ++ (id ++ cookie))))) 2 4 = dp :=
    slice_append hsp (by omega) _
  have e3 : slice ((sp ++ dp) ++ (src ++ (dst ++ (id ++ cookie)))) 4 20 = src :=
    slice_append (by simp [hsp, hdp]) (by omega) _
  have e4 : slice ((sp ++ (dp ++ src)) ++ (dst ++ (id ++ cookie))) 20 36 = dst :=
    slice_append (by simp [hsp, hdp, hsrc]) (by omega) _
  have e5 : slice ((sp ++ (dp ++ (src ++ dst))) ++ (id ++ cookie)) 36 40 = id :=
    slice_append (by simp [hsp, hdp, hsrc, hdst]) (by omega) _
  have e6 : slice ((sp ++ (dp ++ (src ++ (dst ++ id)))) ++ (cookie ++ [])) 40 48 = cookie :=
    slice_append (by simp [hsp, hdp, hsrc, hdst, hid]) (by omega) _
  simp only [List.append_assoc, List.nil_append, List.append_nil] at e1 e2 e3 e4 e5 e6
  rw [hslice 0 2 (by decide), hslice 2 4 (by decide), hslice 4 20 (by decide),
    hslice 20 36 (by decide), hslice 36 40 (by decide), hslice 40 48 (by decide), hb]
  exact ⟨e1, e2, e3, e4, e5, e6⟩

/-- **An encoder puts every field where network order says.** -/
theorem networkOrder_socketBytes : NetworkOrder s (socketBytes o s) ∧
    slice (socketBytes o s) 36 40 = (Packed.u32 o).toBytes s.interfaceId := by
  have hcut : (socketBytes o s).take 48 = beBytes s.sourcePort ++ (beBytes s.destinationPort ++
      (paddedOctets s.sourceAddress ++ (paddedOctets s.destinationAddress ++
        ((Packed.u32 o).toBytes s.interfaceId ++ s.cookie.toList)))) := by
    rw [List.take_of_length_le (Nat.le_of_eq length_socketBytes)]
    unfold socketBytes networkBytes
    simp only [List.append_assoc]
  obtain ⟨hsp, hdp, hsrc, hdst, hid, hcookie⟩ := slices_of_take hcut rfl rfl
    (length_paddedOctets _) (length_paddedOctets _) (Packed.length_toBytes _ _) Vector.length_toList
  have hoctets : ∀ lo ip, slice (socketBytes o s) lo (lo + 16) = paddedOctets ip →
      slice (socketBytes o s) lo (lo + (octets ip).length) = octets ip := by
    intro lo ip h
    rw [← take_slice_octets, h]
    exact List.take_left
  exact ⟨⟨hsp, hdp, hoctets 4 _ hsrc, hoctets 20 _ hdst, hcookie⟩, hid⟩

end Bytes

variable (P : Platform) [P.Lawful] {af : UInt8} {s : SocketId} {b : Bytes}

theorem emit_run (s : SocketId) {buf : Bytes} (hbuf : buf.length = 48) :
    (s.emit P).run buf = .ok (socketBytes P.order s) := by
  unfold SocketId.emit
  rw [P.toList_asBytes, toBytes_fromSocketId]
  exact Writer.fills_copyFromSlice _ buf (hbuf.trans length_socketBytes.symm)

/-- **A decoder takes every field from where network order says.** -/
theorem parseWithParam_iff :
    parseWithParam P b af = .ok s ↔
      48 ≤ b.length ∧ AddrFamily af s.sourceAddress ∧ AddrFamily af s.destinationAddress ∧
        NetworkOrder s b ∧ s.interfaceId = Packed.wordAt P.order b 36 := by
  rw [parseWithParam_eq_ok_iff]
  refine and_congr_right fun hlen => ?_
  have hraw := (SocketIdBuffer.layout P.order).toBytes_ofBytes (b.take 48)
    (by rw [List.length_take, Nat.min_eq_left hlen, SocketIdBuffer.size_layout])
  generalize (SocketIdBuffer.layout P.order).ofBytes (b.take 48) = raw at hraw ⊢
  have hcut : b.take 48 = (Packed.u16 P.order).toBytes raw.sourcePort ++
      ((Packed.u16 P.order).toBytes raw.destinationPort ++ (raw.sourceAddress.toList ++
        (raw.destinationAddress.toList ++ ((Packed.u32 P.order).toBytes raw.interfaceId ++
          raw.cookie.toList)))) := hraw.symm
  obtain ⟨hsp, hdp, hsrc, hdst, hid, hcookie⟩ := slices_of_take hcut (Packed.length_toBytes _ _)
    (Packed.length_toBytes _ _) Vector.length_toList Vector.length_toList
    (Packed.length_toBytes _ _) Vector.length_toList
  have hword : Packed.wordAt P.order b 36 = raw.interfaceId := by
    unfold Packed.wordAt
    rw [hid, Packed.ofBytes_toBytes]
  have haddress : ∀ lo (v : Vector UInt8 16) (ip : IpAddr), slice b lo (lo + 16) = v.toList →
      (addressOf af v = some ip ↔
        AddrFamily af ip ∧ slice b lo (lo + (octets ip).length) = octets ip) := by
    intro lo v ip h
    rw [addressOf_eq_some_iff, ← h, take_slice_octets]
  rw [ofRaw_eq_some, haddress 4 _ _ hsrc, haddress 20 _ _ hdst, ← toBytes_eq_beBytes_iff, ← hsp,
    ← toBytes_eq_beBytes_iff, ← hdp, ← Vector.toList_inj, ← hcookie, hword]
  refine ⟨?_, ?_⟩
  · intro h
    obtain ⟨⟨hf, hs⟩, ⟨hf', hd⟩, hp, hq, hi, hc⟩ := h
    exact ⟨hf, hf', ⟨hp, hq, hs, hd, hc⟩, hi.symm⟩
  · intro h
    obtain ⟨hf, hf', hn, hi⟩ := h
    exact ⟨⟨hf, hn.sourceAddress⟩, ⟨hf', hn.destinationAddress⟩, hn.sourcePort, hn.destinationPort,
      hi.symm, hn.cookie⟩

end SocketId

end Inet

open Rust Inet

/-- **Ports, addresses and cookies are in network order on every host.** Each host puts them where
    every other looks for them; a decoder takes them from there under either family and no other;
    and a socket written by one host is read by another as it was, but for the interface. -/
theorem socketId_networkOrder (P : Platform) [P.Lawful] :
    (∀ (s : SocketId) (buf : Bytes), buf.length = 48 →
      (s.emit P).run buf = .ok (socketBytes P.order s) ∧ NetworkOrder s (socketBytes P.order s)) ∧
    (∀ (b : Bytes) (af : UInt8), 48 ≤ b.length →
      ((∃ s, SocketId.parseWithParam P b af = .ok s) ↔ af = afInet ∨ af = afInet6) ∧
      ∀ s, SocketId.parseWithParam P b af = .ok s →
        s.sourcePort.toNat = 256 * (b.getD 0 0).toNat + (b.getD 1 0).toNat ∧
        s.destinationPort.toNat = 256 * (b.getD 2 0).toNat + (b.getD 3 0).toNat ∧
        AddrFamily af s.sourceAddress ∧ AddrFamily af s.destinationAddress ∧ NetworkOrder s b) ∧
    ∀ (Q : Platform) [Q.Lawful] (s : SocketId) (af : UInt8), AddrFamily af s.sourceAddress →
      AddrFamily af s.destinationAddress → ∀ buf : Bytes, buf.length = 48 →
      ∃ out s', (s.emit P).run buf = .ok out ∧ SocketId.parseWithParam Q out af = .ok s' ∧
        s'.sourcePort = s.sourcePort ∧ s'.destinationPort = s.destinationPort ∧
        s'.sourceAddress = s.sourceAddress ∧ s'.destinationAddress = s.destinationAddress ∧
        s'.cookie = s.cookie := by
  refine ⟨?_, ?_, ?_⟩
  · intro s buf hbuf
    exact ⟨SocketId.emit_run P s hbuf, SocketId.networkOrder_socketBytes.1⟩
  · intro b af hlen
    refine ⟨?_, ?_⟩
    · simp only [SocketId.parseWithParam_eq_ok_iff, and_iff_right hlen]
      rw [← Option.isSome_iff_exists, SocketId.ofRaw_isSome_iff]
    · intro s hs
      obtain ⟨-, hsrc, hdst, hn, -⟩ := (SocketId.parseWithParam_iff P).mp hs
      exact ⟨toNat_of_slice hn.sourcePort, toNat_of_slice hn.destinationPort, hsrc,
        hdst, hn⟩
  · intro Q _ s af hsrc hdst buf hbuf
    -- The other host reads the same, but for the interface.
    let s' : SocketId := { s with interfaceId := Packed.wordAt Q.order (socketBytes P.order s) 36 }
    have hn : NetworkOrder s (socketBytes P.order s) := SocketId.networkOrder_socketBytes.1
    have hn' : NetworkOrder s' (socketBytes P.order s) :=
      ⟨hn.sourcePort, hn.destinationPort, hn.sourceAddress, hn.destinationAddress, hn.cookie⟩
    refine ⟨_, s', SocketId.emit_run P s hbuf, ?_, rfl, rfl, rfl, rfl, rfl⟩
    exact (SocketId.parseWithParam_iff Q).mpr
      ⟨Nat.le_of_eq SocketId.length_socketBytes.symm, hsrc, hdst, hn', rfl⟩

/-- A connection to the port 443, seen from a little-endian host. -/
def connection : SocketId where
  sourcePort := 50000
  destinationPort := 443
  sourceAddress := .v4 (.new 10 0 0 1)
  destinationAddress := .v4 (.new 10 0 0 2)
  interfaceId := 1
  cookie := .replicate 8 0xff

/-- A big-endian host reads the same ports and addresses. -/
theorem connection_networkOrder :
    ∃ out s', (connection.emit (.reference .little)).run (List.replicate 48 0) = .ok out ∧
      SocketId.parseWithParam (.reference .big) out afInet = .ok s' ∧ s'.sourcePort = 50000 ∧
      s'.destinationPort = 443 ∧ s'.sourceAddress = .v4 (.new 10 0 0 1) := by
  obtain ⟨-, -, hcross⟩ := socketId_networkOrder (.reference .little)
  obtain ⟨out, s', hout, hs', hsp, hdp, hsrc, -⟩ := hcross (.reference .big) connection afInet rfl rfl
    (List.replicate 48 0) List.length_replicate
  exact ⟨out, s', hout, hs', hsp, hdp, hsrc⟩

end SockDiag
