import SockDiag.RequestCodecs
import SockDiag.Requests

/-!
# Asking for the socket of a response

A program that has a response asks for more of the socket, or for it to be destroyed, by what the
response says of it: an inet socket goes by its id, a unix socket by its inode and cookie. What the
kernel finds the socket by are bytes, and `sockets_named` says the bytes are the ones it sent.

Between the two there is a decoder, a struct with ports as numbers and addresses as addresses, and
an encoder. All of it is undone but for one thing: the twelve bytes behind an IPv4 address are not
kept, so they are cleared in what is sent (`canonSocket`), and the kernel does not look at them. In
a unix request the inode and the cookie are at other places than in the response; they are the same
bytes there. As a query or to destroy the socket, the request is the same but for its message type.
-/

set_option autoImplicit false

namespace SockDiag

open Rust Inet Unix

/-- The 48 bytes of an id as they are written after having been read. The unused bytes of an IPv4
    address are cleared. -/
def canonSocket (family : UInt8) (b : Bytes) : Bytes :=
  blankIf (family = afInet) 8 20 <| blankIf (family = afInet) 24 36 b

/-- `canonSocket` on an id cut where it cuts it. -/
theorem canonSocket_append {family : UInt8} {ports src src' dst dst' rest : Bytes}
    (hports : ports.length = 4) (hsrc : src.length = 4) (hsrc' : src'.length = 12)
    (hdst : dst.length = 4) (hdst' : dst'.length = 12) :
    canonSocket family (ports ++ (src ++ (src' ++ (dst ++ (dst' ++ rest))))) =
      ports ++ (src ++ ((if family = afInet then List.replicate 12 0 else src') ++ (dst ++
        ((if family = afInet then List.replicate 12 0 else dst') ++ rest)))) := by
  have e1 := blankIf_append (c := family = afInet) 24 36 (x := ports ++ (src ++ (src' ++ dst)))
    (y := dst') (by simp [hports, hsrc, hsrc', hdst]) (by rw [hdst']) rest
  have e2 := blankIf_append (c := family = afInet) 8 20 (x := ports ++ src) (y := src')
    (by simp [hports, hsrc]) (by rw [hsrc'])
    (dst ++ ((if family = afInet then List.replicate 12 0 else dst') ++ rest))
  rw [hdst'] at e1
  rw [hsrc'] at e2
  simp only [List.append_assoc] at e1 e2
  show blankIf (family = afInet) 8 20 (blankIf (family = afInet) 24 36 _) = _
  rw [e1, e2]

section Sockets

variable {P : Platform} [P.Lawful] {rich : Bool} {b : Bytes}

/-- The id of a response, and the bytes it was read from. -/
theorem socketId_of_parse {r : InetResponse rich} (h : InetResponse.parse P b = .ok r) :
    b.head? = some r.header.family ∧ (slice b 4 52).length = 48 ∧
      SocketId.ofRaw P.order r.header.family
        ((SocketIdBuffer.layout P.order).ofBytes (slice b 4 52)) = some r.header.socketId := by
  obtain ⟨hlen, hread, -⟩ := (InetResponse.implements P).parse_eq_ok_iff.mp h
  have hle : 72 ≤ b.length := hlen
  have hraw := (InetResponseBuffer.layout P.order).toBytes_ofBytes (b.take 72)
    (by rw [List.length_take]; exact Nat.min_eq_left hle)
  change InetResponseHeader.ofRaw P.order ((InetResponseBuffer.layout P.order).ofBytes (b.take 72)) =
    some r.header at hread
  generalize (InetResponseBuffer.layout P.order).ofBytes (b.take 72) = raw at hraw hread
  have hcut : b.take 72 = [raw.family, raw.state, raw.timer, raw.retransmits] ++
      (raw.socketId.toList ++ ((Packed.u32 P.order).toBytes raw.expires ++
        ((Packed.u32 P.order).toBytes raw.recvQueue ++ ((Packed.u32 P.order).toBytes raw.sendQueue ++
          ((Packed.u32 P.order).toBytes raw.uid ++ (Packed.u32 P.order).toBytes raw.inode))))) :=
    hraw.symm
  have hsocket : slice b 4 52 = raw.socketId.toList := by
    rw [← slice_take (show 52 ≤ 72 by decide) b, hcut]
    exact slice_append rfl (by simp) _
  obtain ⟨s, hs, hheader⟩ := Option.bind_eq_some_iff.mp hread
  have hhead := Option.some.inj hheader
  rw [hsocket, ← hhead]
  refine ⟨?_, by simp, hs⟩
  rw [← head?_take (show 0 < 72 by decide), hcut]
  rfl

/-- The bytes of a request for it. -/
theorem inetRequest_names {r : InetResponse rich} (h : InetResponse.parse P b = .ok r)
    {req : InetRequest} (hfamily : req.family = r.header.family)
    (hid : req.socketId = r.header.socketId) :
    (req.bytes P).head? = b.head? ∧
      slice (req.bytes P) 8 56 = canonSocket r.header.family (slice b 4 52) ∧
      SocketId.parseWithParam P (slice (req.bytes P) 8 56) r.header.family =
        .ok r.header.socketId := by
  obtain ⟨hhead, hlen, hs⟩ := socketId_of_parse h
  have hraw := (SocketIdBuffer.layout P.order).toBytes_ofBytes (slice b 4 52) hlen
  have hsocket : slice (req.bytes P) 8 56 =
      (SocketIdBuffer.layout P.order).toBytes (.fromSocketId P.order r.header.socketId) := by
    have hcut : req.bytes P = ([req.family, req.protocol, req.extensions.bits, 0] ++
        (Packed.u32 P.order).toBytes req.states.bits) ++
          ((P.asBytes (SocketIdBuffer.layout P.order) (.fromSocketId P.order req.socketId)).toList ++
            []) := by
      rw [List.append_nil]
      rfl
    rw [hcut, slice_append (by simp) (by rw [Vector.length_toList]; rfl), P.toList_asBytes, hid]
  refine ⟨by rw [InetRequest.head?_bytes, hhead, hfamily], ?_, ?_⟩
  · rw [hsocket, ← hraw, InetResponse.toBytes_fromSocketId hs, InetResponse.toBytes_socketIdBuffer]
    exact (canonSocket_append (by simp) (by simp) (by simp) (by simp) (by simp)).symm
  · have hsize : ((SocketIdBuffer.layout P.order).toBytes
        (.fromSocketId P.order r.header.socketId)).length = 48 := Packed.length_toBytes _ _
    obtain ⟨hsrc, hdst, -⟩ := SocketId.ofRaw_eq_some.mp hs
    rw [hsocket, SocketId.parseWithParam_eq_ok_iff, List.take_of_length_le (Nat.le_of_eq hsize),
      Packed.ofBytes_toBytes, SocketId.ofRaw_fromSocketId_iff]
    exact ⟨Nat.le_of_eq hsize.symm, addrFamily_of_addressOf hsrc, addrFamily_of_addressOf hdst⟩

/-- The bytes of a request for a unix socket. -/
theorem unixRequest_names {r : UnixResponse} (h : UnixResponse.parse P b = .ok r)
    {req : UnixRequest} (hinode : req.inode = r.header.inode) (hcookie : req.cookie = r.header.cookie) :
    slice (req.bytes P.order) 8 12 = slice b 4 8 ∧
      slice (req.bytes P.order) 16 24 = slice b 8 16 := by
  obtain ⟨hlen, hread, -⟩ := (UnixResponse.implements P).parse_eq_ok_iff.mp h
  have hle : 16 ≤ b.length := hlen
  have hraw := (UnixResponseBuffer.layout P.order).toBytes_ofBytes (b.take 16)
    (by rw [List.length_take]; exact Nat.min_eq_left hle)
  have hheader : UnixResponseHeader.ofRaw ((UnixResponseBuffer.layout P.order).ofBytes (b.take 16)) =
    r.header := Option.some.inj hread
  generalize (UnixResponseBuffer.layout P.order).ofBytes (b.take 16) = raw at hraw hheader
  let front := [raw.family, raw.kind, raw.state, raw.pad]
  let inode := (Packed.u32 P.order).toBytes raw.inode
  let flags := [afUnix, 0] ++ ((Packed.u16 P.order).toBytes 0 ++
    (Packed.u32 P.order).toBytes req.stateFlags.bits)
  let shown := (Packed.u32 P.order).toBytes req.showFlags.bits
  have hfrontLen : front.length = 4 := rfl
  have hinodeLen : inode.length = 4 := Packed.length_toBytes _ _
  have hflagsLen : flags.length = 8 := by simp [flags]
  have hshownLen : shown.length = 4 := Packed.length_toBytes _ _
  have hcut : b.take 16 = front ++ (inode ++ raw.cookie.toList) := hraw.symm
  have hreq : req.bytes P.order = flags ++ (inode ++ (shown ++ raw.cookie.toList)) := by
    have hsame : raw.inode = req.inode ∧ raw.cookie = req.cookie := by
      rw [hinode, hcookie, ← hheader]
      exact ⟨rfl, rfl⟩
    simp only [inode, flags, hsame.1, hsame.2, List.append_assoc]
    rfl
  have e1 : slice (front ++ (inode ++ raw.cookie.toList)) 4 8 = inode :=
    slice_append hfrontLen (by omega) _
  have e2 : slice ((front ++ inode) ++ (raw.cookie.toList ++ [])) 8 16 = raw.cookie.toList :=
    slice_append (by simp [hfrontLen, hinodeLen]) (by simp) _
  have e3 : slice (flags ++ (inode ++ (shown ++ raw.cookie.toList))) 8 12 = inode :=
    slice_append hflagsLen (by omega) _
  have e4 : slice ((flags ++ (inode ++ shown)) ++ (raw.cookie.toList ++ [])) 16 24 =
      raw.cookie.toList := slice_append (by simp [hflagsLen, hinodeLen, hshownLen]) (by simp) _
  simp only [List.append_assoc, List.append_nil] at e2 e4
  rw [hreq, ← slice_take (show 8 ≤ 16 by decide) b, ← slice_take (Nat.le_refl 16) b, hcut, e1, e2,
    e3, e4]
  exact ⟨rfl, rfl⟩

end Sockets

/-- **A request made from a response names its socket byte for byte**, whether it asks for more or for
    the socket to be destroyed: of an inet socket the 48 bytes of the id, where an IPv4 address
    has its unused bytes cleared, and of a unix socket the inode and the cookie. -/
theorem sockets_named (P : Platform) [P.Lawful] (rich : Bool) :
    (∀ (b : Bytes) (r : InetResponse rich), InetResponse.parse P b = .ok r →
      ∀ (req : InetRequest), req.family = r.header.family → req.socketId = r.header.socketId →
        ∀ w ∈ [(SockDiagMessage.inetRequest req : SockDiagMessage rich).serialize P,
            (SockDiagDestroy.new (.inetRequest req : SockDiagMessage rich)).serialize P],
          ∀ buf : Bytes, buf.length = 56 → ∃ out, w.run buf = .ok out ∧ out.head? = b.head? ∧
            slice out 8 56 = canonSocket r.header.family (slice b 4 52) ∧
            SocketId.parseWithParam P (slice out 8 56) r.header.family = .ok r.header.socketId) ∧
    ∀ (b : Bytes) (r : UnixResponse), UnixResponse.parse P b = .ok r →
      ∀ (req : UnixRequest), req.inode = r.header.inode → req.cookie = r.header.cookie →
        ∀ w ∈ [(SockDiagMessage.unixRequest req : SockDiagMessage rich).serialize P,
            (SockDiagDestroy.new (.unixRequest req : SockDiagMessage rich)).serialize P],
          ∀ buf : Bytes, buf.length = 24 → ∃ out, w.run buf = .ok out ∧
            slice out 8 12 = slice b 4 8 ∧ slice out 16 24 = slice b 8 16 := by
  refine ⟨?_, ?_⟩
  · intro b r h req hfamily hid w hw buf hbuf
    have hemit : w = req.emit P := by
      simp only [List.mem_cons, List.not_mem_nil, or_false] at hw
      rcases hw with rfl | rfl
      · rfl
      · rfl
    rw [hemit]
    exact ⟨req.bytes P, emit_inetRequest P hbuf, inetRequest_names h hfamily hid⟩
  · intro b r h req hinode hcookie w hw buf hbuf
    have hemit : w = req.emit P := by
      simp only [List.mem_cons, List.not_mem_nil, or_false] at hw
      rcases hw with rfl | rfl
      · rfl
      · rfl
    rw [hemit]
    exact ⟨req.bytes P.order, emit_unixRequest P hbuf, unixRequest_names h hinode hcookie⟩

/-- The socket of `ones`, to be destroyed. -/
theorem ones_named :
    ∃ (r : InetResponse true) (out : Bytes),
      InetResponse.parse (.reference .little) ones = .ok r ∧
      ((SockDiagDestroy.new (.inetRequest
        ⟨afInet, ipprotoTcp, ⟨0⟩, .all, r.header.socketId⟩ : SockDiagMessage true)).serialize
          (.reference .little)).run (List.replicate 56 0xff) = .ok out ∧
      slice out 8 56 = List.replicate 8 1 ++ List.replicate 12 0 ++ List.replicate 4 1 ++
        List.replicate 12 0 ++ List.replicate 12 1 := by
  obtain ⟨r, hr⟩ : ∃ r : InetResponse true, InetResponse.parse (.reference .little) ones = .ok r :=
    ⟨_, rfl⟩
  have hfamily : afInet = r.header.family := Option.some.inj (socketId_of_parse hr).1
  obtain ⟨out, hout, -, hslice, -⟩ := (sockets_named (.reference .little) true).1 ones r hr
    ⟨afInet, ipprotoTcp, ⟨0⟩, .all, r.header.socketId⟩ hfamily rfl _
    (List.mem_cons_of_mem _ (List.mem_singleton.mpr rfl)) (List.replicate 56 0xff)
    List.length_replicate
  refine ⟨r, out, hr, hout, ?_⟩
  rw [hslice, ← hfamily]
  decide

end SockDiag
