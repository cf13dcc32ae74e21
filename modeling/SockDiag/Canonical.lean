import SockDiag.RoundTrip

/-!
# What decoding and encoding again does to the bytes

Bytes the decoder accepts are not always the bytes the encoder writes for them: fields nobody reads
come back as zeros, packed structs lose what is past their end, a name gains its NUL. Everything
that changes is in the two functions `InetResponse.canonical` and `UnixResponse.canonical`, which
are functions of bytes and know neither the decoder nor the encoder.

`inetResponse_canonical` and `unixResponse_canonical` say that nothing else changes: what was
decoded is written as the canonical form of its bytes, the canonical form is decoded as the same
response, and two byte strings with the same canonical form are the same response. So a response has
one encoding, and comparing encodings is comparing responses. The inet half leaves out what cannot
be written at all (`Unwritable`); of unix responses there is nothing of the kind.
-/

set_option autoImplicit false

namespace SockDiag

open Rust Tlv

/-! ## Inet responses -/

namespace Inet.InetResponse

/-- The 72 bytes of a header as they are written after having been read. The unused bytes of an
    IPv4 address are cleared, and of the three fields of a timer those it does not use. -/
def canonHeader (b : Bytes) : Bytes :=
  let family := b.headD 0
  let timer := b.getD 2 0
  blankIf (timer ∉ [1, 2, 3, 4]) 2 3 <|
    blankIf (timer ≠ 1) 3 4 <|
    blankIf (family = afInet) 12 24 <|
    blankIf (family = afInet) 28 40 <|
    blankIf (timer ∉ [1, 2, 4]) 52 56 b

/-- The canonical form of a byte string that is an inet response. -/
def canonical (o : ByteOrder) (rich : Bool) (b : Bytes) : Bytes :=
  Tlv.canonical o inetResponseHeaderLen canonHeader (Nla.canon rich) b

/-- `canonHeader` on a header cut where it cuts it. -/
theorem canonHeader_append {family state timer retransmits : UInt8}
    {ports src src' dst dst' id expires tail : Bytes} (hports : ports.length = 4)
    (hsrc : src.length = 4) (hsrc' : src'.length = 12) (hdst : dst.length = 4)
    (hdst' : dst'.length = 12) (hid : id.length = 12) (hexpires : expires.length = 4) :
    canonHeader ([family] ++ ([state] ++ ([timer] ++ ([retransmits] ++ (ports ++ (src ++ (src' ++
        (dst ++ (dst' ++ (id ++ (expires ++ tail))))))))))) =
      [family] ++ ([state] ++ ((if timer ∉ [1, 2, 3, 4] then [0] else [timer]) ++
        ((if timer ≠ 1 then [0] else [retransmits]) ++ (ports ++ (src ++
          ((if family = afInet then List.replicate 12 0 else src') ++ (dst ++
            ((if family = afInet then List.replicate 12 0 else dst') ++ (id ++
              ((if timer ∉ [1, 2, 4] then List.replicate 4 0 else expires) ++ tail)))))))))) := by
  -- From the back, so that what is in front of a cut is as it was.
  have e1 := blankIf_append (c := timer ∉ [1, 2, 4]) 52 56
    (x := [family] ++ ([state] ++ ([timer] ++ ([retransmits] ++ (ports ++ (src ++ (src' ++
      (dst ++ (dst' ++ id))))))))) (y := expires)
    (by simp [hports, hsrc, hsrc', hdst, hdst', hid]) (by rw [hexpires]) tail
  have e2 := blankIf_append (c := family = afInet) 28 40
    (x := [family] ++ ([state] ++ ([timer] ++ ([retransmits] ++ (ports ++ (src ++ (src' ++
      dst))))))) (y := dst')
    (by simp [hports, hsrc, hsrc', hdst]) (by rw [hdst'])
    (id ++ ((if timer ∉ [1, 2, 4] then List.replicate 4 0 else expires) ++ tail))
  have e3 := blankIf_append (c := family = afInet) 12 24
    (x := [family] ++ ([state] ++ ([timer] ++ ([retransmits] ++ (ports ++ src))))) (y := src')
    (by simp [hports, hsrc]) (by rw [hsrc'])
    (dst ++ ((if family = afInet then List.replicate 12 0 else dst') ++ (id ++
      ((if timer ∉ [1, 2, 4] then List.replicate 4 0 else expires) ++ tail))))
  have e4 := blankIf_append (c := timer ≠ 1) 3 4 (x := [family] ++ ([state] ++ [timer]))
    (y := [retransmits]) rfl rfl (ports ++ (src ++
      ((if family = afInet then List.replicate 12 0 else src') ++ (dst ++
        ((if family = afInet then List.replicate 12 0 else dst') ++ (id ++
          ((if timer ∉ [1, 2, 4] then List.replicate 4 0 else expires) ++ tail)))))))
  have e5 := blankIf_append (c := timer ∉ [1, 2, 3, 4]) 2 3 (x := [family] ++ [state])
    (y := [timer]) rfl rfl ((if timer ≠ 1 then [0] else [retransmits]) ++ (ports ++ (src ++
      ((if family = afInet then List.replicate 12 0 else src') ++ (dst ++
        ((if family = afInet then List.replicate 12 0 else dst') ++ (id ++
          ((if timer ∉ [1, 2, 4] then List.replicate 4 0 else expires) ++ tail))))))))
  have hone : ∀ c : UInt8, List.replicate [c].length (0 : UInt8) = [0] := fun _ => rfl
  rw [hexpires] at e1
  rw [hdst'] at e2
  rw [hsrc'] at e3
  rw [hone] at e4 e5
  simp only [List.append_assoc] at e1 e2 e3 e4 e5
  show blankIf (timer ∉ [1, 2, 3, 4]) 2 3 (blankIf (timer ≠ 1) 3 4
    (blankIf (family = afInet) 12 24 (blankIf (family = afInet) 28 40
      (blankIf (timer ∉ [1, 2, 4]) 52 56 _)))) = _
  rw [e1, e2, e3, e4, e5]

/-- Of sixteen address bytes an IPv4 header keeps four. -/
theorem addressBytes_eq_append {af : UInt8} {ip : IpAddr} {raw : Vector UInt8 16}
    (h : addressOf af raw = some ip) :
    (addressBytes ip).toList = raw.toList.take 4 ++
      if af = afInet then List.replicate 12 0 else raw.toList.drop 4 := by
  rw [addressBytes_of_addressOf h]
  by_cases h4 : af = afInet
  · rw [if_pos h4, if_pos h4]
  · rw [if_neg h4, if_neg h4, List.take_append_drop]

/-- A socket cut at its ports, at the first four bytes of each address, and at what follows. -/
theorem toBytes_socketIdBuffer (o : ByteOrder) (raw : SocketIdBuffer) :
    (SocketIdBuffer.layout o).toBytes raw =
      ((Packed.u16 o).toBytes raw.sourcePort ++ (Packed.u16 o).toBytes raw.destinationPort) ++
        (raw.sourceAddress.toList.take 4 ++ (raw.sourceAddress.toList.drop 4 ++
          (raw.destinationAddress.toList.take 4 ++ (raw.destinationAddress.toList.drop 4 ++
            ((Packed.u32 o).toBytes raw.interfaceId ++ raw.cookie.toList))))) := by
  have hcut : ∀ (v : Vector UInt8 16) (z : Bytes),
      v.toList.take 4 ++ (v.toList.drop 4 ++ z) = v.toList ++ z := by
    intro v z
    rw [← List.append_assoc, List.take_append_drop]
  rw [hcut, hcut, List.append_assoc]
  rfl

/-- The same of a socket that was decoded and is written again. -/
theorem toBytes_fromSocketId {o : ByteOrder} {af : UInt8} {raw : SocketIdBuffer} {s : SocketId}
    (h : SocketId.ofRaw o af raw = some s) :
    (SocketIdBuffer.layout o).toBytes (.fromSocketId o s) =
      ((Packed.u16 o).toBytes raw.sourcePort ++ (Packed.u16 o).toBytes raw.destinationPort) ++
        (raw.sourceAddress.toList.take 4 ++
          ((if af = afInet then List.replicate 12 0 else raw.sourceAddress.toList.drop 4) ++
            (raw.destinationAddress.toList.take 4 ++
              ((if af = afInet then List.replicate 12 0 else raw.destinationAddress.toList.drop 4) ++
                ((Packed.u32 o).toBytes raw.interfaceId ++ raw.cookie.toList))))) := by
  obtain ⟨hsrc, hdst, hsp, hdp, hi, hc⟩ := SocketId.ofRaw_eq_some.mp h
  show (Packed.u16 o).toBytes (fromBe o s.sourcePort) ++
    ((Packed.u16 o).toBytes (fromBe o s.destinationPort) ++
      ((addressBytes s.sourceAddress).toList ++ ((addressBytes s.destinationAddress).toList ++
        ((Packed.u32 o).toBytes s.interfaceId ++ s.cookie.toList)))) = _
  rw [addressBytes_eq_append hsrc, addressBytes_eq_append hdst, ← hsp, ← hdp, ← hi, ← hc,
    fromBe_fromBe, fromBe_fromBe]
  simp only [List.append_assoc]

theorem singleton_ite {c : Prop} [Decidable c] (v : UInt8) :
    [if c then v else 0] = if ¬ c then [0] else [v] := by
  by_cases hc : c
  · rw [if_pos hc, if_neg (not_not.mpr hc)]
  · rw [if_neg hc, if_pos hc]

theorem toBytes_u32_ite {c : Prop} [Decidable c] (o : ByteOrder) (v : UInt32) :
    (Packed.u32 o).toBytes (if c then v else 0) =
      if ¬ c then List.replicate 4 0 else (Packed.u32 o).toBytes v := by
  by_cases hc : c
  · rw [if_pos hc, if_neg (not_not.mpr hc)]
  · rw [if_neg hc, if_pos hc]
    exact Packed.toBytes_u32_zero o

/-- Written again, a header is its bytes in canonical form. -/
theorem writeHeader_eq_canonHeader {P : Platform} [P.Lawful] {rich : Bool} {b : Bytes}
    {h : InetResponseHeader} (hlen : b.length = 72)
    (hread : (format P rich).readHeader b = some h) :
    (format P rich).writeHeader h = canonHeader b := by
  have hraw := (InetResponseBuffer.layout P.order).toBytes_ofBytes b hlen
  change InetResponseHeader.ofRaw P.order ((InetResponseBuffer.layout P.order).ofBytes b) =
    some h at hread
  show (InetResponseBuffer.layout P.order).toBytes (.fromInetResponseHeader P h) = _
  generalize (InetResponseBuffer.layout P.order).ofBytes b = raw at hraw hread
  obtain ⟨s, hs, hheader⟩ := Option.bind_eq_some_iff.mp hread
  obtain rfl := Option.some.inj hheader
  have htimer := timerFields_parseTimer raw
  have hid := (SocketIdBuffer.layout P.order).toBytes_ofBytes raw.socketId.toList (by simp)
  generalize (SocketIdBuffer.layout P.order).ofBytes raw.socketId.toList = id at hid hs
  -- The bytes that were read, and the bytes that are written, cut at the same places.
  have hold : b = [raw.family] ++ ([raw.state] ++ ([raw.timer] ++ ([raw.retransmits] ++
      (raw.socketId.toList ++ ((Packed.u32 P.order).toBytes raw.expires ++
        ((Packed.u32 P.order).toBytes raw.recvQueue ++ ((Packed.u32 P.order).toBytes raw.sendQueue ++
          ((Packed.u32 P.order).toBytes raw.uid ++
            (Packed.u32 P.order).toBytes raw.inode)))))))) := hraw.symm
  have hnew : (InetResponseBuffer.layout P.order).toBytes (.fromInetResponseHeader P
      { family := raw.family, state := raw.state, timer := parseTimer raw, socketId := s,
        recvQueue := raw.recvQueue, sendQueue := raw.sendQueue, uid := raw.uid,
        inode := raw.inode }) =
      [raw.family] ++ ([raw.state] ++ ([(timerFields (parseTimer raw)).1] ++
        ([(timerFields (parseTimer raw)).2.2] ++
          ((P.asBytes (SocketIdBuffer.layout P.order) (.fromSocketId P.order s)).toList ++
            ((Packed.u32 P.order).toBytes (timerFields (parseTimer raw)).2.1 ++
              ((Packed.u32 P.order).toBytes raw.recvQueue ++
                ((Packed.u32 P.order).toBytes raw.sendQueue ++
                  ((Packed.u32 P.order).toBytes raw.uid ++
                    (Packed.u32 P.order).toBytes raw.inode)))))))) := rfl
  rw [hnew, hold, ← hid, P.toList_asBytes, toBytes_fromSocketId hs, toBytes_socketIdBuffer, htimer]
  -- Of the pieces that are the same on both sides only the lengths matter from here on.
  have hports : ((Packed.u16 P.order).toBytes id.sourcePort ++
      (Packed.u16 P.order).toBytes id.destinationPort).length = 4 := by simp
  have hrest : ((Packed.u32 P.order).toBytes id.interfaceId ++ id.cookie.toList).length = 12 := by
    simp
  have h4 : ∀ v : Vector UInt8 16, (v.toList.take 4).length = 4 := fun v => by simp
  have h12 : ∀ v : Vector UInt8 16, (v.toList.drop 4).length = 12 := fun v => by simp
  generalize (Packed.u16 P.order).toBytes id.sourcePort ++
    (Packed.u16 P.order).toBytes id.destinationPort = ports at hports
  generalize (Packed.u32 P.order).toBytes id.interfaceId ++ id.cookie.toList = rest at hrest
  simp only [List.append_assoc]
  rw [canonHeader_append hports (h4 _) (h12 _) (h4 _) (h12 _) hrest (by simp)]
  rw [singleton_ite, singleton_ite, toBytes_u32_ite]

section Canonical

variable {P : Platform} [P.Lawful] {rich : Bool} {b : Bytes} {r : InetResponse rich}

/-- What was decoded is written as the canonical form of its bytes, and decoded from it. -/
theorem emit_run_canonical (h : InetResponse.parse P b = .ok r)
    (hshort : ¬ ∃ as, Area P.order as (b.drop 72) ∧ ∃ a ∈ as, Nla.Overlong a) :
    (∀ buf : Bytes, buf.length = r.bufferLen P →
      (r.emit P).run buf = .ok (canonical P.order rich b)) ∧
    InetResponse.parse P (canonical P.order rich b) = .ok r :=
  (implements P).emit_run_canonical (stable P)
    (fun _ _ hlen hread => writeHeader_eq_canonHeader hlen hread)
    (fun _ _ hread => Nla.toAttr_eq_canon hread) ((fits_of_inet_parse_iff h).mpr hshort) h

end Canonical

end Inet.InetResponse

open Inet in
/-- **Decoding and encoding again is canonicalising**, for every inet response that can be written
    again at all; so nothing the decoder kept is lost, and the canonical form decides what is
    decoded. -/
theorem inetResponse_canonical (P : Platform) [P.Lawful] {rich : Bool} (b : Bytes)
    (r : InetResponse rich) (h : InetResponse.parse P b = .ok r)
    (hshort : ¬ ∃ as, Area P.order as (b.drop 72) ∧ ∃ a ∈ as, Inet.Nla.Overlong a) :
    (∀ buf : Bytes, buf.length = r.bufferLen P →
      (r.emit P).run buf = .ok (InetResponse.canonical P.order rich b)) ∧
    InetResponse.parse P (InetResponse.canonical P.order rich b) = .ok r ∧
    ∀ (b' : Bytes) (r' : InetResponse rich), InetResponse.parse P b' = .ok r' →
      (¬ ∃ as, Area P.order as (b'.drop 72) ∧ ∃ a ∈ as, Inet.Nla.Overlong a) →
      InetResponse.canonical P.order rich b' = InetResponse.canonical P.order rich b → r' = r := by
  obtain ⟨hemit, hparse⟩ := InetResponse.emit_run_canonical h hshort
  refine ⟨hemit, hparse, ?_⟩
  intro b' r' h' hshort' heq
  have hparse' := (InetResponse.emit_run_canonical h' hshort').2
  rw [heq, hparse] at hparse'
  exact (Outcome.ok.inj hparse').symm

/-- An IPv4 response with a timer of no known kind, and a `TOS` with a flag bit set and no padding.
    All else is ones. -/
def ones : Bytes := [2, 1, 9, 7] ++ List.replicate 68 1 ++ [5, 0, 5, 0x80, 7]

theorem area_ones : Area .little [⟨0x8005, [7]⟩] (ones.drop 72) := split_eq_some_iff.mp (by decide)

open Inet in
theorem ones_canonical :
    ∃ r : InetResponse true,
      InetResponse.parse (.reference .little) ones = .ok r ∧
      (r.emit (.reference .little)).run (List.replicate 80 0xff) =
        .ok ([2, 1, 0, 0] ++ List.replicate 8 1 ++ List.replicate 12 0 ++ List.replicate 4 1 ++
          List.replicate 12 0 ++ List.replicate 12 1 ++ List.replicate 4 0 ++
          List.replicate 16 1 ++ [5, 0, 5, 0, 7, 0, 0, 0]) := by
  let r : InetResponse true :=
    { header :=
        { family := afInet
          state := tcpEstablished
          timer := none
          socketId := ⟨0x101, 0x101, .v4 (.new 1 1 1 1), .v4 (.new 1 1 1 1), 0x1010101,
            .replicate 8 1⟩
          recvQueue := 0x1010101
          sendQueue := 0x1010101
          uid := 0x1010101
          inode := 0x1010101 }
      nlas := [.tos 7] }
  have hr : InetResponse.parse (.reference .little) ones = .ok r := rfl
  have hcanonical := inetResponse_canonical (.reference .little) ones r hr (by
    intro h
    obtain ⟨as, harea, a, ha, hover⟩ := h
    obtain rfl := area_ones.unique harea
    obtain rfl := List.mem_singleton.mp ha
    exact absurd hover.2.1 (by decide))
  exact ⟨r, hr, hcanonical.1 _ List.length_replicate⟩

/-! ## Unix responses -/

namespace Unix.UnixResponse

/-- The family is set, whatever it was, and the byte of padding is cleared. -/
def canonHeader (b : Bytes) : Bytes := (b.set 0 afUnix).set 3 0

/-- The canonical form of a byte string that is a unix response. -/
def canonical (o : ByteOrder) (b : Bytes) : Bytes :=
  Tlv.canonical o unixResponseHeaderLen canonHeader Nla.canon b

variable {P : Platform} [P.Lawful] {b : Bytes} {r : UnixResponse}

/-- What was decoded is written as the canonical form of its bytes, and decoded from it. -/
theorem emit_run_canonical (h : UnixResponse.parse P b = .ok r) :
    (∀ buf : Bytes, buf.length = r.bufferLen P →
      (r.emit P).run buf = .ok (canonical P.order b)) ∧
    UnixResponse.parse P (canonical P.order b) = .ok r :=
  (implements P).emit_run_canonical (stable P.order)
    (fun _ _ hlen hread => writeHeader_eq hlen hread)
    (fun _ _ hread => Nla.toAttr_eq_canon hread) (fits_of_unix_parse h) h

end Unix.UnixResponse

open Unix in
/-- **Decoding and encoding again is canonicalising**, for every unix response. -/
theorem unixResponse_canonical (P : Platform) [P.Lawful] (b : Bytes) (r : UnixResponse)
    (h : UnixResponse.parse P b = .ok r) :
    (∀ buf : Bytes, buf.length = r.bufferLen P →
      (r.emit P).run buf = .ok (UnixResponse.canonical P.order b)) ∧
    UnixResponse.parse P (UnixResponse.canonical P.order b) = .ok r ∧
    ∀ (b' : Bytes) (r' : UnixResponse), UnixResponse.parse P b' = .ok r' →
      UnixResponse.canonical P.order b' = UnixResponse.canonical P.order b → r' = r := by
  obtain ⟨hemit, hparse⟩ := UnixResponse.emit_run_canonical h
  refine ⟨hemit, hparse, ?_⟩
  intro b' r' h' heq
  have hparse' := (UnixResponse.emit_run_canonical h').2
  rw [heq, hparse] at hparse'
  exact (Outcome.ok.inj hparse').symm

/-- An inet family in front of what is parsed as a unix response, all the memory words set. -/
def inetFamily : Bytes :=
  [2, 1, 1, 9] ++ List.replicate 12 3 ++ ([0, 40, 0, 5] ++ List.replicate 36 1)

open Unix in
theorem inetFamily_canonical :
    ∃ r,
      UnixResponse.parse (.reference .big) inetFamily = .ok r ∧
      (r.emit (.reference .big)).run (List.replicate 56 0xff) =
        .ok ([1, 1, 1, 0] ++ List.replicate 12 3 ++ ([0, 40, 0, 5] ++
          ([0, 0, 0, 0, 1, 1, 1, 1, 0, 0, 0, 0, 1, 1, 1, 1, 0, 0, 0, 0, 1, 1, 1, 1] ++
            List.replicate 12 0))) := by
  let r : UnixResponse :=
    ⟨⟨1, 1, 0x3030303, .replicate 8 3⟩, [.memInfo ⟨0x1010101, 0x1010101, 0x1010101⟩]⟩
  have hr : UnixResponse.parse (.reference .big) inetFamily = .ok r := rfl
  have hcanonical := unixResponse_canonical (.reference .big) inetFamily r hr
  exact ⟨r, hr, hcanonical.1 _ List.length_replicate⟩

end SockDiag
