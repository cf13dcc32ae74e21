import SockDiag.Grammar

/-!
# There and back

A message written and decoded again, and bytes decoded and written again.

Writing a response that fits always succeeds, and what comes back is the same response exactly when
no field of it holds more than its bytes do. For an inet response these are the family, the
addresses, the timer and the unknown attributes (`inetResponse_roundTrip_iff`), for a unix response
the pathnames and the unknown attributes (`unixResponse_roundTrip_iff`).

The other way round there is more to it. Bytes that were accepted can be written again with one
exception, a congestion control name without its NUL in the largest attribute there is: the decoder
takes it, the encoder adds the NUL, and the length of the attribute no longer fits into its field.
`Unwritable` is that exception, stated on the bytes, and `reemit_iff` says it is the only one:
everything else that was accepted is written without a panic and decoded as the same message.
-/

set_option autoImplicit false

namespace SockDiag

open Rust Tlv Inet Unix

section Decode

variable {P : Platform} [P.Lawful] {rich : Bool} {b : Bytes}

theorem parseWithParam_inetResponse_iff {r : InetResponse rich} :
    SockDiagMessage.parseWithParam P b sockDiagByFamily = .ok (.inetResponse r) ↔
      (b.head? = some afInet ∨ b.head? = some afInet6) ∧ InetResponse.parse P b = .ok r := by
  rw [SockDiagMessage.parseWithParam_eq_ok_iff]
  refine ⟨?_, ?_⟩
  · intro h
    obtain ⟨-, ⟨r', hr, hhead, hparse⟩ | ⟨r', hr, -⟩⟩ := h
    · cases hr
      exact ⟨hhead, hparse⟩
    · cases hr
  · intro h
    obtain ⟨hhead, hparse⟩ := h
    exact ⟨rfl, .inl ⟨r, rfl, hhead, hparse⟩⟩

theorem parseWithParam_unixResponse_iff {r : UnixResponse} :
    SockDiagMessage.parseWithParam P b sockDiagByFamily =
        .ok (.unixResponse r : SockDiagMessage rich) ↔
      b.head? = some afUnix ∧ UnixResponse.parse P b = .ok r := by
  rw [SockDiagMessage.parseWithParam_eq_ok_iff]
  refine ⟨?_, ?_⟩
  · intro h
    obtain ⟨-, ⟨r', hr, -⟩ | ⟨r', hr, hhead, hparse⟩⟩ := h
    · cases hr
    · cases hr
      exact ⟨hhead, hparse⟩
  · intro h
    obtain ⟨hhead, hparse⟩ := h
    exact ⟨rfl, .inr ⟨r, rfl, hhead, hparse⟩⟩

/-- When the bytes of an inet response are decoded as it. -/
theorem parse_encode_inet_iff {r : InetResponse rich} (hlen : ∀ x ∈ r.nlas, x.valueLen P ≤ 65531) :
    SockDiagMessage.parseWithParam P
        ((InetResponse.format P rich).encode P.order r.header r.nlas) sockDiagByFamily =
          .ok (.inetResponse r) ↔ r.header.Fits ∧ ∀ x ∈ r.nlas, x.Survives := by
  have hself := (InetResponse.implements P).parse_encode_iff ((InetResponse.fits_iff P).mpr hlen)
  rw [parseWithParam_inetResponse_iff, InetResponse.head?_encode, hself,
    InetResponse.readHeader_writeHeader_iff, Option.some.injEq, Option.some.injEq]
  have hnlas : (∀ x ∈ r.nlas, (InetResponse.format P rich).codec.Reads
      ((InetResponse.format P rich).codec.encode x) x) ↔ ∀ x ∈ r.nlas, x.Survives :=
    forall₂_congr fun _ _ => Inet.Nla.reads_toAttr_iff
  rw [hnlas]
  refine and_iff_right_of_imp ?_
  intro h
  obtain ⟨hfits, -⟩ := h
  exact hfits.family

/-- When the bytes of a unix response are decoded as it. -/
theorem parse_encode_unix_iff {r : UnixResponse} (hlen : ∀ x ∈ r.nlas, x.valueLen P ≤ 65531) :
    SockDiagMessage.parseWithParam P
        ((UnixResponse.format P.order).encode P.order r.header r.nlas) sockDiagByFamily =
          .ok (.unixResponse r : SockDiagMessage rich) ↔ ∀ x ∈ r.nlas, x.Survives := by
  have hself := (UnixResponse.implements P).parse_encode_iff ((UnixResponse.fits_iff P).mpr hlen)
  have hnlas : (∀ x ∈ r.nlas, (UnixResponse.format P.order).codec.Reads
      ((UnixResponse.format P.order).codec.encode x) x) ↔ ∀ x ∈ r.nlas, x.Survives :=
    forall₂_congr fun _ _ => Unix.Nla.reads_toAttr_iff
  rw [parseWithParam_unixResponse_iff, UnixResponse.head?_encode, hself, hnlas]
  refine ⟨?_, ?_⟩
  · intro h
    obtain ⟨-, -, hall⟩ := h
    exact hall
  · intro hall
    exact ⟨rfl, UnixResponse.readHeader_writeHeader _ _, hall⟩

end Decode

/-! ## Which responses come back -/

/-- **An inet response comes back from its bytes exactly when** its addresses are of its family, its
    timer is a whole number of milliseconds below 2³², and no attribute of a type the crate knows
    is kept as an unknown one. -/
theorem inetResponse_roundTrip_iff (P : Platform) [P.Lawful] {rich : Bool} (r : InetResponse rich)
    (hlen : ∀ x ∈ r.nlas, x.valueLen P ≤ 65531) (buf : Bytes)
    (hbuf : buf.length = (SockDiagMessage.inetResponse r).bufferLen P) :
    ∃ out, ((SockDiagMessage.inetResponse r).emit P).run buf = .ok out ∧
      (SockDiagMessage.parseWithParam P out (SockDiagMessage.inetResponse r).messageType =
          .ok (.inetResponse r) ↔
        (r.header.family = afInet ∨ r.header.family = afInet6) ∧
        AddrFamily r.header.family r.header.socketId.sourceAddress ∧
        AddrFamily r.header.family r.header.socketId.destinationAddress ∧
        TimerFits r.header.timer ∧
        ∀ attr, Inet.Nla.other attr ∈ r.nlas → nlaType attr.kind ∉ Inet.Nla.kinds) := by
  have fits := (InetResponse.fits_iff P).mpr hlen
  refine ⟨_, (InetResponse.implements P).emit_run fits hbuf, ?_⟩
  refine (parse_encode_inet_iff hlen).trans ?_
  rw [Inet.Nla.forall_survives_iff]
  refine ⟨?_, ?_⟩
  · intro h
    obtain ⟨hfits, hall⟩ := h
    exact ⟨hfits.family, hfits.source, hfits.destination, hfits.timer, hall⟩
  · intro h
    obtain ⟨-, hsrc, hdst, htimer, hall⟩ := h
    exact ⟨⟨hsrc, hdst, htimer⟩, hall⟩

/-- An IPv4 socket on a keep-alive timer, with a name, a flag and an attribute of no known type. -/
def keptAlive : InetResponse false where
  header :=
    { family := afInet
      state := tcpEstablished
      timer := some (.keepAlive (.fromMillis 15000))
      socketId := .newV4
      recvQueue := 0
      sendQueue := 0
      uid := 1000
      inode := 29386 }
  nlas := [.congestion "cubic", .skV6Only true, .other ⟨0x8064, [1, 2, 3]⟩]

theorem inetResponse_roundTrip_keptAlive :
    ∃ out,
      ((SockDiagMessage.inetResponse keptAlive).emit (.reference .little)).run
        (List.replicate 100 0xff) = .ok out ∧
      SockDiagMessage.parseWithParam (.reference .little) out sockDiagByFamily =
        .ok (.inetResponse keptAlive) := by
  obtain ⟨out, hout, hiff⟩ := inetResponse_roundTrip_iff (.reference .little) keptAlive (by decide)
    (List.replicate 100 0xff) List.length_replicate
  refine ⟨out, hout, hiff.mpr ⟨.inl rfl, rfl, rfl, ⟨rfl, by decide⟩, ?_⟩⟩
  intro attr hm
  obtain rfl : attr = ⟨0x8064, [1, 2, 3]⟩ := by simpa [keptAlive] using hm
  decide

/-- **A unix response comes back from its bytes exactly when** its pathnames are non-empty and free
    of NULs, and no attribute of a type the crate knows is kept as an unknown one. -/
theorem unixResponse_roundTrip_iff (P : Platform) [P.Lawful] {rich : Bool} (r : UnixResponse)
    (hlen : ∀ x ∈ r.nlas, x.valueLen P ≤ 65531) (buf : Bytes)
    (hbuf : buf.length = (SockDiagMessage.unixResponse r : SockDiagMessage rich).bufferLen P) :
    ∃ out, ((SockDiagMessage.unixResponse r : SockDiagMessage rich).emit P).run buf = .ok out ∧
      (SockDiagMessage.parseWithParam P out sockDiagByFamily =
          .ok (.unixResponse r : SockDiagMessage rich) ↔
        (∀ path, Unix.Nla.name (.pathname path) ∈ r.nlas → path ≠ [] ∧ (0 : UInt8) ∉ path) ∧
        ∀ attr, Unix.Nla.other attr ∈ r.nlas → nlaType attr.kind ∉ Unix.Nla.kinds) := by
  have fits := (UnixResponse.fits_iff P).mpr hlen
  refine ⟨_, (UnixResponse.implements P).emit_run fits hbuf, ?_⟩
  rw [← Unix.Nla.forall_survives_iff]
  exact parse_encode_unix_iff hlen

/-- A socket that listens under two names, one of which is empty, with two connections to accept. -/
def listening : UnixResponse where
  header := ⟨1, tcpListen, 20238, .replicate 8 7⟩
  nlas :=
    [.name (.abstract []), .name (.pathname [47, 97]), .pendingConnections [20405, 20406],
      .receiveQueueLength 2 128, .shutdown 0, .other ⟨0x4007, []⟩]

theorem unixResponse_roundTrip_listening :
    ∃ out,
      ((SockDiagMessage.unixResponse listening : SockDiagMessage false).emit
        (.reference .big)).run (List.replicate 68 0xff) = .ok out ∧
      SockDiagMessage.parseWithParam (.reference .big) out sockDiagByFamily =
        .ok (.unixResponse listening : SockDiagMessage false) := by
  obtain ⟨out, hout, hiff⟩ := unixResponse_roundTrip_iff (.reference .big) listening (by decide)
    (List.replicate 68 0xff) List.length_replicate
  refine ⟨out, hout, hiff.mpr ⟨?_, ?_⟩⟩
  · intro path hm
    obtain rfl : path = [47, 97] := by simpa [listening] using hm
    decide
  · intro attr hm
    obtain rfl : attr = ⟨0x4007, []⟩ := by simpa [listening] using hm
    decide

/-! ## Which bytes can be written again -/

/-- An inet message with a congestion control name that fills the largest payload and has no NUL:
    the NUL it is given makes it one byte too long for its length field. -/
def Unwritable (o : ByteOrder) (b : Bytes) : Prop :=
  (b.head? = some afInet ∨ b.head? = some afInet6) ∧
    ∃ as, Area o as (b.drop 72) ∧ ∃ a ∈ as, Inet.Nla.Overlong a

section Reemit

variable {P : Platform} [P.Lawful] {rich : Bool} {b : Bytes}

theorem fits_of_inet_parse_iff {r : InetResponse rich} (h : InetResponse.parse P b = .ok r) :
    (∀ x ∈ r.nlas, ((InetResponse.format P rich).codec.encode x).Fits) ↔
      ¬ ∃ as, Area P.order as (b.drop 72) ∧ ∃ a ∈ as, Inet.Nla.Overlong a := by
  obtain ⟨-, -, as, harea, hxs⟩ := (InetResponse.implements P).parse_eq_ok_iff.mp h
  have hmap := Codec.map_encode_eq_map (fun _ _ hread => Inet.Nla.toAttr_eq_canon hread) hxs
  have hcanon : (∀ x ∈ r.nlas, ((InetResponse.format P rich).codec.encode x).Fits) ↔
      ∀ a ∈ as, (Inet.Nla.canon rich a).Fits := by
    rw [← List.forall_mem_map, hmap, List.forall_mem_map]
  rw [hcanon]
  refine ⟨?_, ?_⟩
  · rintro hall ⟨as', harea', a, ha, hover⟩
    obtain rfl := harea.unique harea'
    exact (Inet.Nla.fits_canon_iff (harea.fits a ha)).mp (hall a ha) hover
  · intro hnone a ha
    refine (Inet.Nla.fits_canon_iff (harea.fits a ha)).mpr fun hover => ?_
    exact hnone ⟨as, harea, a, ha, hover⟩

theorem fits_of_unix_parse {r : UnixResponse} (h : UnixResponse.parse P b = .ok r) :
    ∀ x ∈ r.nlas, ((UnixResponse.format P.order).codec.encode x).Fits := by
  obtain ⟨-, -, as, harea, hxs⟩ := (UnixResponse.implements P).parse_eq_ok_iff.mp h
  have hmap := Codec.map_encode_eq_map (fun _ _ hread => Unix.Nla.toAttr_eq_canon hread) hxs
  rw [← List.forall_mem_map, hmap, List.forall_mem_map]
  intro a ha
  exact Unix.Nla.fits_canon (harea.fits a ha)

end Reemit

/-- **What was decoded can be written and decoded again exactly when** no name in it was too long
    for its NUL. -/
theorem reemit_iff (P : Platform) [P.Lawful] {rich : Bool} (b : Bytes) (m : SockDiagMessage rich)
    (h : SockDiagMessage.parseWithParam P b sockDiagByFamily = .ok m) (buf : Bytes)
    (hbuf : buf.length = m.bufferLen P) :
    (∃ out, (m.emit P).run buf = .ok out ∧
      SockDiagMessage.parseWithParam P out sockDiagByFamily = .ok m) ↔ ¬ Unwritable P.order b := by
  obtain ⟨-, ⟨r, rfl, hhead, hr⟩ | ⟨r, rfl, hhead, hr⟩⟩ :=
    SockDiagMessage.parseWithParam_eq_ok_iff.mp h
  · -- All that stands in the way of writing it is an attribute that does not fit.
    have I : Implements P (InetResponse.format P rich) _ _ _ _ _ := InetResponse.implements P
    have hwritable : ¬ Unwritable P.order b ↔
        ∀ x ∈ r.nlas, ((InetResponse.format P rich).codec.encode x).Fits := by
      rw [fits_of_inet_parse_iff hr, Unwritable, and_iff_right hhead]
    rw [hwritable]
    refine ⟨?_, ?_⟩
    · intro hd
      obtain ⟨out, hout, -⟩ := hd
      exact I.fits_of_emit hout
    · intro fits
      have hread := (I.parse_eq_ok_iff.mp hr).2.1
      have hfamily := (InetResponseHeader.fits_of_ofRaw hread).family
      refine ⟨_, I.emit_run fits hbuf, parseWithParam_inetResponse_iff.mpr ⟨?_, ?_⟩⟩
      · rw [InetResponse.head?_encode, Option.some.injEq, Option.some.injEq]
        exact hfamily
      · exact I.parse_encode_of_parse (InetResponse.stable P) fits hr
  · have I := UnixResponse.implements P
    have fits := fits_of_unix_parse hr
    refine iff_of_true ?_ ?_
    · refine ⟨_, I.emit_run fits hbuf, parseWithParam_unixResponse_iff.mpr ⟨?_, ?_⟩⟩
      · exact UnixResponse.head?_encode
      · exact I.parse_encode_of_parse (UnixResponse.stable P.order) fits hr
    · -- The first byte says unix, so this is no inet message.
      intro hd
      obtain ⟨hinet, -⟩ := hd
      exact absurd hhead (head?_ne_afUnix hinet)

theorem reemit_peerMessage :
    ∃ (m : SockDiagMessage true) (out : Bytes),
      SockDiagMessage.parseWithParam (.reference .little) peerMessage sockDiagByFamily = .ok m ∧
      (m.emit (.reference .little)).run (List.replicate 24 0xff) = .ok out ∧
      SockDiagMessage.parseWithParam (.reference .little) out sockDiagByFamily = .ok m := by
  let m : SockDiagMessage true :=
    .unixResponse ⟨⟨1, 1, 20238, #v[160, 105, 0, 0, 0, 0, 0, 0]⟩, [.peer 20237]⟩
  have hm : SockDiagMessage.parseWithParam (.reference .little) peerMessage sockDiagByFamily =
      .ok m := rfl
  obtain ⟨out, hout, hback⟩ := (reemit_iff (.reference .little) peerMessage m hm
    (List.replicate 24 0xff) List.length_replicate).mpr fun h => absurd h.1 (by decide)
  exact ⟨m, out, hm, hout, hback⟩

/-- The largest unterminated name, alone in an IPv4 response. -/
def unterminatedName : Bytes :=
  afInet :: List.replicate 71 0 ++ wire .little [⟨inetDiagCong, List.replicate 65531 97⟩]

theorem fits_unterminatedName :
    ∀ a ∈ [Attr.mk inetDiagCong (List.replicate 65531 97)], a.Fits := by
  intro a ha
  obtain rfl := List.mem_singleton.mp ha
  exact Attr.fits_iff.mpr (Nat.le_of_eq List.length_replicate)

theorem area_unterminatedName :
    Area .little [⟨inetDiagCong, List.replicate 65531 97⟩] (unterminatedName.drop 72) := by
  have hlen : (afInet :: List.replicate 71 (0 : UInt8)).length = 72 := by simp
  unfold unterminatedName
  rw [List.drop_left' hlen]
  exact area_wire fits_unterminatedName

theorem unwritable_unterminatedName : Unwritable .little unterminatedName := by
  refine ⟨.inl rfl, _, area_unterminatedName, _, List.mem_singleton.mpr rfl, ?_, ?_, ?_⟩
  · exact Inet.Nla.nlaType_eq_self inetDiagCong (by decide)
  · exact List.length_replicate
  · show (List.replicate 65531 (97 : UInt8)).getLast? ≠ some 0
    rw [List.getLast?_replicate]
    simp

/-- It is accepted, and writing it again panics. -/
theorem reemit_panics :
    ∃ r : InetResponse false,
      SockDiagMessage.parseWithParam (.reference .little) unterminatedName sockDiagByFamily =
        .ok (.inetResponse r) ∧
      ∀ buf : Bytes, ((SockDiagMessage.inetResponse r).emit (.reference .little)).run buf = .panic := by
  have hvalid : InetMessage .little false unterminatedName := by
    refine ⟨.inl rfl, ?_, _, area_unterminatedName, ?_⟩
    · unfold unterminatedName
      rw [List.length_append, List.length_cons, List.length_replicate]
      omega
    · intro a ha
      obtain rfl := List.mem_singleton.mp ha
      show Inet.Nla.ValidPayload false (nlaType inetDiagCong) (List.replicate 65531 97)
      rw [Inet.Nla.nlaType_eq_self inetDiagCong (by decide)]
      show IsUtf8 (stripNul (List.replicate 65531 97))
      unfold stripNul
      rw [List.getLast?_replicate, if_neg (by simp)]
      exact isUtf8_replicate (isUtf8_asBytes "a") _
  obtain ⟨r, hr⟩ := exists_inet_parse_iff (P := .reference .little).mpr hvalid
  refine ⟨r, parseWithParam_inetResponse_iff.mpr ⟨.inl rfl, hr⟩, ?_⟩
  intro buf
  have hbad := (fits_of_inet_parse_iff hr).not.mpr (not_not.mpr unwritable_unterminatedName.2)
  push Not at hbad
  exact (InetResponse.implements _).emit_panics hbad buf

end SockDiag
