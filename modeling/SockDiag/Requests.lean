import SockDiag.RoundTrip

/-!
# The other direction

Requests and destroy requests are written with the same message types and family bytes as the
responses to them, and read by a decoder that knows responses only. What comes of it:

* a destroy request is written with a type of its own, which the decoder of what it wraps rejects;
  under the other type it is indistinguishable from a response (`destroy_decodes_iff`);
* an inet request is too short to be a response, a unix request is a response header and eight
  bytes of cookie, and the cookie decides (`request_decodes_iff`).
-/

set_option autoImplicit false

namespace SockDiag

open Rust Tlv Inet Unix

/-! ## Destroy requests -/

/-- Written into any buffer of its own length, the message is read back. -/
def SockDiagMessage.RoundTrips (P : Platform) {rich : Bool} (m : SockDiagMessage rich) : Prop :=
  ∀ buf : Bytes, buf.length = m.bufferLen P →
    ∃ out, (m.serialize P).run buf = .ok out ∧
      SockDiagMessage.deserialize P ⟨m.messageType⟩ out = .ok m

section Destroy

variable {P : Platform} {rich : Bool} {h : NetlinkHeader} {b : Bytes} {d : SockDiagDestroy rich}

theorem deserialize_destroy_eq_ok_iff :
    SockDiagDestroy.deserialize P h b = .ok d ↔
      SockDiagMessage.parseWithParam P b h.messageType = .ok d.message := by
  unfold SockDiagDestroy.deserialize SockDiagMessage.deserialize
  rw [Outcome.bind_eq_ok]
  refine ⟨?_, ?_⟩
  · intro hd
    obtain ⟨m, hm, hnew⟩ := hd
    obtain rfl := Outcome.ok.inj hnew
    exact hm
  · intro hm
    exact ⟨d.message, hm, rfl⟩

variable [P.Lawful]

theorem deserialize_destroy_returns :
    (SockDiagDestroy.deserialize P h b : Outcome _ (SockDiagDestroy rich)).Returns := by
  unfold SockDiagDestroy.deserialize
  refine Outcome.Returns.bind ?_ fun m _ => Outcome.returns_ok _
  exact SockDiagMessage.parseWithParam_returns

/-- What a destroy request is decoded from. -/
theorem exists_deserialize_destroy_iff :
    (∃ d : SockDiagDestroy rich, SockDiagDestroy.deserialize P h b = .ok d) ↔
      h.messageType = sockDiagByFamily ∧ (InetMessage P.order rich b ∨ UnixMessage P.order b) := by
  rw [← exists_parseWithParam_iff]
  refine ⟨?_, ?_⟩
  · intro hd
    obtain ⟨d, hd⟩ := hd
    exact ⟨d.message, deserialize_destroy_eq_ok_iff.mp hd⟩
  · intro hm
    obtain ⟨m, hm⟩ := hm
    exact ⟨.new m, deserialize_destroy_eq_ok_iff.mpr hm⟩

variable (P rich) in
/-- Under its own message type nothing is decoded. -/
theorem deserialize_destroy_eq_err (b : Bytes) (htype : h.messageType = sockDestroy) :
    ∃ e, (SockDiagDestroy.deserialize P h b : Outcome _ (SockDiagDestroy rich)) = .err e := by
  refine deserialize_destroy_returns.eq_err fun d hd => ?_
  -- The header is handed on as it is, and the wrapped decoder knows one type only.
  have hne : sockDestroy ≠ sockDiagByFamily := by decide
  have hfamily := (exists_deserialize_destroy_iff.mp ⟨d, hd⟩).1
  exact hne (htype.symm.trans hfamily)

end Destroy

/-- **A destroy request never comes back, and a response does come back as one**: it is an error to
    decode what was written under the type it is written with, and under the type of a response
    whatever is a response is decoded. -/
theorem destroy_decodes_iff (P : Platform) [P.Lawful] (rich : Bool) :
    (∀ m : SockDiagMessage rich, m.RoundTrips P → ∀ buf : Bytes,
      buf.length = (SockDiagDestroy.new m).bufferLen P →
        ∃ out e, ((SockDiagDestroy.new m).serialize P).run buf = .ok out ∧
          (SockDiagDestroy.deserialize P ⟨(SockDiagDestroy.new m).messageType⟩ out :
            Outcome _ (SockDiagDestroy rich)) = .err e) ∧
    ∀ (h : NetlinkHeader) (b : Bytes),
      ((∀ d : SockDiagDestroy rich, SockDiagDestroy.deserialize P h b = .ok d →
          h.messageType = sockDestroy) ↔
        ¬ (h.messageType = sockDiagByFamily ∧
          (InetMessage P.order rich b ∨ UnixMessage P.order b))) := by
  refine ⟨?_, ?_⟩
  · intro m hm buf hbuf
    obtain ⟨out, hout, -⟩ := hm buf hbuf
    obtain ⟨e, he⟩ := deserialize_destroy_eq_err P rich out
      (h := ⟨(SockDiagDestroy.new m).messageType⟩) rfl
    exact ⟨out, e, hout, he⟩
  · intro h b
    rw [← exists_deserialize_destroy_iff]
    refine ⟨?_, ?_⟩
    · intro hall hd
      obtain ⟨d, hd⟩ := hd
      obtain ⟨e, he⟩ := deserialize_destroy_eq_err P rich b (hall d hd)
      rw [hd] at he
      exact absurd he (by simp)
    · intro hnone d hd
      exact absurd ⟨d, hd⟩ hnone

/-- A unix socket about which nothing is said but that it is there. -/
def bareSocket : SockDiagMessage false := .unixResponse ⟨⟨1, 1, 0, .replicate 8 0⟩, []⟩

def bareMessage : Bytes := [1, 1, 1, 0] ++ List.replicate 12 0

theorem bareSocket_roundTrips : bareSocket.RoundTrips (.reference .little) := by
  intro buf hbuf
  have hempty : ∀ x ∈ ([] : List Unix.Nla), x.valueLen (.reference .little) ≤ 65531 := by simp
  refine ⟨_, (UnixResponse.implements (.reference .little)).emit_run
    ((UnixResponse.fits_iff _).mpr hempty) hbuf, ?_⟩
  exact (parse_encode_unix_iff (P := .reference .little) hempty).mpr (by simp)

theorem bareSocket_destroy_decodes :
    (∃ out e,
      ((SockDiagDestroy.new bareSocket).serialize (.reference .little)).run
        (List.replicate 16 0xff) = .ok out ∧
      (SockDiagDestroy.deserialize (.reference .little)
        ⟨(SockDiagDestroy.new bareSocket).messageType⟩ out :
          Outcome _ (SockDiagDestroy false)) = .err e) ∧
    ¬ (sockDestroy = sockDiagByFamily ∧
      (InetMessage .little false bareMessage ∨ UnixMessage .little bareMessage)) := by
  have hdecodes := destroy_decodes_iff (.reference .little) false
  refine ⟨hdecodes.1 bareSocket bareSocket_roundTrips _ List.length_replicate, ?_⟩
  exact (hdecodes.2 ⟨sockDestroy⟩ bareMessage).mp fun _ _ => rfl

/-- Written as a destroy request the socket is not read back, and read as one it is taken from what
    was written as a response. -/
theorem bareSocket_destroy_lost :
    bareSocket.RoundTrips (.reference .little) ∧
    ((SockDiagDestroy.new bareSocket).serialize (.reference .little)).run (List.replicate 16 0xff) =
      .ok bareMessage ∧
    SockDiagDestroy.deserialize (.reference .little)
      ⟨(SockDiagDestroy.new bareSocket).messageType⟩ bareMessage ≠ .ok (.new bareSocket) ∧
    SockDiagDestroy.deserialize (.reference .little) ⟨sockDiagByFamily⟩ bareMessage =
      .ok (.new bareSocket) ∧
    sockDiagByFamily ≠ sockDestroy := by
  refine ⟨bareSocket_roundTrips, rfl, ?_, rfl, by decide⟩
  intro hd
  obtain ⟨e, he⟩ := deserialize_destroy_eq_err (.reference .little) false bareMessage
    (h := ⟨sockDestroy⟩) rfl
  have hok : SockDiagDestroy.deserialize (.reference .little) ⟨sockDestroy⟩ bareMessage =
      .ok (.new bareSocket) := hd
  rw [hok] at he
  exact absurd he (by simp)

/-! ## Requests -/

/-- A unix request read as the header of a response: the flags are taken for an inode, and the
    inode and the other flags for a cookie. -/
def misreadHeader (o : ByteOrder) (r : UnixRequest) : UnixResponseHeader where
  kind := 0
  state := 0
  inode := r.stateFlags.bits
  cookie := (Packed.bytes 8).ofBytes
    ((Packed.u32 o).toBytes r.inode ++ (Packed.u32 o).toBytes r.showFlags.bits)

/-- The bytes of a unix request are those of a response header and a cookie. -/
theorem unixRequest_bytes_eq (o : ByteOrder) (r : UnixRequest) :
    r.bytes o =
      (UnixResponseBuffer.layout o).toBytes (.fromUnixResponseHeader (misreadHeader o r)) ++
        r.cookie.toList := by
  have hcookie : (Packed.bytes 8).toBytes (misreadHeader o r).cookie =
      (Packed.u32 o).toBytes r.inode ++ (Packed.u32 o).toBytes r.showFlags.bits :=
    (Packed.bytes 8).toBytes_ofBytes _ (by simp)
  have hpad : (Packed.u16 o).toBytes 0 = [0, 0] := o.toBytes_zero 2
  show [afUnix] ++ ([0] ++ ((Packed.u16 o).toBytes 0 ++ ((Packed.u32 o).toBytes r.stateFlags.bits ++
      ((Packed.u32 o).toBytes r.inode ++ ((Packed.u32 o).toBytes r.showFlags.bits ++
        r.cookie.toList))))) =
    ([afUnix] ++ ([0] ++ ([0] ++ ([0] ++ ((Packed.u32 o).toBytes r.stateFlags.bits ++
      (Packed.bytes 8).toBytes (misreadHeader o r).cookie))))) ++ r.cookie.toList
  rw [hcookie, hpad]
  simp only [List.append_assoc, List.cons_append, List.nil_append]

section Requests

variable (P : Platform) [P.Lawful] {rich : Bool}

theorem emit_unixRequest {r : UnixRequest} {buf : Bytes} (hbuf : buf.length = r.bufferLen P) :
    (r.emit P).run buf = .ok (r.bytes P.order) := by
  rw [UnixRequest.emit_eq]
  exact Writer.fills_copyFromSlice _ buf (hbuf.trans (r.length_bytes P.order).symm)

theorem emit_inetRequest {r : InetRequest} {buf : Bytes} (hbuf : buf.length = r.bufferLen P) :
    (r.emit P).run buf = .ok (r.bytes P) := by
  rw [InetRequest.emit_eq]
  exact Writer.fills_copyFromSlice _ buf (hbuf.trans (r.length_bytes P).symm)

variable {P}

/-- What a unix request decodes as: a response with the request's cookie for attributes. -/
theorem parse_unixRequest_iff {r : UnixRequest} {m : SockDiagMessage rich} :
    SockDiagMessage.parseWithParam P (r.bytes P.order) sockDiagByFamily = .ok m ↔
      ∃ nlas, m = .unixResponse ⟨misreadHeader P.order r, nlas⟩ ∧
        (Unix.Nla.codec P.order).Decodes P.order r.cookie.toList nlas := by
  have hparse : ∀ r' : UnixResponse, UnixResponse.parse P (r.bytes P.order) = .ok r' ↔
      r'.header = misreadHeader P.order r ∧
        (Unix.Nla.codec P.order).Decodes P.order r.cookie.toList r'.nlas := by
    intro r'
    rw [(UnixResponse.implements P).parse_eq_ok_iff, unixRequest_bytes_eq]
    exact Format.decodes_writeHeader_append_iff (UnixResponse.readHeader_writeHeader _ _)
  rw [SockDiagMessage.parseWithParam_eq_ok_iff]
  refine ⟨?_, ?_⟩
  · intro h
    obtain ⟨-, ⟨r', -, hhead, -⟩ | ⟨r', rfl, -, hr⟩⟩ := h
    · -- The family byte is `AF_UNIX`.
      exact absurd (r.head?_bytes P.order) (head?_ne_afUnix hhead)
    · obtain ⟨hheader, hnlas⟩ := (hparse r').mp hr
      exact ⟨r'.nlas, by rw [← hheader], hnlas⟩
  · intro h
    obtain ⟨nlas, rfl, hnlas⟩ := h
    exact ⟨rfl, .inr ⟨_, rfl, rfl, (hparse _).mpr ⟨rfl, hnlas⟩⟩⟩

/-- An inet request is shorter than the header of an inet response. -/
theorem parse_inetRequest_eq_err (rich : Bool) {r : InetRequest}
    (hfamily : r.family = afInet ∨ r.family = afInet6) :
    ∃ e, (SockDiagMessage.parseWithParam P (r.bytes P) sockDiagByFamily :
      Outcome _ (SockDiagMessage rich)) = .err e := by
  refine SockDiagMessage.parseWithParam_returns.eq_err fun m hm => ?_
  have hlen := r.length_bytes P
  obtain ⟨-, ⟨r', -, -, hr⟩ | ⟨r', -, hhead, -⟩⟩ := SockDiagMessage.parseWithParam_eq_ok_iff.mp hm
  · -- 56 bytes, where the header alone takes 72.
    have := SockDiagMessage.length_of_inet_parse hr
    omega
  · rw [InetRequest.head?_bytes, Option.some.injEq] at hhead
    rw [hhead] at hfamily
    exact absurd hfamily (by decide)

end Requests

/-- **No request is decoded as a request, and only a unix request as anything at all**: it is a
    response when its cookie spells attributes of one, and then those are its attributes. -/
theorem request_decodes_iff (P : Platform) [P.Lawful] (rich : Bool) :
    (∀ r : InetRequest, r.family = afInet ∨ r.family = afInet6 → ∀ buf : Bytes,
      buf.length = (SockDiagMessage.inetRequest r : SockDiagMessage rich).bufferLen P →
        ∃ out e,
          ((SockDiagMessage.inetRequest r : SockDiagMessage rich).emit P).run buf = .ok out ∧
          (SockDiagMessage.parseWithParam P out
            (SockDiagMessage.inetRequest r : SockDiagMessage rich).messageType :
              Outcome _ (SockDiagMessage rich)) = .err e) ∧
    ∀ (r : UnixRequest) (buf : Bytes),
      buf.length = (SockDiagMessage.unixRequest r : SockDiagMessage rich).bufferLen P →
        ∃ out,
          ((SockDiagMessage.unixRequest r : SockDiagMessage rich).emit P).run buf = .ok out ∧
          (UnixArea P.order r.cookie.toList →
            ∃ nlas, (Unix.Nla.codec P.order).Decodes P.order r.cookie.toList nlas ∧
              SockDiagMessage.parseWithParam P out
                (SockDiagMessage.unixRequest r : SockDiagMessage rich).messageType =
                  .ok (.unixResponse ⟨misreadHeader P.order r, nlas⟩ : SockDiagMessage rich)) ∧
          (¬ UnixArea P.order r.cookie.toList →
            ∃ e, (SockDiagMessage.parseWithParam P out
              (SockDiagMessage.unixRequest r : SockDiagMessage rich).messageType :
                Outcome _ (SockDiagMessage rich)) = .err e) := by
  refine ⟨?_, ?_⟩
  · intro r hfamily buf hbuf
    obtain ⟨e, he⟩ := parse_inetRequest_eq_err (P := P) rich hfamily
    exact ⟨_, e, emit_inetRequest P hbuf, he⟩
  · intro r buf hbuf
    refine ⟨_, emit_unixRequest P hbuf, ?_, ?_⟩
    · intro harea
      obtain ⟨nlas, hnlas⟩ := unixArea_iff.mp harea
      exact ⟨nlas, hnlas, parse_unixRequest_iff.mpr ⟨nlas, rfl, hnlas⟩⟩
    · intro harea
      refine SockDiagMessage.parseWithParam_returns.eq_err fun m hm => ?_
      obtain ⟨nlas, -, hnlas⟩ := parse_unixRequest_iff.mp hm
      exact harea (unixArea_iff.mpr ⟨nlas, hnlas⟩)

/-- All TCP sockets of IPv4, in whatever state they are. -/
def anyConnection : InetRequest := ⟨afInet, ipprotoTcp, ⟨0⟩, StateFlags.all, .newV4⟩

/-- The cookie that says any socket will do. -/
def anySocket : UnixRequest := ⟨StateFlags.all, 0, ShowFlags.all, .replicate 8 0xff⟩

theorem anySocket_rejected :
    (∃ out e,
      ((SockDiagMessage.inetRequest anyConnection : SockDiagMessage true).emit
        (.reference .big)).run (List.replicate 56 0) = .ok out ∧
      (SockDiagMessage.parseWithParam (.reference .big) out sockDiagByFamily :
        Outcome _ (SockDiagMessage true)) = .err e) ∧
    ∃ out e,
      ((SockDiagMessage.unixRequest anySocket : SockDiagMessage true).emit
        (.reference .big)).run (List.replicate 24 0) = .ok out ∧
      (SockDiagMessage.parseWithParam (.reference .big) out sockDiagByFamily :
        Outcome _ (SockDiagMessage true)) = .err e := by
  obtain ⟨hinet, hunix⟩ := request_decodes_iff (.reference .big) true
  refine ⟨hinet anyConnection (.inl rfl) _ List.length_replicate, ?_⟩
  obtain ⟨out, hout, -, herr⟩ := hunix anySocket (List.replicate 24 0) List.length_replicate
  have hnone : ¬ UnixArea .big anySocket.cookie.toList := by
    intro harea
    obtain ⟨as, ha, -⟩ := harea
    have hsplit : split .big anySocket.cookie.toList = none := by decide
    rw [split_eq_some_iff.mpr ha] at hsplit
    exact absurd hsplit (by simp)
  obtain ⟨e, he⟩ := herr hnone
  exact ⟨out, e, hout, he⟩

/-- A request whose cookie spells an attribute, on a little-endian host. -/
def cookieOfPeer : UnixRequest :=
  ⟨StateFlags.all, 5, ShowFlags.all, #v[8, 0, 2, 0, 1, 2, 3, 4]⟩

theorem cookieOfPeer_accepted :
    ∃ out,
      ((SockDiagMessage.unixRequest cookieOfPeer : SockDiagMessage false).emit
        (.reference .little)).run (List.replicate 24 0) = .ok out ∧
      SockDiagMessage.parseWithParam (.reference .little) out sockDiagByFamily =
        .ok (.unixResponse ⟨misreadHeader .little cookieOfPeer, [.peer 0x04030201]⟩ :
          SockDiagMessage false) := ⟨_, rfl, rfl⟩

end SockDiag
