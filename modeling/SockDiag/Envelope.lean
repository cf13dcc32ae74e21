import SockDiag.Buffer
import SockDiag.Dump.Datagram
import SockDiag.RequestCodecs

/-!
# A message in its envelope

What a program does to send a message: put it into a netlink message, `finalize` that, make a buffer
of the length that is now in the header, check that it is the right one, and `serialize` into it.
And what becomes of it when it is read by a program that receives.

The length goes into a field of 32 bits, so of a message that is too long it is the wrong one. The
`assert_eq!` in `main` catches that, and what it lets through can be written, unless an attribute is
itself too long: `sent_or_panicked` says that what is `Sendable` is sent, byte for byte, and
everything else panics. In particular the packet `main` sends is sent (`packet_sent`).

An `Envelope` is such a frame. Whatever comes behind it, what is read off it is as long as it is, so
frames can be put one behind the other, and `envelopes_packed_iff` says that all of them are read
back exactly when each of them is. That is what a server fills its datagrams with in
`SockDiag.Dump.Service`.
-/

set_option autoImplicit false

namespace SockDiag

open Rust Inet Unix

/-- It can be written, and the length of the whole has room in a header. -/
def SockDiagMessage.Sendable (P : Platform) {rich : Bool} (m : SockDiagMessage rich) : Prop :=
  m.AttrsFit P ∧ 16 + m.bufferLen P < 4294967296

namespace Dump

section Serialized

variable {P : Platform} {N : NetlinkMessages P} [N.Lawful] {I : Type} {S : NetlinkSerializable I}
  {flags : UInt16} {msg : I}

/-- The header `finalize` leaves. -/
def finalHeader (S : NetlinkSerializable I) (flags : UInt16) (msg : I) : WholeHeader where
  messageType := S.messageType msg
  length := UInt32.ofNat (16 + S.bufferLen msg)
  flags := flags
  sequenceNumber := 0
  portNumber := 0

theorem finalized_eq : finalized N S flags (.innerMessage msg) =
    ⟨finalHeader S flags msg, .innerMessage msg⟩ := NetlinkMessages.Lawful.finalize_inner S _ msg

theorem toNat_length (S : NetlinkSerializable I) (flags : UInt16)
    (hlen : 16 + S.bufferLen msg < 4294967296) :
    (finalHeader S flags msg).length.toNat = 16 + S.bufferLen msg := by
  show (16 + S.bufferLen msg) % 4294967296 = _
  exact Nat.mod_eq_of_lt hlen

/-- Where the length has room in the header, the header is written and then the message. -/
theorem serialized_eq (hlen : 16 + S.bufferLen msg < 4294967296) :
    serialized N S (finalized N S flags (.innerMessage msg)) =
      (S.serialize msg).run (List.replicate (S.bufferLen msg) 0) >>= fun body =>
        .ok ((WholeHeader.layout P.order).toBytes (finalHeader S flags msg) ++ body) := by
  have hlength := toNat_length S flags hlen
  have hbuf : (List.replicate (finalHeader S flags msg).length.toNat (0 : UInt8)).length =
      16 + S.bufferLen msg := by
    rw [List.length_replicate, hlength]
  have hdrop : (List.replicate (finalHeader S flags msg).length.toNat (0 : UInt8)).drop 16 =
      List.replicate (S.bufferLen msg) 0 := by
    rw [hlength, List.drop_replicate, Nat.add_sub_cancel_left]
  have hcheck := hbuf.trans (NetlinkMessages.Lawful.bufferLen_inner (N := N) S
    (finalHeader S flags msg) msg).symm
  rw [finalized_eq, serialized, if_pos hcheck,
    NetlinkMessages.Lawful.serialize_inner S _ msg _ hbuf (by rw [hbuf, hlength]), hdrop]

/-- Where it has none, the check fails. -/
theorem serialized_eq_panic (hlen : 4294967296 ≤ 16 + S.bufferLen msg) :
    serialized N S (finalized N S flags (.innerMessage msg)) = .panic := by
  have hlength : (finalHeader S flags msg).length.toNat < 4294967296 :=
    UInt32.toNat_lt (finalHeader S flags msg).length
  rw [finalized_eq, serialized, NetlinkMessages.Lawful.bufferLen_inner, List.length_replicate]
  exact if_neg (by show (finalHeader S flags msg).length.toNat ≠ _; omega)

/-- What is read off the front of an envelope, whatever comes behind it. -/
theorem deserialize_envelope_iff {J : Type} {de : NetlinkHeader → Bytes → Outcome P.DecodeError J}
    {body c : Bytes} {m : N.Message J} (hlen : 16 + S.bufferLen msg < 4294967296)
    (hbody : body.length = S.bufferLen msg) :
    N.deserialize de
        ((WholeHeader.layout P.order).toBytes (finalHeader S flags msg) ++ (body ++ c)) = .ok m ↔
      m.header = finalHeader S flags msg ∧ N.Holds de ⟨S.messageType msg⟩ body m.payload := by
  have hlength := toNat_length S flags hlen
  have hhead : ((WholeHeader.layout P.order).toBytes (finalHeader S flags msg)).length = 16 :=
    Packed.length_toBytes _ _
  have hslice : slice ((WholeHeader.layout P.order).toBytes (finalHeader S flags msg) ++ (body ++ c))
      16 (16 + S.bufferLen msg) = body := slice_append hhead (by rw [hbody]) c
  rw [NetlinkMessages.Lawful.deserialize_ok_iff, List.take_left' hhead, Packed.ofBytes_toBytes,
    List.length_append, List.length_append, hhead, hbody]
  refine ⟨?_, ?_⟩
  · intro h
    obtain ⟨-, hheader, -, -, hholds⟩ := h
    rw [hheader, hlength, hslice] at hholds
    exact ⟨hheader, hholds⟩
  · intro h
    obtain ⟨hheader, hholds⟩ := h
    rw [hheader, hlength, hslice]
    exact ⟨by omega, rfl, by omega, by omega, hholds⟩

end Serialized

/-! ## The messages of the crate -/

section Messages

variable {P : Platform} [P.Lawful] {rich : Bool}

theorem emit_eq_panic {m : SockDiagMessage rich} (hfit : ¬ m.AttrsFit P) (buf : Bytes) :
    (m.emit P).run buf = .panic := by
  cases m with
  | inetRequest r => exact absurd trivial hfit
  | inetResponse r =>
    have hbad := (InetResponse.fits_iff P).not.mpr hfit
    push Not at hbad
    exact (InetResponse.implements P).emit_panics hbad buf
  | unixRequest r => exact absurd trivial hfit
  | unixResponse r =>
    have hbad := (UnixResponse.fits_iff P).not.mpr hfit
    push Not at hbad
    exact (UnixResponse.implements P).emit_panics hbad buf

/-- **What `main` does with its request works for every message that can be sent, and panics for every
    other**: the check on the buffer is what keeps too long a message from being written, and nothing
    keeps one with too long an attribute. A destroy request differs in its type alone. -/
theorem sent_or_panicked (N : NetlinkMessages P) [N.Lawful] (flags : UInt16)
    (m : SockDiagMessage rich) :
    (m.Sendable P → ∃ body, body.length = m.bufferLen P ∧
      (∀ buf : Bytes, buf.length = m.bufferLen P → (m.emit P).run buf = .ok body) ∧
      serialized N (SockDiagMessage.serializable P rich)
          (finalized N (SockDiagMessage.serializable P rich) flags m.toPayload) =
        .ok ((WholeHeader.layout P.order).toBytes
          ⟨⟨sockDiagByFamily⟩, .ofNat (16 + m.bufferLen P), flags, 0, 0⟩ ++ body) ∧
      serialized N (SockDiagDestroy.serializable P rich)
          (finalized N (SockDiagDestroy.serializable P rich) flags
            (SockDiagDestroy.new m).toPayload) =
        .ok ((WholeHeader.layout P.order).toBytes
          ⟨⟨sockDestroy⟩, .ofNat (16 + m.bufferLen P), flags, 0, 0⟩ ++ body)) ∧
    (¬ m.Sendable P →
      serialized N (SockDiagMessage.serializable P rich)
          (finalized N (SockDiagMessage.serializable P rich) flags m.toPayload) = .panic ∧
      serialized N (SockDiagDestroy.serializable P rich)
          (finalized N (SockDiagDestroy.serializable P rich) flags
            (SockDiagDestroy.new m).toPayload) = .panic) := by
  refine ⟨?_, ?_⟩
  · intro hm
    obtain ⟨body, hbody, hrun⟩ := m.emit_overwrites P hm.1
    have hblank : (m.emit P).run (List.replicate (m.bufferLen P) 0) = .ok body :=
      hrun _ List.length_replicate
    refine ⟨body, hbody, hrun, ?_, ?_⟩
    · rw [SockDiagMessage.toPayload, serialized_eq (by exact hm.2)]
      show (m.emit P).run (List.replicate (m.bufferLen P) 0) >>= _ = _
      rw [hblank, Outcome.ok_bind]
      rfl
    · rw [SockDiagDestroy.toPayload, serialized_eq (by exact hm.2)]
      show (m.emit P).run (List.replicate (m.bufferLen P) 0) >>= _ = _
      rw [hblank, Outcome.ok_bind]
      rfl
  · intro hm
    by_cases hlen : 16 + m.bufferLen P < 4294967296
    · -- It is the message that panics.
      have hfit : ¬ m.AttrsFit P := fun hfit => hm ⟨hfit, hlen⟩
      refine ⟨?_, ?_⟩
      · rw [SockDiagMessage.toPayload, serialized_eq (by exact hlen)]
        show (m.emit P).run (List.replicate (m.bufferLen P) 0) >>= _ = _
        rw [emit_eq_panic hfit, Outcome.panic_bind]
      · rw [SockDiagDestroy.toPayload, serialized_eq (by exact hlen)]
        show (m.emit P).run (List.replicate (m.bufferLen P) 0) >>= _ = _
        rw [emit_eq_panic hfit, Outcome.panic_bind]
    · have hlong : 4294967296 ≤ 16 + m.bufferLen P := Nat.le_of_not_lt hlen
      exact ⟨serialized_eq_panic hlong, serialized_eq_panic hlong⟩

end Messages

/-- 116 bytes for a response of 100. -/
theorem keptAlive_sent :
    ∃ body, body.length = 100 ∧
      serialized (.reference .little) (SockDiagMessage.serializable (.reference .little) false)
        (finalized (.reference .little) (SockDiagMessage.serializable (.reference .little) false) 2
          (SockDiagMessage.inetResponse keptAlive).toPayload) =
      .ok ((WholeHeader.layout .little).toBytes ⟨⟨20⟩, 116, 2, 0, 0⟩ ++ body) := by
  have hsend : (SockDiagMessage.inetResponse keptAlive).Sendable (.reference .little) :=
    ⟨show ∀ x ∈ keptAlive.nlas, x.valueLen (.reference .little) ≤ 65531 by decide, by decide⟩
  obtain ⟨body, hbody, -, hout, -⟩ := (sent_or_panicked (.reference .little) 2 _).1 hsend
  exact ⟨body, hbody, hout⟩

theorem request_fits : request.Fits := ⟨.inl rfl, rfl, rfl, by decide, by decide⟩

/-- What `main` sends: the check does not fail, and the request is read back off the bytes after the
    header. -/
theorem packet_sent (P : Platform) [P.Lawful] (N : NetlinkMessages P) [N.Lawful] (rich : Bool) :
    serialized N (SockDiagMessage.serializable P rich) (packet N rich) =
      .ok ((WholeHeader.layout P.order).toBytes ⟨⟨sockDiagByFamily⟩, 72, 769, 0, 0⟩ ++
        request.bytes P) ∧
    InetRequest.parse P (request.bytes P) = .ok request := by
  have hrun : (request.emit P).run (List.replicate 56 0) = .ok (request.bytes P) :=
    emit_inetRequest P List.length_replicate
  refine ⟨?_, ?_⟩
  · rw [packet, SockDiagMessage.toPayload, serialized_eq (by exact (by decide : 16 + 56 < 4294967296))]
    show (request.emit P).run (List.replicate 56 0) >>= _ = _
    rw [hrun, Outcome.ok_bind]
    rfl
  · obtain ⟨out, hout, hback⟩ :=
      (InetRequest.inverseUpTo (P := P)).parse_emit request _ List.length_replicate
    obtain rfl := Outcome.ok.inj (hrun.symm.trans hout)
    exact hback.mpr request_fits

/-! ## Envelopes in a datagram -/

section Envelopes

variable {P : Platform} {rich : Bool}

/-- `frame` is what `main` sends for `m`, and what is known of it when it is read. -/
structure Envelope (N : NetlinkMessages P) [N.Lawful] (flags : UInt16) (m : SockDiagMessage rich)
    (frame : Bytes) : Prop where
  serialized_eq : serialized N (SockDiagMessage.serializable P rich)
    (finalized N (SockDiagMessage.serializable P rich) flags m.toPayload) = .ok frame
  length_of_read : ∀ rxPacket n c,
    (packets N rich).read (frame ++ c) = some (rxPacket, n) → n = frame.length
  read_iff : (packets N rich).read frame =
      some (finalized N (SockDiagMessage.serializable P rich) flags m.toPayload, frame.length) ↔
    m.RoundTrips P

variable {N : NetlinkMessages P} [N.Lawful] {flags : UInt16} {m : SockDiagMessage rich}

theorem roundTrips_iff {body : Bytes} (hbody : body.length = m.bufferLen P)
    (hrun : ∀ buf : Bytes, buf.length = m.bufferLen P → (m.emit P).run buf = .ok body) :
    m.RoundTrips P ↔ SockDiagMessage.deserialize P ⟨m.messageType⟩ body = .ok m := by
  refine ⟨?_, ?_⟩
  · intro h
    obtain ⟨out, hout, hback⟩ := h body hbody
    obtain rfl := Outcome.ok.inj ((hrun body hbody).symm.trans hout)
    exact hback
  · intro hback buf hbuf
    exact ⟨body, hrun buf hbuf, hback⟩

theorem envelopes_read_iff {ms : List (SockDiagMessage rich)} {frames : List Bytes}
    (h : List.Forall₂ (Envelope N flags) ms frames) :
    List.Forall₂ (fun x f => (packets N rich).read f = some (x, f.length))
        (ms.map fun m => finalized N (SockDiagMessage.serializable P rich) flags m.toPayload) frames ↔
      ∀ m ∈ ms, m.RoundTrips P := by
  induction h with
  | nil => simp
  | cons hm _ ih => rw [List.map_cons, List.forall₂_cons, hm.read_iff, ih, List.forall_mem_cons]

variable [P.Lawful]

theorem exists_envelope (N : NetlinkMessages P) [N.Lawful] (flags : UInt16)
    (hsend : m.Sendable P) : ∃ frame, Envelope N flags m frame := by
  obtain ⟨hfit, hlen⟩ := hsend
  obtain ⟨body, hbody, hrun⟩ := m.emit_overwrites P hfit
  let S := SockDiagMessage.serializable P rich
  have hlength : (finalHeader S flags m).length.toNat = 16 + m.bufferLen P :=
    toNat_length S flags hlen
  let head := (WholeHeader.layout P.order).toBytes (finalHeader S flags m)
  have hframe : (head ++ body).length = 16 + m.bufferLen P := by
    rw [List.length_append, hbody]
    exact congrArg (· + m.bufferLen P) (Packed.length_toBytes _ _)
  refine ⟨head ++ body, ?_, ?_, ?_⟩
  · rw [SockDiagMessage.toPayload, serialized_eq (by exact hlen)]
    show (m.emit P).run (List.replicate (m.bufferLen P) 0) >>= _ = _
    rw [hrun _ List.length_replicate, Outcome.ok_bind]
  · intro rxPacket n c hread
    obtain ⟨hde, rfl⟩ := NetlinkMessages.reader_read_eq_some_iff.mp hread
    rw [List.append_assoc] at hde
    rw [((deserialize_envelope_iff (by exact hlen) hbody).mp hde).1, hframe]
    exact hlength
  · rw [NetlinkMessages.reader_read_eq_some_iff, SockDiagMessage.toPayload, finalized_eq, hframe,
      and_iff_left hlength.symm, roundTrips_iff hbody hrun]
    have hnil : head ++ body = head ++ (body ++ []) := by rw [List.append_nil]
    rw [hnil]
    refine (deserialize_envelope_iff (by exact hlen) hbody).trans ?_
    have htype : sockDiagByFamily ∉ [nlmsgNoop, nlmsgError, nlmsgDone, nlmsgOverrun] := by decide
    exact (and_iff_right rfl).trans (and_iff_right htype)

/-- **Messages written one behind the other are read one by one exactly when each of them comes back
    on its own.** -/
theorem envelopes_packed_iff (N : NetlinkMessages P) [N.Lawful] (flags : UInt16)
    (ms : List (SockDiagMessage rich)) (hsend : ∀ m ∈ ms, m.Sendable P) :
    ∃ frames : List Bytes,
      List.Forall₂ (fun m frame => serialized N (SockDiagMessage.serializable P rich)
        (finalized N (SockDiagMessage.serializable P rich) flags m.toPayload) = .ok frame) ms frames ∧
      ((packets N rich).Packs (ms.map fun m =>
          finalized N (SockDiagMessage.serializable P rich) flags m.toPayload) frames.flatten ↔
        ∀ m ∈ ms, m.RoundTrips P) := by
  have henvelopes : ∃ frames, List.Forall₂ (Envelope N flags) ms frames := by
    induction ms with
    | nil => exact ⟨[], .nil⟩
    | cons m ms ih =>
      obtain ⟨hm, hms⟩ := List.forall_mem_cons.mp hsend
      obtain ⟨frame, hframe⟩ := exists_envelope N flags hm
      obtain ⟨frames, hframes⟩ := ih hms
      exact ⟨frame :: frames, .cons hframe hframes⟩
  obtain ⟨frames, hframes⟩ := henvelopes
  refine ⟨frames, hframes.imp fun _ _ h => h.serialized_eq, ?_⟩
  rw [← envelopes_read_iff hframes]
  refine FrameReader.packs_flatten_iff ?_
  rw [List.forall₂_map_left_iff]
  exact hframes.imp fun _ _ h => h.length_of_read

end Envelopes

/-- Two responses in a datagram. -/
theorem bareSockets_packed :
    ∃ frames : List Bytes, frames.length = 2 ∧
      (packets (.reference .little) false).Packs ([bareSocket, bareSocket].map fun m =>
        finalized (.reference .little) (SockDiagMessage.serializable (.reference .little) false) 2
          m.toPayload) frames.flatten := by
  have hsend : bareSocket.Sendable (.reference .little) :=
    ⟨fun _ hx => absurd hx (by simp), by decide⟩
  obtain ⟨frames, hframes, hpacks⟩ :=
    envelopes_packed_iff (.reference .little) 2 [bareSocket, bareSocket] (by simp [hsend])
  exact ⟨frames, hframes.length_eq.symm, hpacks.mpr (by simp [bareSocket_roundTrips])⟩

end Dump

end SockDiag
