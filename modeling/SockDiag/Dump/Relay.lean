import SockDiag.Envelope
import SockDiag.Sizes

/-!
# What was read, sent on

The decoder takes messages the crate cannot write: a name may be one byte too long for the NUL it is
given. Such a message does not fit into the buffer of the client, and everything that does can be
sent on as it was read. A program that passes on what it receives therefore need not look at it.

`SockDiagMessage.sendable_of_parse` and `SockDiagMessage.roundTrips_of_parse` are that for a message
of up to 65535 bytes. `Traced` is the invariant that brings it to the client: every message among
its lines was decoded from a part of its buffer. From the two, `printed_relayed`: after any run
against any kernel, each message printed is written into an envelope without a panic, in 4096 bytes
and four for each name that may have had no NUL, and is read back off the front of it.
-/

set_option autoImplicit false

namespace SockDiag

open Rust Tlv Inet Unix

/-! ## Messages that were decoded -/

namespace SockDiagMessage

variable {P : Platform} [P.Lawful] {rich : Bool} {b : Bytes} {type : UInt16}
  {m : SockDiagMessage rich}

/-- No attribute of so few bytes is too long to be written. -/
theorem attrsFit_of_parse (h : parseWithParam P b type = .ok m) (hlen : b.length ≤ 65535) :
    m.AttrsFit P := by
  obtain ⟨-, ⟨r, rfl, -, hr⟩ | ⟨r, rfl, -, hr⟩⟩ := parseWithParam_eq_ok_iff.mp h
  · refine (InetResponse.fits_iff P).mp ((fits_of_inet_parse_iff hr).mpr ?_)
    intro hover
    obtain ⟨as, harea, a, ha, -, hlong, -⟩ := hover
    have hle := harea.length_le_of_mem ha
    rw [List.length_drop, Attr.length, hlong] at hle
    omega
  · exact (UnixResponse.fits_iff P).mp (fits_of_unix_parse hr)

theorem sendable_of_parse (h : parseWithParam P b type = .ok m) (hlen : b.length ≤ 65535) :
    m.Sendable P := by
  refine ⟨attrsFit_of_parse h hlen, ?_⟩
  have hle := bufferLen_le h
  have hgrows := grows_le h
  unfold align at hle
  omega

theorem roundTrips_of_parse (h : parseWithParam P b type = .ok m) (hlen : b.length ≤ 65535) :
    m.RoundTrips P := by
  have hfit := attrsFit_of_parse h hlen
  intro buf hbuf
  obtain ⟨-, ⟨r, rfl, hhead, hr⟩ | ⟨r, rfl, -, hr⟩⟩ := parseWithParam_eq_ok_iff.mp h
  · have I : Implements P (InetResponse.format P rich) _ _ _ _ _ := InetResponse.implements P
    have fits := (InetResponse.fits_iff P).mpr hfit
    refine ⟨_, I.emit_run fits hbuf, parseWithParam_inetResponse_iff.mpr ⟨?_, ?_⟩⟩
    · rw [InetResponse.head?_encode, Option.some.injEq, Option.some.injEq]
      exact (InetResponseHeader.fits_of_ofRaw (I.parse_eq_ok_iff.mp hr).2.1).family
    · exact I.parse_encode_of_parse (InetResponse.stable P) fits hr
  · have I := UnixResponse.implements P
    have fits := fits_of_unix_parse hr
    refine ⟨_, I.emit_run fits hbuf, parseWithParam_unixResponse_iff.mpr ⟨?_, ?_⟩⟩
    · exact UnixResponse.head?_encode
    · exact I.parse_encode_of_parse (UnixResponse.stable P.order) fits hr

end SockDiagMessage

/-! ## Messages that were printed -/

namespace Dump

variable {P : Platform} {N : NetlinkMessages P} {rich : Bool}

/-- Every message the client has printed stood in its buffer. -/
structure Traced (c : Client N rich) : Prop where
  bounds : InBounds c
  read : ∀ p, .received p ∈ c.lines → ∃ b : Bytes, b.length ≤ 4096 ∧
    N.deserialize (SockDiagMessage.deserialize P) b = .ok p

section Runs

variable [P.Lawful] [N.Lawful] {s s' : System N rich} {e : Event} {es : List Event} {size : Nat}

theorem Traced.turn {c : Client N rich} (h : Traced c) (hphase : c.phase = .reading size) :
    Traced (c.turn size) := by
  refine ⟨h.bounds.turn hphase, ?_⟩
  rcases c.turn_cases size h.bounds.offset with ⟨-, hturn⟩ | ⟨p, n, hread, -⟩
  · rw [hturn]
    exact h.read
  · intro q hq
    rw [c.lines_turn_of_read h.bounds.offset hread] at hq
    rcases List.mem_append.mp hq with hq | hq
    · exact h.read q hq
    · rw [received_mem_linesOf.mp hq]
      refine ⟨c.receiveBuffer.1.drop c.offset, ?_, (NetlinkMessages.reader_read_eq_some_iff.mp hread).1⟩
      rw [List.length_drop, c.receiveBuffer.2]
      exact Nat.sub_le _ _

theorem Traced.step (h : Traced s.client) (hstep : Dump.step s e = some s') : Traced s'.client := by
  have hbounds := h.bounds.step hstep
  rcases step_cases hstep with ⟨datagram, -, rfl⟩ | ⟨datagram, inFlight, -, -, -, rfl⟩ |
    ⟨-, -, rfl⟩ | ⟨size, -, hphase, rfl⟩
  · exact h
  · exact ⟨hbounds, h.read⟩
  · exact ⟨hbounds, h.read⟩
  · exact h.turn hphase

theorem traced_of_run (h : (machine N rich).run es = some s) : Traced s.client := by
  have hany : ∀ e ∈ es, True := fun _ _ => trivial
  refine Machine.run_invariant (I := fun s => Traced s.client) ?_ ?_ hany h
  · exact ⟨inBounds_start, fun _ hp => nomatch hp⟩
  · intro s e s' hs _ hstep
    exact hs.step hstep

/-- **Whatever the client prints it could send on**, in any run against any kernel: the crate writes
    every message that was read into an envelope of its own, hardly longer than the buffer, and a
    client reads that message off the front of it. -/
theorem printed_relayed (hrun : (machine N rich).run es = some s)
    {p : N.Message (SockDiagMessage rich)} {m : SockDiagMessage rich}
    (hp : .received p ∈ s.client.lines) (hm : p.payload = .innerMessage m) (flags : UInt16) :
    ∃ frame : Bytes,
      serialized N (SockDiagMessage.serializable P rich)
        (finalized N (SockDiagMessage.serializable P rich) flags m.toPayload) = .ok frame ∧
      frame.length ≤ 4096 + m.grows ∧
      ∀ c : Bytes, (packets N rich).read (frame ++ c) =
        some (finalized N (SockDiagMessage.serializable P rich) flags m.toPayload, frame.length) := by
  obtain ⟨b, hb, hread⟩ := (traced_of_run hrun).read p hp
  obtain ⟨-, -, hmin, hmax, hholds⟩ := (NetlinkMessages.Lawful.deserialize_ok_iff _ b p).mp hread
  rw [hm] at hholds
  have hparse : SockDiagMessage.parseWithParam P (slice b 16 p.header.length.toNat)
      p.header.messageType = .ok m := hholds.2
  have hlen : (slice b 16 p.header.length.toNat).length ≤ 4080 := by
    rw [length_slice]
    omega
  have hsend := SockDiagMessage.sendable_of_parse hparse (by omega)
  obtain ⟨frame, henvelope⟩ := exists_envelope N flags hsend
  have hback := henvelope.read_iff.mpr (SockDiagMessage.roundTrips_of_parse hparse (by omega))
  refine ⟨frame, henvelope.serialized_eq, ?_, FrameReader.read_append hback⟩
  -- The length of the envelope is what its header says.
  have hframe := (NetlinkMessages.reader_read_eq_some_iff.mp hback).2
  rw [SockDiagMessage.toPayload, finalized_eq, toNat_length _ _ (by exact hsend.2)] at hframe
  have hle := SockDiagMessage.bufferLen_le hparse
  rw [hframe]
  show 16 + m.bufferLen P ≤ 4096 + m.grows
  unfold align at hle
  omega

end Runs

/-- A response with a congestion control name as long as its attribute, and its bytes. -/
def unterminated : SockDiagMessage false :=
  .inetResponse ⟨⟨afInet, 0, none, .newV4, 0, 0, 0, 0⟩, [.congestion "reno"]⟩

def unterminatedPacket : (NetlinkMessages.reference .little).Message (SockDiagMessage false) :=
  ⟨⟨⟨sockDiagByFamily⟩, 96, 2, 0, 0⟩, .innerMessage unterminated⟩

def unterminatedBytes : Bytes :=
  [96, 0, 0, 0, 20, 0, 2, 0] ++ List.replicate 8 0 ++ afInet :: List.replicate 71 0 ++
    [8, 0, 4, 0, 114, 101, 110, 111]

/-- It is sent on in four bytes more than it came in, for the NUL. -/
theorem unterminated_relayed :
    ∃ s frame,
      (machine (.reference .little) false).run [.send unterminatedBytes, .recv, .turn] = some s ∧
      serialized (.reference .little) (SockDiagMessage.serializable (.reference .little) false)
        (finalized (.reference .little) (SockDiagMessage.serializable (.reference .little) false) 2
          unterminated.toPayload) = .ok frame ∧
      unterminatedBytes.length = 96 ∧ frame.length = 100 ∧ unterminated.grows = 4 ∧
      frame.length ≤ 4096 + unterminated.grows := by
  obtain ⟨c, hrun, -, hlines, -⟩ := run_first (P := .reference .little) (N := .reference .little)
    (p := unterminatedPacket)
    (show (packets _ _).read unterminatedBytes = some (unterminatedPacket, 96) from rfl) (by decide)
  have hp : .received unterminatedPacket ∈ c.lines := hlines ▸ received_mem_linesOf.mpr rfl
  obtain ⟨frame, hframe, hlen, -⟩ := printed_relayed hrun hp rfl 2
  obtain ⟨frame', hframe', hlen'⟩ : ∃ frame,
      serialized (.reference .little) (SockDiagMessage.serializable (.reference .little) false)
        (finalized (.reference .little) (SockDiagMessage.serializable (.reference .little) false) 2
          unterminated.toPayload) = .ok frame ∧ frame.length = 100 := ⟨_, rfl, rfl⟩
  obtain rfl := Outcome.ok.inj (hframe.symm.trans hframe')
  exact ⟨_, frame, hrun, hframe, rfl, hlen', rfl, hlen⟩

end Dump

end SockDiag
