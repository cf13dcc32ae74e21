import Mathlib.Data.List.Infix
import SockDiag.Dump.Delivery
import SockDiag.Envelope

/-!
# A dump, served

The crate on both sides of the socket. Something that knows of some sockets puts each into a
response and each response into an envelope, writes as many of these one behind the other as it
likes into a datagram of up to 4096 bytes, and says that it is done in a last one. What the client
prints are the sockets.

`Carries` is such a datagram, in terms of what the crate writes, and `Carries.datagram` makes it one
that the client can read: here what is proved of the encoder meets what is proved of the client.
`Closes` is the last one. The rest is that the client follows a mailbox (`SockDiag.Dump.Delivery`)
whose messages are those of the server (`Tracks.posted_prefix`). `dump_served` says what is printed
at any time, that nothing but a failed `recv` makes the client return before the end, and that it
gets there.
-/

set_option autoImplicit false

namespace SockDiag

open Rust Inet Unix Mailbox

namespace Dump

variable {P : Platform} {N : NetlinkMessages P} {rich : Bool}

/-! ## What is printed of responses -/

def responsesOf (lines : List (Line N rich)) : List (InetResponse rich) :=
  lines.filterMap fun
    | .response response => some response
    | _ => none

/-- A response in its envelope. -/
def enveloped (N : NetlinkMessages P) (flags : UInt16) (response : InetResponse rich) :
    N.Message (SockDiagMessage rich) :=
  finalized N (SockDiagMessage.serializable P rich) flags
    (SockDiagMessage.inetResponse response).toPayload

theorem responsesOf_done {p : N.Message (SockDiagMessage rich)} {done : N.DoneMessage}
    (hdone : p.payload = .done done) : responsesOf (linesOf p) = [] := by
  rw [linesOf, hdone]
  rfl

section Responses

variable [N.Lawful] {flags : UInt16} {responses : List (InetResponse rich)}
  {p : N.Message (SockDiagMessage rich)} {taken : List (N.Message (SockDiagMessage rich))}

theorem enveloped_eq (response : InetResponse rich) : enveloped N flags response =
    ⟨finalHeader (SockDiagMessage.serializable P rich) flags (.inetResponse response),
      .innerMessage (.inetResponse response)⟩ := finalized_eq

theorem stops_enveloped (response : InetResponse rich) :
    stops (enveloped N flags response) = false := by
  rw [enveloped_eq]
  rfl

theorem responsesOf_enveloped (responses : List (InetResponse rich)) :
    responsesOf ((responses.map (enveloped N flags)).flatMap linesOf) = responses := by
  induction responses with
  | nil => rfl
  | cons response responses ih =>
    rw [List.map_cons, List.flatMap_cons, responsesOf, List.filterMap_append, enveloped_eq]
    exact congrArg (response :: ·) ih

/-- Of some responses and the end of the dump, some have been taken: the first of the responses, or
    everything. -/
theorem responsesOf_taken {done : N.DoneMessage} (hdone : p.payload = .done done)
    (htaken : taken <+: responses.map (enveloped N flags) ++ [p]) :
    responsesOf (taken.flatMap linesOf) <+: responses ∧
      ((∃ q ∈ taken, stops q = true) → taken = responses.map (enveloped N flags) ++ [p] ∧
        responsesOf (taken.flatMap linesOf) = responses) := by
  have hall : responsesOf ((responses.map (enveloped N flags) ++ [p]).flatMap linesOf) =
      responses := by
    rw [List.flatMap_append, responsesOf, List.filterMap_append, List.flatMap_singleton]
    exact (congrArg₂ (· ++ ·) (responsesOf_enveloped responses) (responsesOf_done hdone)).trans
      (List.append_nil _)
  rcases List.prefix_concat_iff.mp htaken with rfl | hfront
  · rw [hall]
    exact ⟨List.prefix_rfl, fun _ => ⟨rfl, rfl⟩⟩
  · obtain ⟨front, hfirst, rfl⟩ := List.prefix_map_iff.mp hfront
    refine ⟨?_, ?_⟩
    · rw [responsesOf_enveloped]
      exact hfirst
    · intro hstops
      obtain ⟨q, hq, hstops⟩ := hstops
      obtain ⟨response, -, rfl⟩ := List.mem_map.mp hq
      rw [stops_enveloped] at hstops
      exact absurd hstops (by decide)

end Responses

/-! ## The server -/

/-- A datagram of responses. -/
structure Carries (N : NetlinkMessages P) (flags : UInt16) (responses : List (InetResponse rich))
    (datagram : Bytes) : Prop where
  ne_nil : responses ≠ []
  /-- The client can read what the crate writes of them. -/
  readable : ∀ response ∈ responses, (SockDiagMessage.inetResponse response).Sendable P ∧
    (SockDiagMessage.inetResponse response).RoundTrips P
  written : ∃ frames : List Bytes, datagram = frames.flatten ∧
    List.Forall₂ (fun response frame => serialized N (SockDiagMessage.serializable P rich)
      (enveloped N flags response) = .ok frame) responses frames
  fits : datagram.length ≤ 4096

/-- The last datagram says that there are no more. -/
structure Closes (N : NetlinkMessages P) [N.Lawful] (p : N.Message (SockDiagMessage rich))
    (datagram : Bytes) : Prop where
  done : ∃ done, p.payload = .done done
  read : (packets N rich).read datagram = some (p, datagram.length)
  fits : datagram.length ≤ 4096

section Server

variable [N.Lawful] {flags : UInt16} {p : N.Message (SockDiagMessage rich)} {last : Bytes}
  {es : List Event} {s : System N rich} {chunks : List (List (InetResponse rich))}
  {datagrams : List Bytes}

theorem Closes.datagram (h : Closes N p last) : Datagram N rich [p] last :=
  ⟨by simp, FrameReader.packs_singleton h.read, h.fits⟩

theorem Closes.stops_eq (h : Closes N p last) : stops p = true := by
  obtain ⟨done, hdone⟩ := h.done
  rw [stops, hdone]

theorem Closes.exitOf_eq (h : Closes N p last) : exitOf p = .done := by
  obtain ⟨done, hdone⟩ := h.done
  rw [exitOf, hdone]

variable [P.Lawful]

theorem Carries.datagram {responses : List (InetResponse rich)} {datagram : Bytes}
    (h : Carries N flags responses datagram) :
    Datagram N rich (responses.map (enveloped N flags)) datagram := by
  obtain ⟨frames, rfl, hframes⟩ := h.written
  refine ⟨by simpa using h.ne_nil, ?_, h.fits⟩
  refine FrameReader.packs_flatten ?_
  rw [List.forall₂_map_left_iff]
  refine ((List.forall₂_and_left responses frames).mpr ⟨h.readable, hframes⟩).imp ?_
  intro response frame hframe
  -- What was written is the envelope, and that is read back since the response is.
  obtain ⟨⟨hsend, hback⟩, hwritten⟩ := hframe
  obtain ⟨frame', henvelope⟩ := exists_envelope N flags hsend
  obtain rfl := Outcome.ok.inj (hwritten.symm.trans henvelope.serialized_eq)
  exact henvelope.read_iff.mpr hback

/-- The messages in the datagrams, in as many lists. -/
theorem datagrams_served (hchunks : List.Forall₂ (Carries N flags) chunks datagrams)
    (hlast : Closes N p last) :
    List.Forall₂ (Datagram N rich) (chunks.map (List.map (enveloped N flags)) ++ [[p]])
      (datagrams ++ [last]) := by
  refine List.rel_append ?_ (.cons hlast.datagram .nil)
  rw [List.forall₂_map_left_iff]
  exact hchunks.imp fun _ _ h => h.datagram

/-- Whatever was sent by now was well sent. -/
theorem wellSent_of_served (hchunks : List.Forall₂ (Carries N flags) chunks datagrams)
    (hlast : Closes N p last) (hrun : (machine N rich).run es = some s)
    (hsent : s.sent <+: datagrams ++ [last]) : ∀ e ∈ es, e.WellSent N rich := by
  intro e he
  cases e with
  | send datagram =>
    exact exists_datagram (datagrams_served hchunks hlast) datagram
      (hsent.subset (mem_sent_of_run hrun he))
  | _ => trivial

/-- What has been posted by now. -/
theorem Tracks.posted_prefix {m : Mailbox (N.Message (SockDiagMessage rich))}
    (hchunks : List.Forall₂ (Carries N flags) chunks datagrams) (hlast : Closes N p last)
    (hsent : s.sent <+: datagrams ++ [last]) (h : Tracks s m) :
    m.posted <+: chunks.flatten.map (enveloped N flags) ++ [p] ∧
      (s.sent = datagrams ++ [last] →
        m.posted = chunks.flatten.map (enveloped N flags) ++ [p]) := by
  have hall := datagrams_served hchunks hlast
  have hflatten : (chunks.map (List.map (enveloped N flags)) ++ [[p]]).flatten =
      chunks.flatten.map (enveloped N flags) ++ [p] := by
    rw [List.flatten_append, List.flatten_singleton, ← List.map_flatten]
  rw [← hflatten]
  refine ⟨?_, ?_⟩
  · have hsome := List.forall₂_take s.sent.length hall
    rw [← List.prefix_iff_eq_take.mp hsent] at hsome
    rw [h.posted.unique (packs_of_datagrams hsome)]
    exact List.IsPrefix.flatten (List.take_prefix _ _)
  · intro heq
    have hposted := h.posted
    rw [heq] at hposted
    exact hposted.unique (packs_of_datagrams hall)

/-- What the client is at any time. -/
theorem Tracks.served {m : Mailbox (N.Message (SockDiagMessage rich))}
    (hchunks : List.Forall₂ (Carries N flags) chunks datagrams) (hlast : Closes N p last)
    (hsent : s.sent <+: datagrams ++ [last]) (h : Tracks s m) (haccounted : Accounted stops m) :
    responsesOf s.client.lines <+: chunks.flatten ∧ s.client.phase ≠ .panicked ∧
      s.client.phase ≠ .returned .other ∧
      (s.client.phase = .returned .done → responsesOf s.client.lines = chunks.flatten) := by
  obtain ⟨done, hdone⟩ := hlast.done
  have htaken : m.taken <+: chunks.flatten.map (enveloped N flags) ++ [p] := by
    refine List.IsPrefix.trans ?_ (h.posted_prefix hchunks hlast hsent).1
    rw [← haccounted.all]
    exact List.prefix_append _ _
  obtain ⟨hfirst, hstopped⟩ := responsesOf_taken hdone htaken
  have hfollows := h.follows
  rw [h.lines]
  refine ⟨hfirst, ?_, ?_, ?_⟩
  · intro hphase
    rwa [Follows, hphase] at hfollows
  · intro hphase
    obtain ⟨front, q, hq, hstops, -, hexit⟩ :=
      (h.returned haccounted hphase).resolve_left (by decide)
    -- It returned at the last of all, and that one says it is done.
    obtain ⟨hwhole, -⟩ := hstopped ⟨q, by simp [hq], hstops⟩
    obtain ⟨-, rfl⟩ := List.append_singleton_inj.mp (hq.symm.trans hwhole)
    rw [hlast.exitOf_eq] at hexit
    exact absurd hexit (by decide)
  · intro hphase
    obtain ⟨front, q, hq, hstops, -⟩ := (h.returned haccounted hphase).resolve_left (by decide)
    exact (hstopped ⟨q, by simp [hq], hstops⟩).2

/-- **A dump is served whole.** Some sockets are put into responses the crate can write and read, and
    these into datagrams with a last one that says it is done. Whenever these are sent, at any time
    the client has printed the first of the sockets, each once and in order; it has not panicked; when
    it has returned at a message it has printed them all; and once all is sent, and unless `recv` has
    failed, it gets there alone. -/
theorem dump_served (hchunks : List.Forall₂ (Carries N flags) chunks datagrams)
    (hlast : Closes N p last) (hrun : (machine N rich).run es = some s)
    (hsent : s.sent <+: datagrams ++ [last]) :
    responsesOf s.client.lines <+: chunks.flatten ∧ s.client.phase ≠ .panicked ∧
      s.client.phase ≠ .returned .other ∧
      (s.client.phase = .returned .done → responsesOf s.client.lines = chunks.flatten) ∧
      (s.sent = datagrams ++ [last] → s.client.phase ≠ .returned .recvErr →
        ∃ fs t, (∀ e ∈ fs, e = .recv ∨ e = .turn) ∧ (machine N rich).run (es ++ fs) = some t ∧
          t.client.phase = .returned .done ∧ responsesOf t.client.lines = chunks.flatten) := by
  have hwell := wellSent_of_served hchunks hlast hrun hsent
  obtain ⟨m, hm, haccounted⟩ := tracks_of_run hrun hwell
  obtain ⟨hfirst, hpanicked, hother, hdone⟩ := hm.served hchunks hlast hsent haccounted
  refine ⟨hfirst, hpanicked, hother, hdone, ?_⟩
  intro hall hopen
  obtain ⟨fs, t, hfs, -, hrun', hsame, hsettled, m', hm', haccounted'⟩ :=
    exists_settled hrun hwell hopen
  rw [← hsame] at hsent hall
  obtain ⟨-, -, -, hdone'⟩ := hm'.served hchunks hlast hsent haccounted'
  have hphase : t.client.phase = .returned .done := by
    have hopen' : ∀ q ∈ chunks.flatten.map (enveloped N flags), stops q = false :=
      List.forall_mem_map.mpr fun response _ => stops_enveloped response
    have hp : upTo stops [p] = [p] := by simp [upTo, hlast.stops_eq]
    -- Everything was read, and the last of it is what the client returned at.
    have htaken := haccounted'.taken_prefix.2 (hm'.settled hsettled)
    rw [(hm'.posted_prefix hchunks hlast hsent).2 hall, upTo_append hopen', hp] at htaken
    rw [hm'.phase_eq haccounted' hsettled, htaken, phaseAfter_concat hopen' hlast.stops_eq,
      hlast.exitOf_eq]
  exact ⟨fs, t, hfs, hrun', hphase, hdone' hphase⟩

end Server

/-! The socket of `keptAlive`, twice. -/

theorem keptAlive_roundTrips :
    (SockDiagMessage.inetResponse keptAlive).RoundTrips (.reference .little) := by
  intro buf hbuf
  have hlen : ∀ x ∈ keptAlive.nlas, x.valueLen (.reference .little) ≤ 65531 := by decide
  refine ⟨_, (InetResponse.implements (.reference .little)).emit_run
    ((InetResponse.fits_iff _).mpr hlen) hbuf, ?_⟩
  refine (parse_encode_inet_iff (P := .reference .little) hlen).mpr ⟨⟨rfl, rfl, ⟨rfl, by decide⟩⟩, ?_⟩
  refine Inet.Nla.forall_survives_iff.mpr ?_
  intro attr hm
  obtain rfl : attr = ⟨0x8064, [1, 2, 3]⟩ := by simpa [keptAlive] using hm
  decide

theorem carries_keptAlive :
    ∃ datagram, Carries (.reference .little) 2 [keptAlive, keptAlive] datagram := by
  have hsend : (SockDiagMessage.inetResponse keptAlive).Sendable (.reference .little) :=
    ⟨show ∀ x ∈ keptAlive.nlas, x.valueLen (.reference .little) ≤ 65531 by decide, by decide⟩
  obtain ⟨frame, hframe, hlen⟩ : ∃ frame,
      serialized (.reference .little) (SockDiagMessage.serializable (.reference .little) false)
        (enveloped (.reference .little) 2 keptAlive) = .ok frame ∧ frame.length = 116 := ⟨_, rfl, rfl⟩
  refine ⟨[frame, frame].flatten, by simp, by simp [hsend, keptAlive_roundTrips],
    ⟨_, rfl, .cons hframe (.cons hframe .nil)⟩, ?_⟩
  simp [hlen]

theorem closes_done : Closes (.reference .little) done doneBytes :=
  ⟨⟨_, rfl⟩, rfl, by decide⟩

theorem keptAlive_served :
    ∃ datagram fs t, (machine (.reference .little) false).run
        ([.send datagram, .recv, .send doneBytes] ++ fs) = some t ∧
      t.client.phase = .returned .done ∧ responsesOf t.client.lines = [keptAlive, keptAlive] := by
  obtain ⟨datagram, hdatagram⟩ := carries_keptAlive
  obtain ⟨s, hs, hsent, hopen⟩ : ∃ s, (machine (.reference .little) false).run
      [.send datagram, .recv, .send doneBytes] = some s ∧ s.sent = [datagram] ++ [doneBytes] ∧
      s.client.phase ≠ .returned .recvErr := ⟨_, rfl, rfl, by simp [Client.receive]⟩
  obtain ⟨-, -, -, -, hserved⟩ :=
    dump_served (.cons hdatagram .nil) closes_done hs (hsent ▸ List.prefix_rfl)
  obtain ⟨fs, t, -, hrun, hphase, hall⟩ := hserved hsent hopen
  exact ⟨datagram, fs, t, hrun, hphase, hall⟩

end Dump

end SockDiag
