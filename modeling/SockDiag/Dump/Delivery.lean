import Mathlib.Data.List.Infix
import SockDiag.Dump.Datagram
import SockDiag.Machine.Mailbox

/-!
# A dump, delivered

What the client is for: to take what the kernel sends out of the datagrams, one message after the
other, up to the one that says it is done. That is a mailbox, and `delivers` says the client and its
socket are one, as long as every datagram is whole messages and fits into the buffer. `Tracks` is how:
the messages that are in flight are the mailbox's queue, those in the buffer from the offset on its
batch, and the lines that were printed are those of what was taken.

From the mailbox comes what holds of any run. Nothing is lost, nothing comes twice and nothing out of
order (`dump_delivered`); the client alone gets to the end of what has been sent (`dump_completes`);
and how the kernel cuts the bytes into datagrams makes no difference (`cuts_agree`). That last one is
not for free: the client goes back to `recv` by comparing its offset with the size of the datagram, so
where a datagram ends decides what it does next, though not what it prints.
-/

set_option autoImplicit false

namespace SockDiag

open Rust Mailbox

namespace Dump

variable {P : Platform} {N : NetlinkMessages P} {rich : Bool}

/-! ## As the kernel sends it -/

/-- A datagram as the kernel sends them. -/
structure Datagram (N : NetlinkMessages P) [N.Lawful] (rich : Bool)
    (rxPackets : List (N.Message (SockDiagMessage rich))) (datagram : Bytes) : Prop where
  ne_nil : rxPackets ≠ []
  packs : (packets N rich).Packs rxPackets datagram
  fits : datagram.length ≤ 4096

def Event.WellSent (N : NetlinkMessages P) [N.Lawful] (rich : Bool) : Event → Prop
  | .send datagram => ∃ rxPackets, Datagram N rich rxPackets datagram
  | _ => True

theorem Event.wellSent_of_own [N.Lawful] {e : Event} (he : e = .recv ∨ e = .turn) :
    e.WellSent N rich := by
  rcases he with rfl | rfl
  · trivial
  · trivial

/-- Everything that was sent is in the list of what was sent. -/
theorem mem_sent_of_run {es : List Event} {s : System N rich} {datagram : Bytes}
    (hrun : (machine N rich).run es = some s) (hmem : .send datagram ∈ es) : datagram ∈ s.sent := by
  obtain ⟨front, back, rfl⟩ := List.append_of_mem hmem
  obtain ⟨t, -, hback⟩ := Machine.runFrom_append_eq_some_iff.mp hrun
  obtain ⟨u, hu, hrest⟩ := Machine.runFrom_cons_eq_some_iff.mp hback
  have hany : ∀ e ∈ back, True := fun _ _ => trivial
  refine Machine.runFrom_invariant (I := fun s => datagram ∈ s.sent) ?_ ?_ hany hrest
  · intro s e s' hs _ hstep
    rcases step_cases hstep with ⟨d, -, rfl⟩ | ⟨d, inFlight, -, -, -, rfl⟩ | ⟨-, -, rfl⟩ |
      ⟨size, -, -, rfl⟩
    · exact List.mem_append_left _ hs
    · exact hs
    · exact hs
    · exact hs
  · obtain rfl := Option.some.inj hu
    exact List.mem_append_right _ (List.mem_singleton.mpr rfl)

section Datagrams

variable [N.Lawful] {batches : List (List (N.Message (SockDiagMessage rich)))}
  {datagrams : List Bytes}

theorem packs_of_datagrams (h : List.Forall₂ (Datagram N rich) batches datagrams) :
    (packets N rich).Packs batches.flatten datagrams.flatten := by
  induction h with
  | nil => exact .nil
  | cons hd _ ih => exact hd.packs.append ih

theorem exists_datagram (h : List.Forall₂ (Datagram N rich) batches datagrams) :
    ∀ datagram ∈ datagrams, ∃ rxPackets, Datagram N rich rxPackets datagram := by
  induction h with
  | nil => simp
  | cons hd _ ih => exact List.forall_mem_cons.mpr ⟨⟨_, hd⟩, ih⟩

end Datagrams

/-- The client waits and nothing comes, or it has returned at a message. -/
def Settled (s : System N rich) : Prop :=
  (s.client.phase = .receiving ∧ s.inFlight = []) ∨
    s.client.phase = .returned .done ∨ s.client.phase = .returned .other

theorem exitOf_ne_recvErr (p : N.Message (SockDiagMessage rich)) : exitOf p ≠ .recvErr := by
  unfold exitOf
  split
  · simp
  · simp

/-- Where a client is that has taken these and is settled. -/
def phaseAfter (taken : List (N.Message (SockDiagMessage rich))) : Phase :=
  match taken.find? stops with
  | none => .receiving
  | some p => .returned (exitOf p)

section PhaseAfter

variable {taken front : List (N.Message (SockDiagMessage rich))}
  {p : N.Message (SockDiagMessage rich)}

theorem phaseAfter_of_reading (h : ∀ p ∈ taken, stops p = false) :
    phaseAfter taken = .receiving := by
  have hnone : taken.find? stops = none := List.find?_eq_none.mpr (by simpa using h)
  rw [phaseAfter, hnone]

theorem phaseAfter_concat (hfront : ∀ q ∈ front, stops q = false) (hp : stops p = true) :
    phaseAfter (front ++ [p]) = .returned (exitOf p) := by
  have hnone : front.find? stops = none := List.find?_eq_none.mpr (by simpa using hfront)
  have hsome : (front ++ [p]).find? stops = some p := by
    rw [List.find?_append, hnone, Option.none_or, List.find?_cons_of_pos hp]
  rw [phaseAfter, hsome]

end PhaseAfter

section Tracks

variable [N.Lawful]

/-- Where the client is between the messages. -/
def Follows (c : Client N rich) (m : Mailbox (N.Message (SockDiagMessage rich))) : Prop :=
  match c.phase with
  | .receiving => c.offset = 0 ∧ m.status = .reading ∧ m.batch = []
  | .reading size =>
    size ≤ 4096 ∧ m.status = .reading ∧ m.batch ≠ [] ∧
      (packets N rich).Packs m.batch (slice c.receiveBuffer.1 c.offset size)
  | .returned exit =>
    (exit = .recvErr ∧ m.status = .left) ∨
      (m.status = .stopped ∧ ∃ front p, m.taken = front ++ [p] ∧ exit = exitOf p)
  | .panicked => False

/-- The mailbox this is. -/
structure Tracks (s : System N rich) (m : Mailbox (N.Message (SockDiagMessage rich))) : Prop where
  posted : (packets N rich).Packs m.posted s.sent.flatten
  queue : List.Forall₂ (Datagram N rich) m.queue s.inFlight
  lines : s.client.lines = m.taken.flatMap linesOf
  follows : Follows s.client m

variable {s s' : System N rich} {m : Mailbox (N.Message (SockDiagMessage rich))} {size : Nat}

/-- The message that is read next, and what is left after it. -/
theorem Tracks.reading (h : Tracks s m) (hphase : s.client.phase = .reading size) :
    ∃ p batch n, s.client.offset + n ≤ size ∧ size ≤ 4096 ∧ 0 < n ∧
      m.status = .reading ∧ m.batch = p :: batch ∧
      (packets N rich).read (s.client.receiveBuffer.1.drop s.client.offset) = some (p, n) ∧
      ((s.client.offset + n = size ∧ batch = []) ∨
        (s.client.offset + n ≠ size ∧ batch ≠ [] ∧
          (packets N rich).Packs batch
            (slice s.client.receiveBuffer.1 (s.client.offset + n) size))) := by
  have hfollows := h.follows
  rw [Follows, hphase] at hfollows
  obtain ⟨hsize, hstatus, hne, hpacks⟩ := hfollows
  cases hbatch : m.batch with
  | nil => exact absurd hbatch hne
  | cons p batch =>
    rw [hbatch] at hpacks
    obtain ⟨n, hslice, -⟩ := FrameReader.packs_cons_iff.mp hpacks
    have hle := (packets N rich).le_length hslice
    have hpos := (packets N rich).pos hslice
    have hhi : size ≤ s.client.receiveBuffer.1.length := by
      rw [s.client.receiveBuffer.2]
      exact hsize
    rw [length_slice] at hle
    have hread := FrameReader.read_drop_of_slice hslice
    obtain ⟨batch', hcons, hrest⟩ :=
      (FrameReader.packs_slice_iff hhi hread (List.cons_ne_nil p batch)).mp hpacks
    obtain rfl := (List.cons.inj hcons).2
    exact ⟨p, batch, n, by omega, hsize, hpos, hstatus, rfl, hread, hrest⟩

theorem Tracks.settled (h : Tracks s m) (hsettled : Settled s) :
    m.status = .stopped ∨ (m.batch = [] ∧ m.queue = []) := by
  have hreturned : ∀ exit, exit ≠ .recvErr → s.client.phase = .returned exit →
      m.status = .stopped := by
    intro exit hne hphase
    have hfollows := h.follows
    rw [Follows, hphase] at hfollows
    rcases hfollows with ⟨hexit, -⟩ | ⟨hstopped, -⟩
    · exact absurd hexit hne
    · exact hstopped
  rcases hsettled with ⟨hphase, hflight⟩ | hphase | hphase
  · have hfollows := h.follows
    rw [Follows, hphase] at hfollows
    have hqueue := h.queue
    rw [hflight] at hqueue
    exact .inr ⟨hfollows.2.2, List.forall₂_nil_right_iff.mp hqueue⟩
  · exact .inl (hreturned .done (by decide) hphase)
  · exact .inl (hreturned .other (by decide) hphase)

/-- It returns at a message only when that is the last one taken, and the first to stop it. -/
theorem Tracks.returned {exit : Exit} (h : Tracks s m) (haccounted : Accounted stops m)
    (hphase : s.client.phase = .returned exit) :
    exit = .recvErr ∨ ∃ front p, m.taken = front ++ [p] ∧ stops p = true ∧
      (∀ q ∈ front, stops q = false) ∧ exit = exitOf p := by
  have hfollows := h.follows
  rw [Follows, hphase] at hfollows
  rcases hfollows with ⟨hexit, -⟩ | ⟨hstopped, front, p, htaken, hexit⟩
  · exact .inl hexit
  · obtain ⟨front', q, htaken', hq, hfront⟩ := haccounted.stopped hstopped
    obtain ⟨rfl, rfl⟩ := List.append_singleton_inj.mp (htaken.symm.trans htaken')
    exact .inr ⟨front, p, htaken, hq, hfront, hexit⟩

/-- Where the client is when it is settled. -/
theorem Tracks.phase_eq (h : Tracks s m) (haccounted : Accounted stops m) (hsettled : Settled s) :
    s.client.phase = phaseAfter m.taken := by
  have hreturned : ∀ exit, exit ≠ .recvErr → s.client.phase = .returned exit →
      s.client.phase = phaseAfter m.taken := by
    intro exit hne hphase
    obtain ⟨front, p, htaken, hp, hfront, rfl⟩ := (h.returned haccounted hphase).resolve_left hne
    rw [hphase, htaken, phaseAfter_concat hfront hp]
  rcases hsettled with ⟨hphase, -⟩ | hphase | hphase
  · have hfollows := h.follows
    rw [Follows, hphase] at hfollows
    have hreading := haccounted.reading (by rw [hfollows.2.1]; decide)
    rw [hphase, phaseAfter_of_reading hreading]
  · exact hreturned .done (by decide) hphase
  · exact hreturned .other (by decide) hphase

/-- A turn takes a message. -/
theorem Tracks.turn [P.Lawful] (h : Tracks s m) (hphase : s.client.phase = .reading size) :
    ∃ m', Mailbox.step stops m .take = some m' ∧
      Tracks { s with client := s.client.turn size } m' := by
  obtain ⟨p, batch, n, hle, hsize, hpos, hstatus, hbatch, hread, hrest⟩ := h.reading hphase
  have hlines : s.client.lines ++ linesOf p = (m.taken ++ [p]).flatMap linesOf := by
    rw [h.lines, List.flatMap_append, List.flatMap_singleton]
  refine ⟨_, Mailbox.step_take hstatus hbatch, ?_⟩
  rw [s.client.turn_of_read (by omega) hread]
  by_cases hstops : stops p = true
  · simp only [if_pos hstops]
    exact ⟨h.posted, h.queue, hlines, .inr ⟨rfl, m.taken, p, rfl, rfl⟩⟩
  · simp only [if_neg hstops]
    rcases hrest with ⟨hend, rfl⟩ | ⟨hmore, hne, hpacks⟩
    · simp only [if_pos hend]
      exact ⟨h.posted, h.queue, hlines, rfl, rfl, rfl⟩
    · simp only [if_neg hmore]
      refine ⟨h.posted, h.queue, hlines, ?_⟩
      simp only [Follows, hphase]
      exact ⟨hsize, trivial, hne, hpacks⟩

/-- **The client and its socket are a mailbox.** -/
theorem delivers [P.Lawful] :
    Machine.Simulation (machine N rich) (Mailbox.machine stops) (Event.WellSent N rich) Tracks where
  init := ⟨.nil, .nil, rfl, rfl, rfl, rfl⟩
  step := by
    intro s s' e m h he hstep
    rcases step_cases hstep with ⟨datagram, rfl, rfl⟩ |
      ⟨datagram, inFlight, rfl, hphase, hflight, rfl⟩ | ⟨rfl, hphase, rfl⟩ | ⟨size, rfl, hphase, rfl⟩
    · obtain ⟨ps, hps⟩ := he
      refine ⟨[.post ps], _, Machine.runFrom_singleton, ?_, ?_, h.lines, h.follows⟩
      · show (packets N rich).Packs (m.posted ++ ps) (s.sent ++ [datagram]).flatten
        rw [List.flatten_append, List.flatten_singleton]
        exact h.posted.append hps.packs
      · exact List.rel_append h.queue (.cons hps .nil)
    · have hfollows := h.follows
      rw [Follows, hphase] at hfollows
      obtain ⟨hoffset, hstatus, hbatch⟩ := hfollows
      have hqueue := h.queue
      rw [hflight] at hqueue
      cases hmq : m.queue with
      | nil =>
        rw [hmq] at hqueue
        nomatch hqueue
      | cons ps queue =>
        rw [hmq] at hqueue
        obtain ⟨hps, hrest⟩ := List.forall₂_cons.mp hqueue
        refine ⟨[.fetch], { m with queue := queue, batch := ps }, ?_, h.posted, hrest, h.lines, ?_⟩
        · rw [Machine.runFrom_singleton]
          show Mailbox.step stops m .fetch = _
          exact Mailbox.step_fetch hstatus hbatch hmq
        · rw [Follows, s.client.phase_receive datagram]
          refine ⟨Nat.min_le_right _ _, hstatus, hps.ne_nil, ?_⟩
          rw [s.client.slice_receive datagram hoffset, List.take_of_length_le hps.fits]
          exact hps.packs
    · have hfollows := h.follows
      rw [Follows, hphase] at hfollows
      obtain ⟨-, hstatus, hbatch⟩ := hfollows
      refine ⟨[.leave], { m with status := .left }, ?_, h.posted, h.queue, h.lines, .inl ⟨rfl, rfl⟩⟩
      rw [Machine.runFrom_singleton]
      show Mailbox.step stops m .leave = _
      exact Mailbox.step_leave hstatus hbatch
    · obtain ⟨m', hm', hm⟩ := h.turn hphase
      refine ⟨[.take], m', ?_, hm⟩
      rw [Machine.runFrom_singleton]
      exact hm'

end Tracks

/-! ## Whole runs -/

section Runs

variable [P.Lawful] [N.Lawful] {es : List Event} {s : System N rich}

theorem tracks_of_run (hrun : (machine N rich).run es = some s)
    (hsent : ∀ e ∈ es, e.WellSent N rich) : ∃ m, Tracks s m ∧ Accounted stops m := by
  obtain ⟨ops, m, hops, hm⟩ := delivers.run hsent hrun
  exact ⟨m, hm, accounted_of_run hops⟩

/-- **Nothing is lost, nothing comes twice and nothing out of order**, whenever the kernel sends: at
    any time the lines printed are those of the first messages sent, up to the first that ends the
    dump and no further; they are those of all these messages when the client has nothing to read or
    has returned at a message; it has returned at the last one it printed; and it never panics. -/
theorem dump_delivered (hrun : (machine N rich).run es = some s)
    (hsent : ∀ e ∈ es, e.WellSent N rich) :
    ∃ posted taken, (packets N rich).Packs posted s.sent.flatten ∧
      s.client.lines = taken.flatMap linesOf ∧ taken <+: upTo stops posted ∧
      (Settled s → taken = upTo stops posted) ∧ s.client.phase ≠ .panicked ∧
      ∀ exit, s.client.phase = .returned exit →
        exit = .recvErr ∨ ∃ front p, taken = front ++ [p] ∧ stops p = true ∧ exit = exitOf p := by
  obtain ⟨m, hm, haccounted⟩ := tracks_of_run hrun hsent
  have hfollows := hm.follows
  refine ⟨m.posted, m.taken, hm.posted, hm.lines, haccounted.taken_prefix.1, ?_, ?_, ?_⟩
  · intro hsettled
    exact haccounted.taken_prefix.2 (hm.settled hsettled)
  · intro hphase
    rwa [Follows, hphase] at hfollows
  · intro exit hphase
    rcases hm.returned haccounted hphase with hexit | ⟨front, p, htaken, hp, -, hexit⟩
    · exact .inl hexit
    · exact .inr ⟨front, p, htaken, hp, hexit⟩

end Runs

/-- The message that says a dump is done, and its bytes. -/
def done : (NetlinkMessages.reference .little).Message (SockDiagMessage false) :=
  ⟨⟨⟨nlmsgDone⟩, 20, 2, 0, 0⟩, .done [0, 0, 0, 0]⟩

def doneBytes : Bytes := [20, 0, 0, 0, 3, 0, 2, 0, 0, 0, 0, 0, 0, 0, 0, 0, 0, 0, 0, 0]

theorem datagram_noop : Datagram (.reference .little) false [noop _ _] noopBytes :=
  ⟨by simp, FrameReader.packs_singleton rfl, by decide⟩

theorem datagram_done : Datagram (.reference .little) false [done] doneBytes :=
  ⟨by simp, FrameReader.packs_singleton rfl, by decide⟩

/-- The two are sent one after the other, whatever the client does between them. -/
theorem wellSent_samples (own : List Event) (hown : ∀ e ∈ own, e = .recv ∨ e = .turn) :
    ∀ e ∈ .send noopBytes :: (own ++ [.send doneBytes]), e.WellSent (.reference .little) false := by
  refine List.forall_mem_cons.mpr ⟨⟨_, datagram_noop⟩, List.forall_mem_append.mpr ⟨?_, ?_⟩⟩
  · intro e he
    exact Event.wellSent_of_own (hown e he)
  · exact List.forall_mem_singleton.mpr ⟨_, datagram_done⟩

/-- One datagram read and another sent: of their two messages the first has been taken. -/
theorem noopBytes_delivered :
    ∃ s posted taken,
      (machine (.reference .little) false).run
        [.send noopBytes, .recv, .turn, .send doneBytes] = some s ∧
      (packets _ _).Packs posted (noopBytes ++ doneBytes) ∧
      s.client.lines = taken.flatMap linesOf ∧ taken <+: upTo stops posted ∧
      s.client.lines = [.received (noop _ _)] ∧ taken ≠ [] ∧ s.client.phase ≠ .panicked := by
  obtain ⟨c, hfirst, -, hprinted, -⟩ := run_first (P := .reference .little)
    (N := .reference .little) (p := noop _ false)
    (show (packets _ _).read noopBytes = some (noop _ _, 16) from rfl) (by decide)
  have hrun : (machine (.reference .little) false).run
      [.send noopBytes, .recv, .turn, .send doneBytes] =
        some ⟨[noopBytes, doneBytes], [doneBytes], c⟩ :=
    Machine.runFrom_append_eq_some_iff.mpr ⟨_, hfirst, rfl⟩
  obtain ⟨posted, taken, hposted, hlines, htaken, -, hphase, -⟩ :=
    dump_delivered hrun (wellSent_samples [.recv, .turn] (by simp))
  refine ⟨_, posted, taken, hrun, hposted, hlines, htaken, hprinted, ?_, hphase⟩
  rintro rfl
  exact absurd (hprinted.symm.trans hlines) (List.cons_ne_nil _ _)

section Runs

variable [P.Lawful] [N.Lawful] {es : List Event} {s : System N rich}

/-! ## And it gets there -/

/-- What has been received and not been read, and what has not been received. -/
def unread (s : System N rich) : Nat :=
  (match s.client.phase with
    | .reading size => size - s.client.offset
    | _ => 0) + s.inFlight.flatten.length + s.inFlight.length

/-- As long as the client is not settled there is something for it to do. -/
theorem Tracks.progress {m : Mailbox (N.Message (SockDiagMessage rich))} (h : Tracks s m)
    (hopen : s.client.phase ≠ .returned .recvErr) (hsettled : ¬ Settled s) :
    ∃ e s', (e = .recv ∨ e = .turn) ∧ step s e = some s' ∧ s'.sent = s.sent ∧
      s'.client.phase ≠ .returned .recvErr ∧ unread s' < unread s := by
  have hfollows := h.follows
  cases hphase : s.client.phase with
  | receiving =>
    cases hflight : s.inFlight with
    | nil => exact absurd (.inl ⟨hphase, hflight⟩) hsettled
    | cons datagram inFlight =>
      have hreading := s.client.phase_receive datagram
      refine ⟨.recv, _, .inl rfl, step_recv hphase hflight, rfl, ?_, ?_⟩
      · show (s.client.receive datagram).phase ≠ _
        simp [hreading]
      · simp only [unread, hreading, hphase, hflight, List.flatten_cons, List.length_append,
          List.length_cons]
        omega
  | reading size =>
    obtain ⟨p, batch, n, hle, hsize, hpos, -, -, hread, -⟩ := h.reading hphase
    refine ⟨.turn, _, .inr rfl, step_turn hphase, rfl, ?_⟩
    rw [s.client.turn_of_read (by omega) hread]
    by_cases hstops : stops p = true
    · simp only [if_pos hstops]
      refine ⟨fun h => exitOf_ne_recvErr p (Phase.returned.inj h), ?_⟩
      simp only [unread, hphase]
      omega
    · simp only [if_neg hstops]
      by_cases hend : s.client.offset + n = size
      · simp only [if_pos hend]
        refine ⟨by simp, ?_⟩
        simp only [unread, hphase]
        omega
      · simp only [if_neg hend]
        refine ⟨by simp [hphase], ?_⟩
        simp only [unread, hphase]
        omega
  | returned exit =>
    cases exit with
    | done => exact absurd (.inr (.inl hphase)) hsettled
    | other => exact absurd (.inr (.inr hphase)) hsettled
    | recvErr => exact absurd hphase hopen
  | panicked =>
    rw [Follows, hphase] at hfollows
    exact absurd hfollows id

/-- On track, with nothing sent but `sent`, and `recv` has not failed. -/
structure Ongoing (sent : List Bytes) (s : System N rich) : Prop where
  tracks : ∃ m, Tracks s m ∧ Accounted stops m
  unfailed : s.client.phase ≠ .returned .recvErr
  sent_eq : s.sent = sent

/-- What the client does next is what it can do: it stays on track, and less is unread. -/
theorem Ongoing.step {sent : List Bytes} (h : Ongoing sent s) (hsettled : ¬ Settled s) :
    ∃ e s', (e = .recv ∨ e = .turn) ∧ Dump.step s e = some s' ∧ Ongoing sent s' ∧
      unread s' < unread s := by
  obtain ⟨m, hm, haccounted⟩ := h.tracks
  obtain ⟨e, s', he, hstep, hsent, hunfailed, hlt⟩ := hm.progress h.unfailed hsettled
  obtain ⟨ops, m', hops, hm'⟩ := delivers.step hm (Event.wellSent_of_own he) hstep
  refine ⟨e, s', he, hstep, ⟨⟨m', hm', haccounted.runFrom hops⟩, hunfailed, ?_⟩, hlt⟩
  exact hsent.trans h.sent_eq

/-- The client alone gets to where it is settled. -/
theorem exists_settled (hrun : (machine N rich).run es = some s)
    (hsent : ∀ e ∈ es, e.WellSent N rich) (hopen : s.client.phase ≠ .returned .recvErr) :
    ∃ fs t, (∀ e ∈ fs, e = .recv ∨ e = .turn) ∧ fs.length ≤ unread s ∧
      (machine N rich).run (es ++ fs) = some t ∧ t.sent = s.sent ∧ Settled t ∧
      ∃ m, Tracks t m ∧ Accounted stops m := by
  have hongoing : Ongoing s.sent s := ⟨tracks_of_run hrun hsent, hopen, rfl⟩
  have hstep : ∀ t : System N rich, Ongoing s.sent t → ¬ Settled t → ∃ e t',
      (e = .recv ∨ e = .turn) ∧ (machine N rich).step t e = some t' ∧ Ongoing s.sent t' ∧
        unread t' < unread t := by
    intro t ht hsettled
    exact ht.step hsettled
  obtain ⟨fs, t, hfs, hlen, hrest, ht, hsettled⟩ := Machine.exists_runFrom_done unread hstep hongoing
  refine ⟨fs, t, hfs, hlen, ?_, ht.sent_eq, hsettled, ht.tracks⟩
  exact Machine.runFrom_append_eq_some_iff.mpr ⟨s, hrun, hrest⟩

/-- **Every dump can be read to its end**: unless `recv` has failed, what has been sent by any time is
    read by the client alone, up to the message that ends the dump or to the last there is. -/
theorem dump_completes (hrun : (machine N rich).run es = some s)
    (hsent : ∀ e ∈ es, e.WellSent N rich) (hopen : s.client.phase ≠ .returned .recvErr) :
    ∃ fs t posted, (∀ e ∈ fs, e = .recv ∨ e = .turn) ∧ fs.length ≤ unread s ∧
      (machine N rich).run (es ++ fs) = some t ∧ t.sent = s.sent ∧ Settled t ∧
      (packets N rich).Packs posted s.sent.flatten ∧
      t.client.lines = (upTo stops posted).flatMap linesOf := by
  obtain ⟨fs, t, hfs, hlen, hrun', hsame, hsettled, m, hm, haccounted⟩ :=
    exists_settled hrun hsent hopen
  refine ⟨fs, t, m.posted, hfs, hlen, hrun', hsame, hsettled, hsame ▸ hm.posted, ?_⟩
  rw [hm.lines, haccounted.taken_prefix.2 (hm.settled hsettled)]

end Runs

/-- The client reads both datagrams, prints both messages and returns. -/
theorem doneBytes_completes :
    ∃ fs t, (machine (.reference .little) false).run
        ([.send noopBytes, .recv, .send doneBytes] ++ fs) = some t ∧
      Settled t ∧ t.client.lines = [.received (noop _ _), .received done, .done] := by
  obtain ⟨fs, t, posted, -, -, hrun, -, hsettled, hposted, hlines⟩ :=
    dump_completes (N := .reference .little) rfl (wellSent_samples [.recv] (by simp))
      (by simp [Client.receive])
  have hsame : posted = [noop _ _] ++ [done] :=
    hposted.unique (datagram_noop.packs.append datagram_done.packs)
  refine ⟨fs, t, hrun, hsettled, ?_⟩
  rw [hlines, hsame]
  rfl

/-! ## How it is cut -/

section Cuts

variable [N.Lawful] {es fs : List Event} {s t : System N rich}

/-- Where both clients are settled they have printed the same and are in the same place. -/
theorem settled_agree {m m' : Mailbox (N.Message (SockDiagMessage rich))} (hm : Tracks s m)
    (haccounted : Accounted stops m) (hm' : Tracks t m') (haccounted' : Accounted stops m')
    (hposted : m.posted = m'.posted) (hsettled : Settled s) (hsettled' : Settled t) :
    t.client.lines = s.client.lines ∧ t.client.phase = s.client.phase := by
  have htaken : m'.taken = m.taken := by
    rw [haccounted.taken_prefix.2 (hm.settled hsettled),
      haccounted'.taken_prefix.2 (hm'.settled hsettled'), hposted]
  refine ⟨?_, ?_⟩
  · rw [hm.lines, hm'.lines, htaken]
  · rw [hm.phase_eq haccounted hsettled, hm'.phase_eq haccounted' hsettled', htaken]

variable [P.Lawful]

/-- Two runs in which the same bytes were sent are two mailboxes with the same messages. -/
theorem tracks_of_runs (hs : (machine N rich).run es = some s)
    (hes : ∀ e ∈ es, e.WellSent N rich) (ht : (machine N rich).run fs = some t)
    (hfs : ∀ e ∈ fs, e.WellSent N rich) (hsame : s.sent.flatten = t.sent.flatten) :
    ∃ m m', Tracks s m ∧ Accounted stops m ∧ Tracks t m' ∧ Accounted stops m' ∧
      m.posted = m'.posted := by
  obtain ⟨m, hm, haccounted⟩ := tracks_of_run hs hes
  obtain ⟨m', hm', haccounted'⟩ := tracks_of_run ht hfs
  have hposted := hm.posted
  rw [hsame] at hposted
  exact ⟨m, m', hm, haccounted, hm', haccounted', hposted.unique hm'.posted⟩

/-- **How the bytes are cut into datagrams makes no difference**, nor does when the datagrams are
    sent. Of two runs with the same bytes, one has printed the first of the lines the other has; one
    that is settled has printed all the other has, and the same if that is settled too, and is in the
    same place; and if it is not, and `recv` has not failed in it, its client gets there alone. -/
theorem cuts_agree (hs : (machine N rich).run es = some s) (hes : ∀ e ∈ es, e.WellSent N rich)
    (ht : (machine N rich).run fs = some t) (hfs : ∀ e ∈ fs, e.WellSent N rich)
    (hsame : s.sent.flatten = t.sent.flatten) :
    (s.client.lines <+: t.client.lines ∨ t.client.lines <+: s.client.lines) ∧
      (Settled s → t.client.lines <+: s.client.lines) ∧
      (Settled s → Settled t →
        t.client.lines = s.client.lines ∧ t.client.phase = s.client.phase) ∧
      (Settled s → t.client.phase ≠ .returned .recvErr →
        ∃ gs u, (∀ e ∈ gs, e = .recv ∨ e = .turn) ∧ (machine N rich).run (fs ++ gs) = some u ∧
          u.sent = t.sent ∧ u.client.lines = s.client.lines ∧ u.client.phase = s.client.phase) := by
  obtain ⟨m, m', hm, haccounted, hm', haccounted', hposted⟩ := tracks_of_runs hs hes ht hfs hsame
  have hfirst := haccounted.taken_prefix.1
  have hfirst' := haccounted'.taken_prefix.1
  rw [← hposted] at hfirst'
  refine ⟨?_, ?_, ?_, ?_⟩
  · rw [hm.lines, hm'.lines]
    rcases List.prefix_or_prefix_of_prefix hfirst hfirst' with h | h
    · exact .inl (h.flatMap linesOf)
    · exact .inr (h.flatMap linesOf)
  · intro hsettled
    rw [hm.lines, hm'.lines, haccounted.taken_prefix.2 (hm.settled hsettled)]
    exact hfirst'.flatMap linesOf
  · intro hsettled hsettled'
    exact settled_agree hm haccounted hm' haccounted' hposted hsettled hsettled'
  · intro hsettled hopen
    obtain ⟨gs, u, hgs, -, hu, hsent, hsettled', n, hn, hall⟩ := exists_settled ht hfs hopen
    -- What the client does alone adds nothing to what was sent.
    have hposted' := hn.posted
    rw [hsent] at hposted'
    have hsame' : m.posted = n.posted := hposted.trans (hm'.posted.unique hposted')
    exact ⟨gs, u, hgs, hu, hsent,
      settled_agree hm haccounted hn hall hsame' hsettled hsettled'⟩

end Cuts

/-- Both messages in one datagram, and in two. -/
theorem doneBytes_agree :
    ∃ es s gs u,
      (machine (.reference .little) false).run ([.send (noopBytes ++ doneBytes)] ++ es) = some s ∧
      (machine (.reference .little) false).run
        ([.send noopBytes, .recv, .send doneBytes] ++ gs) = some u ∧
      u.client.lines = s.client.lines ∧ u.client.phase = s.client.phase ∧
      s.client.lines = [.received (noop _ _), .received done, .done] := by
  have hwhole : Datagram (.reference .little) false [noop _ _, done] (noopBytes ++ doneBytes) :=
    ⟨by simp, datagram_noop.packs.append datagram_done.packs, by decide⟩
  have hsent : ∀ e ∈ [Event.send (noopBytes ++ doneBytes)],
      e.WellSent (.reference .little) false := List.forall_mem_singleton.mpr ⟨_, hwhole⟩
  obtain ⟨es, s, hes, -, hs, hsame, hsettled, m, hm, haccounted⟩ :=
    exists_settled (N := .reference .little) rfl hsent
      (show Phase.receiving ≠ .returned .recvErr by simp)
  have hall : ∀ e ∈ [Event.send (noopBytes ++ doneBytes)] ++ es,
      e.WellSent (.reference .little) false :=
    List.forall_mem_append.mpr ⟨hsent, fun e he => Event.wellSent_of_own (hes e he)⟩
  obtain ⟨-, -, -, hreached⟩ := cuts_agree (N := .reference .little) hs hall rfl
    (wellSent_samples [.recv] (by simp)) (by rw [hsame]; rfl)
  obtain ⟨gs, u, -, hu, -, hlines, hphase⟩ := hreached hsettled (by simp [Client.receive])
  have hposted := hm.posted
  rw [hsame] at hposted
  have hmessages : m.posted = [noop _ _, done] := hposted.unique hwhole.packs
  refine ⟨es, s, gs, u, hs, hu, hlines, hphase, ?_⟩
  rw [hm.lines, haccounted.taken_prefix.2 (hm.settled hsettled), hmessages]
  rfl

end Dump

end SockDiag
