import SockDiag.Dump.Client
import SockDiag.Netlink.Reference

/-!
# One datagram

What becomes of a datagram, whatever is in it. The client is lent the whole buffer from the offset
on, so the last message it reads may go on past the datagram, into what an earlier and longer one
left there. What it finds its way back to `recv` by is that the offset comes to be the size, which
it does only where the messages end with the datagram.

`Client.turn_cases` is all a turn can do and `step_cases` all a step can, guards included, and what
is proved of runs is proved from the two. `InBounds` holds after every run (`inBounds_of_run`): the
offset is one the buffer can be sliced at, whatever the kernel sends. A turn reads sixteen bytes at
least, so the inner loop ends (`reading_ends`), and it ends back at `recv` only through whole
messages that let the client go on, which it then has printed. `datagram_read` puts that together
for the datagram that is received next, after any run.
-/

set_option autoImplicit false

namespace SockDiag

open Rust

namespace Dump

variable {P : Platform} {N : NetlinkMessages P} {rich : Bool}

/-- What a client reads. -/
abbrev packets (N : NetlinkMessages P) [N.Lawful] (rich : Bool) :
    FrameReader (N.Message (SockDiagMessage rich)) := N.reader (SockDiagMessage.deserialize P)

/-- The client returns when it has read this. -/
def stops (rxPacket : N.Message (SockDiagMessage rich)) : Bool :=
  match rxPacket.payload with
  | .noop => false
  | .innerMessage (.inetResponse _) => false
  | _ => true

def linesOf (rxPacket : N.Message (SockDiagMessage rich)) : List (Line N rich) :=
  match rxPacket.payload with
  | .innerMessage (.inetResponse response) => [.received rxPacket, .response response]
  | .done _ => [.received rxPacket, .done]
  | _ => [.received rxPacket]

def exitOf (rxPacket : N.Message (SockDiagMessage rich)) : Exit :=
  match rxPacket.payload with
  | .done _ => .done
  | _ => .other

/-- A message is printed as one line. -/
theorem received_mem_linesOf {p q : N.Message (SockDiagMessage rich)} :
    .received p ∈ linesOf q ↔ p = q := by
  obtain ⟨header, payload⟩ := q
  cases payload with
  | innerMessage msg => cases msg <;> simp [linesOf]
  | _ => simp [linesOf]

/-- Whole messages, one at least, none of which ends anything. -/
structure Uneventful (N : NetlinkMessages P) [N.Lawful] (rich : Bool)
    (rxPackets : List (N.Message (SockDiagMessage rich))) (datagram : Bytes) : Prop where
  ne_nil : rxPackets ≠ []
  packs : (packets N rich).Packs rxPackets datagram
  goesOn : ∀ rxPacket ∈ rxPackets, stops rxPacket = false

/-! ## The receive buffer -/

section Receive

variable [N.Lawful] (c : Client N rich) (datagram : Bytes)

theorem Client.phase_receive :
    (c.receive datagram).phase = .reading (min datagram.length 4096) :=
  congrArg Phase.reading (NetlinkMessages.Lawful.recv_size _ _)

/-- The front of the buffer is the datagram. -/
theorem Client.slice_receive (hoffset : c.offset = 0) :
    slice (c.receive datagram).receiveBuffer.1 (c.receive datagram).offset
      (min datagram.length 4096) = datagram.take 4096 := by
  show ((N.recv c.receiveBuffer datagram).1.1.take _).drop c.offset = _
  rw [hoffset, List.drop_zero, NetlinkMessages.Lawful.recv_front]

end Receive

/-! ## One turn -/

namespace Client

variable {c : Client N rich} {size n : Nat} {p : N.Message (SockDiagMessage rich)}

/-- All that is done with a message. -/
theorem handle_eq : c.handle size p =
    if stops p then { c with lines := c.lines ++ linesOf p, phase := .returned (exitOf p) }
    else { c with lines := c.lines ++ linesOf p }.advance size p.header.length := by
  obtain ⟨header, payload⟩ := p
  cases payload with
  | innerMessage msg =>
    cases msg with
    | inetResponse response => simp [handle, stops, linesOf, print]
    | _ => simp [handle, stops, linesOf, exitOf, print]
  | _ => simp [handle, stops, linesOf, exitOf, print]

/-- What was received stays in the buffer, and what was printed stays printed. -/
theorem turn_keeps (c : Client N rich) (size : Nat) :
    (c.turn size).receiveBuffer = c.receiveBuffer ∧ c.lines <+: (c.turn size).lines := by
  unfold turn
  split
  · rw [handle_eq]
    split
    · exact ⟨rfl, List.prefix_append _ _⟩
    · unfold advance
      dsimp only
      split
      · exact ⟨rfl, List.prefix_append _ _⟩
      · exact ⟨rfl, List.prefix_append _ _⟩
  · exact ⟨rfl, List.prefix_rfl⟩
  · exact ⟨rfl, List.prefix_rfl⟩

theorem rxPacket_eq (hoffset : c.offset ≤ 4096) :
    c.rxPacket =
      (N.deserialize (SockDiagMessage.deserialize P) (c.receiveBuffer.1.drop c.offset)).unwrap := by
  have hle : c.offset ≤ c.receiveBuffer.1.length := by
    rw [c.receiveBuffer.2]
    exact hoffset
  rw [rxPacket, sliceFrom_eq_ok hle, Outcome.ok_bind]

theorem advance_eq (hpos : 0 < p.header.length.toNat) :
    c.advance size p.header.length =
      if c.offset + p.header.length.toNat = size then { c with offset := 0, phase := .receiving }
      else { c with offset := c.offset + p.header.length.toNat } := by
  have hne : p.header.length ≠ 0 := by
    intro h
    rw [h] at hpos
    exact absurd hpos (by decide)
  simp only [advance, hne, or_false]

section Turn

variable [P.Lawful] [N.Lawful]

/-- **All a turn can do**: read nothing, and that is a panic; read the last message it will; read the
    last of the datagram; or read one more. -/
theorem turn_cases (size : Nat) (hoffset : c.offset ≤ 4096) :
    ((packets N rich).read (c.receiveBuffer.1.drop c.offset) = none ∧
      c.turn size = { c with phase := .panicked }) ∨
    ∃ p n, (packets N rich).read (c.receiveBuffer.1.drop c.offset) = some (p, n) ∧
      c.turn size =
        if stops p then { c with lines := c.lines ++ linesOf p, phase := .returned (exitOf p) }
        else if c.offset + n = size then
          { c with lines := c.lines ++ linesOf p, offset := 0, phase := .receiving }
        else { c with lines := c.lines ++ linesOf p, offset := c.offset + n } := by
  -- The decoder comes back, so the turn does.
  have hreturns : (N.deserialize (SockDiagMessage.deserialize P)
      (c.receiveBuffer.1.drop c.offset) : Outcome _ (N.Message (SockDiagMessage rich))).Returns :=
    NetlinkMessages.Lawful.deserialize_returns _
      (fun _ _ => SockDiagMessage.parseWithParam_returns) _
  unfold turn
  rw [rxPacket_eq hoffset]
  cases hread : N.deserialize (SockDiagMessage.deserialize P)
      (List.drop c.offset c.receiveBuffer.1) with
  | ok p =>
    have hp := NetlinkMessages.reader_read_eq_some_iff.mpr ⟨hread, rfl⟩
    refine .inr ⟨p, p.header.length.toNat, hp, ?_⟩
    have hpos := (packets N rich).pos hp
    show c.handle size p = _
    rw [handle_eq, advance_eq hpos]
  | err e =>
    refine .inl ⟨?_, rfl⟩
    show NetlinkMessages.read _ _ = none
    rw [NetlinkMessages.read, hread]
  | panic =>
    rw [hread] at hreturns
    exact absurd hreturns Outcome.not_returns_panic
  | diverge =>
    rw [hread] at hreturns
    exact absurd hreturns Outcome.not_returns_diverge

theorem turn_of_read (hoffset : c.offset ≤ 4096)
    (hread : (packets N rich).read (c.receiveBuffer.1.drop c.offset) = some (p, n)) :
    c.turn size =
      if stops p then { c with lines := c.lines ++ linesOf p, phase := .returned (exitOf p) }
      else if c.offset + n = size then
        { c with lines := c.lines ++ linesOf p, offset := 0, phase := .receiving }
      else { c with lines := c.lines ++ linesOf p, offset := c.offset + n } := by
  rcases c.turn_cases size hoffset with ⟨hnone, -⟩ | ⟨q, k, hq, hturn⟩
  · rw [hread] at hnone
    exact absurd hnone (by simp)
  · rw [hread] at hq
    obtain ⟨rfl, rfl⟩ := Prod.mk.inj (Option.some.inj hq)
    exact hturn

theorem lines_turn_of_read (hoffset : c.offset ≤ 4096)
    (hread : (packets N rich).read (c.receiveBuffer.1.drop c.offset) = some (p, n)) :
    (c.turn size).lines = c.lines ++ linesOf p := by
  rw [c.turn_of_read hoffset hread]
  split
  · rfl
  split
  · rfl
  · rfl

end Turn

end Client

/-! ## Steps -/

section Steps

variable {s s' : System N rich} {e : Event} {datagram : Bytes} {inFlight : List Bytes} {size : Nat}

theorem step_recv (hphase : s.client.phase = .receiving) (hflight : s.inFlight = datagram :: inFlight) :
    step s .recv = some { s with inFlight := inFlight, client := s.client.receive datagram } := by
  simp only [step, hphase, hflight]

theorem step_recvErr (hphase : s.client.phase = .receiving) :
    step s .recvErr = some { s with client := { s.client with phase := .returned .recvErr } } := by
  simp only [step, hphase]

theorem step_turn (hphase : s.client.phase = .reading size) :
    step s .turn = some { s with client := s.client.turn size } := by
  simp only [step, hphase]

/-- All a step can do. -/
theorem step_cases (h : step s e = some s') :
    (∃ datagram, e = .send datagram ∧
      s' = { s with sent := s.sent ++ [datagram], inFlight := s.inFlight ++ [datagram] }) ∨
    (∃ datagram inFlight, e = .recv ∧ s.client.phase = .receiving ∧
      s.inFlight = datagram :: inFlight ∧
      s' = { s with inFlight := inFlight, client := s.client.receive datagram }) ∨
    (e = .recvErr ∧ s.client.phase = .receiving ∧
      s' = { s with client := { s.client with phase := .returned .recvErr } }) ∨
    ∃ size, e = .turn ∧ s.client.phase = .reading size ∧
      s' = { s with client := s.client.turn size } := by
  cases e with
  | send datagram => exact .inl ⟨datagram, rfl, (Option.some.inj h).symm⟩
  | recv =>
    simp only [step] at h
    split at h
    · rename_i hphase hflight
      exact .inr (.inl ⟨_, _, rfl, hphase, hflight, (Option.some.inj h).symm⟩)
    · exact absurd h (by simp)
  | recvErr =>
    simp only [step] at h
    split at h
    · rename_i hphase
      exact .inr (.inr (.inl ⟨rfl, hphase, (Option.some.inj h).symm⟩))
    · exact absurd h (by simp)
  | turn =>
    simp only [step] at h
    split at h
    · rename_i size hphase
      exact .inr (.inr (.inr ⟨size, rfl, hphase, (Option.some.inj h).symm⟩))
    · exact absurd h (by simp)

end Steps

/-! ## Any datagram at all -/

/-- The client is inside its buffer, and at the front of it when it receives. -/
structure InBounds (c : Client N rich) : Prop where
  offset : c.offset ≤ 4096
  receiving : c.phase = .receiving → c.offset = 0
  reading : ∀ size, c.phase = .reading size → size ≤ 4096

theorem inBounds_start : InBounds (.start : Client N rich) :=
  ⟨Nat.zero_le _, fun _ => rfl, fun _ h => Phase.noConfusion h⟩

/-- A part of the buffer at the front of which `p` is read. -/
theorem uneventful_slice_iff [N.Lawful] {b : Bytes} {lo hi n : Nat}
    {p : N.Message (SockDiagMessage rich)} {ps : List (N.Message (SockDiagMessage rich))}
    (hhi : hi ≤ b.length) (hread : (packets N rich).read (b.drop lo) = some (p, n)) :
    Uneventful N rich ps (slice b lo hi) ↔
      stops p = false ∧ ∃ qs, ps = p :: qs ∧
        ((lo + n = hi ∧ qs = []) ∨ (lo + n ≠ hi ∧ Uneventful N rich qs (slice b (lo + n) hi))) := by
  refine ⟨?_, ?_⟩
  · intro h
    obtain ⟨qs, rfl, hqs⟩ := (FrameReader.packs_slice_iff hhi hread h.ne_nil).mp h.packs
    obtain ⟨hp, hgoesOn⟩ := List.forall_mem_cons.mp h.goesOn
    refine ⟨hp, qs, rfl, ?_⟩
    rcases hqs with hend | ⟨hmore, hne, hpacks⟩
    · exact .inl hend
    · exact .inr ⟨hmore, hne, hpacks, hgoesOn⟩
  · intro h
    obtain ⟨hp, qs, rfl, ⟨hend, rfl⟩ | ⟨hmore, hqs⟩⟩ := h
    · refine ⟨by simp, ?_, by simpa using hp⟩
      exact (FrameReader.packs_slice_iff hhi hread (by simp)).mpr ⟨[], rfl, .inl ⟨hend, rfl⟩⟩
    · refine ⟨by simp, ?_, List.forall_mem_cons.mpr ⟨hp, hqs.goesOn⟩⟩
      exact (FrameReader.packs_slice_iff hhi hread (by simp)).mpr
        ⟨qs, rfl, .inr ⟨hmore, hqs.ne_nil, hqs.packs⟩⟩

/-- What has become of the bytes of the datagram from the offset on, when the inner loop is left. -/
structure WorkedOff [N.Lawful] (c : Client N rich) (size : Nat) (c' : Client N rich) : Prop where
  left : ∀ size, c'.phase ≠ .reading size
  back_iff : c'.phase = .receiving ↔
    ∃ ps, Uneventful N rich ps (slice c.receiveBuffer.1 c.offset size)
  lines_eq : ∀ ps, Uneventful N rich ps (slice c.receiveBuffer.1 c.offset size) →
    c'.lines = c.lines ++ ps.flatMap linesOf

section WorkedOff

variable [N.Lawful] {c c' : Client N rich} {size n : Nat} {p : N.Message (SockDiagMessage rich)}

/-- Where the messages are not what lets the client go on. -/
theorem workedOff_of_not (hleft : ∀ size, c'.phase ≠ .reading size) (hback : c'.phase ≠ .receiving)
    (hnone : ∀ ps, ¬ Uneventful N rich ps (slice c.receiveBuffer.1 c.offset size)) :
    WorkedOff c size c' where
  left := hleft
  back_iff := iff_of_false hback fun ⟨ps, hps⟩ => hnone ps hps
  lines_eq := fun ps hps => absurd hps (hnone ps)

/-- The message that is read is the last of the datagram. -/
theorem workedOff_last (hsize : size ≤ 4096) (hp : stops p = false) (hend : c.offset + n = size)
    (hread : (packets N rich).read (c.receiveBuffer.1.drop c.offset) = some (p, n)) :
    WorkedOff c size { c with lines := c.lines ++ linesOf p, offset := 0, phase := .receiving } := by
  have hhi : size ≤ c.receiveBuffer.1.length := by
    rw [c.receiveBuffer.2]
    exact hsize
  have hlast := (uneventful_slice_iff hhi hread).mpr ⟨hp, [], rfl, .inl ⟨hend, rfl⟩⟩
  refine ⟨by simp, iff_of_true rfl ⟨[p], hlast⟩, ?_⟩
  intro ps hps
  obtain ⟨-, qs, rfl, ⟨-, rfl⟩ | ⟨hmore, -⟩⟩ := (uneventful_slice_iff hhi hread).mp hps
  · simp
  · exact absurd hend hmore

/-- There is more behind it. -/
theorem WorkedOff.cons (hsize : size ≤ 4096) (hp : stops p = false) (hmore : c.offset + n ≠ size)
    (hread : (packets N rich).read (c.receiveBuffer.1.drop c.offset) = some (p, n))
    (h : WorkedOff { c with lines := c.lines ++ linesOf p, offset := c.offset + n } size c') :
    WorkedOff c size c' := by
  have hhi : size ≤ c.receiveBuffer.1.length := by
    rw [c.receiveBuffer.2]
    exact hsize
  refine ⟨h.left, h.back_iff.trans ⟨?_, ?_⟩, ?_⟩
  · intro hd
    obtain ⟨qs, hqs⟩ := hd
    exact ⟨p :: qs, (uneventful_slice_iff hhi hread).mpr ⟨hp, qs, rfl, .inr ⟨hmore, hqs⟩⟩⟩
  · intro hd
    obtain ⟨ps, hps⟩ := hd
    obtain ⟨-, qs, rfl, ⟨hend, -⟩ | ⟨-, hqs⟩⟩ := (uneventful_slice_iff hhi hread).mp hps
    · exact absurd hend hmore
    · exact ⟨qs, hqs⟩
  · intro ps hps
    obtain ⟨-, qs, rfl, ⟨hend, -⟩ | ⟨-, hqs⟩⟩ := (uneventful_slice_iff hhi hread).mp hps
    · exact absurd hend hmore
    · rw [h.lines_eq qs hqs, List.flatMap_cons, List.append_assoc]

end WorkedOff

section Any

variable [P.Lawful] [N.Lawful] {s : System N rich} {es : List Event} {size : Nat}

theorem InBounds.turn {c : Client N rich} (h : InBounds c) (hphase : c.phase = .reading size) :
    InBounds (c.turn size) := by
  rcases c.turn_cases size h.offset with ⟨-, hturn⟩ | ⟨p, n, hread, hturn⟩
  · rw [hturn]
    exact ⟨h.offset, by simp, by simp⟩
  · have hle := (packets N rich).le_length hread
    rw [List.length_drop, c.receiveBuffer.2] at hle
    have hpos := (packets N rich).pos hread
    rw [hturn]
    split
    · exact ⟨h.offset, by simp, by simp⟩
    split
    · exact ⟨Nat.zero_le _, fun _ => rfl, by simp⟩
    · refine ⟨?_, ?_, h.reading⟩
      · show c.offset + n ≤ 4096
        omega
      · intro hr
        exact absurd (hphase.symm.trans hr) (by simp)

theorem InBounds.step {s' : System N rich} {e : Event} (h : InBounds s.client)
    (hstep : Dump.step s e = some s') : InBounds s'.client := by
  rcases step_cases hstep with ⟨datagram, -, rfl⟩ | ⟨datagram, inFlight, -, hphase, -, rfl⟩ |
    ⟨-, hphase, rfl⟩ | ⟨size, -, hphase, rfl⟩
  · exact h
  · have hreading := s.client.phase_receive datagram
    refine ⟨h.offset, ?_, ?_⟩
    · intro hreceiving
      exact absurd (hreading.symm.trans hreceiving) (by simp)
    · intro size hsize
      obtain rfl := Phase.reading.inj (hreading.symm.trans hsize)
      exact Nat.min_le_right _ _
  · exact ⟨h.offset, by simp, by simp⟩
  · exact h.turn hphase

/-- Whatever the kernel sends, the offset is one the buffer can be sliced at. -/
theorem inBounds_of_run (h : (machine N rich).run es = some s) : InBounds s.client := by
  have hany : ∀ e ∈ es, True := fun _ _ => trivial
  refine Machine.run_invariant (I := fun s => InBounds s.client) inBounds_start ?_ hany h
  intro s e s' hs _ hstep
  exact hs.step hstep

/-- **The inner loop comes to an end, and back to `recv` only through whole messages.** -/
theorem reading_ends (hphase : s.client.phase = .reading size) (hoffset : s.client.offset ≤ 4096)
    (hsize : size ≤ 4096) :
    ∃ k c, 16 * k ≤ 4096 - s.client.offset + 16 ∧
      (machine N rich).runFrom s (List.replicate k .turn) = some { s with client := c } ∧
      WorkedOff s.client size c := by
  have hhi : size ≤ s.client.receiveBuffer.1.length := by
    rw [s.client.receiveBuffer.2]
    exact hsize
  -- There is less of the buffer left after each turn.
  generalize hleft : 4096 - s.client.offset = left
  induction left using Nat.strongRecOn generalizing s with
  | ind left ih =>
    have hone : (machine N rich).runFrom s (List.replicate 1 .turn) =
        some { s with client := s.client.turn size } := by
      rw [List.replicate_one, Machine.runFrom_singleton]
      exact step_turn hphase
    rcases s.client.turn_cases size hoffset with ⟨hread, hturn⟩ | ⟨p, n, hread, hturn⟩
    · rw [hturn] at hone
      refine ⟨1, _, by omega, hone, workedOff_of_not (by simp) (by simp) ?_⟩
      intro ps hps
      exact FrameReader.not_packs_slice hread hps.ne_nil hps.packs
    have hle := (packets N rich).le_length hread
    rw [List.length_drop, s.client.receiveBuffer.2] at hle
    have hsixteen : 16 ≤ n := NetlinkMessages.le_of_read hread
    rw [hturn] at hone
    split at hone
    · -- It returns, and the message it returns at is not an uneventful one.
      rename_i hstops
      refine ⟨1, _, by omega, hone, workedOff_of_not (by simp) (by simp) ?_⟩
      intro ps hps
      exact absurd ((uneventful_slice_iff hhi hread).mp hps).1 (by simp [hstops])
    rename_i hstops
    have hp : stops p = false := by simpa using hstops
    split at hone
    · rename_i hend
      exact ⟨1, _, by omega, hone, workedOff_last hsize hp hend hread⟩
    · rename_i hmore
      obtain ⟨k, c, hk, hrun, hworked⟩ :=
        ih (4096 - (s.client.offset + n)) (by omega)
          (s := { s with client :=
            { s.client with
              lines := s.client.lines ++ linesOf p, offset := s.client.offset + n } })
          hphase (by show s.client.offset + n ≤ 4096; omega) hhi rfl
      refine ⟨k + 1, c, by omega, ?_, hworked.cons hsize hp hmore hread⟩
      rw [Nat.add_comm, List.replicate_add]
      exact Machine.runFrom_append_eq_some_iff.mpr ⟨_, hone, hrun⟩

/-- **What becomes of a datagram.** After any run, the datagram `recv` returns next is read in 257
    turns at most; the client is back at `recv` when the first 4096 bytes of it are whole messages
    that let it go on, and only then; and it has printed those messages and nothing besides, whatever
    was in the buffer before. -/
theorem datagram_read (hrun : (machine N rich).run es = some s) {datagram : Bytes}
    {inFlight : List Bytes} (hphase : s.client.phase = .receiving)
    (hflight : s.inFlight = datagram :: inFlight) :
    ∃ k c, k ≤ 257 ∧
      (machine N rich).runFrom s (.recv :: List.replicate k .turn) = some ⟨s.sent, inFlight, c⟩ ∧
      (∀ size, c.phase ≠ .reading size) ∧
      (c.phase = .receiving ↔ ∃ ps, Uneventful N rich ps (datagram.take 4096)) ∧
      ∀ ps, Uneventful N rich ps (datagram.take 4096) →
        c.lines = s.client.lines ++ ps.flatMap linesOf := by
  have hzero := (inBounds_of_run hrun).receiving hphase
  obtain ⟨k, c, hk, hturns, hworked⟩ :=
    reading_ends (N := N) (s := { s with inFlight := inFlight, client := s.client.receive datagram })
      (s.client.phase_receive datagram) (by show s.client.offset ≤ 4096; omega)
      (Nat.min_le_right _ _)
  have hback := hworked.back_iff
  have hlines := hworked.lines_eq
  dsimp only at hk hback hlines
  rw [s.client.slice_receive datagram hzero] at hback hlines
  refine ⟨k, c, by omega, ?_, hworked.left, hback, hlines⟩
  exact Machine.runFrom_cons_eq_some_iff.mpr ⟨_, step_recv hphase hflight, hturns⟩

end Any

/-- A datagram of one message, on its own. -/
theorem run_first [P.Lawful] [N.Lawful] {datagram : Bytes} {p : N.Message (SockDiagMessage rich)}
    (hread : (packets N rich).read datagram = some (p, datagram.length))
    (hfits : datagram.length ≤ 4096) :
    ∃ c : Client N rich,
      (machine N rich).run [.send datagram, .recv, .turn] = some ⟨[datagram], [], c⟩ ∧
      c.receiveBuffer = (Client.start.receive datagram : Client N rich).receiveBuffer ∧
      c.lines = linesOf p ∧ (stops p = false → c.phase = .receiving) := by
  let c : Client N rich := Client.start.receive datagram
  have hphase : c.phase = .reading (min datagram.length 4096) := Client.phase_receive _ _
  have hslice : slice c.receiveBuffer.1 c.offset (min datagram.length 4096) = datagram.take 4096 :=
    Client.slice_receive _ _ rfl
  rw [← List.take_of_length_le hfits, ← hslice] at hread
  have hdrop := FrameReader.read_drop_of_slice hread
  rw [hslice, List.take_of_length_le hfits] at hdrop
  have hrecv : (machine N rich).run [.send datagram, .recv] = some ⟨[datagram], [], c⟩ := rfl
  refine ⟨c.turn (min datagram.length 4096), ?_, (c.turn_keeps _).1,
    c.lines_turn_of_read (Nat.zero_le _) hdrop, ?_⟩
  · refine Machine.runFrom_append_eq_some_iff.mpr ⟨_, hrecv, ?_⟩
    rw [Machine.runFrom_singleton]
    exact step_turn (s := ⟨[datagram], [], c⟩) hphase
  · intro hstops
    rw [c.turn_of_read (Nat.zero_le _) hdrop, if_neg (by simp [hstops]), if_pos]
    show 0 + datagram.length = _
    omega

/-! Two messages with nothing in them, received after one with 48 bytes in it. -/

def noop (N : NetlinkMessages P) (rich : Bool) : N.Message (SockDiagMessage rich) :=
  ⟨⟨⟨nlmsgNoop⟩, 16, 0, 0, 0⟩, .noop⟩

def noopBytes : Bytes := [16, 0, 0, 0, 1, 0, 0, 0, 0, 0, 0, 0, 0, 0, 0, 0]

def longNoop (N : NetlinkMessages P) (rich : Bool) : N.Message (SockDiagMessage rich) :=
  ⟨⟨⟨nlmsgNoop⟩, 64, 0, 0, 0⟩, .noop⟩

def longNoopBytes : Bytes :=
  [64, 0, 0, 0, 1, 0, 0, 0] ++ List.replicate 8 0 ++ List.replicate 48 255

theorem uneventful_noops :
    Uneventful (.reference .little) false [noop _ _, noop _ _] (noopBytes ++ noopBytes) where
  ne_nil := by simp
  packs := (FrameReader.packs_singleton rfl).append (FrameReader.packs_singleton rfl)
  goesOn := by simp [stops, noop]

/-- What is left of the longer datagram stands behind the two messages, and they are printed and
    nothing else. -/
theorem noopBytes_read :
    ∃ s k c,
      (machine (.reference .little) false).run
        [.send longNoopBytes, .recv, .turn, .send (noopBytes ++ noopBytes)] = some s ∧
      slice s.client.receiveBuffer.1 32 64 = List.replicate 32 255 ∧
      (machine (.reference .little) false).runFrom s (.recv :: List.replicate k .turn) =
        some ⟨s.sent, [], c⟩ ∧
      c.phase = .receiving ∧
      c.lines = [.received (longNoop _ _), .received (noop _ _), .received (noop _ _)] := by
  obtain ⟨c, hfirst, hbuffer, hprinted, hphase⟩ := run_first (P := .reference .little)
    (N := .reference .little) (p := longNoop _ false)
    (show (packets _ _).read longNoopBytes = some (longNoop _ _, 64) from rfl) (by decide)
  have hrun : (machine (.reference .little) false).run
      [.send longNoopBytes, .recv, .turn, .send (noopBytes ++ noopBytes)] =
        some ⟨[longNoopBytes, noopBytes ++ noopBytes], [noopBytes ++ noopBytes], c⟩ :=
    Machine.runFrom_append_eq_some_iff.mpr ⟨_, hfirst, rfl⟩
  obtain ⟨k, c', -, hread, -, hback, hlines⟩ := datagram_read hrun (hphase rfl) rfl
  refine ⟨_, k, c', hrun, ?_, hread, hback.mpr ⟨_, uneventful_noops⟩, ?_⟩
  · show slice c.receiveBuffer.1 32 64 = _
    rw [hbuffer]
    rfl
  · rw [hlines _ uneventful_noops, hprinted]
    rfl

end Dump

end SockDiag
