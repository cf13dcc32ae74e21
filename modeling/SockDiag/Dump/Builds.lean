import SockDiag.Dump.Datagram
import SockDiag.RichNlas

/-!
# The client of the two builds

The feature `rich_nlas` is chosen when the program is built, and the kernel does not know of it.
What the client of the rich build does is what that of the plain build does on the same events, with
every message enriched, up to the first message in which the kernel has not sent all of a `struct
tcp_info`. There the rich client panics and the plain one goes on.

`builds_agree` says so of every list of events, in both directions. `InStep` is the relation between
the two clients that every event keeps: they are the same, enriched, or the plain one has printed
such a message and the rich one has panicked. What it takes is that the rich decoder of messages is
the plain one and then `enrich` (`SockDiagMessage.parseWithParam_rich_iff`), and that no other part
of a turn looks at what is in an attribute; the rest is the rule for machines in lock step.
-/

set_option autoImplicit false

namespace SockDiag

open Rust Inet

/-! ## Messages -/

namespace SockDiagMessage

/-- The message of the rich build for one of the plain build. -/
def enrich (o : ByteOrder) : SockDiagMessage false → SockDiagMessage true
  | inetRequest msg => inetRequest msg
  | inetResponse msg => inetResponse ⟨msg.header, msg.nlas.map (Nla.enrich o)⟩
  | unixRequest msg => unixRequest msg
  | unixResponse msg => unixResponse msg

/-- There are as many bytes in every `INET_DIAG_INFO` as in the struct. -/
def Enough : SockDiagMessage false → Prop
  | inetResponse msg => ∀ x ∈ msg.nlas, x.InfoLength (232 ≤ ·)
  | _ => True

theorem parseWithParam_rich_iff {P : Platform} [P.Lawful] {b : Bytes} {type : UInt16}
    {m' : SockDiagMessage true} :
    parseWithParam P b type = .ok m' ↔
      ∃ m : SockDiagMessage false, parseWithParam P b type = .ok m ∧ m.Enough ∧
        m' = m.enrich P.order := by
  rw [parseWithParam_eq_ok_iff]
  refine ⟨?_, ?_⟩
  · intro h
    obtain ⟨htype, ⟨r', rfl, hhead, hr'⟩ | ⟨r, rfl, hhead, hr⟩⟩ := h
    · obtain ⟨r, hr, hinfo, rfl⟩ := parse_rich_iff.mp hr'
      refine ⟨.inetResponse r, ?_, (infoBytes_iff_of_parse hr).mp hinfo, rfl⟩
      exact parseWithParam_eq_ok_iff.mpr ⟨htype, .inl ⟨r, rfl, hhead, hr⟩⟩
    · refine ⟨.unixResponse r, ?_, trivial, rfl⟩
      exact parseWithParam_eq_ok_iff.mpr ⟨htype, .inr ⟨r, rfl, hhead, hr⟩⟩
  · intro h
    obtain ⟨m, hm, henough, rfl⟩ := h
    obtain ⟨htype, ⟨r, rfl, hhead, hr⟩ | ⟨r, rfl, hhead, hr⟩⟩ := parseWithParam_eq_ok_iff.mp hm
    · refine ⟨htype, .inl ⟨_, rfl, hhead, ?_⟩⟩
      exact parse_rich_iff.mpr ⟨r, hr, (infoBytes_iff_of_parse hr).mpr henough, rfl⟩
    · exact ⟨htype, .inr ⟨r, rfl, hhead, hr⟩⟩

end SockDiagMessage

namespace Dump

section Enrich

variable {P : Platform} {N : NetlinkMessages P}

/-! ## What the client has of them -/

/-- A message that is read, in the rich build. -/
def enriched (rxPacket : N.Message (SockDiagMessage false)) : N.Message (SockDiagMessage true) :=
  rxPacket.map (SockDiagMessage.enrich P.order)

def Line.enrich : Line N false → Line N true
  | received rxPacket => received (enriched rxPacket)
  | response msg => response ⟨msg.header, msg.nlas.map (Nla.enrich P.order)⟩
  | done => done

def Client.enrich (c : Client N false) : Client N true where
  receiveBuffer := c.receiveBuffer
  offset := c.offset
  phase := c.phase
  lines := c.lines.map Line.enrich

def System.enrich (s : System N false) : System N true := ⟨s.sent, s.inFlight, s.client.enrich⟩

/-- No message that was read had less. -/
def AllEnough (lines : List (Line N false)) : Prop :=
  ∀ p, .received p ∈ lines → p.payload.All SockDiagMessage.Enough

theorem stops_enriched (p : N.Message (SockDiagMessage false)) : stops (enriched p) = stops p := by
  obtain ⟨header, payload⟩ := p
  cases payload with
  | innerMessage msg => cases msg <;> rfl
  | _ => rfl

theorem exitOf_enriched (p : N.Message (SockDiagMessage false)) :
    exitOf (enriched p) = exitOf p := by
  obtain ⟨header, payload⟩ := p
  cases payload <;> rfl

theorem linesOf_enriched (p : N.Message (SockDiagMessage false)) :
    linesOf (enriched p) = (linesOf p).map Line.enrich := by
  obtain ⟨header, payload⟩ := p
  cases payload with
  | innerMessage msg => cases msg <;> rfl
  | _ => rfl

theorem allEnough_append {lines : List (Line N false)} {p : N.Message (SockDiagMessage false)} :
    AllEnough (lines ++ linesOf p) ↔ AllEnough lines ∧ p.payload.All SockDiagMessage.Enough := by
  refine ⟨?_, ?_⟩
  · intro h
    refine ⟨fun q hq => h q (List.mem_append_left _ hq), ?_⟩
    exact h p (List.mem_append_right _ (received_mem_linesOf.mpr rfl))
  · intro h q hq
    rcases List.mem_append.mp hq with hq | hq
    · exact h.1 q hq
    · rw [received_mem_linesOf.mp hq]
      exact h.2

/-! ## Turns and steps -/

variable {s s' : System N false} {t t' : System N true} {e : Event}

theorem allEnough_of_step (hstep : step s e = some s') (h : AllEnough s'.client.lines) :
    AllEnough s.client.lines := by
  rcases step_cases hstep with ⟨datagram, -, rfl⟩ | ⟨datagram, inFlight, -, -, -, rfl⟩ |
    ⟨-, -, rfl⟩ | ⟨size, -, -, rfl⟩
  · exact h
  · exact h
  · exact h
  · intro p hp
    exact h p ((s.client.turn_keeps size).2.subset hp)

/-- The plain client can do whatever the rich one can. -/
theorem exists_step_of_enrich (h : step s.enrich e = some t) : ∃ s', step s e = some s' := by
  rcases step_cases h with ⟨datagram, rfl, -⟩ | ⟨datagram, inFlight, rfl, hphase, hflight, -⟩ |
    ⟨rfl, hphase, -⟩ | ⟨size, rfl, hphase, -⟩
  · exact ⟨_, rfl⟩
  · exact ⟨_, step_recv hphase hflight⟩
  · exact ⟨_, step_recvErr hphase⟩
  · exact ⟨_, step_turn hphase⟩

/-- The rich client is where the plain one is, or has panicked at a message the plain one printed. -/
structure InStep (t : System N true) (s : System N false) : Prop where
  bounds : InBounds s.client
  agree : (AllEnough s.client.lines ∧ t = s.enrich) ∨
    (¬ AllEnough s.client.lines ∧ t.client.phase = .panicked)

theorem inStep_init : InStep (machine N true).init (machine N false).init :=
  ⟨inBounds_start, .inl ⟨(fun _ h => nomatch h), rfl⟩⟩

variable [P.Lawful] [N.Lawful]

/-- What the rich build reads. -/
theorem read_rich_iff {b : Bytes} {p' : N.Message (SockDiagMessage true)} {n : Nat} :
    (packets N true).read b = some (p', n) ↔
      ∃ p, (packets N false).read b = some (p, n) ∧ p.payload.All SockDiagMessage.Enough ∧
        p' = enriched p := by
  have hde : ∀ (header : NetlinkHeader) (body : Bytes) (y : SockDiagMessage true),
      SockDiagMessage.deserialize P header body = .ok y ↔
        ∃ x : SockDiagMessage false, SockDiagMessage.deserialize P header body = .ok x ∧ x.Enough ∧
          y = x.enrich P.order := fun _ _ _ => SockDiagMessage.parseWithParam_rich_iff
  rw [NetlinkMessages.reader_read_eq_some_iff, NetlinkMessages.deserialize_map_iff hde]
  refine ⟨?_, ?_⟩
  · intro h
    obtain ⟨⟨p, hp, henough, rfl⟩, hn⟩ := h
    exact ⟨p, NetlinkMessages.reader_read_eq_some_iff.mpr ⟨hp, hn⟩, henough, rfl⟩
  · intro h
    obtain ⟨p, hread, henough, rfl⟩ := h
    obtain ⟨hp, hn⟩ := NetlinkMessages.reader_read_eq_some_iff.mp hread
    exact ⟨⟨p, hp, henough, rfl⟩, hn⟩

/-- A turn of the rich client: that of the plain one, or a panic. -/
theorem Client.turn_enrich (c : Client N false) (size : Nat) (hoffset : c.offset ≤ 4096)
    (hlines : AllEnough c.lines) :
    (AllEnough (c.turn size).lines ∧ c.enrich.turn size = (c.turn size).enrich) ∨
      (¬ AllEnough (c.turn size).lines ∧ (c.enrich.turn size).phase = .panicked) := by
  rcases c.turn_cases size hoffset with ⟨hnone, hturn⟩ | ⟨p, n, hread, hturn⟩
  · -- What the plain build cannot read the rich build cannot either.
    rw [hturn]
    rcases c.enrich.turn_cases size hoffset with ⟨-, hturn'⟩ | ⟨p', n, hread', -⟩
    · exact .inl ⟨hlines, hturn'⟩
    · obtain ⟨p, hread, -⟩ := read_rich_iff.mp hread'
      exact absurd (hnone.symm.trans hread) (by simp)
  · have hall : AllEnough (c.turn size).lines ↔ p.payload.All SockDiagMessage.Enough := by
      rw [c.lines_turn_of_read hoffset hread, allEnough_append, and_iff_right hlines]
    rw [hall]
    by_cases henough : p.payload.All SockDiagMessage.Enough
    · have hread' := read_rich_iff.mpr ⟨p, hread, henough, rfl⟩
      refine .inl ⟨henough, ?_⟩
      rw [c.enrich.turn_of_read hoffset hread', hturn, stops_enriched, exitOf_enriched,
        linesOf_enriched, Client.enrich]
      simp only [← List.map_append]
      split
      · rfl
      split
      · rfl
      · rfl
    · refine .inr ⟨henough, ?_⟩
      rcases c.enrich.turn_cases size hoffset with ⟨-, hturn'⟩ | ⟨p', n', hread', -⟩
      · rw [hturn']
      · obtain ⟨q, hq, hqenough, -⟩ := read_rich_iff.mp hread'
        obtain ⟨rfl, -⟩ := Prod.mk.inj (Option.some.inj (hread.symm.trans hq))
        exact absurd hqenough henough

theorem step_enrich (hs : InBounds s.client) (hlines : AllEnough s.client.lines)
    (hstep : step s e = some s') :
    (AllEnough s'.client.lines ∧ step s.enrich e = some s'.enrich) ∨
      (¬ AllEnough s'.client.lines ∧
        ∃ t, step s.enrich e = some t ∧ t.client.phase = .panicked) := by
  rcases step_cases hstep with ⟨datagram, rfl, rfl⟩ | ⟨datagram, inFlight, rfl, hphase, hflight, rfl⟩ |
    ⟨rfl, hphase, rfl⟩ | ⟨size, rfl, hphase, rfl⟩
  · exact .inl ⟨hlines, rfl⟩
  · refine .inl ⟨hlines, ?_⟩
    exact step_recv (s := s.enrich) hphase hflight
  · refine .inl ⟨hlines, ?_⟩
    exact step_recvErr (s := s.enrich) hphase
  · have hturn : step s.enrich .turn = some { s.enrich with client := s.client.enrich.turn size } :=
      step_turn hphase
    rcases s.client.turn_enrich size hs.offset hlines with ⟨hall, heq⟩ | ⟨hnot, hpanicked⟩
    · refine .inl ⟨hall, ?_⟩
      rw [hturn, heq]
      rfl
    · exact .inr ⟨hnot, _, hturn, hpanicked⟩

/-- What the plain client does the rich one does too, if it is not to panic. -/
theorem InStep.step_plain (h : InStep t s) (hall : AllEnough s'.client.lines)
    (hstep : step s e = some s') : ∃ t', step t e = some t' ∧ InStep t' s' := by
  have hbefore := allEnough_of_step hstep hall
  rcases h.agree with ⟨-, rfl⟩ | ⟨hnot, -⟩
  · rcases step_enrich h.bounds hbefore hstep with ⟨-, hrich⟩ | ⟨hnot, -⟩
    · exact ⟨s'.enrich, hrich, h.bounds.step hstep, .inl ⟨hall, rfl⟩⟩
    · exact absurd hall hnot
  · exact absurd hbefore hnot

/-- What the rich client does the plain one does too. -/
theorem InStep.step_rich (h : InStep t s) (hstep : step t e = some t') :
    ∃ s', step s e = some s' ∧ InStep t' s' := by
  rcases h.agree with ⟨hall, rfl⟩ | ⟨hnot, hpanicked⟩
  · obtain ⟨s', hs'⟩ := exists_step_of_enrich hstep
    refine ⟨s', hs', h.bounds.step hs', ?_⟩
    rcases step_enrich h.bounds hall hs' with ⟨hall', hrich⟩ | ⟨hnot', t₀, hrich, hpanicked⟩
    · exact .inl ⟨hall', Option.some.inj (hstep.symm.trans hrich)⟩
    · obtain rfl := Option.some.inj (hstep.symm.trans hrich)
      exact .inr ⟨hnot', hpanicked⟩
  · -- When it has panicked there is only the kernel to do something.
    rcases step_cases hstep with ⟨datagram, rfl, rfl⟩ | ⟨_, _, -, hphase, -, -⟩ |
      ⟨-, hphase, -⟩ | ⟨_, -, hphase, -⟩
    · exact ⟨_, rfl, h.bounds, .inr ⟨hnot, hpanicked⟩⟩
    · exact absurd (hpanicked.symm.trans hphase) (by simp)
    · exact absurd (hpanicked.symm.trans hphase) (by simp)
    · exact absurd (hpanicked.symm.trans hphase) (by simp)

end Enrich

/-- **The two builds of the client do the same on the same events**, up to the first message with too
    short an `INET_DIAG_INFO`: the rich client can do all the plain one does as long as there was no
    such message; and all it does the plain one can do, and is then the same with its messages
    enriched, or the plain one has printed such a message and the rich one has panicked. -/
theorem builds_agree (P : Platform) [P.Lawful] (N : NetlinkMessages P) [N.Lawful]
    (es : List Event) :
    (∀ s, (machine N false).run es = some s → AllEnough s.client.lines →
      (machine N true).run es = some s.enrich) ∧
    ∀ t, (machine N true).run es = some t → ∃ s, (machine N false).run es = some s ∧
      ((AllEnough s.client.lines ∧ t = s.enrich) ∨
        (¬ AllEnough s.client.lines ∧ t.client.phase = .panicked)) := by
  refine ⟨?_, ?_⟩
  · intro s hrun hall
    have hstep : ∀ s e s' t, InStep t s → AllEnough s'.client.lines →
        (machine N false).step s e = some s' →
        ∃ t', (machine N true).step t e = some t' ∧ InStep t' s' := by
      intro s e s' t h hall hstep
      exact h.step_plain hall hstep
    obtain ⟨t, ht, h⟩ := Machine.runFrom_lockStep (fun _ _ _ => allEnough_of_step) hstep inStep_init
      hrun hall
    rcases h.agree with ⟨-, rfl⟩ | ⟨hnot, -⟩
    · exact ht
    · exact absurd hall hnot
  · intro t hrun
    have hstep : ∀ t e t' s, InStep t s → True → (machine N true).step t e = some t' →
        ∃ s', (machine N false).step s e = some s' ∧ InStep t' s' := by
      intro t e t' s h _ hstep
      exact h.step_rich hstep
    obtain ⟨s, hs, h⟩ := Machine.runFrom_lockStep (fun _ _ _ _ h => h) hstep inStep_init hrun trivial
    exact ⟨s, hs, h.agree⟩

/-- A response with four bytes of a `struct tcp_info`, and its bytes. -/
def shortInfo : (NetlinkMessages.reference .little).Message (SockDiagMessage false) :=
  ⟨⟨⟨sockDiagByFamily⟩, 96, 2, 0, 0⟩,
    .innerMessage (.inetResponse
      ⟨⟨afInet, 0, none, .newV4, 0, 0, 0, 0⟩, [.tcpInfo ([1, 2, 3, 4] : Bytes)]⟩)⟩

def shortInfoBytes : Bytes :=
  [96, 0, 0, 0, 20, 0, 2, 0] ++ List.replicate 8 0 ++ afInet :: List.replicate 71 0 ++
    [8, 0, 2, 0, 1, 2, 3, 4]

/-- The plain client prints it and goes on, and the rich client panics. -/
theorem shortInfo_disagree :
    ∃ s t,
      (machine (.reference .little) false).run [.send shortInfoBytes, .recv, .turn] = some s ∧
      (machine (.reference .little) true).run [.send shortInfoBytes, .recv, .turn] = some t ∧
      .received shortInfo ∈ s.client.lines ∧ s.client.phase = .receiving ∧
      t.client.phase = .panicked := by
  obtain ⟨c, hs, -, hlines, hphase⟩ := run_first (P := .reference .little) (N := .reference .little)
    (p := shortInfo) (show (packets _ _).read shortInfoBytes = some (shortInfo, 96) from rfl)
    (by decide)
  have hprinted : .received shortInfo ∈ c.lines := hlines ▸ received_mem_linesOf.mpr rfl
  obtain ⟨t, ht⟩ : ∃ t, (machine (.reference .little) true).run
      [.send shortInfoBytes, .recv, .turn] = some t := ⟨_, rfl⟩
  obtain ⟨s', hs', hagree⟩ := (builds_agree (.reference .little) (.reference .little) _).2 t ht
  obtain rfl := Option.some.inj (hs.symm.trans hs')
  rcases hagree with ⟨hall, -⟩ | ⟨-, hpanicked⟩
  · have henough : 232 ≤ ([1, 2, 3, 4] : Bytes).length :=
      hall shortInfo hprinted _ (List.mem_singleton.mpr rfl)
    exact absurd henough (by decide)
  · exact ⟨_, t, hs, ht, hprinted, hphase rfl, hpanicked⟩

end Dump

end SockDiag
