import SockDiag.Accessors

/-!
# The kernel's memory counters, decoded twice

`UNIX_DIAG_MEMINFO` and `INET_DIAG_SKMEMINFO` are the same nine words. Inet keeps all nine, unix
three of them: the two limits, which are where inet has them, and `alloc`, the memory of data in
flight. That is `sk_wmem_alloc`, the third word, which inet calls `bottomSendQueues`; but the field
of that place is named after `sk_wmem_queued` and dropped, and `alloc` is read from the sixth word,
where inet has `sk_wmem_queued`. The two are equal only by accident (`memInfos_agree_iff`).
-/

set_option autoImplicit false

namespace SockDiag

open Rust Tlv

section Decoders

variable {P : Platform} [P.Lawful] {p : Bytes}

theorem Unix.MemInfo.parse_eq_ok_iff {u : Unix.MemInfo} :
    Unix.MemInfo.parse P p = .ok u ↔
      36 ≤ p.length ∧ ⟨Packed.wordAt P.order p 4, Packed.wordAt P.order p 12,
        Packed.wordAt P.order p 20⟩ = u := by
  rw [← Unix.MemInfo.ofRaw_ofBytes]
  exact P.readPrefix_map_eq_ok_iff

theorem Inet.MemInfo.parse_eq_ok_iff {i : Inet.MemInfo} :
    Inet.MemInfo.parse P p = .ok i ↔
      36 ≤ p.length ∧
        Inet.MemInfo.ofRaw ((Inet.MemInfoBuffer.layout P.order).ofBytes (p.take 36)) = i :=
  P.readPrefix_map_eq_ok_iff

end Decoders

/-- The two decoders read the same counters off the same bytes. -/
structure MemInfosAgree (P : Platform) (p : Bytes) : Prop where
  accepts : (∃ u, Unix.MemInfo.parse P p = .ok u) ↔ ∃ i, Inet.MemInfo.parse P p = .ok i
  counters : ∀ u i, Unix.MemInfo.parse P p = .ok u → Inet.MemInfo.parse P p = .ok i →
    u.soRcvbuf = i.receiveQueueMax ∧ u.maxDatagramSize = i.sendQueueMax ∧
      u.alloc = i.bottomSendQueues

/-- What is written of a unix socket is read as three counters of an inet socket and no other. -/
def OnlyUnixCounters (P : Platform) (m : Unix.MemInfo) : Prop :=
  ∀ buf : Bytes, buf.length = 36 → ∃ out i, (m.emit P).run buf = .ok out ∧
    Inet.MemInfo.parse P out = .ok i ∧ i.receiveQueue = 0 ∧ i.sendQueue = 0 ∧ i.cache = 0 ∧
      i.options = 0 ∧ i.backlogQueueLength = 0 ∧ i.drops = 0

/-- The third and the sixth word of the counters, which are what the two decoders disagree on. -/
def SameAlloc (p : Bytes) : Prop := slice p 8 12 = slice p 20 24

section Agree

variable {P : Platform} [P.Lawful]

theorem sameAlloc_iff {o : ByteOrder} {p : Bytes} (h : 36 ≤ p.length) :
    SameAlloc p ↔ Packed.wordAt o p 20 = Packed.wordAt o p 8 := by
  rw [eq_comm, Packed.wordAt_eq_wordAt_iff (by omega) (by omega)]
  rfl

/-- **The decoders agree on a payload when its third and sixth word do.** -/
theorem memInfosAgree_iff {p : Bytes} : MemInfosAgree P p ↔ (36 ≤ p.length → SameAlloc p) := by
  refine ⟨?_, ?_⟩
  · intro hagree hlen
    have hcounters := hagree.counters _ _ (Unix.MemInfo.parse_eq_ok_iff.mpr ⟨hlen, rfl⟩)
      (Inet.MemInfo.parse_eq_ok_iff.mpr ⟨hlen, rfl⟩)
    obtain ⟨-, -, halloc⟩ := hcounters
    rw [Inet.MemInfo.ofRaw_ofBytes] at halloc
    exact (sameAlloc_iff hlen).mpr halloc
  · intro hsame
    refine ⟨⟨?_, ?_⟩, ?_⟩
    · intro hu
      obtain ⟨u, hu⟩ := hu
      obtain ⟨hlen, -⟩ := Unix.MemInfo.parse_eq_ok_iff.mp hu
      exact ⟨_, Inet.MemInfo.parse_eq_ok_iff.mpr ⟨hlen, rfl⟩⟩
    · intro hi
      obtain ⟨i, hi⟩ := hi
      obtain ⟨hlen, -⟩ := Inet.MemInfo.parse_eq_ok_iff.mp hi
      exact ⟨_, Unix.MemInfo.parse_eq_ok_iff.mpr ⟨hlen, rfl⟩⟩
    · intro u i hu hi
      obtain ⟨hlen, rfl⟩ := Unix.MemInfo.parse_eq_ok_iff.mp hu
      obtain ⟨-, rfl⟩ := Inet.MemInfo.parse_eq_ok_iff.mp hi
      rw [Inet.MemInfo.ofRaw_ofBytes]
      exact ⟨rfl, rfl, (sameAlloc_iff hlen).mp (hsame hlen)⟩

/-- Written as nine words, `alloc` is the sixth. -/
theorem onlyUnixCounters_iff {m : Unix.MemInfo} : OnlyUnixCounters P m ↔ m.alloc = 0 := by
  let raw : Inet.MemInfoBuffer := ⟨0, m.soRcvbuf, 0, m.maxDatagramSize, 0, m.alloc, 0, 0, 0⟩
  -- The two structs are the same words under other names.
  have hbytes : (Unix.MemInfoBuffer.layout P.order).toBytes (.fromMemInfo m) =
      (Inet.MemInfoBuffer.layout P.order).toBytes raw := rfl
  have hlen : ((Inet.MemInfoBuffer.layout P.order).toBytes raw).length = 36 :=
    Packed.length_toBytes _ _
  have hrun : ∀ buf : Bytes, buf.length = 36 →
      (m.emit P).run buf = .ok ((Inet.MemInfoBuffer.layout P.order).toBytes raw) := by
    intro buf hbuf
    unfold Unix.MemInfo.emit
    rw [P.toList_asBytes, hbytes]
    exact Writer.fills_copyFromSlice _ buf (hbuf.trans hlen.symm)
  have hparse : Inet.MemInfo.parse P ((Inet.MemInfoBuffer.layout P.order).toBytes raw) =
      .ok (.ofRaw raw) := by
    refine Inet.MemInfo.parse_eq_ok_iff.mpr ⟨Nat.le_of_eq hlen.symm, ?_⟩
    rw [List.take_of_length_le (Nat.le_of_eq hlen), Packed.ofBytes_toBytes]
  refine ⟨?_, ?_⟩
  · intro h
    obtain ⟨out, i, hout, hi, -, hqueue, -⟩ := h (List.replicate 36 0) List.length_replicate
    rw [hrun _ List.length_replicate] at hout
    obtain rfl := Outcome.ok.inj hout
    rw [hparse] at hi
    obtain rfl := Outcome.ok.inj hi
    exact hqueue
  · intro h buf hbuf
    exact ⟨_, _, hrun buf hbuf, hparse, rfl, h, rfl, rfl, rfl, rfl⟩

end Agree

/-- A counters attribute that was accepted has all nine words. -/
theorem le_length_of_firstOf {o : ByteOrder} {as : List Attr} {xs : List Unix.Nla} {a : Attr}
    (h : List.Forall₂ (Unix.Nla.codec o).Reads as xs) (ha : firstOf unixDiagMeminfo as = some a) :
    36 ≤ a.payload.length := by
  obtain ⟨z, -, hz⟩ := Codec.exists_of_mem_left h (mem_of_firstOf ha)
  have hvalid := Unix.Nla.validPayload_of_reads hz
  rw [nlaType_of_firstOf ha] at hvalid
  exact hvalid

/-- What is said of the first counters is their third word exactly when it is also the sixth. -/
theorem memoryUsed_iff {P : Platform} [P.Lawful] {b : Bytes} {as : List Attr}
    {r : Unix.UnixResponse} (h : Unix.UnixResponse.parse P b = .ok r)
    (has : Area P.order as (b.drop 16)) :
    (r.memoryUsedForOutgoingData =
      (firstOf unixDiagMeminfo as).map fun a => Packed.wordAt P.order a.payload 8) ↔
      ∀ a, firstOf unixDiagMeminfo as = some a → SameAlloc a.payload := by
  obtain ⟨-, -, as', has', hreads⟩ := (Unix.UnixResponse.implements P).parse_eq_ok_iff.mp h
  obtain rfl := has'.unique has
  rw [(reports_of_reads hreads).memoryUsedForOutgoingData]
  cases hfirst : firstOf unixDiagMeminfo as' with
  | none => exact iff_of_true rfl (by simp)
  | some a =>
    have hiff := sameAlloc_iff (o := P.order) (le_length_of_firstOf hreads hfirst)
    simp only [Option.map_some, Option.some.injEq, forall_eq', hiff]

/-- **When the two decoders of the counters agree**: on a payload, and on what a response says of its
    first one, exactly when the third word and the sixth are the same; and on what is written of a
    unix socket, where the third is zero, exactly when `alloc` is. -/
theorem memInfos_agree_iff (P : Platform) [P.Lawful] :
    (∀ p, MemInfosAgree P p ↔ (36 ≤ p.length → SameAlloc p)) ∧
    (∀ b r as, Unix.UnixResponse.parse P b = .ok r → Area P.order as (b.drop 16) →
      (r.memoryUsedForOutgoingData =
        ((firstOf unixDiagMeminfo as).map fun a => Packed.wordAt P.order a.payload 8) ↔
        ∀ a, firstOf unixDiagMeminfo as = some a → SameAlloc a.payload)) ∧
    ∀ m : Unix.MemInfo, OnlyUnixCounters P m ↔ m.alloc = 0 := by
  refine ⟨?_, ?_, ?_⟩
  · exact fun _ => memInfosAgree_iff
  · exact fun _ _ _ h has => memoryUsed_iff h has
  · exact fun _ => onlyUnixCounters_iff

/-- The counters of a socket with `alloc` bytes in flight, `queued` of them not passed down. -/
def counters (alloc queued : UInt8) : Bytes :=
  List.replicate 8 0 ++ [alloc, 0, 0, 0] ++ List.replicate 8 0 ++ [queued, 0, 0, 0] ++
    List.replicate 12 0

def countersMessage (alloc queued : UInt8) : Bytes :=
  peerMessage.take 16 ++ [40, 0, 5, 0] ++ counters alloc queued

/-- With seven bytes in flight and none of them passed down, both have seven. -/
theorem memInfos_agree_queued :
    MemInfosAgree (.reference .little) (counters 7 7) ∧
      ∃ r, Unix.UnixResponse.parse (.reference .little) (countersMessage 7 7) = .ok r ∧
        r.memoryUsedForOutgoingData = some 7 := by
  obtain ⟨hpayload, hresponse, -⟩ := memInfos_agree_iff (.reference .little)
  let r : Unix.UnixResponse :=
    ⟨⟨1, 1, 20238, #v[160, 105, 0, 0, 0, 0, 0, 0]⟩, [.memInfo ⟨0, 0, 7⟩]⟩
  have hr : Unix.UnixResponse.parse (.reference .little) (countersMessage 7 7) = .ok r := rfl
  have harea : Area .little [⟨unixDiagMeminfo, counters 7 7⟩] ((countersMessage 7 7).drop 16) :=
    split_eq_some_iff.mp (by decide)
  refine ⟨(hpayload _).mpr fun _ => rfl, r, hr, (hresponse _ r _ hr harea).mpr ?_⟩
  intro a ha
  obtain rfl := Option.some.inj ha
  rfl

/-- With seven bytes in flight, all of them passed down, unix has none where inet has seven. -/
theorem memInfos_disagree :
    ¬ MemInfosAgree (.reference .little) (counters 7 0) ∧
      ∃ r, Unix.UnixResponse.parse (.reference .little) (countersMessage 7 0) = .ok r ∧
        r.memoryUsedForOutgoingData = some 0 ∧ Packed.wordAt .little (counters 7 0) 8 = 7 := by
  refine ⟨?_, ⟨⟨1, 1, 20238, #v[160, 105, 0, 0, 0, 0, 0, 0]⟩, [.memInfo ⟨0, 0, 0⟩]⟩, rfl, rfl, rfl⟩
  intro hagree
  have hcounters := hagree.counters ⟨0, 0, 0⟩ ⟨0, 0, 0, 0, 7, 0, 0, 0, 0⟩ rfl rfl
  obtain ⟨-, -, halloc⟩ := hcounters
  exact absurd halloc (by decide)

end SockDiag
