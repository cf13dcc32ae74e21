import SockDiag.Netlink
import SockDiag.Platform.Reference

/-!
# Netlink messages that satisfy the laws

What `netlink-packet-core` documents of its messages and `netlink-sys` of its sockets, on the
platform `Platform.reference o`. An error has a code of four bytes at least. A message that ends a
dump has such a code or nothing in it at all, which is taken as the code zero. What `recv` does not
write of a buffer stays as it was.

Nothing is proved from these definitions but that they satisfy the laws: the results about programs
assume `NetlinkMessages.Lawful`, and are evaluated here. `payload_eq_ok_iff` is where the `match` on
the type of a message is compared with `Holds`, arm by arm.
-/

set_option autoImplicit false

namespace SockDiag

open Rust

namespace NetlinkMessages

namespace Reference

/-- A code of four bytes, and whatever comes behind it. -/
def parseCode (name : String) (body : Bytes) : Outcome String Bytes :=
  if 4 ≤ body.length then .ok body else .err s!"invalid {name}"

def parseError : Bytes → Outcome String Bytes := parseCode "NLMSG_ERROR"

/-- Some of the kernel's messages that end a dump have no code. -/
def parseDone (body : Bytes) : Outcome String Bytes :=
  if body = [] then .ok [] else parseCode "NLMSG_DONE" body

/-- As much of the datagram as there is room for, and behind it what was there before. -/
def recv {n : Nat} (buf : { buf : Bytes // buf.length = n }) (datagram : Bytes) :
    { buf : Bytes // buf.length = n } × Nat :=
  (⟨datagram.take n ++ buf.1.drop datagram.length, by
    rw [List.length_append, List.length_take, List.length_drop, buf.2]
    omega⟩, min datagram.length n)

section Code

variable {I : Type}

/-- The `match` on the type of a message. -/
def payload (de : NetlinkHeader → Bytes → Outcome String I) (header : NetlinkHeader)
    (body : Bytes) : Outcome String (NetlinkPayload Bytes Bytes I) :=
  if header.messageType = nlmsgNoop then .ok .noop
  else if header.messageType = nlmsgError then .error <$> parseError body
  else if header.messageType = nlmsgDone then .done <$> parseDone body
  else if header.messageType = nlmsgOverrun then .ok (.overrun body)
  else .innerMessage <$> de header body

def deserialize (o : ByteOrder) (de : NetlinkHeader → Bytes → Outcome String I) (b : Bytes) :
    Outcome String (NetlinkMessage Bytes Bytes I) :=
  let header := (WholeHeader.layout o).ofBytes (b.take 16)
  if 16 ≤ b.length ∧ 16 ≤ header.length.toNat ∧ header.length.toNat ≤ b.length then do
    let payload ← payload de header.toNetlinkHeader (slice b 16 header.length.toNat)
    .ok ⟨header, payload⟩
  else .err "invalid netlink buffer"

def payloadType (S : NetlinkSerializable I) : NetlinkPayload Bytes Bytes I → UInt16
  | .done _ => nlmsgDone
  | .error _ => nlmsgError
  | .noop => nlmsgNoop
  | .overrun _ => nlmsgOverrun
  | .innerMessage msg => S.messageType msg

def bufferLen (S : NetlinkSerializable I) (m : NetlinkMessage Bytes Bytes I) : Nat :=
  16 + match m.payload with
    | .done msg => msg.length
    | .error msg => msg.length
    | .noop => 0
    | .overrun bytes => bytes.length
    | .innerMessage msg => S.bufferLen msg

def serialize (o : ByteOrder) (S : NetlinkSerializable I) (m : NetlinkMessage Bytes Bytes I) :
    Writer Empty :=
  .onPrefix 16 (.copyFromSlice ((WholeHeader.layout o).toBytes m.header)) >>
    .onSuffix 16 (match m.payload with
      | .done msg => .copyFromSlice msg
      | .error msg => .copyFromSlice msg
      | .noop => .skip
      | .overrun bytes => .copyFromSlice bytes
      | .innerMessage msg => S.serialize msg)

end Code

end Reference

def reference (o : ByteOrder) : NetlinkMessages (.reference o) where
  DoneMessage := Bytes
  ErrorMessage := Bytes
  recv := Reference.recv
  parseDone := Reference.parseDone
  parseError := Reference.parseError
  deserialize := Reference.deserialize o
  finalize S m :=
    { m with
      header :=
        { m.header with
          messageType := Reference.payloadType S m.payload
          length := UInt32.ofNat (Reference.bufferLen S m) } }
  bufferLen := Reference.bufferLen
  serialize := Reference.serialize o

namespace Reference

variable {o : ByteOrder} {I : Type} {de : NetlinkHeader → Bytes → Outcome String I}

theorem parseCode_returns (name : String) (body : Bytes) : (parseCode name body).Returns := by
  unfold parseCode
  split
  · exact Outcome.returns_ok _
  · exact Outcome.returns_err _

theorem parseDone_returns (body : Bytes) : (parseDone body).Returns := by
  unfold parseDone
  split
  · exact Outcome.returns_ok _
  · exact parseCode_returns _ _

theorem take_recv {n : Nat} (buf : { buf : Bytes // buf.length = n }) (datagram : Bytes) :
    (recv buf datagram).1.1.take (min datagram.length n) = datagram.take n := by
  have hlen : (datagram.take n).length = min datagram.length n := by
    rw [List.length_take, Nat.min_comm]
  exact List.take_left' hlen

theorem payload_eq_ok_iff {header : NetlinkHeader} {body : Bytes}
    {p : NetlinkPayload Bytes Bytes I} :
    payload de header body = .ok p ↔ (reference o).Holds de header body p := by
  unfold payload
  refine ⟨?_, ?_⟩
  · intro h
    split at h
    · rename_i hnoop
      obtain rfl := Outcome.ok.inj h
      exact hnoop
    · rename_i hnoop
      rcases Outcome.arm_eq_ok h with ⟨herror, msg, hmsg, rfl⟩ | ⟨herror, h⟩
      · exact ⟨herror, hmsg⟩
      rcases Outcome.arm_eq_ok h with ⟨hdone, msg, hmsg, rfl⟩ | ⟨hdone, h⟩
      · exact ⟨hdone, hmsg⟩
      split at h
      · rename_i hoverrun
        obtain rfl := Outcome.ok.inj h
        exact ⟨hoverrun, rfl⟩
      · rename_i hoverrun
        obtain ⟨msg, hmsg, rfl⟩ := Outcome.map_eq_ok.mp h
        exact ⟨by simp [hnoop, herror, hdone, hoverrun], hmsg⟩
  · intro h
    cases p with
    | done msg =>
      obtain ⟨ht, hmsg⟩ := h
      have hmsg' : parseDone body = .ok msg := hmsg
      rw [ht, if_neg (by decide), if_neg (by decide), if_pos rfl, hmsg']
      rfl
    | error msg =>
      obtain ⟨ht, hmsg⟩ := h
      have hmsg' : parseError body = .ok msg := hmsg
      rw [ht, if_neg (by decide), if_pos rfl, hmsg']
      rfl
    | noop => exact if_pos h
    | overrun bytes =>
      obtain ⟨ht, rfl⟩ := h
      rw [ht, if_neg (by decide), if_neg (by decide), if_neg (by decide), if_pos rfl]
    | innerMessage msg =>
      obtain ⟨ht, hmsg⟩ := h
      simp only [List.mem_cons, List.not_mem_nil, or_false, not_or] at ht
      obtain ⟨hnoop, herror, hdone, hoverrun⟩ := ht
      rw [if_neg hnoop, if_neg herror, if_neg hdone, if_neg hoverrun, hmsg]
      rfl

theorem deserialize_eq_ok_iff {b : Bytes} {m : NetlinkMessage Bytes Bytes I} :
    deserialize o de b = .ok m ↔
      16 ≤ b.length ∧ m.header = (WholeHeader.layout o).ofBytes (b.take 16) ∧
        16 ≤ m.header.length.toNat ∧ m.header.length.toNat ≤ b.length ∧
        (reference o).Holds de m.header.toNetlinkHeader (slice b 16 m.header.length.toNat)
          m.payload := by
  unfold deserialize
  dsimp only
  refine ⟨?_, ?_⟩
  · intro h
    split at h
    · rename_i hlen
      obtain ⟨p, hp, hm⟩ := Outcome.bind_eq_ok.mp h
      obtain rfl := Outcome.ok.inj hm
      obtain ⟨h16, hmin, hmax⟩ := hlen
      exact ⟨h16, rfl, hmin, hmax, payload_eq_ok_iff.mp hp⟩
    · exact absurd h (by simp)
  · intro h
    obtain ⟨h16, hheader, hmin, hmax, hp⟩ := h
    simp only [← hheader]
    rw [if_pos ⟨h16, hmin, hmax⟩, payload_eq_ok_iff.mpr hp]
    rfl

theorem deserialize_returns (hde : ∀ header body, (de header body).Returns) (b : Bytes) :
    (deserialize o de b).Returns := by
  unfold deserialize
  dsimp only
  split
  · refine Outcome.Returns.bind ?_ fun _ _ => Outcome.returns_ok _
    unfold payload
    split
    · exact Outcome.returns_ok _
    · refine .arm (parseCode_returns _ _) (.arm (parseDone_returns _) ?_)
      split
      · exact Outcome.returns_ok _
      · exact Outcome.returns_map.mpr (hde _ _)
  · exact Outcome.returns_err _

theorem serialize_inner (S : NetlinkSerializable I) (header : WholeHeader) (msg : I) {buf : Bytes}
    (hbuf : buf.length = 16 + S.bufferLen msg) :
    (serialize o S ⟨header, .innerMessage msg⟩).run buf =
      (S.serialize msg).run (buf.drop 16) >>= fun body =>
        .ok ((WholeHeader.layout o).toBytes header ++ body) := by
  have h16 : ((WholeHeader.layout o).toBytes header).length = 16 := Packed.length_toBytes _ _
  have hle : 16 ≤ buf.length := by omega
  have hhead :=
    (Writer.fills_copyFromSlice (ε := Empty) ((WholeHeader.layout o).toBytes header)).onPrefix
      buf (by rw [h16]; exact hle)
  rw [h16] at hhead
  show (Writer.onPrefix 16 _ >> Writer.onSuffix 16 (S.serialize msg)).run buf = _
  rw [Writer.run_andThen, hhead, Outcome.ok_bind,
    Writer.run_onSuffix _ (by rw [List.length_append, h16]; exact Nat.le_add_right _ _),
    List.drop_left' h16, List.take_left' h16]

end Reference

instance (o : ByteOrder) : (reference o).Lawful where
  recv_size _ _ := rfl
  recv_front := Reference.take_recv
  deserialize_ok_iff _ _ _ := Reference.deserialize_eq_ok_iff
  deserialize_returns _ hde b := Reference.deserialize_returns hde b
  finalize_inner _ _ _ := rfl
  bufferLen_inner _ _ _ := rfl
  serialize_inner S header msg _ hbuf _ := Reference.serialize_inner S header msg hbuf

end NetlinkMessages

end SockDiag
