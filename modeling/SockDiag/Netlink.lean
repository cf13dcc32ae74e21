import SockDiag.Machine.Frames
import SockDiag.Message

/-!
# Netlink messages

What goes through the socket is not a message of this crate but a netlink message with one in it:
sixteen bytes that say how long the whole is and of what type, and then a payload. That is
`netlink-packet-core` again, the socket itself is `netlink-sys`, and neither is part of the
repository. They are a parameter again: `NetlinkMessages` lists what a program that talks to the
kernel uses of them, and `NetlinkMessages.Lawful` is what is documented.

A netlink message says how long it is, so several of them can be read off the same bytes: that is
`NetlinkMessages.reader`, and with it everything `SockDiag.Machine.Frames` says about frames is said
about netlink messages. What two decoders make of the inner message they make of the whole
(`deserialize_map_iff`); the client of the two builds is compared by that.
-/

set_option autoImplicit false

namespace SockDiag

open Rust

/-! ## The types -/

/-- All of `netlink_packet_core::NetlinkHeader`. -/
structure WholeHeader extends NetlinkHeader where
  length : UInt32
  flags : UInt16
  sequenceNumber : UInt32
  portNumber : UInt32

/-- `NetlinkHeader::default()` -/
def WholeHeader.default : WholeHeader := ⟨⟨0⟩, 0, 0, 0, 0⟩

/-- The sixteen bytes of a header. -/
def WholeHeader.layout (o : ByteOrder) : Packed WholeHeader :=
  Packed.iso
    (.pair (.u32 o) <| .pair (.u16 o) <| .pair (.u16 o) <| .pair (.u32 o) (.u32 o))
    { toFun := fun h => (h.length, h.messageType, h.flags, h.sequenceNumber, h.portNumber)
      invFun := fun (length, messageType, flags, sequenceNumber, portNumber) =>
        ⟨⟨messageType⟩, length, flags, sequenceNumber, portNumber⟩
      left_inv := fun _ => rfl
      right_inv := fun _ => rfl }

@[simp] theorem WholeHeader.size_layout (o : ByteOrder) : (WholeHeader.layout o).size = 16 := rfl

def nlmsgNoop : UInt16 := 1
def nlmsgError : UInt16 := 2
def nlmsgDone : UInt16 := 3
def nlmsgOverrun : UInt16 := 4

/-- `netlink_packet_core::NetlinkPayload` -/
inductive NetlinkPayload (Done Error I : Type) where
  | done (msg : Done)
  | error (msg : Error)
  | noop
  | overrun (bytes : Bytes)
  | innerMessage (msg : I)

/-- `netlink_packet_core::NetlinkMessage`, `NetlinkMessage::new(header, payload)`. -/
structure NetlinkMessage (Done Error I : Type) where
  header : WholeHeader
  payload : NetlinkPayload Done Error I

/-- A payload with another inner message. -/
def NetlinkPayload.map {Done Error I J : Type} (f : I → J) :
    NetlinkPayload Done Error I → NetlinkPayload Done Error J
  | .done msg => .done msg
  | .error msg => .error msg
  | .noop => .noop
  | .overrun bytes => .overrun bytes
  | .innerMessage msg => .innerMessage (f msg)

/-- What the inner message is asked for, if there is one. -/
def NetlinkPayload.All {Done Error I : Type} (p : I → Prop) : NetlinkPayload Done Error I → Prop
  | .innerMessage msg => p msg
  | _ => True

def NetlinkMessage.map {Done Error I J : Type} (f : I → J) (m : NetlinkMessage Done Error I) :
    NetlinkMessage Done Error J := ⟨m.header, m.payload.map f⟩

/-- The trait `netlink_packet_core::NetlinkSerializable`. -/
structure NetlinkSerializable (I : Type) where
  messageType : I → UInt16
  bufferLen : I → Nat
  serialize : I → Writer Empty

/-- `impl NetlinkSerializable for SockDiagMessage` -/
def SockDiagMessage.serializable (P : Platform) (rich : Bool) :
    NetlinkSerializable (SockDiagMessage rich) where
  messageType := messageType
  bufferLen := bufferLen P
  serialize := serialize P

/-- `impl NetlinkSerializable for SockDiagDestroy` -/
def SockDiagDestroy.serializable (P : Platform) (rich : Bool) :
    NetlinkSerializable (SockDiagDestroy rich) where
  messageType := messageType
  bufferLen := bufferLen P
  serialize := serialize P

/-- `impl From<SockDiagMessage> for NetlinkPayload<SockDiagMessage>` -/
def SockDiagMessage.toPayload {Done Error : Type} {rich : Bool} (message : SockDiagMessage rich) :
    NetlinkPayload Done Error (SockDiagMessage rich) := .innerMessage message

/-- `impl From<SockDiagDestroy> for NetlinkPayload<SockDiagDestroy>` -/
def SockDiagDestroy.toPayload {Done Error : Type} {rich : Bool} (message : SockDiagDestroy rich) :
    NetlinkPayload Done Error (SockDiagDestroy rich) := .innerMessage message

/-! ## The functions -/

/-- What a program uses of `netlink-sys`. -/
structure NetlinkSys where
  /-- `Socket::recv(&mut &mut buf[..], 0)` when the next datagram is there: the buffer it leaves
      behind, and the number in its `Ok`. -/
  recv : {n : Nat} → { buf : Bytes // buf.length = n } → Bytes → { buf : Bytes // buf.length = n } × Nat

/-- What a program uses, besides, of `netlink-packet-core` to talk to the kernel. -/
structure NetlinkMessages (P : Platform) extends NetlinkSys where
  DoneMessage : Type
  ErrorMessage : Type
  parseDone : Bytes → Outcome P.DecodeError DoneMessage
  parseError : Bytes → Outcome P.DecodeError ErrorMessage
  /-- `NetlinkMessage::<I>::deserialize`, the first argument being `I::deserialize` -/
  deserialize : {I : Type} → (NetlinkHeader → Bytes → Outcome P.DecodeError I) → Bytes →
    Outcome P.DecodeError (NetlinkMessage DoneMessage ErrorMessage I)
  /-- `NetlinkMessage::finalize`, with the message it leaves behind -/
  finalize : {I : Type} → NetlinkSerializable I → NetlinkMessage DoneMessage ErrorMessage I →
    NetlinkMessage DoneMessage ErrorMessage I
  bufferLen : {I : Type} → NetlinkSerializable I → NetlinkMessage DoneMessage ErrorMessage I → Nat
  serialize : {I : Type} → NetlinkSerializable I → NetlinkMessage DoneMessage ErrorMessage I →
    Writer Empty

namespace NetlinkMessages

variable {P : Platform} (N : NetlinkMessages P) {I : Type}

/-- A message with `I` in it. -/
abbrev Message (I : Type) : Type := NetlinkMessage N.DoneMessage N.ErrorMessage I

/-- The body under a header is this payload. -/
def Holds (deserialize : NetlinkHeader → Bytes → Outcome P.DecodeError I) (header : NetlinkHeader)
    (body : Bytes) : NetlinkPayload N.DoneMessage N.ErrorMessage I → Prop
  | .done msg => header.messageType = nlmsgDone ∧ N.parseDone body = .ok msg
  | .error msg => header.messageType = nlmsgError ∧ N.parseError body = .ok msg
  | .noop => header.messageType = nlmsgNoop
  | .overrun bytes => header.messageType = nlmsgOverrun ∧ bytes = body
  | .innerMessage msg =>
    header.messageType ∉ [nlmsgNoop, nlmsgError, nlmsgDone, nlmsgOverrun] ∧
      deserialize header body = .ok msg

/-- The documented behaviour of the messages and of the socket. -/
class Lawful (N : NetlinkMessages P) : Prop where
  /-- A datagram there is no room for is cut off, and the rest of it is gone. -/
  recv_size : ∀ {n : Nat} (buf : { buf : Bytes // buf.length = n }) (datagram : Bytes),
    (N.recv buf datagram).2 = min datagram.length n
  /-- The front of the buffer is the datagram; what is behind it is whatever it may be. -/
  recv_front : ∀ {n : Nat} (buf : { buf : Bytes // buf.length = n }) (datagram : Bytes),
    (N.recv buf datagram).1.1.take (min datagram.length n) = datagram.take n
  /-- The length field is at least the header's own and at most what there is; the body ends where it
      says, and is of the type the header says. -/
  deserialize_ok_iff : ∀ {I : Type} (de : NetlinkHeader → Bytes → Outcome P.DecodeError I) (b : Bytes)
    (m : N.Message I), N.deserialize de b = .ok m ↔
      16 ≤ b.length ∧ m.header = (WholeHeader.layout P.order).ofBytes (b.take 16) ∧
        16 ≤ m.header.length.toNat ∧ m.header.length.toNat ≤ b.length ∧
        N.Holds de m.header.toNetlinkHeader (slice b 16 m.header.length.toNat) m.payload
  deserialize_returns : ∀ {I : Type} (de : NetlinkHeader → Bytes → Outcome P.DecodeError I),
    (∀ header body, (de header body).Returns) → ∀ b, (N.deserialize de b).Returns
  /-- The length is that of the whole, cast to `u32`. -/
  finalize_inner : ∀ {I : Type} (S : NetlinkSerializable I) (header : WholeHeader) (msg : I),
    N.finalize S ⟨header, .innerMessage msg⟩ =
      ⟨{ header with
          messageType := S.messageType msg
          length := UInt32.ofNat (16 + S.bufferLen msg) }, .innerMessage msg⟩
  bufferLen_inner : ∀ {I : Type} (S : NetlinkSerializable I) (header : WholeHeader) (msg : I),
    N.bufferLen S ⟨header, .innerMessage msg⟩ = 16 + S.bufferLen msg
  /-- The header is written, and `serialize` is lent the slice after it. -/
  serialize_inner : ∀ {I : Type} (S : NetlinkSerializable I) (header : WholeHeader) (msg : I)
    (buf : Bytes), buf.length = 16 + S.bufferLen msg → header.length.toNat = buf.length →
      (N.serialize S ⟨header, .innerMessage msg⟩).run buf =
        (S.serialize msg).run (buf.drop 16) >>= fun body =>
          .ok ((WholeHeader.layout P.order).toBytes header ++ body)

/-! ## One message behind the other -/

section Reader

variable {N} {de : NetlinkHeader → Bytes → Outcome P.DecodeError I} {b : Bytes} {m : N.Message I}

/-- Reads a message and its length. -/
def read (de : NetlinkHeader → Bytes → Outcome P.DecodeError I) (b : Bytes) :
    Option (N.Message I × Nat) :=
  match N.deserialize de b with
  | .ok m => some (m, m.header.length.toNat)
  | _ => none

theorem read_eq_some_iff {n : Nat} :
    read de b = some (m, n) ↔ N.deserialize de b = .ok m ∧ n = m.header.length.toNat := by
  unfold read
  split
  · rename_i m' hm
    rw [hm, Option.some.injEq, Prod.mk.injEq, Outcome.ok.injEq]
    refine and_congr_right fun h => ?_
    rw [h]
    exact eq_comm
  · rename_i hnot
    refine iff_of_false (by simp) ?_
    intro h
    exact hnot m h.1

variable [N.Lawful]

/-- What comes behind a message is not looked at. -/
theorem deserialize_take_append (h : N.deserialize de b = .ok m) (c : Bytes) :
    N.deserialize de (b.take m.header.length.toNat ++ c) = .ok m := by
  obtain ⟨h16, hheader, hmin, hmax, hholds⟩ := (Lawful.deserialize_ok_iff de b m).mp h
  have hlen : (b.take m.header.length.toNat).length = m.header.length.toNat :=
    List.length_take_of_le hmax
  refine (Lawful.deserialize_ok_iff de _ m).mpr ⟨?_, ?_, hmin, ?_, ?_⟩
  · rw [List.length_append, hlen]
    omega
  · rw [List.take_append_of_le_length (by omega), List.take_take, Nat.min_eq_left hmin]
    exact hheader
  · rw [List.length_append, hlen]
    exact Nat.le_add_right _ _
  · unfold slice at hholds ⊢
    rw [List.take_left' hlen]
    exact hholds

/-- **Netlink messages say how long they are.** -/
def reader (N : NetlinkMessages P) [N.Lawful]
    (de : NetlinkHeader → Bytes → Outcome P.DecodeError I) : FrameReader (N.Message I) where
  read := read de
  pos := by
    intro b m n h
    obtain ⟨hm, rfl⟩ := read_eq_some_iff.mp h
    obtain ⟨-, -, hmin, -⟩ := (Lawful.deserialize_ok_iff de b m).mp hm
    exact Nat.lt_of_lt_of_le (by decide) hmin
  le_length := by
    intro b m n h
    obtain ⟨hm, rfl⟩ := read_eq_some_iff.mp h
    obtain ⟨-, -, -, hmax, -⟩ := (Lawful.deserialize_ok_iff de b m).mp hm
    exact hmax
  own := by
    intro b m n h c
    obtain ⟨hm, rfl⟩ := read_eq_some_iff.mp h
    exact read_eq_some_iff.mpr ⟨deserialize_take_append hm c, rfl⟩

theorem reader_read_eq_some_iff {n : Nat} :
    (N.reader de).read b = some (m, n) ↔ N.deserialize de b = .ok m ∧ n = m.header.length.toNat :=
  read_eq_some_iff

/-- A message takes its header at least. -/
theorem le_of_read {n : Nat} (h : (N.reader de).read b = some (m, n)) : 16 ≤ n := by
  obtain ⟨hm, rfl⟩ := reader_read_eq_some_iff.mp h
  obtain ⟨-, -, hmin, -⟩ := (Lawful.deserialize_ok_iff de b m).mp hm
  exact hmin

end Reader

/-! ## One decoder on top of another -/

section Map

variable {N} {J : Type} {de : NetlinkHeader → Bytes → Outcome P.DecodeError I}
  {de' : NetlinkHeader → Bytes → Outcome P.DecodeError J} {f : I → J} {p : I → Prop} {b : Bytes}

theorem holds_map_iff {header : NetlinkHeader} {body : Bytes}
    {payload : NetlinkPayload N.DoneMessage N.ErrorMessage J}
    (hde : ∀ y, de' header body = .ok y ↔ ∃ x, de header body = .ok x ∧ p x ∧ y = f x) :
    N.Holds de' header body payload ↔
      ∃ plain, N.Holds de header body plain ∧ plain.All p ∧ payload = plain.map f := by
  refine ⟨?_, ?_⟩
  · intro h
    cases payload with
    | innerMessage y =>
      obtain ⟨htype, hy⟩ := h
      obtain ⟨x, hx, hp, rfl⟩ := (hde y).mp hy
      exact ⟨.innerMessage x, ⟨htype, hx⟩, hp, rfl⟩
    | done msg => exact ⟨.done msg, h, trivial, rfl⟩
    | error msg => exact ⟨.error msg, h, trivial, rfl⟩
    | noop => exact ⟨.noop, h, trivial, rfl⟩
    | overrun bytes => exact ⟨.overrun bytes, h, trivial, rfl⟩
  · intro h
    obtain ⟨plain, h, hp, rfl⟩ := h
    cases plain with
    | innerMessage x =>
      obtain ⟨htype, hx⟩ := h
      exact ⟨htype, (hde _).mpr ⟨x, hx, hp, rfl⟩⟩
    | done | error | noop | overrun => exact h

/-- What one decoder makes of what another decodes, it makes of it in a message. -/
theorem deserialize_map_iff [N.Lawful]
    (hde : ∀ header body y, de' header body = .ok y ↔ ∃ x, de header body = .ok x ∧ p x ∧ y = f x)
    {m' : N.Message J} :
    N.deserialize de' b = .ok m' ↔
      ∃ m : N.Message I, N.deserialize de b = .ok m ∧ m.payload.All p ∧ m' = m.map f := by
  rw [Lawful.deserialize_ok_iff, holds_map_iff (hde _ _)]
  refine ⟨?_, ?_⟩
  · intro h
    obtain ⟨hlen, hheader, hmin, hmax, payload, hholds, hp, hpayload⟩ := h
    refine ⟨⟨m'.header, payload⟩, ?_, hp, ?_⟩
    · exact (Lawful.deserialize_ok_iff de b _).mpr ⟨hlen, hheader, hmin, hmax, hholds⟩
    · rw [NetlinkMessage.map, ← hpayload]
  · intro h
    obtain ⟨m, hm, hp, rfl⟩ := h
    obtain ⟨hlen, hheader, hmin, hmax, hholds⟩ := (Lawful.deserialize_ok_iff de b m).mp hm
    exact ⟨hlen, hheader, hmin, hmax, m.payload, hholds, hp, rfl⟩

end Map

end NetlinkMessages

end SockDiag
