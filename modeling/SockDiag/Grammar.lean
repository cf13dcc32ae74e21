import SockDiag.Message
import SockDiag.Platform.Reference

/-!
# What the decoder accepts

The decoder of messages is a dispatch, two length checks, a walk over attributes and some twenty
rules for payloads. What it accepts is stated here without any of them, as a grammar of byte
strings: a message is a family byte, a header of a fixed length, and an `Area` of attributes each of
which meets the rule of its type. `InetMessage` and `UnixMessage` are that for the two kinds of
response; neither mentions a function of the crate, and neither needs a decoded value to be stated.

`parseWithParam_accepts_iff` is that the decoder accepts these and nothing else, under one message
type, and that it decodes each as the response of its kind. It is where the results about the
decoder end: whoever wants to know whether some bytes are a message looks at the bytes.
-/

set_option autoImplicit false

namespace SockDiag

open Rust Tlv Inet Unix

/-- The bytes after an inet header. -/
def InetArea (o : ByteOrder) (rich : Bool) (b : Bytes) : Prop :=
  ∃ as, Area o as b ∧ ∀ a ∈ as, Inet.Nla.ValidPayload rich (nlaType a.kind) a.payload

/-- The bytes after a unix header. -/
def UnixArea (o : ByteOrder) (b : Bytes) : Prop :=
  ∃ as, Area o as b ∧ ∀ a ∈ as, Unix.Nla.ValidPayload (nlaType a.kind) a.payload

def InetMessage (o : ByteOrder) (rich : Bool) (b : Bytes) : Prop :=
  (b.head? = some afInet ∨ b.head? = some afInet6) ∧ 72 ≤ b.length ∧ InetArea o rich (b.drop 72)

def UnixMessage (o : ByteOrder) (b : Bytes) : Prop :=
  b.head? = some afUnix ∧ 16 ≤ b.length ∧ UnixArea o (b.drop 16)

/-- An area is what attributes can be decoded from. -/
theorem unixArea_iff {o : ByteOrder} {b : Bytes} :
    UnixArea o b ↔ ∃ xs, (Unix.Nla.codec o).Decodes o b xs :=
  (Codec.exists_decodes_iff fun _ => Unix.Nla.exists_reads_iff).symm

section Accepts

variable {P : Platform} [P.Lawful] {rich : Bool} {b : Bytes} {type : UInt16}
  {m : SockDiagMessage rich}

theorem head?_take {n : Nat} (hn : 0 < n) : (b.take n).head? = b.head? := by
  cases b with
  | nil => rw [List.take_nil]
  | cons c b =>
    cases n with
    | zero => exact absurd hn (Nat.lt_irrefl 0)
    | succ n => rfl

/-- What an inet response is decoded from. -/
theorem exists_inet_parse_iff :
    (∃ r : InetResponse rich, InetResponse.parse P b = .ok r) ↔ InetMessage P.order rich b := by
  rw [(InetResponse.implements P).exists_parse_iff InetResponse.mk (fun _ _ => rfl) fun _ _ => rfl,
    Format.exists_decodes_iff (F := InetResponse.format P rich) fun _ => Inet.Nla.exists_reads_iff]
  unfold InetMessage InetArea
  show 72 ≤ b.length ∧ (∃ h, (InetResponse.format P rich).readHeader (b.take 72) = some h) ∧ _ ↔ _
  refine ⟨?_, ?_⟩
  · intro hb
    obtain ⟨hlen, hheader, harea⟩ := hb
    rw [InetResponse.exists_readHeader_iff (by simp [hlen]), head?_take (by decide)] at hheader
    exact ⟨hheader, hlen, harea⟩
  · intro hb
    obtain ⟨hheader, hlen, harea⟩ := hb
    rw [InetResponse.exists_readHeader_iff (by simp [hlen]), head?_take (by decide)]
    exact ⟨hlen, hheader, harea⟩

/-- What a unix response is decoded from: the family is not looked at. -/
theorem exists_unix_parse_iff :
    (∃ r, UnixResponse.parse P b = .ok r) ↔ 16 ≤ b.length ∧ UnixArea P.order (b.drop 16) := by
  rw [(UnixResponse.implements P).exists_parse_iff UnixResponse.mk (fun _ _ => rfl) fun _ _ => rfl,
    Format.exists_decodes_iff (F := UnixResponse.format P.order) fun _ => Unix.Nla.exists_reads_iff]
  unfold UnixArea
  refine ⟨?_, ?_⟩
  · intro hb
    obtain ⟨hlen, -, harea⟩ := hb
    exact ⟨hlen, harea⟩
  · intro hb
    obtain ⟨hlen, harea⟩ := hb
    exact ⟨hlen, ⟨_, rfl⟩, harea⟩

theorem exists_parseWithParam_iff :
    (∃ m : SockDiagMessage rich, SockDiagMessage.parseWithParam P b type = .ok m) ↔
      type = sockDiagByFamily ∧ (InetMessage P.order rich b ∨ UnixMessage P.order b) := by
  simp only [SockDiagMessage.parseWithParam_eq_ok_iff]
  refine ⟨?_, ?_⟩
  · intro h
    obtain ⟨m, ht, ⟨r, -, hhead, hr⟩ | ⟨r, -, hhead, hr⟩⟩ := h
    · exact ⟨ht, .inl (exists_inet_parse_iff.mp ⟨r, hr⟩)⟩
    · exact ⟨ht, .inr ⟨hhead, exists_unix_parse_iff.mp ⟨r, hr⟩⟩⟩
  · intro h
    obtain ⟨ht, hb | ⟨hhead, hb⟩⟩ := h
    · obtain ⟨r, hr⟩ := exists_inet_parse_iff.mpr hb
      exact ⟨.inetResponse r, ht, .inl ⟨r, rfl, hb.1, hr⟩⟩
    · obtain ⟨r, hr⟩ := exists_unix_parse_iff.mpr hb
      exact ⟨.unixResponse r, ht, .inr ⟨r, rfl, hhead, hr⟩⟩

/-- The family byte of an inet message is not that of a unix message. -/
theorem head?_ne_afUnix (h : b.head? = some afInet ∨ b.head? = some afInet6) :
    b.head? ≠ some afUnix := by
  rcases h with h | h
  · rw [h]
    decide
  · rw [h]
    decide

end Accepts

/-- **The decoder accepts exactly the two kinds of message**, under one message type, and decodes
    each as the response of its kind, attribute by attribute. -/
theorem parseWithParam_accepts_iff (P : Platform) [P.Lawful] (rich : Bool) (b : Bytes)
    (type : UInt16) :
    ((∃ m : SockDiagMessage rich, SockDiagMessage.parseWithParam P b type = .ok m) ↔
      type = sockDiagByFamily ∧ (InetMessage P.order rich b ∨ UnixMessage P.order b)) ∧
    ∀ m : SockDiagMessage rich, SockDiagMessage.parseWithParam P b type = .ok m →
      (InetMessage P.order rich b → ∃ r, m = .inetResponse r ∧
        (InetResponse.format P rich).Decodes P.order b r.header r.nlas) ∧
      (UnixMessage P.order b → ∃ r, m = .unixResponse r ∧
        (UnixResponse.format P.order).Decodes P.order b r.header r.nlas) := by
  refine ⟨exists_parseWithParam_iff, ?_⟩
  intro m hm
  obtain ⟨-, ⟨r, rfl, hhead, hr⟩ | ⟨r, rfl, hhead, hr⟩⟩ :=
    SockDiagMessage.parseWithParam_eq_ok_iff.mp hm
  · refine ⟨fun _ => ⟨r, rfl, (InetResponse.implements P).parse_eq_ok_iff.mp hr⟩, ?_⟩
    intro hunix
    exact absurd hunix.1 (head?_ne_afUnix hhead)
  · refine ⟨?_, fun _ => ⟨r, rfl, (UnixResponse.implements P).parse_eq_ok_iff.mp hr⟩⟩
    intro hinet
    exact absurd hhead (head?_ne_afUnix hinet.1)

/-- A unix socket and the inode of its peer. The attribute has no padding to lose. -/
def peerMessage : Bytes :=
  [1, 1, 1, 0, 14, 79, 0, 0, 160, 105, 0, 0, 0, 0, 0, 0] ++ [8, 0, 2, 0, 13, 79, 0, 0]

theorem area_peerMessage : Area .little [⟨unixDiagPeer, [13, 79, 0, 0]⟩] (peerMessage.drop 16) :=
  split_eq_some_iff.mp (by decide)

theorem unixMessage_peerMessage : UnixMessage .little peerMessage := by
  refine ⟨rfl, by decide, _, area_peerMessage, ?_⟩
  intro a ha
  obtain rfl := List.mem_singleton.mp ha
  show Unix.Nla.ValidPayload (nlaType unixDiagPeer) [13, 79, 0, 0]
  rw [Unix.Nla.nlaType_eq_self unixDiagPeer (by decide)]
  rfl

theorem peerMessage_accepted :
    ∃ r : UnixResponse,
      SockDiagMessage.parseWithParam (.reference .little) peerMessage sockDiagByFamily =
        .ok (.unixResponse r : SockDiagMessage true) ∧
      (UnixResponse.format .little).Decodes .little peerMessage r.header r.nlas := by
  obtain ⟨haccepts, hkind⟩ :=
    parseWithParam_accepts_iff (.reference .little) true peerMessage sockDiagByFamily
  obtain ⟨m, hm⟩ := haccepts.mpr ⟨rfl, .inr unixMessage_peerMessage⟩
  obtain ⟨r, rfl, hr⟩ := (hkind m hm).2 unixMessage_peerMessage
  exact ⟨r, hm, hr⟩

end SockDiag
