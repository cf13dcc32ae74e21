import SockDiag.Rust.Std
import SockDiag.Rust.Writer
import SockDiag.Tlv.Codec

/-!
# What the crate is built on

The host and the three crates this one calls into, whose sources are not part of the repository:
`netlink-packet-core` (errors, scalar parsers, the attribute iterator, attribute emission),
`zerocopy` (`ref_from_prefix`, `as_bytes`) and `bitflags` (`from_bits_truncate`). They are a
**parameter** of the whole model: `Platform` lists the functions the crate uses, with no
definitions, and `Platform.Lawful` is the documented behaviour the results rely on.

Everything the crate itself does is a definition over a `Platform`; every theorem about it assumes
`P.Lawful` and nothing else about `P`. `SockDiag.Platform.Reference` has a platform that satisfies
the laws, at either byte order.
-/

set_option autoImplicit false

namespace SockDiag

open Rust Tlv

/-- The trait `netlink_packet_core::Nla`: what a type says about itself to be emitted. -/
structure NlaTrait where
  valueLen : Nat
  kind : UInt16
  emitValue : Writer Empty

/-- `netlink_packet_core::DefaultNla`, an attribute kept as it came (`DefaultNla::new(kind, value)`).
    The kind keeps its flag bits. -/
structure DefaultNla where
  kind : UInt16
  value : Bytes
deriving DecidableEq, Repr

/-- What the crate uses of `netlink-packet-core`. -/
structure NetlinkPacketCore where
  DecodeError : Type
  /-- `DecodeError::buffer_too_small(received, minimum)` -/
  bufferTooSmall : Nat → Nat → DecodeError
  /-- `DecodeError::from(message)` -/
  decodeError : String → DecodeError
  /-- `ErrorContext::context`, on the error -/
  context : String → DecodeError → DecodeError
  parseU8 : Bytes → Outcome DecodeError UInt8
  parseU32 : Bytes → Outcome DecodeError UInt32
  parseString : Bytes → Outcome DecodeError String
  emitU32 : UInt32 → Writer DecodeError
  /-- `NlaBuffer<&[u8]>` -/
  NlaBuffer : Type
  nlaValue : NlaBuffer → Outcome DecodeError Bytes
  nlaKind : NlaBuffer → UInt16
  defaultNlaParse : NlaBuffer → Outcome DecodeError DefaultNla
  /-- `impl Nla for DefaultNla` -/
  defaultNla : DefaultNla → NlaTrait
  /-- `NlasIterator<&[u8]>` -/
  NlasIterator : Type
  /-- `NlasIterator::new` -/
  nlasIterator : Bytes → NlasIterator
  /-- `Iterator::next`, with the iterator it leaves behind -/
  next : NlasIterator → Option (Outcome DecodeError NlaBuffer × NlasIterator)
  /-- The bytes from the iterator's position on. Only the laws speak of it. -/
  remaining : NlasIterator → Bytes
  /-- `impl<T: Nla> Emitable for T` -/
  nlaBufferLen : NlaTrait → Nat
  emitNla : NlaTrait → Writer Empty
  /-- `impl<T: Emitable> Emitable for &[T]` -/
  nlasBufferLen : List NlaTrait → Nat
  emitNlas : List NlaTrait → Writer Empty

/-- What the crate uses of `zerocopy`, for a struct laid out as the `Packed` argument says. -/
structure Zerocopy where
  /-- `FromBytes::ref_from_prefix`, its error dropped -/
  refFromPrefix : {α : Type} → Packed α → Bytes → Option (α × Bytes)
  /-- `IntoBytes::as_bytes` -/
  asBytes : {α : Type} → (L : Packed α) → α → Vector UInt8 L.size

/-- What the crate uses of the code `bitflags!` generates. -/
structure Bitflags where
  /-- `Flags::from_bits_truncate`, the first argument being `Flags::all().bits()` -/
  fromBitsTruncate : {α : Type} → [AndOp α] → α → α → α

structure Platform extends NetlinkPacketCore, Zerocopy, Bitflags where
  order : ByteOrder
  /-- `impl Display for FromBytesWithNulError`, whose wording the standard library does not fix. -/
  displayNulError : FromBytesWithNulError → String

/-- A payload without its last byte, if that is a NUL. -/
def stripNul (p : Bytes) : Bytes := if p.getLast? = some 0 then p.dropLast else p

@[simp] theorem stripNul_concat_zero (p : Bytes) : stripNul (p ++ [0]) = p := by
  simp [stripNul]

/-- Putting the NUL back is adding one where there was none. -/
theorem stripNul_append_zero (p : Bytes) :
    stripNul p ++ [0] = if p.getLast? = some 0 then p else p ++ [0] := by
  unfold stripNul
  split
  · rename_i h
    exact List.dropLast_append_getLast? 0 h
  · rfl

namespace Platform

/-- `nla` is the checked buffer over the attribute `a`. -/
structure Views (P : Platform) (nla : P.NlaBuffer) (a : Attr) : Prop where
  value : P.nlaValue nla = .ok a.payload
  kind : P.nlaKind nla = a.kind &&& 0x3fff
  default : P.defaultNlaParse nla = .ok ⟨a.kind, a.payload⟩

/-- The documented behaviour of the three crates. -/
class Lawful (P : Platform) : Prop where
  parseU8_ok : ∀ b, P.parseU8 [b] = .ok b
  parseU8_err : ∀ p, p.length ≠ 1 → ∃ e, P.parseU8 p = .err e
  parseU32_ok : ∀ p, p.length = 4 → P.parseU32 p = .ok ((Packed.u32 P.order).ofBytes p)
  parseU32_err : ∀ p, p.length ≠ 4 → ∃ e, P.parseU32 p = .err e
  /-- At most one trailing NUL is dropped; an unterminated string is accepted. -/
  parseString_ok : ∀ p s, Rust.asBytes s = stripNul p → P.parseString p = .ok s
  parseString_err : ∀ p, ¬ IsUtf8 (stripNul p) → ∃ e, P.parseString p = .err e
  emitU32_ok : ∀ v, (P.emitU32 v).Emits ((Packed.u32 P.order).toBytes v)
  emitU32_err : ∀ v buf, buf.length < 4 → ∃ e, (P.emitU32 v).run buf = .err e
  remaining_nlasIterator : ∀ b, P.remaining (P.nlasIterator b) = b
  next_done : ∀ it, P.remaining it = [] → P.next it = none
  /-- Fewer than four bytes left, or a length field below four or beyond them: an error, and then
      nothing more. -/
  next_err : ∀ it, P.remaining it ≠ [] → unframe P.order (P.remaining it) = none →
    ∃ e it', P.next it = some (.err e, it') ∧ P.remaining it' = []
  /-- Otherwise a buffer over the next attribute, and on by its length rounded up to four. -/
  next_ok : ∀ it a rest, unframe P.order (P.remaining it) = some (a, rest) →
    ∃ nla it', P.next it = some (.ok nla, it') ∧ P.remaining it' = rest ∧ P.Views nla a
  defaultNla_eq : ∀ d, P.defaultNla d = ⟨d.value.length, d.kind, .copyFromSlice d.value⟩
  nlaBufferLen_eq : ∀ n, P.nlaBufferLen n = 4 + align n.valueLen
  /-- The length and the type are written, `emit_value` is lent the slice after them with its old
      contents, and the padding is zeroed. -/
  emitNla_eq : ∀ n buf, n.valueLen ≤ 65531 → buf.length = P.nlaBufferLen n →
    (P.emitNla n).run buf =
      n.emitValue.run (slice buf 4 (4 + n.valueLen)) >>= fun v => .ok (Attr.wire P.order ⟨n.kind, v⟩)
  /-- The length is computed as `value_len() as u16 + 4`, which overflows here. -/
  emitNla_overflow : ∀ n buf, 65532 ≤ n.valueLen % 65536 → (P.emitNla n).run buf = .panic
  /-- Beyond that the cast has wrapped, and `emit_value` is lent only what the length field says. -/
  emitNla_wrapped : ∀ n buf, 65536 ≤ n.valueLen → buf.length = P.nlaBufferLen n →
    n.emitValue.run (slice buf 4 (4 + n.valueLen % 65536)) = .panic → (P.emitNla n).run buf = .panic
  nlasBufferLen_eq : ∀ ns, P.nlasBufferLen ns = (ns.map P.nlaBufferLen).sum
  emitNlas_nil : ∀ buf, (P.emitNlas []).run buf = .ok buf
  emitNlas_cons : ∀ n ns buf, P.nlaBufferLen n ≤ buf.length →
    (P.emitNlas (n :: ns)).run buf =
      (P.emitNla n).run (buf.take (P.nlaBufferLen n)) >>= fun head =>
        (P.emitNlas ns).run (buf.drop (P.nlaBufferLen n)) >>= fun tail => .ok (head ++ tail)
  emitNlas_short : ∀ n ns buf, buf.length < P.nlaBufferLen n → (P.emitNlas (n :: ns)).run buf = .panic
  refFromPrefix_eq : ∀ {α : Type} (L : Packed α) (b : Bytes), P.refFromPrefix L b =
    if L.size ≤ b.length then some (L.ofBytes (b.take L.size), b.drop L.size) else none
  asBytes_eq : ∀ {α : Type} (L : Packed α) (a : α), (P.asBytes L a).toList = L.toBytes a
  fromBitsTruncate_eq : ∀ {α : Type} [AndOp α] (all bits : α),
    P.fromBitsTruncate all bits = bits &&& all

/-! ## Reading a packed struct off the front of a payload -/

/-- `T::ref_from_prefix(payload).map_err(|_| DecodeError::buffer_too_small(..))?`, the first lines of
    every decoder of the crate. -/
def readPrefix (P : Platform) {α : Type} (L : Packed α) (payload : Bytes) :
    Outcome P.DecodeError α := do
  let (raw, _) ← .ofOption (P.bufferTooSmall payload.length L.size) (P.refFromPrefix L payload)
  .ok raw

section Lemmas

variable (P : Platform) {α : Type} {L : Packed α} {payload : Bytes} {raw : α}

theorem readPrefix_returns : (P.readPrefix L payload).Returns :=
  Outcome.Returns.bind (Outcome.returns_ofOption _ _) fun _ _ => Outcome.returns_ok _

theorem readPrefix_map_returns {β : Type} (g : α → β) :
    (P.readPrefix L payload >>= fun raw => (.ok (g raw) : Outcome P.DecodeError β)).Returns :=
  P.readPrefix_returns.bind fun _ _ => Outcome.returns_ok _

variable [P.Lawful]

theorem readPrefix_eq_ok_iff : P.readPrefix L payload = .ok raw ↔
    L.size ≤ payload.length ∧ L.ofBytes (payload.take L.size) = raw := by
  unfold readPrefix
  rw [Lawful.refFromPrefix_eq]
  by_cases h : L.size ≤ payload.length
  · simp [h, Outcome.ofOption]
  · simp [h, Outcome.ofOption]

/-- What comes behind the struct is not looked at, not even in an error. -/
theorem readPrefix_take : P.readPrefix L (payload.take L.size) = P.readPrefix L payload := by
  by_cases h : L.size ≤ payload.length
  · have hwhole : P.readPrefix L payload = .ok (L.ofBytes (payload.take L.size)) :=
      P.readPrefix_eq_ok_iff.mpr ⟨h, rfl⟩
    rw [hwhole, P.readPrefix_eq_ok_iff, List.length_take, List.take_take, Nat.min_self,
      Nat.min_eq_left h]
    exact ⟨Nat.le_refl _, rfl⟩
  · rw [List.take_of_length_le (Nat.le_of_not_le h)]

/-- A decoder that only takes the struct apart. -/
theorem readPrefix_map_eq_ok_iff {β : Type} {g : α → β} {b : β} :
    (P.readPrefix L payload >>= fun raw => .ok (g raw)) = .ok b ↔ L.ReadsAs g payload b := by
  simp only [Outcome.bind_eq_ok, P.readPrefix_eq_ok_iff, Outcome.ok.injEq]
  refine ⟨?_, ?_⟩
  · intro h
    obtain ⟨raw, ⟨hlen, rfl⟩, hb⟩ := h
    exact ⟨hlen, hb⟩
  · intro h
    obtain ⟨hlen, hb⟩ := h
    exact ⟨_, ⟨hlen, rfl⟩, hb⟩

/-! ## The scalar parsers, as relations between bytes and values -/

theorem parseU8_eq_ok_iff {b : UInt8} : P.parseU8 payload = .ok b ↔ payload = [b] := by
  refine ⟨?_, ?_⟩
  · intro h
    by_cases hlen : payload.length = 1
    · obtain ⟨c, rfl⟩ := List.length_eq_one_iff.mp hlen
      rw [Lawful.parseU8_ok] at h
      rw [Outcome.ok.inj h]
    · obtain ⟨e, he⟩ := Lawful.parseU8_err (P := P) payload hlen
      rw [he] at h
      exact absurd h (by simp)
  · intro hd
    subst hd
    exact Lawful.parseU8_ok b

theorem parseU8_returns : (P.parseU8 payload).Returns := by
  by_cases hlen : payload.length = 1
  · obtain ⟨c, rfl⟩ := List.length_eq_one_iff.mp hlen
    rw [Lawful.parseU8_ok]
    exact Outcome.returns_ok _
  · obtain ⟨e, he⟩ := Lawful.parseU8_err (P := P) payload hlen
    rw [he]
    exact Outcome.returns_err _

theorem parseU32_eq_ok_iff {v : UInt32} :
    P.parseU32 payload = .ok v ↔ payload = (Packed.u32 P.order).toBytes v := by
  by_cases hlen : payload.length = 4
  · rw [Lawful.parseU32_ok _ hlen, Outcome.ok.injEq]
    exact (Packed.u32 P.order).ofBytes_eq_iff hlen
  · obtain ⟨e, he⟩ := Lawful.parseU32_err (P := P) payload hlen
    rw [he]
    refine ⟨?_, ?_⟩
    · intro h
      exact absurd h (by simp)
    · intro hd
      subst hd
      exact absurd ((Packed.u32 P.order).length_toBytes v) hlen

theorem parseU32_returns : (P.parseU32 payload).Returns := by
  by_cases hlen : payload.length = 4
  · rw [Lawful.parseU32_ok _ hlen]
    exact Outcome.returns_ok _
  · obtain ⟨e, he⟩ := Lawful.parseU32_err (P := P) payload hlen
    rw [he]
    exact Outcome.returns_err _

theorem parseString_eq_ok_iff {s : String} :
    P.parseString payload = .ok s ↔ stripNul payload = Rust.asBytes s := by
  by_cases hu : IsUtf8 (stripNul payload)
  · rw [Lawful.parseString_ok payload (fromUtf8 _ hu) (asBytes_fromUtf8 _ hu), Outcome.ok.injEq]
    refine ⟨?_, ?_⟩
    · intro hd
      subst hd
      rfl
    · intro h
      exact asBytes_inj h
  · obtain ⟨e, he⟩ := Lawful.parseString_err (P := P) payload hu
    rw [he]
    refine ⟨?_, ?_⟩
    · intro h
      exact absurd h (by simp)
    · intro h
      exact absurd (h ▸ isUtf8_asBytes s) hu

theorem parseString_returns : (P.parseString payload).Returns := by
  by_cases hu : IsUtf8 (stripNul payload)
  · rw [Lawful.parseString_ok payload (fromUtf8 _ hu) (asBytes_fromUtf8 _ hu)]
    exact Outcome.returns_ok _
  · obtain ⟨e, he⟩ := Lawful.parseString_err (P := P) payload hu
    rw [he]
    exact Outcome.returns_err _

/-- `emit_u32(buf, v).unwrap()` -/
theorem emitU32_unwrap_emits (v : UInt32) :
    ((P.emitU32 v).unwrap : Writer Empty).Emits ((Packed.u32 P.order).toBytes v) :=
  (Lawful.emitU32_ok v).unwrap

theorem emitU32_unwrap_needs (v : UInt32) : ((P.emitU32 v).unwrap : Writer Empty).Needs 4 := by
  intro buf hlt
  obtain ⟨e, he⟩ := Lawful.emitU32_err (P := P) v buf hlt
  simp [Writer.unwrap, he]

@[simp] theorem toList_asBytes (a : α) : (P.asBytes L a).toList = L.toBytes a := Lawful.asBytes_eq L a

end Lemmas

end Platform

end SockDiag
