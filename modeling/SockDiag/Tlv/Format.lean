import SockDiag.Tlv.Truncate

/-!
# Messages: a header of fixed length, then an area

A `Format` is a header read from and written to a fixed number of bytes, and a `Codec` for the
attributes after it. As for `Codec` there is no law between reading and writing; the results lift
what is known of the header and of one attribute to whole messages:

* `decodes_encode_iff` — when a message comes back from its own encoding;
* `exists_decodes_iff` — which byte strings are messages;
* `encode_of_decodes` — what decoding and encoding again makes of the bytes;
* `decodes_take`, `not_decodes_take` — what is left of a message cut short.
-/

set_option autoImplicit false

namespace Tlv

open Rust

structure Format (H α : Type) where
  headerLen : Nat
  /-- Only ever applied to `headerLen` bytes. -/
  readHeader : Bytes → Option H
  writeHeader : H → Bytes
  length_writeHeader : ∀ h, (writeHeader h).length = headerLen
  codec : Codec α

namespace Format

variable {H α : Type} (F : Format H α) (o : ByteOrder)

/-- `b` is a message with header `h` and attributes `xs`. -/
def Decodes (b : Bytes) (h : H) (xs : List α) : Prop :=
  F.headerLen ≤ b.length ∧ F.readHeader (b.take F.headerLen) = some h ∧
    F.codec.Decodes o (b.drop F.headerLen) xs

def encode (h : H) (xs : List α) : Bytes := F.writeHeader h ++ F.codec.encodeAll o xs

variable {F o} {b : Bytes} {h : H} {xs ys : List α} {n : Nat}

theorem length_encode : (F.encode o h xs).length = F.headerLen + (F.codec.encodeAll o xs).length := by
  unfold encode
  rw [List.length_append, F.length_writeHeader]

@[simp] theorem take_encode : (F.encode o h xs).take F.headerLen = F.writeHeader h :=
  List.take_left' (F.length_writeHeader h)

@[simp] theorem drop_encode : (F.encode o h xs).drop F.headerLen = F.codec.encodeAll o xs :=
  List.drop_left' (F.length_writeHeader h)

/-- How many attributes a message of this length can have. -/
theorem Decodes.length_le (hd : F.Decodes o b h xs) : xs.length ≤ (b.length - F.headerLen) / 4 := by
  obtain ⟨-, -, hxs⟩ := hd
  have hle := hxs.four_mul_length_le
  rw [List.length_drop] at hle
  exact (Nat.le_div_iff_mul_le (by decide)).mpr (by omega)

/-- A message whose header is where the bytes are cut. -/
theorem decodes_append_iff {header area : Bytes} (hlen : header.length = F.headerLen) :
    F.Decodes o (header ++ area) h xs ↔ F.readHeader header = some h ∧ F.codec.Decodes o area xs := by
  have hle : F.headerLen ≤ (header ++ area).length := by
    rw [List.length_append, hlen]
    exact Nat.le_add_right _ _
  unfold Decodes
  rw [List.take_left' hlen, List.drop_left' hlen]
  exact and_iff_right hle

/-- What follows a header is decoded as the attributes, whatever wrote it. -/
theorem decodes_writeHeader_append_iff {h' : H} {area : Bytes}
    (hheader : F.readHeader (F.writeHeader h) = some h) :
    F.Decodes o (F.writeHeader h ++ area) h' xs ↔ h' = h ∧ F.codec.Decodes o area xs := by
  rw [decodes_append_iff (F.length_writeHeader h), hheader, Option.some.injEq]
  exact and_congr_left' eq_comm

/-- **A message comes back exactly when its header and each of its attributes do.** -/
theorem decodes_encode_iff (fits : ∀ x ∈ xs, (F.codec.encode x).Fits) :
    F.Decodes o (F.encode o h xs) h xs ↔
      F.readHeader (F.writeHeader h) = some h ∧ ∀ x ∈ xs, F.codec.Reads (F.codec.encode x) x := by
  have hlen : F.headerLen ≤ (F.encode o h xs).length := by
    rw [length_encode]
    exact Nat.le_add_right _ _
  unfold Decodes
  rw [take_encode, drop_encode, Codec.decodes_encodeAll_self_iff fits]
  exact and_iff_right hlen

/-- Whatever is read comes back, header and attributes alike. -/
structure Stable (F : Format H α) : Prop where
  header : ∀ b h, F.readHeader b = some h → F.readHeader (F.writeHeader h) = some h
  attr : ∀ a x, F.codec.Reads a x → F.codec.Reads (F.codec.encode x) x

/-- **A message that was read comes back**, where it can be written at all. -/
theorem Stable.decodes_encode (hs : F.Stable) (fits : ∀ x ∈ xs, (F.codec.encode x).Fits)
    (hd : F.Decodes o b h xs) : F.Decodes o (F.encode o h xs) h xs := by
  obtain ⟨-, hheader, as, -, hxs⟩ := hd
  refine (decodes_encode_iff fits).mpr ⟨hs.header _ h hheader, ?_⟩
  intro x hx
  obtain ⟨a, -, hax⟩ := Codec.exists_of_mem_right hxs hx
  exact hs.attr a x hax

/-- **A byte string is a message when its header is one and its area holds valid attributes.** -/
theorem exists_decodes_iff {Valid : Attr → Prop} (hvalid : ∀ a, (∃ x, F.codec.Reads a x) ↔ Valid a) :
    (∃ h xs, F.Decodes o b h xs) ↔
      F.headerLen ≤ b.length ∧ (∃ h, F.readHeader (b.take F.headerLen) = some h) ∧
        ∃ as, Area o as (b.drop F.headerLen) ∧ ∀ a ∈ as, Valid a := by
  rw [← Codec.exists_decodes_iff hvalid]
  refine ⟨?_, ?_⟩
  · intro hd
    obtain ⟨h, xs, hlen, hh, hxs⟩ := hd
    exact ⟨hlen, ⟨h, hh⟩, xs, hxs⟩
  · intro hd
    obtain ⟨hlen, ⟨h, hh⟩, xs, hxs⟩ := hd
    exact ⟨h, xs, hlen, hh, hxs⟩

/-- **Decoding and encoding again canonicalises the header and each attribute**, and writes the
    attributes afresh. -/
theorem encode_of_decodes {canonHeader : Bytes → Bytes} {canon : Attr → Attr}
    (hheader : ∀ b h, b.length = F.headerLen → F.readHeader b = some h →
      F.writeHeader h = canonHeader b)
    (hattr : ∀ a x, F.codec.Reads a x → F.codec.encode x = canon a) (hd : F.Decodes o b h xs) :
    F.encode o h xs = canonical o F.headerLen canonHeader canon b := by
  obtain ⟨hlen, hh, as, ha, hxs⟩ := hd
  unfold encode Codec.encodeAll
  rw [ha.canonical_eq, hheader _ h (by simp [hlen]) hh, Codec.map_encode_eq_map hattr hxs]

/-! ## With an attribute put in -/

/-- **An attribute that is always read as `v` adds `v` to a message**, in its place, and does not
    decide whether it is one. -/
theorem decodes_insert_iff {as : List Attr} {u : Attr} {v : α} {header x mid y : Bytes}
    (hlen : header.length = F.headerLen) (hu : ∀ z, F.codec.Reads u z ↔ z = v) (hx : Area o as x)
    (hal : x.length % 4 = 0) (hmid : Area o [u] mid) (hmidal : mid.length % 4 = 0) :
    F.Decodes o (header ++ (x ++ (mid ++ y))) h xs ↔
      ∃ front back, xs = front ++ v :: back ∧ front.length = as.length ∧
        F.Decodes o (header ++ (x ++ y)) h (front ++ back) := by
  simp only [decodes_append_iff hlen, Codec.decodes_insert_iff hu hx hal hmid hmidal]
  refine ⟨?_, ?_⟩
  · intro hd
    obtain ⟨hh, front, back, hxs, hfront, hd⟩ := hd
    exact ⟨front, back, hxs, hfront, hh, hd⟩
  · intro hd
    obtain ⟨front, back, hxs, hfront, hh, hd⟩ := hd
    exact ⟨hh, front, back, hxs, hfront, hd⟩

/-! ## Cut short -/

theorem take_encode_of_le (hn : F.headerLen ≤ n) :
    (F.encode o h xs).take n =
      F.writeHeader h ++ (F.codec.encodeAll o xs).take (n - F.headerLen) := by
  have hlen := F.length_writeHeader h
  unfold encode
  rw [List.take_append, List.take_of_length_le (by omega), hlen]

/-- A message that comes back whole comes back from a cut through none of its parts, with the
    attributes that were over by then. -/
theorem decodes_take (fits : ∀ x ∈ xs, (F.codec.encode x).Fits)
    (hself : F.Decodes o (F.encode o h xs) h xs)
    (hcut : ¬ CutsThrough F.headerLen F.codec.encodedLength xs n) :
    F.Decodes o ((F.encode o h xs).take n) h
      (endedBy F.headerLen F.codec.encodedLength xs n) := by
  rw [cutsThrough_iff, not_or, not_not, Nat.not_lt] at hcut
  obtain ⟨hn, hclean⟩ := hcut
  obtain ⟨hheader, hattrs⟩ := (decodes_encode_iff fits).mp hself
  have hlen := F.length_writeHeader h
  rw [take_encode_of_le hn, endedBy_eq_kept (fun x _ => Codec.encodedLength_pos x) hn]
  refine ⟨by rw [List.length_append]; omega, ?_, ?_⟩
  · rw [List.take_left' hlen]
    exact hheader
  · rw [List.drop_left' hlen]
    exact Codec.decodes_take_of_clean fits hattrs hclean

/-- Nothing is read off a message cut through its header or through an attribute. -/
theorem not_decodes_take (fits : ∀ x ∈ xs, (F.codec.encode x).Fits)
    (hcut : CutsThrough F.headerLen F.codec.encodedLength xs n) {h' : H} :
    ¬ F.Decodes o ((F.encode o h xs).take n) h' ys := by
  intro hd
  obtain ⟨hlen, -, hys⟩ := hd
  rw [List.length_take] at hlen
  have hn : F.headerLen ≤ n := Nat.le_trans hlen (Nat.min_le_left _ _)
  rcases cutsThrough_iff.mp hcut with hcut | hcut
  · omega
  · rw [take_encode_of_le hn, List.drop_left' (F.length_writeHeader h)] at hys
    exact Codec.not_decodes_take fits hcut hys

/-- Attribute `i` of a message is where `position` says. -/
theorem slice_encode {i : Nat} {x : α} (hx : xs[i]? = some x) :
    slice (F.encode o h xs) (position F.headerLen F.codec.encodedLength xs i)
      (position F.headerLen F.codec.encodedLength xs i + F.codec.encodedLength x) =
        (F.codec.encode x).body o := by
  have hget : (xs.map F.codec.encode)[i]? = some (F.codec.encode x) := by
    rw [List.getElem?_map, hx]
    rfl
  have hattr := slice_wire (o := o) hget
  rw [start_map] at hattr
  rw [← hattr]
  unfold slice position
  rw [List.drop_take, List.drop_take, ← List.drop_drop, drop_encode, Nat.add_sub_cancel_left,
    Nat.add_sub_cancel_left]
  rfl

end Format

end Tlv
