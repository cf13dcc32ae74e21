import Mathlib.Algebra.GroupWithZero.Nat
import Mathlib.Tactic.Common
import Mathlib.Logic.Equiv.Defs

/-!
# `#[repr(C, packed)]` structs as byte strings

A packed struct of integers and byte arrays is nothing but its bytes: every byte string of the
right length is a value of it and every value is such a byte string. `Packed α` is that bijection,
with both directions and the two inverse laws, built field by field with `pair` and renamed to the
struct's own fields with `iso`.

The integers of such a struct are in the byte order of the host, which is a parameter (`ByteOrder`)
rather than a choice.
-/

set_option autoImplicit false

namespace Rust

/-- `[u8]`. -/
abbrev Bytes := List UInt8

/-- `&buf[lo..hi]`, for bounds known to be in range. -/
def slice (buf : Bytes) (lo hi : Nat) : Bytes := (buf.take hi).drop lo

@[simp] theorem length_slice (buf : Bytes) (lo hi : Nat) :
    (slice buf lo hi).length = min hi buf.length - lo := by
  simp [slice]

theorem slice_append {lo hi : Nat} {x y : Bytes} (hx : x.length = lo) (hy : lo + y.length = hi)
    (z : Bytes) : slice (x ++ (y ++ z)) lo hi = y := by
  have hlen : hi - lo = y.length := by omega
  unfold slice
  rw [List.drop_take, List.drop_left' hx, hlen, List.take_left]

theorem slice_take {lo hi n : Nat} (h : hi ≤ n) (b : Bytes) :
    slice (b.take n) lo hi = slice b lo hi := by
  unfold slice
  rw [List.take_take, Nat.min_eq_left h]

theorem take_slice {lo hi n : Nat} (h : lo + n ≤ hi) (b : Bytes) :
    (slice b lo hi).take n = slice b lo (lo + n) := by
  unfold slice
  rw [List.drop_take, List.drop_take, List.take_take, Nat.add_sub_cancel_left,
    Nat.min_eq_left (by omega)]

/-- The bytes from `lo` to `hi` set to zero. -/
def blank (lo hi : Nat) (b : Bytes) : Bytes := b.take lo ++ List.replicate (hi - lo) 0 ++ b.drop hi

theorem length_blank (lo hi : Nat) (b : Bytes) :
    (blank lo hi b).length = min lo b.length + (hi - lo) + (b.length - hi) := by
  simp only [blank, List.length_append, List.length_take, List.length_replicate, List.length_drop]

theorem blank_append (lo hi : Nat) {x y : Bytes} (hx : x.length = lo) (hy : lo + y.length = hi)
    (z : Bytes) : blank lo hi (x ++ (y ++ z)) = x ++ (List.replicate y.length 0 ++ z) := by
  have hxy : (x ++ y).length = hi := by rw [List.length_append, hx, hy]
  have hlen : hi - lo = y.length := by omega
  unfold blank
  rw [List.take_left' hx, ← List.append_assoc x y z, List.drop_left' hxy, hlen, List.append_assoc]

/-- The bytes from `lo` to `hi` set to zero where `c` holds. -/
def blankIf (c : Prop) [Decidable c] (lo hi : Nat) (b : Bytes) : Bytes :=
  if c then blank lo hi b else b

theorem blankIf_append {c : Prop} [Decidable c] (lo hi : Nat) {x y : Bytes} (hx : x.length = lo)
    (hy : lo + y.length = hi) (z : Bytes) :
    blankIf c lo hi (x ++ (y ++ z)) =
      x ++ ((if c then List.replicate y.length 0 else y) ++ z) := by
  unfold blankIf
  by_cases hc : c
  · rw [if_pos hc, if_pos hc]
    exact blank_append lo hi hx hy z
  · rw [if_neg hc, if_neg hc]

/-! ## Integers in the byte order of the host -/

/-- The byte order of the host (`target_endian`). -/
inductive ByteOrder where
  | little
  | big
deriving Repr, DecidableEq

/-- The low `n` bytes of a number, least significant first. -/
def leBytes : Nat → Nat → Bytes
  | 0, _ => []
  | n + 1, v => UInt8.ofNat (v % 256) :: leBytes n (v / 256)

/-- The number that bytes spell, least significant first. -/
def leValue : Bytes → Nat
  | [] => 0
  | b :: bs => b.toNat + 256 * leValue bs

@[simp] theorem length_leBytes (n v : Nat) : (leBytes n v).length = n := by
  induction n generalizing v with
  | zero => rfl
  | succ n ih => simp [leBytes, ih]

theorem leValue_leBytes (n v : Nat) : leValue (leBytes n v) = v % 256 ^ n := by
  induction n generalizing v with
  | zero => simp [leBytes, leValue, Nat.mod_one]
  | succ n ih =>
    have hb : (UInt8.ofNat (v % 256)).toNat = v % 256 := by simp
    rw [leBytes, leValue, ih, hb, Nat.pow_succ, Nat.mul_comm (256 ^ n) 256, Nat.mod_mul]

theorem leBytes_leValue (bs : Bytes) : leBytes bs.length (leValue bs) = bs := by
  induction bs with
  | nil => rfl
  | cons b bs ih =>
    have hb : b.toNat < 256 := b.toNat_lt
    have hmod : (b.toNat + 256 * leValue bs) % 256 = b.toNat := by omega
    have hdiv : (b.toNat + 256 * leValue bs) / 256 = leValue bs := by omega
    rw [List.length_cons, leBytes, leValue, hmod, hdiv, ih]
    simp

theorem leValue_lt (bs : Bytes) : leValue bs < 256 ^ bs.length := by
  induction bs with
  | nil => simp [leValue]
  | cons b bs ih =>
    have hb : b.toNat < 256 := b.toNat_lt
    rw [List.length_cons, Nat.pow_succ, leValue]
    omega

namespace ByteOrder

/-- The bytes of `v` as an integer of `n` bytes in memory (`to_ne_bytes`). -/
def toBytes : ByteOrder → Nat → Nat → Bytes
  | little, n, v => leBytes n v
  | big, n, v => (leBytes n v).reverse

/-- The integer that bytes in memory are (`from_ne_bytes`). -/
def ofBytes : ByteOrder → Bytes → Nat
  | little, bs => leValue bs
  | big, bs => leValue bs.reverse

@[simp] theorem length_toBytes (o : ByteOrder) (n v : Nat) : (o.toBytes n v).length = n := by
  cases o <;> simp [toBytes]

theorem ofBytes_toBytes (o : ByteOrder) (n v : Nat) : o.ofBytes (o.toBytes n v) = v % 256 ^ n := by
  cases o <;> simp [toBytes, ofBytes, leValue_leBytes]

theorem toBytes_ofBytes (o : ByteOrder) (bs : Bytes) : o.toBytes bs.length (o.ofBytes bs) = bs := by
  cases o with
  | little => exact leBytes_leValue bs
  | big =>
    have h := leBytes_leValue bs.reverse
    rw [List.length_reverse] at h
    simp [toBytes, ofBytes, h]

theorem ofBytes_lt (o : ByteOrder) (bs : Bytes) : o.ofBytes bs < 256 ^ bs.length := by
  cases o with
  | little => exact leValue_lt bs
  | big => simpa [ofBytes] using leValue_lt bs.reverse

theorem toBytes_zero (o : ByteOrder) (n : Nat) : o.toBytes n 0 = List.replicate n 0 := by
  have hle : leBytes n 0 = List.replicate n 0 := by
    induction n with
    | zero => rfl
    | succ n ih =>
      rw [leBytes, List.replicate_succ, ← ih]
      rfl
  cases o with
  | little => exact hle
  | big => rw [toBytes, hle, List.reverse_replicate]

end ByteOrder

/-! ## Layouts -/

/-- A type whose values are exactly the byte strings of one length. -/
structure Packed (α : Type) where
  /-- `size_of::<α>()`. -/
  size : Nat
  toBytes : α → Bytes
  /-- Read a value off the first `size` bytes; only ever applied to at least that many. -/
  ofBytes : Bytes → α
  length_toBytes : ∀ a, (toBytes a).length = size
  ofBytes_toBytes : ∀ a, ofBytes (toBytes a) = a
  toBytes_ofBytes : ∀ b, b.length = size → toBytes (ofBytes b) = b

namespace Packed

attribute [simp] length_toBytes ofBytes_toBytes

variable {α β : Type}

def u8 : Packed UInt8 where
  size := 1
  toBytes b := [b]
  ofBytes bs := bs.headD 0
  length_toBytes _ := rfl
  ofBytes_toBytes _ := rfl
  toBytes_ofBytes
    | [_], _ => rfl

/-- A native-endian integer of `n` bytes, given as a type of numbers below `256 ^ n`. -/
def word (o : ByteOrder) (n : Nat) (toNat : α → Nat) (ofNat : Nat → α)
    (toNat_lt : ∀ a, toNat a < 256 ^ n) (ofNat_toNat : ∀ a, ofNat (toNat a) = a)
    (toNat_ofNat : ∀ v, v < 256 ^ n → toNat (ofNat v) = v) : Packed α where
  size := n
  toBytes v := o.toBytes n (toNat v)
  ofBytes bs := ofNat (o.ofBytes bs)
  length_toBytes _ := o.length_toBytes _ _
  ofBytes_toBytes v := by
    rw [o.ofBytes_toBytes, Nat.mod_eq_of_lt (toNat_lt v), ofNat_toNat]
  toBytes_ofBytes bs h := by
    have hv : o.ofBytes bs < 256 ^ n := h ▸ o.ofBytes_lt bs
    rw [toNat_ofNat _ hv, ← h, o.toBytes_ofBytes]

def u16 (o : ByteOrder) : Packed UInt16 :=
  word o 2 UInt16.toNat UInt16.ofNat UInt16.toNat_lt (fun _ => UInt16.ofNat_toNat)
    (fun _ h => UInt16.toNat_ofNat_of_lt' h)

def u32 (o : ByteOrder) : Packed UInt32 :=
  word o 4 UInt32.toNat UInt32.ofNat UInt32.toNat_lt (fun _ => UInt32.ofNat_toNat)
    (fun _ h => UInt32.toNat_ofNat_of_lt' h)

def u64 (o : ByteOrder) : Packed UInt64 :=
  word o 8 UInt64.toNat UInt64.ofNat UInt64.toNat_lt (fun _ => UInt64.ofNat_toNat)
    (fun _ h => UInt64.toNat_ofNat_of_lt' h)

/-- `[u8; n]`. -/
def bytes (n : Nat) : Packed (Vector UInt8 n) where
  size := n
  toBytes v := v.toList
  ofBytes bs := ⟨(bs.take n ++ List.replicate (n - bs.length) 0).toArray, by simp; omega⟩
  length_toBytes v := by simp
  ofBytes_toBytes v := by
    apply Vector.toList_inj.mp
    have hv : v.toList.length = n := by simp
    simp [Vector.toList_mk, List.take_of_length_le (Nat.le_of_eq hv)]
  toBytes_ofBytes bs h := by
    simp [Vector.toList_mk, h, List.take_of_length_le (Nat.le_of_eq h)]

/-- Two fields, the second right after the first. -/
def pair (L : Packed α) (M : Packed β) : Packed (α × β) where
  size := L.size + M.size
  toBytes p := L.toBytes p.1 ++ M.toBytes p.2
  ofBytes bs := (L.ofBytes (bs.take L.size), M.ofBytes (bs.drop L.size))
  length_toBytes p := by simp
  ofBytes_toBytes p := by
    have hl : (L.toBytes p.1).length = L.size := L.length_toBytes _
    rw [List.take_left' hl, List.drop_left' hl, L.ofBytes_toBytes, M.ofBytes_toBytes]
  toBytes_ofBytes bs h := by
    have hl : (bs.take L.size).length = L.size := by simp; omega
    have hm : (bs.drop L.size).length = M.size := by simp; omega
    simp [L.toBytes_ofBytes _ hl, M.toBytes_ofBytes _ hm]

/-- The same bytes under other field names. -/
def iso (L : Packed α) (e : β ≃ α) : Packed β where
  size := L.size
  toBytes b := L.toBytes (e b)
  ofBytes bs := e.symm (L.ofBytes bs)
  length_toBytes b := by simp
  ofBytes_toBytes b := by simp
  toBytes_ofBytes bs h := by simp [L.toBytes_ofBytes bs h]

@[simp] theorem size_u8 : u8.size = 1 := rfl
@[simp] theorem size_u16 (o : ByteOrder) : (u16 o).size = 2 := rfl
@[simp] theorem size_u32 (o : ByteOrder) : (u32 o).size = 4 := rfl
@[simp] theorem size_u64 (o : ByteOrder) : (u64 o).size = 8 := rfl
@[simp] theorem size_bytes (n : Nat) : (bytes n).size = n := rfl
@[simp] theorem size_pair (L : Packed α) (M : Packed β) : (L.pair M).size = L.size + M.size := rfl
@[simp] theorem size_iso (L : Packed α) (e : β ≃ α) : (L.iso e).size = L.size := rfl
@[simp] theorem toBytes_u8 (b : UInt8) : u8.toBytes b = [b] := rfl
@[simp] theorem toBytes_bytes {n : Nat} (v : Vector UInt8 n) : (bytes n).toBytes v = v.toList := rfl

theorem toBytes_u32_zero (o : ByteOrder) : (u32 o).toBytes 0 = [0, 0, 0, 0] := o.toBytes_zero 4

@[simp] theorem toBytes_pair (L : Packed α) (M : Packed β) (p : α × β) :
    (L.pair M).toBytes p = L.toBytes p.1 ++ M.toBytes p.2 := rfl

@[simp] theorem toBytes_iso (L : Packed α) (e : β ≃ α) (b : β) :
    (L.iso e).toBytes b = L.toBytes (e b) := rfl

theorem ofBytes_pair (L : Packed α) (M : Packed β) (b : Bytes) :
    (L.pair M).ofBytes b = (L.ofBytes (b.take L.size), M.ofBytes (b.drop L.size)) := rfl

theorem ofBytes_iso (L : Packed α) (e : β ≃ α) (b : Bytes) :
    (L.iso e).ofBytes b = e.symm (L.ofBytes b) := rfl

/-- An exact-length byte string is a value's bytes, and only that value's. -/
theorem ofBytes_eq_iff (L : Packed α) {b : Bytes} (h : b.length = L.size) {a : α} :
    L.ofBytes b = a ↔ b = L.toBytes a := by
  refine ⟨?_, ?_⟩
  · intro hd
    subst hd
    exact (L.toBytes_ofBytes b h).symm
  · intro hd
    subst hd
    exact L.ofBytes_toBytes a

/-! ## The integer at an offset -/

section WordAt

variable {o : ByteOrder} {b x y : Bytes} {i n : Nat} {v : UInt32}

/-- The `u32` at offset `i`, for an offset with four bytes after it. -/
def wordAt (o : ByteOrder) (b : Bytes) (i : Nat) : UInt32 := (u32 o).ofBytes (slice b i (i + 4))

theorem wordAt_eq : wordAt o b i = (u32 o).ofBytes ((b.drop i).take 4) := by
  unfold wordAt slice
  rw [List.drop_take, Nat.add_sub_cancel_left]

theorem wordAt_toBytes_append : wordAt o ((u32 o).toBytes v ++ y) 0 = v := by
  have hlen : ((u32 o).toBytes v).length = 4 := (u32 o).length_toBytes v
  rw [wordAt_eq, List.drop_zero, List.take_left' hlen]
  exact (u32 o).ofBytes_toBytes v

theorem wordAt_toBytes : wordAt o ((u32 o).toBytes v) 0 = v := by
  have h := wordAt_toBytes_append (o := o) (y := []) (v := v)
  rwa [List.append_nil] at h

theorem wordAt_append (hx : x.length = n) : wordAt o (x ++ y) (n + i) = wordAt o y i := by
  rw [wordAt_eq, wordAt_eq, ← List.drop_drop, List.drop_left' hx]

/-- Two words are the same when their bytes are. -/
theorem wordAt_eq_wordAt_iff {j : Nat} (hi : i + 4 ≤ b.length) (hj : j + 4 ≤ b.length) :
    wordAt o b i = wordAt o b j ↔ slice b i (i + 4) = slice b j (j + 4) := by
  have hlen : ∀ k, k + 4 ≤ b.length → (slice b k (k + 4)).length = (u32 o).size := by
    intro k hk
    rw [length_slice, Nat.min_eq_left hk, Nat.add_sub_cancel_left, size_u32]
  refine ⟨?_, ?_⟩
  · intro h
    rw [← (u32 o).toBytes_ofBytes _ (hlen i hi), ← (u32 o).toBytes_ofBytes _ (hlen j hj)]
    exact congrArg (u32 o).toBytes h
  · intro h
    exact congrArg (u32 o).ofBytes h

theorem wordAt_take (h : i + 4 ≤ n) : wordAt o (b.take n) i = wordAt o b i := by
  rw [wordAt_eq, wordAt_eq, List.drop_take, List.take_take, Nat.min_eq_left (by omega)]

/-- The `u32` at offset `i` without the bits that are not in `mask`. -/
def maskWord (o : ByteOrder) (i : Nat) (mask : UInt32) (b : Bytes) : Bytes :=
  b.take i ++ ((u32 o).toBytes (wordAt o b i &&& mask) ++ b.drop (i + 4))

theorem maskWord_append (mask : UInt32) (hx : x.length = n) :
    maskWord o n mask (x ++ ((u32 o).toBytes v ++ y)) =
      x ++ ((u32 o).toBytes (v &&& mask) ++ y) := by
  have hlen : ((u32 o).toBytes v).length = 4 := (u32 o).length_toBytes v
  have hword : wordAt o (x ++ ((u32 o).toBytes v ++ y)) n = v := by
    have h := wordAt_append (o := o) (y := (u32 o).toBytes v ++ y) (i := 0) hx
    rw [Nat.add_zero, wordAt_toBytes_append] at h
    exact h
  unfold maskWord
  rw [hword, List.take_left' hx, ← List.drop_drop, List.drop_left' hx, List.drop_left' hlen]

end WordAt

/-! ## A struct at the front of a byte string -/

section ReadsAs

variable {γ : Type} {L : Packed α} {g : α → γ} {f : γ → α} {p : Bytes} {a : α} {c : γ}

/-- `p` begins with a struct that `g` turns into `c`. -/
def ReadsAs (L : Packed α) (g : α → γ) (p : Bytes) (c : γ) : Prop :=
  L.size ≤ p.length ∧ g (L.ofBytes (p.take L.size)) = c

theorem readsAs_toBytes_iff : L.ReadsAs g (L.toBytes a) c ↔ g a = c := by
  have hlen : (L.toBytes a).length = L.size := L.length_toBytes a
  unfold ReadsAs
  rw [List.take_of_length_le (Nat.le_of_eq hlen), L.ofBytes_toBytes]
  exact and_iff_right (Nat.le_of_eq hlen.symm)

/-- Where `f` undoes `g`, the struct written again is the bytes that were read. -/
theorem ReadsAs.toBytes_eq (h : L.ReadsAs g p c) (hfg : ∀ a, f (g a) = a) :
    L.toBytes (f c) = p.take L.size := by
  obtain ⟨hlen, rfl⟩ := h
  rw [hfg]
  exact L.toBytes_ofBytes _ (by simp [hlen])

end ReadsAs

end Packed

end Rust
