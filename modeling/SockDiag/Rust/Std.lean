import SockDiag.Rust.Outcome
import SockDiag.Rust.Packed

/-!
# The pieces of `std` the wire formats are made of

Indexing, `Duration`, the IP addresses, the byte view of a `String`, `CStr`, `chunks` and
`u16::from_be`. Each is the documented value type with the invariant the standard library keeps: a
`Duration` has less than a second of nanoseconds in it, a `String` is valid UTF-8, an address is its
bytes. What panics there panics here: `index`, `sliceTo` and `sliceFrom` are partial, and a caller
has to show that it is in range, or is shown to panic.

Behind each definition stand the few lemmas its users need, so that they never open it: when a
number of milliseconds comes back from a `Duration` (`Duration.fromMillis_eq_iff`), what a string
with its NUL is (`fromBytesWithNul_eq_ok_iff`), what a port looks like in memory on either host
(`toBytes_fromBe`), and when masking a word loses nothing.
-/

set_option autoImplicit false

namespace Rust

/-! ## Indexing

An index or a range that is out of bounds is a panic, so these are partial. -/

section Indexing

variable {ε : Type} {buf : Bytes} {n : Nat}

/-- `buf[i]` -/
def index (buf : Bytes) (i : Nat) : Outcome ε UInt8 :=
  match buf[i]? with
  | some b => .ok b
  | none => .panic

/-- `&buf[..hi]` -/
def sliceTo (buf : Bytes) (hi : Nat) : Outcome ε Bytes :=
  if hi ≤ buf.length then .ok (buf.take hi) else .panic

/-- `&buf[lo..]` -/
def sliceFrom (buf : Bytes) (lo : Nat) : Outcome ε Bytes :=
  if lo ≤ buf.length then .ok (buf.drop lo) else .panic

theorem index_cons_zero (b : UInt8) (buf : Bytes) : (index (b :: buf) 0 : Outcome ε UInt8) = .ok b :=
  rfl

theorem sliceTo_eq_ok (h : n ≤ buf.length) : (sliceTo buf n : Outcome ε Bytes) = .ok (buf.take n) :=
  if_pos h

theorem sliceFrom_eq_ok (h : n ≤ buf.length) :
    (sliceFrom buf n : Outcome ε Bytes) = .ok (buf.drop n) := if_pos h

end Indexing

/-! ## `std::time::Duration` -/

/-- Whole seconds and a remainder of less than one second. -/
structure Duration where
  secs : UInt64
  nanos : Nat
  nanos_lt : nanos < 1000000000
deriving DecidableEq, Repr

namespace Duration

def fromMillis (ms : UInt64) : Duration where
  secs := ms / 1000
  nanos := ms.toNat % 1000 * 1000000
  nanos_lt := by omega

/-- Whole milliseconds, rounded down (a `u128`, which no duration overflows). -/
def asMillis (d : Duration) : Nat := d.secs.toNat * 1000 + d.nanos / 1000000

theorem asMillis_fromMillis (ms : UInt64) : (fromMillis ms).asMillis = ms.toNat := by
  have hdiv : (ms / 1000).toNat = ms.toNat / 1000 := by simp [UInt64.toNat_div]
  simp only [fromMillis, asMillis, hdiv]
  omega

/-- A duration comes back from its milliseconds when it is a whole number of them. -/
theorem fromMillis_eq_iff {ms : UInt64} {d : Duration} :
    fromMillis ms = d ↔ d.nanos % 1000000 = 0 ∧ d.asMillis = ms.toNat := by
  refine ⟨?_, ?_⟩
  · intro h
    subst h
    exact ⟨by simp [fromMillis], asMillis_fromMillis ms⟩
  · intro h
    obtain ⟨hmod, hms⟩ := h
    obtain ⟨s, n, hn⟩ := d
    simp only at hmod
    simp only [asMillis] at hms
    have hq : n / 1000000 < 1000 := by omega
    have hs : s.toNat = ms.toNat / 1000 := by omega
    have hrem : ms.toNat % 1000 = n / 1000000 := by omega
    have hnanos : ms.toNat % 1000 * 1000000 = n := by
      rw [hrem]
      exact Nat.div_mul_cancel (Nat.dvd_of_mod_eq_zero hmod)
    have hsecs : ms / 1000 = s := by
      apply UInt64.toNat_inj.mp
      rw [hs]
      simp [UInt64.toNat_div]
    simp only [fromMillis, Duration.mk.injEq]
    exact ⟨hsecs, hnanos⟩

end Duration

/-! ## `std::net` -/

structure Ipv4Addr where
  octets : Vector UInt8 4
deriving DecidableEq, Repr

def Ipv4Addr.new (a b c d : UInt8) : Ipv4Addr := ⟨#v[a, b, c, d]⟩

structure Ipv6Addr where
  octets : Vector UInt8 16
deriving DecidableEq, Repr

inductive IpAddr where
  | v4 (ip : Ipv4Addr)
  | v6 (ip : Ipv6Addr)
deriving DecidableEq, Repr

/-! ## Strings and network order -/

/-- `str::as_bytes`. -/
def asBytes (s : String) : Bytes := s.toByteArray.data.toList

/-- The bytes are well-formed UTF-8. -/
def IsUtf8 (b : Bytes) : Prop := ByteArray.IsValidUTF8 ⟨b.toArray⟩

instance (b : Bytes) : Decidable (IsUtf8 b) :=
  inferInstanceAs (Decidable (ByteArray.IsValidUTF8 _))

/-- `String::from_utf8`, on bytes known to be well formed. -/
def fromUtf8 (b : Bytes) (h : IsUtf8 b) : String := String.ofByteArray ⟨b.toArray⟩ h

@[simp] theorem length_asBytes (s : String) : (asBytes s).length = s.utf8ByteSize := rfl

theorem isUtf8_asBytes (s : String) : IsUtf8 (asBytes s) := s.isValidUTF8

@[simp] theorem asBytes_fromUtf8 (b : Bytes) (h : IsUtf8 b) : asBytes (fromUtf8 b h) = b := rfl

theorem isUtf8_append {a b : Bytes} (ha : IsUtf8 a) (hb : IsUtf8 b) : IsUtf8 (a ++ b) := by
  have happ : (⟨(a ++ b).toArray⟩ : ByteArray) = ⟨a.toArray⟩ ++ ⟨b.toArray⟩ := by
    apply ByteArray.ext
    simp
  unfold IsUtf8
  rw [happ]
  exact ha.append hb

theorem isUtf8_replicate {c : UInt8} (h : IsUtf8 [c]) (n : Nat) : IsUtf8 (List.replicate n c) := by
  induction n with
  | zero => exact ByteArray.isValidUTF8_empty
  | succ n ih => exact isUtf8_append h ih

theorem asBytes_inj {s t : String} (h : asBytes s = asBytes t) : s = t := by
  obtain ⟨⟨⟨a⟩⟩, _⟩ := s
  obtain ⟨⟨⟨b⟩⟩, _⟩ := t
  obtain rfl : a = b := h
  rfl

/-- `std::ffi::FromBytesWithNulError` -/
inductive FromBytesWithNulError where
  | interiorNul (position : Nat)
  | notNulTerminated
deriving DecidableEq, Repr

/-- `CStr::from_bytes_with_nul`, the result without the NUL: its first NUL must be the last byte. -/
def fromBytesWithNul (b : Bytes) : Outcome FromBytesWithNulError Bytes :=
  match b.findIdx? (· == 0) with
  | some position =>
      if position + 1 = b.length then .ok b.dropLast else .err (.interiorNul position)
  | none => .err .notNulTerminated

theorem fromBytesWithNul_eq_ok_iff {b s : Bytes} :
    fromBytesWithNul b = .ok s ↔ b = s ++ [0] ∧ (0 : UInt8) ∉ s := by
  refine ⟨?_, ?_⟩
  · intro h
    unfold fromBytesWithNul at h
    split at h
    · rename_i position hfind
      obtain ⟨hlt, hzero, hfirst⟩ := List.findIdx?_eq_some_iff_getElem.mp hfind
      split at h
      · rename_i hlast
        obtain rfl := Outcome.ok.inj h
        have hne : b ≠ [] := List.ne_nil_of_length_pos (by omega)
        have hget : b.getLast hne = 0 := by
          rw [List.getLast_eq_getElem]
          have hpos : b.length - 1 = position := by omega
          simpa [hpos] using hzero
        refine ⟨by rw [← hget]; exact (List.dropLast_concat_getLast hne).symm, ?_⟩
        intro hmem
        obtain ⟨j, hj, hj0⟩ := List.getElem_of_mem hmem
        rw [List.length_dropLast] at hj
        rw [List.getElem_dropLast] at hj0
        exact hfirst j (by omega) (by simp [hj0])
      · exact absurd h (by simp)
    · exact absurd h (by simp)
  · intro hd
    obtain ⟨rfl, hs⟩ := hd
    have hnone : s.findIdx? (· == 0) = none := by
      rw [List.findIdx?_eq_none_iff]
      intro c hc
      exact beq_false_of_ne fun h0 => hs (h0 ▸ hc)
    have hfind : (s ++ [0]).findIdx? (· == 0) = some s.length := by
      rw [List.findIdx?_append, hnone]
      simp
    unfold fromBytesWithNul
    simp [hfind]

theorem fromBytesWithNul_returns (b : Bytes) : (fromBytesWithNul b).Returns := by
  unfold fromBytesWithNul
  split
  · split
    · trivial
    · trivial
  · trivial

/-! ## Chunks of a slice -/

def chunksFuel (n : Nat) : Nat → Bytes → List Bytes
  | 0, _ => []
  | fuel + 1, b => if b = [] then [] else b.take n :: chunksFuel n fuel (b.drop n)

/-- `<[u8]>::chunks`, for `n` other than zero: no more chunks than bytes. -/
def chunks (n : Nat) (b : Bytes) : List Bytes := chunksFuel n b.length b

/-- The two bytes of an integer exchanged. -/
def swapBytes (v : UInt16) : UInt16 := UInt16.ofNat (v.toNat % 256 * 256 + v.toNat / 256)

/-- `u16::from_be` and `u16::to_be`, which are the same function. -/
def fromBe (o : ByteOrder) (v : UInt16) : UInt16 :=
  match o with
  | .little => swapBytes v
  | .big => v

theorem swapBytes_swapBytes (v : UInt16) : swapBytes (swapBytes v) = v := by
  have hv : v.toNat < 65536 := v.toNat_lt
  have h1 : (swapBytes v).toNat = v.toNat % 256 * 256 + v.toNat / 256 :=
    UInt16.toNat_ofNat_of_lt' (by show _ < 65536; omega)
  apply UInt16.toNat_inj.mp
  rw [swapBytes, UInt16.toNat_ofNat_of_lt' (by show _ < 65536; omega), h1]
  omega

@[simp] theorem fromBe_fromBe (o : ByteOrder) (v : UInt16) : fromBe o (fromBe o v) = v := by
  cases o with
  | little => exact swapBytes_swapBytes v
  | big => rfl

/-- A port as it is on the wire, the high byte first. -/
def beBytes (v : UInt16) : Bytes := [UInt8.ofNat (v.toNat / 256), UInt8.ofNat (v.toNat % 256)]

/-- Made ready for the network and written in host order, a port is the same on every host. -/
theorem toBytes_fromBe (o : ByteOrder) (v : UInt16) :
    (Packed.u16 o).toBytes (fromBe o v) = beBytes v := by
  have hv : v.toNat < 65536 := v.toNat_lt
  have hdiv : v.toNat / 256 % 256 = v.toNat / 256 := by omega
  cases o with
  | little =>
    have hswap : (swapBytes v).toNat = v.toNat % 256 * 256 + v.toNat / 256 :=
      UInt16.toNat_ofNat_of_lt' (by show _ < 65536; omega)
    have hlow : (v.toNat % 256 * 256 + v.toNat / 256) % 256 = v.toNat / 256 := by omega
    have hhigh : (v.toNat % 256 * 256 + v.toNat / 256) / 256 % 256 = v.toNat % 256 := by omega
    show leBytes 2 (swapBytes v).toNat = beBytes v
    rw [hswap, leBytes, leBytes, leBytes, hlow, hhigh]
    rfl
  | big =>
    show (leBytes 2 v.toNat).reverse = beBytes v
    rw [leBytes, leBytes, leBytes, hdiv]
    rfl

/-- What is read in host order off the wire is a port as it came from the network. -/
theorem toBytes_eq_beBytes_iff {o : ByteOrder} {v w : UInt16} :
    (Packed.u16 o).toBytes w = beBytes v ↔ fromBe o w = v := by
  rw [← toBytes_fromBe o v]
  refine ⟨?_, ?_⟩
  · intro h
    have hw := congrArg (Packed.u16 o).ofBytes h
    rw [Packed.ofBytes_toBytes, Packed.ofBytes_toBytes] at hw
    rw [hw, fromBe_fromBe]
  · intro h
    rw [← h, fromBe_fromBe]

/-- `256 * first + second`. -/
theorem toNat_of_beBytes {v : UInt16} {a b : UInt8} (h : [a, b] = beBytes v) :
    v.toNat = 256 * a.toNat + b.toNat := by
  have hv : v.toNat < 65536 := v.toNat_lt
  obtain ⟨rfl, hb⟩ := List.cons.inj h
  obtain ⟨rfl, -⟩ := List.cons.inj hb
  rw [UInt8.toNat_ofNat_of_lt' (by show _ < 256; omega),
    UInt8.toNat_ofNat_of_lt' (by show _ < 256; omega)]
  omega

theorem toNat_of_slice {v : UInt16} {b : Bytes} {i : Nat} (h : slice b i (i + 2) = beBytes v) :
    v.toNat = 256 * (b.getD i 0).toNat + (b.getD (i + 1) 0).toNat := by
  have hget : ∀ j, j < 2 → b.getD (i + j) 0 = (beBytes v).getD j 0 := by
    intro j hj
    rw [← h]
    unfold slice
    simp only [List.getD_eq_getElem?_getD, List.getElem?_drop, List.getElem?_take]
    rw [if_pos (by omega)]
  have hfirst : b.getD i 0 = UInt8.ofNat (v.toNat / 256) := hget 0 (by decide)
  have hsecond : b.getD (i + 1) 0 = UInt8.ofNat (v.toNat % 256) := hget 1 (by decide)
  rw [hfirst, hsecond]
  exact toNat_of_beBytes rfl

/-! ## Bit masks -/

section Masks

/-- Masking changes nothing where no bit is outside the mask. -/
theorem bitVec_and_eq_self_iff {w : Nat} (x mask : BitVec w) :
    x &&& mask = x ↔ x &&& ~~~mask = 0#w := by
  refine ⟨?_, ?_⟩
  · intro h
    rw [← h, BitVec.and_assoc]
    simp
  · intro h
    ext i hi
    have hbit := congrArg (fun y => y[i]) h
    simp only [BitVec.getElem_and, BitVec.getElem_not, BitVec.getElem_zero] at hbit ⊢
    cases hx : x[i] with
    | false => rfl
    | true => simpa [hx] using hbit

theorem u32_and_eq_self_iff (x mask : UInt32) : x &&& mask = x ↔ x &&& ~~~mask = 0 := by
  rw [← UInt32.toBitVec_inj, ← UInt32.toBitVec_inj]
  exact bitVec_and_eq_self_iff _ _

theorem u8_and_eq_self_iff (x mask : UInt8) : x &&& mask = x ↔ x &&& ~~~mask = 0 := by
  rw [← UInt8.toBitVec_inj, ← UInt8.toBitVec_inj]
  exact bitVec_and_eq_self_iff _ _

end Masks

end Rust
