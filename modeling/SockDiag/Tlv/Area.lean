import Mathlib.Data.List.Forall2
import SockDiag.Rust.Packed

/-!
# Type–length–value areas with 4-byte alignment

An *attribute* is a 16-bit type and a payload. On the wire it is a 16-bit length that counts its own
four header bytes, the type, the payload, and zero bytes up to a multiple of four. An *area* is a
run of attributes with nothing left over.

Two views of the same thing are kept, and `split_eq_some_iff` says they agree:

* `Area as b` — the grammar: `b` spells the attributes `as`. The last attribute may lack some or
  all of its padding, which is what makes the grammar more than the image of `wire`;
* `split b` — the walk: take the first attribute off, advance by its length rounded up, repeat.

Nothing here is about a particular protocol; integers are in the byte order `o`.
-/

set_option autoImplicit false

namespace Tlv

open Rust

/-- An attribute: the whole 16-bit type, flag bits included, and the payload. -/
structure Attr where
  kind : UInt16
  payload : Bytes
deriving DecidableEq, Repr

/-- Round up to a multiple of four. -/
def align (n : Nat) : Nat := (n + 3) / 4 * 4

theorem le_align (n : Nat) : n ≤ align n := by unfold align; omega
theorem align_add_four (n : Nat) : align (4 + n) = 4 + align n := by unfold align; omega

namespace Attr

/-- What the length field says: the header and the payload, not the padding. -/
def length (a : Attr) : Nat := 4 + a.payload.length

/-- The length field is wide enough. -/
def Fits (a : Attr) : Prop := a.length < 65536

instance (a : Attr) : Decidable a.Fits := inferInstanceAs (Decidable (_ < _))

/-- How many bytes of padding follow. -/
def padding (a : Attr) : Nat := align a.length - a.length

/-- The attribute without its padding. -/
def body (o : ByteOrder) (a : Attr) : Bytes :=
  (Packed.u16 o).toBytes (UInt16.ofNat a.length) ++ (Packed.u16 o).toBytes a.kind ++ a.payload

/-- The attribute as it is emitted. -/
def wire (o : ByteOrder) (a : Attr) : Bytes := a.body o ++ List.replicate a.padding 0

variable {o : ByteOrder} {a : Attr}

theorem four_le_length (a : Attr) : 4 ≤ a.length := Nat.le_add_right 4 _

theorem fits_iff : a.Fits ↔ a.payload.length ≤ 65531 := by
  unfold Fits length; omega

@[simp] theorem length_body (o : ByteOrder) (a : Attr) : (a.body o).length = a.length := by
  simp [body, length]; omega

theorem length_add_padding (a : Attr) : a.length + a.padding = align a.length := by
  have := le_align a.length
  unfold padding; omega

@[simp] theorem length_wire (o : ByteOrder) (a : Attr) : (a.wire o).length = align a.length := by
  simp [wire, length_add_padding]

end Attr

/-- A run of attributes as it is emitted. -/
def wire (o : ByteOrder) (as : List Attr) : Bytes := as.flatMap (Attr.wire o)

@[simp] theorem wire_nil (o : ByteOrder) : wire o [] = [] := rfl

@[simp] theorem wire_cons (o : ByteOrder) (a : Attr) (as : List Attr) :
    wire o (a :: as) = a.wire o ++ wire o as := rfl

/-- `b` spells the attributes `as`, with nothing left over. Padding may be any bytes, and the last
    attribute may be cut short inside its padding. -/
inductive Area (o : ByteOrder) : List Attr → Bytes → Prop
  | nil : Area o [] []
  | last {a : Attr} {pad : Bytes} (fits : a.Fits) (short : pad.length ≤ a.padding) :
      Area o [a] (a.body o ++ pad)
  | cons {a : Attr} {pad rest : Bytes} {as : List Attr} (fits : a.Fits)
      (full : pad.length = a.padding) (tail : Area o as rest) :
      Area o (a :: as) (a.body o ++ pad ++ rest)

theorem area_wire {o : ByteOrder} {as : List Attr} (h : ∀ a ∈ as, a.Fits) :
    Area o as (wire o as) := by
  induction as with
  | nil => exact .nil
  | cons a as ih =>
    rw [wire_cons, Attr.wire]
    exact .cons (h a (by simp)) (by simp) (ih fun a' hm => h a' (by simp [hm]))

theorem Area.fits {o : ByteOrder} {as : List Attr} {b : Bytes} (h : Area o as b) :
    ∀ a ∈ as, a.Fits := by
  induction h with
  | nil => intro a hm; exact absurd hm (by simp)
  | last fits _ => intro a hm; rw [List.mem_singleton.mp hm]; exact fits
  | cons fits _ _ ih =>
    intro a hm
    rcases List.mem_cons.mp hm with rfl | hm
    · exact fits
    · exact ih a hm

/-- An attribute takes four bytes at least. -/
theorem Area.four_mul_length_le {o : ByteOrder} {as : List Attr} {b : Bytes} (h : Area o as b) :
    4 * as.length ≤ b.length := by
  induction h with
  | nil => exact Nat.le_refl _
  | @last a pad _ _ =>
    have := a.four_le_length
    rw [List.length_append, Attr.length_body, List.length_singleton]
    omega
  | @cons a pad rest as _ _ _ ih =>
    have := a.four_le_length
    rw [List.length_append, List.length_append, Attr.length_body, List.length_cons]
    omega

/-- The empty byte string spells no attribute. -/
theorem Area.eq_nil {o : ByteOrder} {as : List Attr} {b : Bytes} (h : Area o as b) (hb : b = []) :
    as = [] := by
  have hlen : b.length = 0 := by rw [hb]; rfl
  cases h with
  | nil => rfl
  | @last a pad _ _ =>
    have := a.four_le_length
    simp at hlen; omega
  | @cons a pad rest as _ _ _ =>
    have := a.four_le_length
    simp at hlen; omega

/-- Where the attribute in front ends on a multiple of four, its padding is all there. -/
theorem padding_of_aligned {o : ByteOrder} {a : Attr} {pad : Bytes} (short : pad.length ≤ a.padding)
    (hal : (a.body o ++ pad).length % 4 = 0) : pad.length = a.padding := by
  have := a.length_add_padding
  rw [List.length_append, Attr.length_body] at hal
  unfold align at this
  omega

/-- What follows an attribute with its padding is as much of a multiple of four as before. -/
theorem aligned_tail {o : ByteOrder} {a : Attr} {pad rest : Bytes} (full : pad.length = a.padding)
    (hal : (a.body o ++ pad ++ rest).length % 4 = 0) : rest.length % 4 = 0 := by
  have := a.length_add_padding
  rw [List.length_append, List.length_append, Attr.length_body] at hal
  unfold align at this
  omega

/-- Whole attributes, each with its padding, put in front of an area. -/
theorem Area.append {o : ByteOrder} {as bs : List Attr} {x y : Bytes} (hx : Area o as x)
    (hal : x.length % 4 = 0) (hy : Area o bs y) : Area o (as ++ bs) (x ++ y) := by
  induction hx with
  | nil => exact hy
  | last fits short =>
    -- The length being a multiple of four, the last attribute has all of its padding.
    exact .cons fits (padding_of_aligned short hal) hy
  | cons fits full _ ih =>
    rw [List.append_assoc]
    exact .cons fits full (ih (aligned_tail full hal))

/-! ## Taking the first attribute off -/

/-- The first attribute of `b`, and the bytes from the next one on. `none` where fewer than four
    bytes are left, or the length field is less than four or more than what is left. -/
def unframe (o : ByteOrder) (b : Bytes) : Option (Attr × Bytes) :=
  let len := ((Packed.u16 o).ofBytes (b.take 2)).toNat
  if 4 ≤ b.length ∧ 4 ≤ len ∧ len ≤ b.length then
    some (⟨(Packed.u16 o).ofBytes (slice b 2 4), slice b 4 len⟩, b.drop (align len))
  else none

section Unframe

variable {o : ByteOrder} {a : Attr} {b rest : Bytes}

theorem take_two_body (o : ByteOrder) (a : Attr) (tail : Bytes) :
    (a.body o ++ tail).take 2 = (Packed.u16 o).toBytes (UInt16.ofNat a.length) := by
  have h2 : ((Packed.u16 o).toBytes (UInt16.ofNat a.length)).length = 2 := by simp
  unfold Attr.body
  rw [List.append_assoc, List.append_assoc]
  exact List.take_left' h2

private theorem slice_two_body (o : ByteOrder) (a : Attr) (tail : Bytes) :
    slice (a.body o ++ tail) 2 4 = (Packed.u16 o).toBytes a.kind := by
  have h2 : ((Packed.u16 o).toBytes (UInt16.ofNat a.length)).length = 2 := by simp
  have h4 : ((Packed.u16 o).toBytes (UInt16.ofNat a.length) ++
      (Packed.u16 o).toBytes a.kind).length = 4 := by simp
  unfold slice Attr.body
  rw [List.append_assoc, List.take_left' h4, List.drop_left' h2]

private theorem slice_four_body (o : ByteOrder) (a : Attr) (tail : Bytes) :
    slice (a.body o ++ tail) 4 a.length = a.payload := by
  have h4 : ((Packed.u16 o).toBytes (UInt16.ofNat a.length) ++
      (Packed.u16 o).toBytes a.kind).length = 4 := by simp
  unfold slice
  rw [List.take_left' (a.length_body o)]
  unfold Attr.body
  exact List.drop_left' h4

/-- The walk reads back the attribute in front. -/
theorem unframe_body (fits : a.Fits) (tail : Bytes) :
    unframe o (a.body o ++ tail) = some (a, tail.drop a.padding) := by
  -- This is where the length field has to be wide enough: a longer one would have wrapped.
  have hlen : ((Packed.u16 o).ofBytes ((a.body o ++ tail).take 2)).toNat = a.length := by
    rw [take_two_body, Packed.ofBytes_toBytes]
    exact UInt16.toNat_ofNat_of_lt' fits
  have hbound : 4 ≤ (a.body o ++ tail).length ∧ 4 ≤ a.length ∧
      a.length ≤ (a.body o ++ tail).length := by
    have := a.four_le_length
    rw [List.length_append, Attr.length_body]; omega
  have hdrop : (a.body o ++ tail).drop (align a.length) = tail.drop a.padding := by
    rw [← a.length_add_padding, ← a.length_body o, ← List.drop_drop, List.drop_left]
  simp only [unframe, hlen, slice_two_body, slice_four_body, Packed.ofBytes_toBytes, hdrop]
  rw [if_pos hbound]

/-- What it means that an attribute could be taken off. -/
theorem unframe_eq_some (h : unframe o b = some (a, rest)) :
    a.Fits ∧ ∃ tail, b = a.body o ++ tail ∧ rest = tail.drop a.padding := by
  simp only [unframe] at h
  split at h
  · rename_i hb
    obtain ⟨h4, hlen4, hlen⟩ := hb
    generalize hL : ((Packed.u16 o).ofBytes (b.take 2)).toNat = len at h hlen4 hlen
    have hlt : len < 65536 := by rw [← hL]; exact UInt16.toNat_lt _
    simp only [Option.some.injEq, Prod.mk.injEq] at h
    obtain ⟨rfl, rfl⟩ := h
    have hpl : (slice b 4 len).length = len - 4 := by simp; omega
    have hal : Attr.length ⟨(Packed.u16 o).ofBytes (slice b 2 4), slice b 4 len⟩ = len := by
      show 4 + (slice b 4 len).length = len
      omega
    have hbody : Attr.body o ⟨(Packed.u16 o).ofBytes (slice b 2 4), slice b 4 len⟩ = b.take len := by
      have e1 : (Packed.u16 o).toBytes (UInt16.ofNat len) = b.take 2 := by
        rw [← hL, UInt16.ofNat_toNat]
        exact (Packed.u16 o).toBytes_ofBytes _ (by simp; omega)
      have e2 : (Packed.u16 o).toBytes ((Packed.u16 o).ofBytes (slice b 2 4)) = slice b 2 4 :=
        (Packed.u16 o).toBytes_ofBytes _ (by simp; omega)
      have e4 : (b.take len).take 4 = b.take 2 ++ slice b 2 4 := by
        rw [List.take_take, Nat.min_eq_left hlen4, slice]
        conv_lhs => rw [← List.take_append_drop 2 (b.take 4), List.take_take]
        rfl
      unfold Attr.body
      rw [hal, e1, e2, ← e4]
      exact List.take_append_drop 4 (b.take len)
    refine ⟨by unfold Attr.Fits; omega, b.drop len, ?_, ?_⟩
    · rw [hbody, List.take_append_drop]
    · rw [List.drop_drop]
      congr 1
      have := Attr.length_add_padding ⟨(Packed.u16 o).ofBytes (slice b 2 4), slice b 4 len⟩
      rw [hal] at this
      omega
  · exact absurd h (by simp)

theorem length_unframe_lt (h : unframe o b = some (a, rest)) : rest.length < b.length := by
  obtain ⟨-, tail, rfl, rfl⟩ := unframe_eq_some h
  have := a.four_le_length
  simp only [List.length_drop, List.length_append, Attr.length_body]
  omega

@[simp] theorem unframe_nil : unframe o [] = none := by simp [unframe]

end Unframe

/-- One step of the grammar is one step of the walk. -/
theorem area_iff_unframe {o : ByteOrder} {a : Attr} {as : List Attr} {b : Bytes} :
    Area o (a :: as) b ↔ ∃ rest, unframe o b = some (a, rest) ∧ Area o as rest := by
  refine ⟨?_, ?_⟩
  · intro h
    cases h with
    | last fits short =>
      refine ⟨_, unframe_body fits _, ?_⟩
      rw [List.drop_of_length_le short]
      exact .nil
    | cons fits full tail =>
      refine ⟨_, by rw [List.append_assoc]; exact unframe_body fits _, ?_⟩
      rw [← full, List.drop_left]
      exact tail
  · intro hd
    obtain ⟨rest, hu, hr⟩ := hd
    obtain ⟨fits, tail, rfl, rfl⟩ := unframe_eq_some hu
    by_cases hp : tail.length ≤ a.padding
    · -- The tail ends inside the padding, so nothing is left for `as`.
      rw [List.drop_of_length_le hp] at hr
      obtain rfl := hr.eq_nil rfl
      exact .last fits hp
    · have hfull : (tail.take a.padding).length = a.padding := by simp; omega
      have := Area.cons fits hfull hr
      rwa [List.append_assoc, List.take_append_drop] at this

/-- An area begins with the attribute the walk takes off it. -/
theorem Area.of_unframe {o : ByteOrder} {a : Attr} {cs : List Attr} {b rest : Bytes}
    (h : Area o cs b) (hu : unframe o b = some (a, rest)) : ∃ bs, cs = a :: bs ∧ Area o bs rest := by
  cases cs with
  | nil =>
    cases h
    rw [unframe_nil] at hu
    exact absurd hu (by simp)
  | cons c cs =>
    obtain ⟨rest', hu', hrest⟩ := area_iff_unframe.mp h
    rw [hu] at hu'
    obtain ⟨rfl, rfl⟩ := Prod.mk.inj (Option.some.inj hu')
    exact ⟨cs, rfl, hrest⟩

/-- **An area behind whole attributes is read as if they were not there.** -/
theorem area_append_iff {o : ByteOrder} {as cs : List Attr} {x y : Bytes} (hx : Area o as x)
    (hal : x.length % 4 = 0) : Area o cs (x ++ y) ↔ ∃ bs, cs = as ++ bs ∧ Area o bs y := by
  refine ⟨?_, ?_⟩
  · intro h
    -- Attribute by attribute off the front; what is in front decides what is taken off.
    induction hx generalizing cs with
    | nil => exact ⟨cs, rfl, h⟩
    | @last a pad fits short =>
      have hp := padding_of_aligned short hal
      have hu : unframe o (a.body o ++ pad ++ y) = some (a, y) := by
        rw [List.append_assoc, unframe_body fits, ← hp, List.drop_left]
      obtain ⟨bs, rfl, hbs⟩ := h.of_unframe hu
      exact ⟨bs, rfl, hbs⟩
    | @cons a pad rest as fits full tail ih =>
      have hu : unframe o (a.body o ++ pad ++ rest ++ y) = some (a, rest ++ y) := by
        rw [List.append_assoc, List.append_assoc, unframe_body fits, ← full, List.drop_left]
      obtain ⟨bs, rfl, hbs⟩ := h.of_unframe hu
      obtain ⟨cs, rfl, hcs⟩ := ih (aligned_tail full hal) hbs
      exact ⟨cs, rfl, hcs⟩
  · intro hd
    obtain ⟨bs, rfl, hbs⟩ := hd
    exact hx.append hal hbs

theorem area_nil_iff {o : ByteOrder} {b : Bytes} : Area o [] b ↔ b = [] := by
  refine ⟨?_, ?_⟩
  · intro h
    cases h
    rfl
  · intro hd
    subst hd
    exact .nil

/-! ## The walk -/

/-- Take attributes off `b` until nothing is left, at most `fuel` of them. -/
def splitFuel (o : ByteOrder) : Nat → Bytes → Option (List Attr)
  | 0, b => if b = [] then some [] else none
  | fuel + 1, b =>
      if b = [] then some []
      else match unframe o b with
        | none => none
        | some (a, rest) => (splitFuel o fuel rest).map (a :: ·)

/-- The attributes of an area; `none` where `b` is not one. -/
def split (o : ByteOrder) (b : Bytes) : Option (List Attr) := splitFuel o b.length b

theorem splitFuel_eq_some_iff {o : ByteOrder} {as : List Attr} :
    ∀ {fuel : Nat} {b : Bytes}, b.length ≤ fuel → (splitFuel o fuel b = some as ↔ Area o as b) := by
  intro fuel
  -- Taking an attribute off makes the rest shorter, so `b.length` turns are enough.
  induction fuel generalizing as with
  | zero =>
    intro b hb
    obtain rfl : b = [] := List.eq_nil_of_length_eq_zero (by omega)
    simp only [splitFuel, if_true, Option.some.injEq]
    refine ⟨?_, ?_⟩
    · intro hd
      subst hd
      exact .nil
    · intro h
      exact (h.eq_nil rfl).symm
  | succ fuel ih =>
    intro b hb
    by_cases hne : b = []
    · subst hne
      simp only [splitFuel, if_true, Option.some.injEq]
      refine ⟨?_, ?_⟩
      · intro hd
        subst hd
        exact .nil
      · intro h
        exact (h.eq_nil rfl).symm
    · simp only [splitFuel, hne, if_false]
      cases hu : unframe o b with
      | none =>
        simp only [reduceCtorEq, false_iff]
        intro h
        cases as with
        | nil => exact hne (area_nil_iff.mp h)
        | cons a as =>
          obtain ⟨rest, hs, -⟩ := area_iff_unframe.mp h
          rw [hu] at hs
          exact absurd hs (by simp)
      | some p =>
        obtain ⟨a, rest⟩ := p
        have hlt := length_unframe_lt hu
        simp only [Option.map_eq_some_iff, ih (show rest.length ≤ fuel by omega)]
        refine ⟨?_, ?_⟩
        · intro hd
          obtain ⟨as', hr, rfl⟩ := hd
          exact area_iff_unframe.mpr ⟨rest, hu, hr⟩
        · intro h
          cases as with
          | nil => exact absurd (area_nil_iff.mp h) hne
          | cons a' as' =>
            obtain ⟨rest', hs, hr⟩ := area_iff_unframe.mp h
            rw [hu] at hs
            simp only [Option.some.injEq, Prod.mk.injEq] at hs
            obtain ⟨rfl, rfl⟩ := hs
            exact ⟨as', hr, rfl⟩

/-- **The walk recognises exactly the grammar.** -/
theorem split_eq_some_iff {o : ByteOrder} {as : List Attr} {b : Bytes} :
    split o b = some as ↔ Area o as b :=
  splitFuel_eq_some_iff (Nat.le_refl _)

/-- A byte string spells at most one list of attributes. -/
theorem Area.unique {o : ByteOrder} {as bs : List Attr} {b : Bytes} (ha : Area o as b)
    (hb : Area o bs b) : as = bs := by
  rw [← split_eq_some_iff] at ha hb
  exact Option.some.inj (ha.symm.trans hb)

/-- A header and each attribute after it rewritten, the attributes with their padding again. -/
def canonical (o : ByteOrder) (headerLen : Nat) (canonHeader : Bytes → Bytes) (canon : Attr → Attr)
    (b : Bytes) : Bytes :=
  canonHeader (b.take headerLen) ++ wire o (((split o (b.drop headerLen)).getD []).map canon)

theorem Area.canonical_eq {o : ByteOrder} {as : List Attr} {b : Bytes} {headerLen : Nat}
    (h : Area o as (b.drop headerLen)) (canonHeader : Bytes → Bytes) (canon : Attr → Attr) :
    canonical o headerLen canonHeader canon b =
      canonHeader (b.take headerLen) ++ wire o (as.map canon) := by
  unfold canonical
  rw [split_eq_some_iff.mpr h]
  rfl

end Tlv
