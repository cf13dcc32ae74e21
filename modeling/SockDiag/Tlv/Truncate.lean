import SockDiag.Tlv.Codec

/-!
# What is left of a run of attributes that is cut short

A run of attributes on the wire, cut after `n` bytes, is an area exactly when the cut falls inside
no attribute — at a boundary, or in the padding after one — and then it is the area of the
attributes that were over by `n`. That is `area_take_wire_iff`; `Clean` is such a cut, `kept` what
is left.

The positions are stated for any list whose elements have a length, so that they can be read off
attributes and off the values attributes are decoded to alike. `CutsThrough` and `endedBy` say the
same again with a header in front and with positions spelled out, for statements that are to be read
without this module: an index, where its attribute begins, and whether the cut is inside.
-/

set_option autoImplicit false

namespace Tlv

open Rust

section Positions

variable {α β : Type} (len : α → Nat)

/-- Where element `i` begins, the ones before it padded. -/
def start (xs : List α) (i : Nat) : Nat := ((xs.take i).map fun x => align (len x)).sum

/-- A cut at `n` falls inside no element. -/
def Clean (xs : List α) (n : Nat) : Prop :=
  ∀ i x, xs[i]? = some x → ¬ (start len xs i < n ∧ n < start len xs i + len x)

/-- The elements that are over by `n`. -/
def kept : List α → Nat → List α
  | [], _ => []
  | x :: xs, n => if len x ≤ n then x :: kept xs (n - align (len x)) else []

variable {len} {x : α} {xs : List α} {n i : Nat}

@[simp] theorem start_zero : start len xs 0 = 0 := by simp [start]

@[simp] theorem start_cons_succ : start len (x :: xs) (i + 1) = align (len x) + start len xs i := by
  simp [start]

/-- Cutting a run is cutting its first element, or cutting the rest. -/
theorem clean_cons_iff :
    Clean len (x :: xs) n ↔ ¬ (0 < n ∧ n < len x) ∧ Clean len xs (n - align (len x)) := by
  refine ⟨?_, ?_⟩
  · intro h
    refine ⟨by simpa using h 0 x rfl, ?_⟩
    intro i y hy
    have hcut := h (i + 1) y (by simpa using hy)
    rw [start_cons_succ] at hcut
    omega
  · intro hd i y hy
    obtain ⟨hhead, htail⟩ := hd
    cases i with
    | zero =>
      obtain rfl : x = y := by simpa using hy
      simpa using hhead
    | succ i =>
      have hcut := htail i y (by simpa using hy)
      rw [start_cons_succ]
      omega

theorem kept_zero (hpos : ∀ x ∈ xs, 0 < len x) : kept len xs 0 = [] := by
  cases xs with
  | nil => rfl
  | cons x xs =>
    have hx := hpos x (by simp)
    rw [kept, if_neg (by omega)]

/-- `kept`, by positions. -/
theorem kept_eq_filter (hpos : ∀ x ∈ xs, 0 < len x) :
    kept len xs n =
      (xs.zipIdx.filter fun p => decide (start len xs p.2 + len p.1 ≤ n)).map Prod.fst := by
  induction xs generalizing n with
  | nil => rfl
  | cons x xs ih =>
    have hx := hpos x (by simp)
    have hxs : ∀ y ∈ xs, 0 < len y := fun y hy => hpos y (by simp [hy])
    have hle := le_align (len x)
    -- Past the first element the positions are those of the rest, shifted.
    have hrest : ((xs.zipIdx 1).filter fun p =>
        decide (start len (x :: xs) p.2 + len p.1 ≤ n)).map Prod.fst =
          kept len xs (n - align (len x)) := by
      rw [ih hxs, List.zipIdx_succ, List.filter_map, List.map_map]
      have hfst : (Prod.fst ∘ fun (p : α × Nat) => (p.1, p.2 + 1)) = Prod.fst := rfl
      rw [hfst]
      congr 1
      apply List.filter_congr
      intro h hy
      obtain ⟨y, i⟩ := h
      have hy0 := hxs y (List.fst_mem_of_mem_zipIdx hy)
      simp only [Function.comp_apply, start_cons_succ, decide_eq_decide]
      omega
    rw [List.zipIdx_cons, List.filter_cons]
    by_cases hfit : len x ≤ n
    · simp only [kept, start_zero, hfit, Nat.zero_add, decide_true, if_true, List.map_cons, hrest]
    · have hnone : kept len xs (n - align (len x)) = [] := by
        rw [show n - align (len x) = 0 by omega]
        exact kept_zero hxs
      simp only [kept, start_zero, hfit, Nat.zero_add, decide_false, if_false, hrest, hnone,
        Bool.false_eq_true]

theorem kept_map {f : β → α} (ys : List β) (n : Nat) :
    kept len (ys.map f) n = (kept (len ∘ f) ys n).map f := by
  induction ys generalizing n with
  | nil => rfl
  | cons y ys ih =>
    simp only [List.map_cons, kept, Function.comp_apply, ih]
    split <;> rfl

theorem clean_map_iff {f : β → α} {ys : List β} :
    Clean len (ys.map f) n ↔ Clean (len ∘ f) ys n := by
  induction ys generalizing n with
  | nil => simp [Clean]
  | cons y ys ih => rw [List.map_cons, clean_cons_iff, clean_cons_iff, ih, Function.comp_apply]

theorem mem_of_mem_kept : ∀ {n : Nat}, x ∈ kept len xs n → x ∈ xs := by
  induction xs with
  | nil => exact id
  | cons y ys ih =>
    intro n h
    rw [kept] at h
    split at h
    · rcases List.mem_cons.mp h with rfl | h
      · simp
      · exact List.mem_cons_of_mem _ (ih h)
    · exact absurd h (by simp)

theorem start_map {f : β → α} (ys : List β) (i : Nat) :
    start len (ys.map f) i = start (len ∘ f) ys i := by
  unfold start
  rw [← List.map_take, List.map_map]
  rfl

/-! ### After a header -/

/-- Where element `i` begins in a message with a header. -/
def position (headerLen : Nat) (len : α → Nat) (xs : List α) (i : Nat) : Nat :=
  headerLen + start len xs i

/-- A cut at `n` goes through the header or through an element. -/
def CutsThrough (headerLen : Nat) (len : α → Nat) (xs : List α) (n : Nat) : Prop :=
  n < headerLen ∨ ∃ i x, xs[i]? = some x ∧ position headerLen len xs i < n ∧
    n < position headerLen len xs i + len x

/-- The elements that end at or before `n`, their padding aside. -/
def endedBy (headerLen : Nat) (len : α → Nat) (xs : List α) (n : Nat) : List α :=
  (xs.zipIdx.filter fun p => decide (position headerLen len xs p.2 + len p.1 ≤ n)).map Prod.fst

variable {headerLen : Nat}

theorem cutsThrough_iff :
    CutsThrough headerLen len xs n ↔ n < headerLen ∨ ¬ Clean len xs (n - headerLen) := by
  unfold CutsThrough Clean position
  by_cases hn : n < headerLen
  · exact iff_of_true (.inl hn) (.inl hn)
  · rw [or_iff_right hn, or_iff_right hn]
    push Not
    refine ⟨?_, ?_⟩
    · intro h
      obtain ⟨i, x, hx, hlo, hhi⟩ := h
      exact ⟨i, x, hx, by omega, by omega⟩
    · intro h
      obtain ⟨i, x, hx, hlo, hhi⟩ := h
      exact ⟨i, x, hx, by omega, by omega⟩

theorem endedBy_eq_kept (hpos : ∀ x ∈ xs, 0 < len x) (hn : headerLen ≤ n) :
    endedBy headerLen len xs n = kept len xs (n - headerLen) := by
  rw [kept_eq_filter hpos]
  unfold endedBy position
  congr 1
  apply List.filter_congr
  intro p hp
  have hlen := hpos p.1 (List.fst_mem_of_mem_zipIdx hp)
  rw [decide_eq_decide]
  omega

end Positions

section Area

variable {o : ByteOrder} {a : Attr} {as bs : List Attr} {n : Nat}

theorem clean_zero {α : Type} {len : α → Nat} (xs : List α) : Clean len xs 0 :=
  fun _ _ _ h => Nat.not_lt_zero _ h.1

/-- An attribute cut inside its header or its payload is not recognised. -/
theorem unframe_take_eq_none (fits : a.Fits) (hn : n < a.length) (tail : Bytes) :
    unframe o ((a.body o ++ tail).take n) = none := by
  have hlen : ((a.body o ++ tail).take n).length = n := by
    rw [List.length_take, List.length_append, Attr.length_body]
    omega
  by_cases h4 : n < 4
  · -- Not even the header is whole.
    rw [unframe, if_neg]
    rw [hlen]
    omega
  · have hfield : ((Packed.u16 o).ofBytes (((a.body o ++ tail).take n).take 2)).toNat = a.length := by
      rw [List.take_take, Nat.min_eq_left (by omega), take_two_body, Packed.ofBytes_toBytes]
      exact UInt16.toNat_ofNat_of_lt' fits
    rw [unframe, if_neg]
    rw [hlen, hfield]
    omega

/-- An attribute that is over by `n` is taken off, and the cut moves to the rest. -/
theorem unframe_take_wire (fits : a.Fits) (hn : a.length ≤ n) :
    unframe o ((wire o (a :: as)).take n) =
      some (a, (wire o as).take (n - align a.length)) := by
  have hpad := a.length_add_padding
  have hsplit : (wire o (a :: as)).take n =
      a.body o ++ (List.replicate a.padding 0 ++ wire o as).take (n - a.length) := by
    rw [wire_cons, Attr.wire, List.append_assoc, List.take_append, Attr.length_body,
      List.take_of_length_le (by rw [Attr.length_body]; exact hn)]
  have hcut : n - a.length - a.padding = n - align a.length := by omega
  rw [hsplit, unframe_body fits, List.drop_take, List.drop_left' (List.length_replicate ..), hcut]

/-- **A cut run is an area exactly when the cut is clean**, and then of the attributes kept. -/
theorem area_take_wire_iff (fits : ∀ a ∈ as, a.Fits) :
    Area o bs ((wire o as).take n) ↔ Clean Attr.length as n ∧ bs = kept Attr.length as n := by
  -- Each attribute moves the cut back by its own length, padding included.
  induction as generalizing n bs with
  | nil =>
    rw [wire_nil, List.take_nil]
    refine ⟨?_, ?_⟩
    · intro h
      exact ⟨fun _ _ hx => absurd hx (by simp), h.eq_nil rfl⟩
    · intro hd
      obtain ⟨-, rfl⟩ := hd
      exact .nil
  | cons a as ih =>
    have hfit := fits a (by simp)
    have htail : ∀ b ∈ as, b.Fits := fun b hb => fits b (by simp [hb])
    have hpos := a.four_le_length
    rw [clean_cons_iff]
    by_cases hn : n < a.length
    · -- Nothing is kept: either nothing is left at all, or a piece of the first attribute is.
      have hkept : kept Attr.length (a :: as) n = [] := by rw [kept, if_neg (by omega)]
      rw [hkept]
      by_cases h0 : n = 0
      · subst h0
        rw [List.take_zero]
        refine ⟨?_, ?_⟩
        · intro h
          exact ⟨⟨fun h => absurd h.1 (Nat.lt_irrefl 0), by simpa using clean_zero as⟩, h.eq_nil rfl⟩
        · intro hd
          obtain ⟨-, rfl⟩ := hd
          exact .nil
      · have hne : (wire o (a :: as)).take n ≠ [] := by
          intro h
          have hlen := congrArg List.length h
          have := le_align a.length
          simp only [wire_cons, List.length_take, List.length_append, Attr.length_wire,
            List.length_nil] at hlen
          omega
        refine iff_of_false ?_ fun h => h.1.1 ⟨by omega, hn⟩
        intro h
        cases bs with
        | nil => exact hne (area_nil_iff.mp h)
        | cons b bs =>
          obtain ⟨rest, hu, -⟩ := area_iff_unframe.mp h
          rw [wire_cons, Attr.wire, List.append_assoc, unframe_take_eq_none hfit hn] at hu
          exact absurd hu (by simp)
    · have hle : a.length ≤ n := Nat.le_of_not_lt hn
      have hkept : kept Attr.length (a :: as) n =
          a :: kept Attr.length as (n - align a.length) := by rw [kept, if_pos hle]
      have hu : unframe o ((wire o (a :: as)).take n) =
          some (a, (wire o as).take (n - align a.length)) := unframe_take_wire hfit hle
      rw [hkept]
      cases bs with
      | nil =>
        refine iff_of_false ?_ fun h => absurd h.2 (by simp)
        intro h
        rw [area_nil_iff.mp h, unframe_nil] at hu
        exact absurd hu (by simp)
      | cons b bs =>
        rw [area_iff_unframe, hu]
        refine ⟨?_, ?_⟩
        · intro hd
          obtain ⟨rest, hr, htl⟩ := hd
          simp only [Option.some.injEq, Prod.mk.injEq] at hr
          obtain ⟨rfl, rfl⟩ := hr
          obtain ⟨hclean, rfl⟩ := (ih htail).mp htl
          exact ⟨⟨fun h => hn h.2, hclean⟩, rfl⟩
        · intro hd
          obtain ⟨⟨-, hclean⟩, hb⟩ := hd
          obtain ⟨rfl, rfl⟩ := List.cons.inj hb
          exact ⟨_, rfl, (ih htail).mpr ⟨hclean, rfl⟩⟩

end Area

/-! ## Where an attribute is -/

theorem drop_start_wire {o : ByteOrder} {a : Attr} {as : List Attr} {i : Nat}
    (ha : as[i]? = some a) :
    ∃ tail, (wire o as).drop (start Attr.length as i) = a.wire o ++ tail := by
  induction as generalizing i with
  | nil => exact absurd ha (by simp)
  | cons b as ih =>
    cases i with
    | zero =>
      obtain rfl : b = a := by simpa using ha
      exact ⟨wire o as, by rw [start_zero, List.drop_zero, wire_cons]⟩
    | succ i =>
      obtain ⟨tail, htail⟩ := ih (i := i) (by simpa using ha)
      refine ⟨tail, ?_⟩
      rw [start_cons_succ, wire_cons, ← List.drop_drop, List.drop_left' (Attr.length_wire o b),
        htail]

/-- Attribute `i` of a run is where `start` says. -/
theorem slice_wire {o : ByteOrder} {a : Attr} {as : List Attr} {i : Nat} (ha : as[i]? = some a) :
    slice (wire o as) (start Attr.length as i) (start Attr.length as i + a.length) = a.body o := by
  obtain ⟨tail, htail⟩ := drop_start_wire (o := o) ha
  unfold slice
  rw [List.drop_take, htail, Nat.add_sub_cancel_left, Attr.wire, List.append_assoc]
  exact List.take_left' (a.length_body o)

/-! ## Decoding what is left -/

namespace Codec

variable {α : Type} {c : Codec α} {o : ByteOrder} {xs ys : List α} {n : Nat}

/-- The wire length of a value, without padding. -/
def encodedLength (c : Codec α) (x : α) : Nat := (c.encode x).length

theorem encodedLength_pos (x : α) : 0 < c.encodedLength x :=
  Nat.lt_of_lt_of_le (by decide) (Attr.four_le_length _)

/-- Values that come back whole come back from a clean cut too, those that were over by then. -/
theorem decodes_take_of_clean (fits : ∀ x ∈ xs, (c.encode x).Fits)
    (survive : ∀ x ∈ xs, c.Reads (c.encode x) x) (hclean : Clean c.encodedLength xs n) :
    c.Decodes o ((c.encodeAll o xs).take n) (kept c.encodedLength xs n) := by
  refine ⟨_, (area_take_wire_iff (fits_map_encode fits)).mpr ⟨clean_map_iff.mpr hclean, rfl⟩, ?_⟩
  rw [kept_map, List.forall₂_map_left_iff]
  exact List.forall₂_same.mpr fun x hx => survive x (mem_of_mem_kept hx)

/-- Nothing is read off a cut through a value. -/
theorem not_decodes_take (fits : ∀ x ∈ xs, (c.encode x).Fits)
    (hcut : ¬ Clean c.encodedLength xs n) : ¬ c.Decodes o ((c.encodeAll o xs).take n) ys := by
  intro h
  obtain ⟨as, harea, -⟩ := h
  exact hcut (clean_map_iff.mp ((area_take_wire_iff (fits_map_encode fits)).mp harea).1)

end Codec

end Tlv
