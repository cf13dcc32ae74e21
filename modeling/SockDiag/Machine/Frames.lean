import SockDiag.Rust.Packed

/-!
# Messages that say how long they are

Several messages of different lengths one behind the other, with nothing between them: a reader that
is put at the beginning finds the next one by adding up lengths. It needs to know nothing but how to
read one message off the front of some bytes, and that this depends on that message's own bytes: a
`FrameReader` has just these as its fields.

`Packs xs d` is what it means that `d` is the messages `xs` and nothing else. Messages that can be
read one by one can be packed (`packs_flatten_iff`), and bytes are packed with one list of messages
at most (`Packs.unique`), so the bytes that went through a stream say which messages did.

A reader is often lent more than it should read: a buffer whose part from `lo` to `hi` holds the
messages, with something else behind it. The last section is about that. What is read off the buffer
at `lo` may go past `hi`, and `packs_slice_iff` says what it has to do with the part: it is the
first of whole messages there exactly when it ends where the part does, or what comes behind it in
the part is whole messages again.
-/

set_option autoImplicit false

open Rust

/-- Reads one message off the front of some bytes, and how many of them it is. -/
structure FrameReader (α : Type) where
  read : Bytes → Option (α × Nat)
  pos : ∀ {b : Bytes} {x : α} {n : Nat}, read b = some (x, n) → 0 < n
  le_length : ∀ {b : Bytes} {x : α} {n : Nat}, read b = some (x, n) → n ≤ b.length
  /-- Whatever comes behind a message, it is read as the same. -/
  own : ∀ {b : Bytes} {x : α} {n : Nat}, read b = some (x, n) →
    ∀ c : Bytes, read (b.take n ++ c) = some (x, n)

namespace FrameReader

variable {α : Type} (R : FrameReader α)

/-- The bytes `d` are the messages `xs`. -/
inductive Packs : List α → Bytes → Prop
  | nil : Packs [] []
  | cons {x : α} {xs : List α} {f d : Bytes} (head : R.read f = some (x, f.length))
      (tail : Packs xs d) : Packs (x :: xs) (f ++ d)

variable {R} {x : α} {xs ys : List α} {b d f : Bytes} {n : Nat}

/-- A whole message is read off the front of anything it is in front of. -/
theorem read_append (h : R.read f = some (x, f.length)) (c : Bytes) :
    R.read (f ++ c) = some (x, f.length) := by
  have hown := R.own h c
  rwa [List.take_length] at hown

/-- What was read is a whole message. -/
theorem read_take (h : R.read b = some (x, n)) : R.read (b.take n) = some (x, (b.take n).length) := by
  have hown := R.own h []
  have hlen : (b.take n).length = n := List.length_take_of_le (R.le_length h)
  rw [hlen]
  rwa [List.append_nil] at hown

/-- **The bytes of a message are all it is read from**, so they may as well be the last there are. -/
theorem read_take_of_le {m : Nat} (h : R.read b = some (x, n)) (hle : n ≤ m) :
    R.read (b.take m) = some (x, n) := by
  have hown := R.own h ((b.take m).drop n)
  have htake : b.take n = (b.take m).take n := by rw [List.take_take, Nat.min_eq_left hle]
  rwa [htake, List.take_append_drop] at hown

theorem packs_nil_iff : R.Packs xs [] ↔ xs = [] := by
  refine ⟨?_, ?_⟩
  · intro h
    generalize hd : ([] : Bytes) = d at h
    cases h with
    | nil => rfl
    | cons head tail =>
      have hpos := R.pos head
      obtain ⟨rfl, -⟩ := List.append_eq_nil_iff.mp hd.symm
      exact absurd hpos (Nat.lt_irrefl 0)
  · intro hd
    subst hd
    exact .nil

/-- One message at a time off the front. -/
theorem packs_cons_iff :
    R.Packs (x :: xs) d ↔ ∃ n, R.read d = some (x, n) ∧ R.Packs xs (d.drop n) := by
  refine ⟨?_, ?_⟩
  · intro h
    cases h with
    | @cons _ _ f d head tail =>
      refine ⟨f.length, read_append head d, ?_⟩
      rw [List.drop_left]
      exact tail
  · intro h
    obtain ⟨n, hread, htail⟩ := h
    have hcons := Packs.cons (read_take hread) htail
    rwa [List.take_append_drop] at hcons

theorem Packs.append (hx : R.Packs xs b) (hy : R.Packs ys d) : R.Packs (xs ++ ys) (b ++ d) := by
  induction hx with
  | nil => exact hy
  | cons head _ ih =>
    rw [List.append_assoc]
    exact .cons head ih

theorem packs_singleton (h : R.read f = some (x, f.length)) : R.Packs [x] f := by
  have hcons := Packs.cons h .nil
  rwa [List.append_nil] at hcons

/-- Messages that were packed one by one. -/
theorem packs_flatten {fs : List Bytes}
    (h : List.Forall₂ (fun x f => R.read f = some (x, f.length)) xs fs) :
    R.Packs xs fs.flatten := by
  induction h with
  | nil => exact .nil
  | cons head _ ih => exact .cons head ih

/-- **And only so, where each says how long it is.** -/
theorem packs_flatten_iff {fs : List Bytes}
    (h : List.Forall₂ (fun _ f => ∀ y n c, R.read (f ++ c) = some (y, n) → n = f.length) xs fs) :
    R.Packs xs fs.flatten ↔ List.Forall₂ (fun x f => R.read f = some (x, f.length)) xs fs := by
  refine ⟨?_, packs_flatten⟩
  intro hpacks
  induction h with
  | nil => exact .nil
  | @cons x f xs fs hf _ ih =>
    obtain ⟨n, hread, htail⟩ := packs_cons_iff.mp hpacks
    obtain rfl := hf x n fs.flatten hread
    have htake := read_take hread
    rw [List.flatten_cons, List.take_left] at htake
    rw [List.flatten_cons, List.drop_left] at htail
    exact .cons htake (ih htail)

/-- **Bytes are packed with one list of messages at most.** -/
theorem Packs.unique (hx : R.Packs xs d) (hy : R.Packs ys d) : xs = ys := by
  induction hx generalizing ys with
  | nil => exact (packs_nil_iff.mp hy).symm
  | @cons x xs f d head tail ih =>
    cases ys with
    | nil =>
      have hnil : f ++ d = [] := by
        generalize f ++ d = b at hy
        cases hy
        rfl
      obtain ⟨rfl, -⟩ := List.append_eq_nil_iff.mp hnil
      exact absurd (R.pos head) (Nat.lt_irrefl 0)
    | cons y ys =>
      -- The first message is read off the same bytes in both.
      obtain ⟨n, hread, hys⟩ := packs_cons_iff.mp hy
      rw [read_append head] at hread
      obtain ⟨rfl, rfl⟩ := Prod.mk.inj (Option.some.inj hread)
      rw [List.drop_left] at hys
      rw [ih hys]

/-! ## A part of a buffer

A reader that goes through the bytes from `lo` to `hi` of a larger buffer sees the bytes behind `hi`
as well. -/

section Slice

variable {lo hi : Nat}

/-- A message of the part is one of the buffer. -/
theorem read_drop_of_slice (h : R.read (slice b lo hi) = some (x, n)) :
    R.read (b.drop lo) = some (x, n) := by
  have hslice : slice b lo hi = (b.drop lo).take (hi - lo) := List.drop_take
  have hle := R.le_length h
  have htake : (slice b lo hi).take n = (b.drop lo).take n := by
    rw [hslice, List.take_take, Nat.min_eq_left (by
      rw [hslice, List.length_take] at hle
      exact Nat.le_trans hle (Nat.min_le_left _ _))]
  have hown := R.own h ((b.drop lo).drop n)
  rwa [htake, List.take_append_drop] at hown

theorem not_packs_slice (hread : R.read (b.drop lo) = none) (hne : xs ≠ []) :
    ¬ R.Packs xs (slice b lo hi) := by
  intro h
  cases xs with
  | nil => exact hne rfl
  | cons x xs =>
    obtain ⟨n, hn, -⟩ := packs_cons_iff.mp h
    rw [read_drop_of_slice hn] at hread
    exact absurd hread (by simp)

/-- **The part is whole messages when the first of them ends with it, or when what comes behind that
    one is.** -/
theorem packs_slice_iff (hhi : hi ≤ b.length) (hread : R.read (b.drop lo) = some (x, n))
    (hne : xs ≠ []) :
    R.Packs xs (slice b lo hi) ↔
      ∃ ys, xs = x :: ys ∧
        ((lo + n = hi ∧ ys = []) ∨
          (lo + n ≠ hi ∧ ys ≠ [] ∧ R.Packs ys (slice b (lo + n) hi))) := by
  have hslice : slice b lo hi = (b.drop lo).take (hi - lo) := List.drop_take
  have hdrop : (slice b lo hi).drop n = slice b (lo + n) hi := List.drop_drop
  have hpos := R.pos hread
  refine ⟨?_, ?_⟩
  · intro h
    cases xs with
    | nil => exact absurd rfl hne
    | cons y ys =>
      obtain ⟨k, hk, hys⟩ := packs_cons_iff.mp h
      have hle := R.le_length hk
      have hsame := read_drop_of_slice hk
      rw [hread] at hsame
      obtain ⟨rfl, rfl⟩ := Prod.mk.inj (Option.some.inj hsame)
      rw [length_slice] at hle
      rw [hdrop] at hys
      refine ⟨ys, rfl, ?_⟩
      by_cases hend : lo + n = hi
      · have hnil : slice b (lo + n) hi = [] := List.eq_nil_of_length_eq_zero (by
          rw [length_slice]
          omega)
        rw [hnil] at hys
        exact .inl ⟨hend, packs_nil_iff.mp hys⟩
      · refine .inr ⟨hend, ?_, hys⟩
        -- There are bytes left, so there is a message.
        intro hnil
        subst hnil
        have hlen : (slice b (lo + n) hi).length = 0 := by
          generalize slice b (lo + n) hi = d at hys
          cases hys
          rfl
        rw [length_slice] at hlen
        omega
  · intro h
    obtain ⟨ys, rfl, ⟨hend, rfl⟩ | ⟨-, hys, htail⟩⟩ := h
    · have hn : hi - lo = n := by omega
      rw [hslice, hn]
      exact packs_singleton (read_take hread)
    · -- What comes behind is not empty, so the first message ends in front of `hi`.
      have hlt : lo + n < hi := by
        by_contra hnot
        have hnil : slice b (lo + n) hi = [] := List.eq_nil_of_length_eq_zero (by
          rw [length_slice]
          omega)
        rw [hnil] at htail
        exact hys (packs_nil_iff.mp htail)
      refine packs_cons_iff.mpr ⟨n, ?_, ?_⟩
      · rw [hslice]
        exact read_take_of_le hread (by omega)
      · rw [hdrop]
        exact htail

end Slice

end FrameReader
