import SockDiag.Rust.Outcome
import SockDiag.Rust.Packed

/-!
# Code that writes into a `&mut [u8]`

A `Writer` is a piece of Rust that is lent a mutable slice: it leaves new contents behind, or an
error, or it panics. A slice cannot be grown or shrunk through a borrow, and `length_run` is that
fact, carried by every writer. The combinators are the ways Rust code narrows a slice before it
writes (`&mut buf[lo..hi]`, `split_last_mut`), each with its bounds check.

Two specifications are used of a writer, and they are not the same:

* `w.Fills out` — lent exactly `out.length` bytes, it leaves `out`, whatever was there;
* `w.Emits out` — lent *at least* that many, it leaves `out` in front and the rest as it was.

Code that copies into a prefix of its slice `Emits`; code that copies into the whole slice only
`Fills`, because `copy_from_slice` panics on a length that is not its source's.
-/

set_option autoImplicit false

namespace Rust

/-- Code lent a `&mut [u8]`: what it leaves there, from what was there. -/
structure Writer (ε : Type) where
  run : Bytes → Outcome ε Bytes
  length_run : ∀ {buf out : Bytes}, run buf = .ok out → out.length = buf.length

namespace Writer

variable {ε ε' : Type}

/-! ## Combinators -/

/-- Nothing is written. -/
def skip : Writer ε where
  run buf := .ok buf
  length_run := by rintro _ _ ⟨⟩; rfl

/-- `panic!()`. -/
def abort : Writer ε where
  run _ := .panic
  length_run := by rintro _ _ ⟨⟩

/-- `buf.copy_from_slice(src)`: the two lengths must be equal. -/
def copyFromSlice (src : Bytes) : Writer ε where
  run buf := if buf.length = src.length then .ok src else .panic
  length_run := by
    intro buf out h
    split at h
    · rename_i hl
      cases h
      exact hl.symm
    · cases h

/-- `buf[i] = b`. -/
def set (i : Nat) (b : UInt8) : Writer ε where
  run buf := if i < buf.length then .ok (buf.set i b) else .panic
  length_run := by
    intro buf out h
    split at h
    · cases h
      simp
    · cases h

/-- `w(&mut buf[lo..hi])`. -/
def onRange (lo hi : Nat) (w : Writer ε) : Writer ε where
  run buf :=
    -- A range that runs backwards panics like one that runs past the end.
    if lo ≤ hi ∧ hi ≤ buf.length then do
      let mid ← w.run (slice buf lo hi)
      .ok (buf.take lo ++ mid ++ buf.drop hi)
    else .panic
  length_run := by
    intro buf out h
    split at h
    · rename_i hb
      obtain ⟨mid, hm, ho⟩ := Outcome.bind_eq_ok.mp h
      have hl := w.length_run hm
      rw [length_slice] at hl
      cases ho
      simp only [List.length_append, List.length_take, List.length_drop]
      omega
    · cases h

/-- `w(&mut buf[..hi])`. -/
def onPrefix (hi : Nat) (w : Writer ε) : Writer ε := onRange 0 hi w

/-- `w(&mut buf[lo..])`. -/
def onSuffix (lo : Nat) (w : Writer ε) : Writer ε where
  run buf := (onRange lo buf.length w).run buf
  length_run h := (onRange lo _ w).length_run h

/-- `w; v`. -/
def seq (w v : Writer ε) : Writer ε where
  run buf := w.run buf >>= v.run
  length_run := by
    intro buf out h
    obtain ⟨mid, hw, hv⟩ := Outcome.bind_eq_ok.mp h
    rw [v.length_run hv, w.length_run hw]

instance : AndThen (Writer ε) := ⟨fun w v => seq w (v ())⟩

/-- `let (last, first) = buf.split_last_mut().expect(..); w(first); *last = b;` -/
def splitLast (w : Writer ε) (b : UInt8) : Writer ε where
  run buf :=
    if buf = [] then .panic
    else do
      let first ← w.run buf.dropLast
      .ok (first ++ [b])
  length_run := by
    intro buf out h
    split at h
    · cases h
    · rename_i hne
      obtain ⟨first, hw, ho⟩ := Outcome.bind_eq_ok.mp h
      have hl := w.length_run hw
      have hpos := List.length_pos_iff.mpr hne
      cases ho
      simp only [List.length_append, List.length_singleton, hl, List.length_dropLast]
      omega

/-- `let (first, last) = buf.split_first_mut().expect(..); *first = b; w(last);` -/
def splitFirst (b : UInt8) (w : Writer ε) : Writer ε where
  run
    | [] => .panic
    | _ :: rest => do
      let last ← w.run rest
      .ok (b :: last)
  length_run := by
    intro buf out h
    cases buf with
    | nil => cases h
    | cons _ rest =>
      obtain ⟨last, hw, ho⟩ := Outcome.bind_eq_ok.mp h
      cases ho
      simp [w.length_run hw]

/-- `w(buf).unwrap()`. -/
def unwrap (w : Writer ε) : Writer ε' where
  run buf := (w.run buf).unwrap
  length_run h := w.length_run (Outcome.unwrap_eq_ok.mp h)

theorem run_andThen (w v : Writer ε) (buf : Bytes) : (w >> v).run buf = w.run buf >>= v.run := rfl

theorem run_onSuffix {lo : Nat} (w : Writer ε) {buf : Bytes} (h : lo ≤ buf.length) :
    (onSuffix lo w).run buf = w.run (buf.drop lo) >>= fun mid => .ok (buf.take lo ++ mid) := by
  simp [onSuffix, onRange, slice, h]

theorem run_onSuffix_of_lt {lo : Nat} (w : Writer ε) {buf : Bytes} (h : buf.length < lo) :
    (onSuffix lo w).run buf = .panic := by
  simp [onSuffix, onRange, Nat.not_le.mpr h]

theorem run_onPrefix {hi : Nat} (w : Writer ε) {buf : Bytes} (h : hi ≤ buf.length) :
    (onPrefix hi w).run buf = w.run (buf.take hi) >>= fun mid => .ok (mid ++ buf.drop hi) := by
  simp [onPrefix, onRange, slice, h]

theorem run_onPrefix_of_lt {hi : Nat} (w : Writer ε) {buf : Bytes} (h : buf.length < hi) :
    (onPrefix hi w).run buf = .panic := by
  simp [onPrefix, onRange, Nat.not_le.mpr h]

/-! ## What a writer leaves behind -/

/-- Lent exactly `out.length` bytes, it leaves `out`. -/
def Fills (w : Writer ε) (out : Bytes) : Prop :=
  ∀ buf : Bytes, buf.length = out.length → w.run buf = .ok out

/-- Lent at least `out.length` bytes, it leaves `out` and then the rest untouched. -/
def Emits (w : Writer ε) (out : Bytes) : Prop :=
  ∀ buf : Bytes, out.length ≤ buf.length → w.run buf = .ok (out ++ buf.drop out.length)

/-- Lent fewer than `n` bytes, it panics. -/
def Needs (w : Writer ε) (n : Nat) : Prop :=
  ∀ buf : Bytes, buf.length < n → w.run buf = .panic

theorem Emits.fills {w : Writer ε} {out : Bytes} (h : w.Emits out) : w.Fills out := by
  intro buf hl
  rw [h buf (Nat.le_of_eq hl.symm), ← hl, List.drop_length, List.append_nil]

/-- Lent `buf`, it leaves in the first `n` bytes what it leaves in any `n` bytes, and the rest as it
    was. -/
def Frames (w : Writer ε) (n : Nat) (buf : Bytes) : Prop :=
  ∃ out, w.run buf = .ok out ∧
    (∀ exact : Bytes, exact.length = n → w.run exact = .ok (out.take n)) ∧
    out.drop n = buf.drop n

/-- Lent `n` bytes, it leaves the same whatever was in them. -/
def Overwrites (w : Writer ε) (n : Nat) : Prop :=
  ∃ out : Bytes, out.length = n ∧ ∀ buf : Bytes, buf.length = n → w.run buf = .ok out

theorem Fills.overwrites {w : Writer ε} {out : Bytes} (h : w.Fills out) :
    w.Overwrites out.length := ⟨out, rfl, h⟩

/-- Two buffers that are written to are the same afterwards. -/
theorem Overwrites.agree {w : Writer ε} {n : Nat} (h : w.Overwrites n) {buf buf' : Bytes}
    (hbuf : buf.length = n) (hbuf' : buf'.length = n) :
    ∃ out, w.run buf = .ok out ∧ w.run buf' = .ok out := by
  obtain ⟨out, -, hrun⟩ := h
  exact ⟨out, hrun buf hbuf, hrun buf' hbuf'⟩

theorem Emits.frames {w : Writer ε} {out buf : Bytes} (h : w.Emits out)
    (hl : out.length ≤ buf.length) : w.Frames out.length buf := by
  refine ⟨_, h buf hl, ?_, List.drop_left⟩
  intro exact hexact
  rw [List.take_left]
  exact h.fills exact hexact

theorem fills_copyFromSlice (src : Bytes) : (copyFromSlice src : Writer ε).Fills src := by
  intro buf hl
  simp [copyFromSlice, hl]

theorem needs_copyFromSlice (src : Bytes) :
    (copyFromSlice src : Writer ε).Needs src.length := by
  intro buf hl
  simp [copyFromSlice, Nat.ne_of_lt hl]

/-- Copying into a whole slice frames nothing but a slice of the source's length. -/
theorem frames_copyFromSlice_iff {src buf : Bytes} :
    (copyFromSlice src : Writer ε).Frames src.length buf ↔ buf.length = src.length := by
  refine ⟨?_, ?_⟩
  · intro h
    obtain ⟨out, hout, -⟩ := h
    by_contra hne
    have hpanic : (copyFromSlice src : Writer ε).run buf = .panic := if_neg hne
    rw [hpanic] at hout
    cases hout
  · intro hl
    refine ⟨src, fills_copyFromSlice src buf hl, ?_, ?_⟩
    · intro exact hexact
      rw [List.take_length]
      exact fills_copyFromSlice src exact hexact
    · rw [List.drop_length, ← hl, List.drop_length]

/-- Copying into a prefix leaves the rest alone. -/
theorem Fills.onPrefix {w : Writer ε} {out : Bytes} (h : w.Fills out) :
    (onPrefix out.length w).Emits out := by
  intro buf hl
  rw [run_onPrefix w hl, h (buf.take out.length) (by simp [hl])]
  rfl

theorem Needs.onPrefix (w : Writer ε) (n : Nat) : (onPrefix n w).Needs n :=
  fun _ hl => run_onPrefix_of_lt w hl

/-- One writer after another, the second on what the first left over. -/
theorem Emits.append {w v : Writer ε} {a b : Bytes} (hw : w.Emits a) (hv : v.Emits b) :
    (w >> onSuffix a.length v).Emits (a ++ b) := by
  intro buf hl
  have hl' : a.length + b.length ≤ buf.length := by simpa using hl
  have hb : b.length ≤ (buf.drop a.length).length := by simp; omega
  rw [run_andThen, hw buf (by omega), Outcome.ok_bind, run_onSuffix v (by simp),
    List.drop_left, List.take_left, hv _ hb]
  simp [List.drop_drop]

theorem Emits.append_set {w : Writer ε} {a : Bytes} (hw : w.Emits a) (b : UInt8) :
    (w >> set a.length b).Emits (a ++ [b]) := by
  intro buf hl
  have hl' : a.length + 1 ≤ buf.length := by simpa using hl
  obtain ⟨c, cs, hc⟩ : ∃ c cs, buf.drop a.length = c :: cs := by
    cases hd : buf.drop a.length with
    | nil => have := congrArg List.length hd; simp at this; omega
    | cons c cs => exact ⟨c, cs, rfl⟩
  have hcs : buf.drop (a.length + 1) = cs := by rw [← List.drop_drop, hc]; rfl
  rw [run_andThen, hw buf (by omega), Outcome.ok_bind, hc]
  simp [set, hcs]

theorem emits_set_zero (b : UInt8) : (set 0 b : Writer ε).Emits [b] := by
  intro buf hl
  cases buf with
  | nil => simp at hl
  | cons c cs => simp [set]

theorem needs_set (i : Nat) (b : UInt8) : (set i b : Writer ε).Needs (i + 1) := by
  intro buf hl
  have : ¬ i < buf.length := by omega
  simp [set, this]

theorem Fills.splitLast {w : Writer ε} {out : Bytes} (h : w.Fills out) (b : UInt8) :
    (splitLast w b).Fills (out ++ [b]) := by
  intro buf hl
  rw [List.length_append, List.length_singleton] at hl
  have hne : buf ≠ [] := by rintro rfl; simp at hl
  have hd : buf.dropLast.length = out.length := by simp [hl]
  simp [Writer.splitLast, hne, h _ hd]

theorem Needs.splitLast {w : Writer ε} {n : Nat} (h : w.Needs n) (b : UInt8) :
    (splitLast w b).Needs (n + 1) := by
  intro buf hl
  by_cases hne : buf = []
  · simp [Writer.splitLast, hne]
  · have hd : buf.dropLast.length < n := by
      have := List.length_pos_iff.mpr hne
      rw [List.length_dropLast]; omega
    simp [Writer.splitLast, hne, h _ hd]

theorem Fills.splitFirst {w : Writer ε} {out : Bytes} (h : w.Fills out) (b : UInt8) :
    (splitFirst b w).Fills (b :: out) := by
  intro buf hl
  cases buf with
  | nil => simp at hl
  | cons c cs => simp [Writer.splitFirst, h cs (by simpa using hl)]

theorem Needs.splitFirst {w : Writer ε} {n : Nat} (h : w.Needs n) (b : UInt8) :
    (splitFirst b w).Needs (n + 1) := by
  intro buf hl
  cases buf with
  | nil => rfl
  | cons c cs => simp [Writer.splitFirst, h cs (by simpa using hl)]

theorem Emits.unwrap {w : Writer ε} {out : Bytes} (h : w.Emits out) :
    (w.unwrap : Writer ε').Emits out := by
  intro buf hl
  simp [Writer.unwrap, h buf hl]

/-- A writer that panics below `n` makes what follows it panic there too. -/
theorem Needs.andThen {w : Writer ε} {n : Nat} (h : w.Needs n) (v : Writer ε) :
    (w >> v).Needs n := by
  intro buf hl
  rw [run_andThen, h buf hl]
  rfl

end Writer

end Rust
