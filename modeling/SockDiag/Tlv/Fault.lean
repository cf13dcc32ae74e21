import SockDiag.Tlv.Area

/-!
# What is wrong with an area

A walk over bytes that are no area of valid attributes comes to a first place where something is
wrong: there is no attribute to be taken off, or there is one that is not valid. `FirstFault` is
that place, without what was in front of it and without what comes behind.

There is one exactly when the bytes are not an area of valid attributes (`exists_firstFault_iff`),
so it can stand for the question whether a decoder accepts. An attribute that is named there is one,
with a length that fits, and is not valid (`FirstFault.not_valid`). What *valid* means is a
parameter: it may be any predicate of attributes, and a decoder brings its own.
-/

set_option autoImplicit false

namespace Tlv

open Rust

/-- What the walk over some bytes first finds wrong: an attribute, or `none` where it finds none. -/
inductive FirstFault (o : ByteOrder) (Valid : Attr → Prop) : Bytes → Option Attr → Prop
  | frame {b : Bytes} (hne : b ≠ []) (hu : unframe o b = none) : FirstFault o Valid b none
  | attr {b rest : Bytes} {a : Attr} (hu : unframe o b = some (a, rest)) (hbad : ¬ Valid a) :
      FirstFault o Valid b (some a)
  | next {b rest : Bytes} {a : Attr} {fault : Option Attr} (hu : unframe o b = some (a, rest))
      (hvalid : Valid a) (tail : FirstFault o Valid rest fault) : FirstFault o Valid b fault

variable {o : ByteOrder} {Valid : Attr → Prop} {b : Bytes} {a : Attr} {fault : Option Attr}

/-- The attribute that is wrong is one. -/
theorem FirstFault.not_valid (h : FirstFault o Valid b (some a)) : a.Fits ∧ ¬ Valid a := by
  generalize hf : some a = fault at h
  induction h with
  | frame => exact absurd hf (by simp)
  | attr hu hbad =>
    obtain rfl := Option.some.inj hf
    exact ⟨(unframe_eq_some hu).1, hbad⟩
  | next _ _ _ ih => exact ih hf

/-- **There is something wrong exactly where there is no area of valid attributes.** -/
theorem exists_firstFault_iff :
    (∃ fault, FirstFault o Valid b fault) ↔ ¬ ∃ as, Area o as b ∧ ∀ a ∈ as, Valid a := by
  refine ⟨?_, ?_⟩
  · intro h
    obtain ⟨fault, h⟩ := h
    induction h with
    | @frame b hne hu =>
      intro harea
      obtain ⟨as, ha, -⟩ := harea
      cases as with
      | nil => exact hne (area_nil_iff.mp ha)
      | cons a as =>
        obtain ⟨rest, hu', -⟩ := area_iff_unframe.mp ha
        rw [hu] at hu'
        exact absurd hu' (by simp)
    | attr hu hbad =>
      intro harea
      obtain ⟨as, ha, hall⟩ := harea
      obtain ⟨bs, rfl, -⟩ := ha.of_unframe hu
      exact hbad (hall _ (by simp))
    | next hu _ _ ih =>
      intro harea
      obtain ⟨as, ha, hall⟩ := harea
      obtain ⟨bs, rfl, hbs⟩ := ha.of_unframe hu
      exact ih ⟨bs, hbs, fun a hm => hall a (List.mem_cons_of_mem _ hm)⟩
  · -- What is left gets shorter with each attribute that is taken off.
    intro hnone
    generalize hn : b.length = n
    induction n using Nat.strongRecOn generalizing b with
    | ind n ih =>
      by_cases hne : b = []
      · exact absurd ⟨[], area_nil_iff.mpr hne, by simp⟩ hnone
      cases hu : unframe o b with
      | none => exact ⟨none, .frame hne hu⟩
      | some p =>
        obtain ⟨a, rest⟩ := p
        by_cases hvalid : Valid a
        · have hlt := length_unframe_lt hu
          have hrest : ¬ ∃ as, Area o as rest ∧ ∀ a ∈ as, Valid a := by
            intro harea
            obtain ⟨as, ha, hall⟩ := harea
            exact hnone ⟨a :: as, area_iff_unframe.mpr ⟨rest, hu, ha⟩,
              List.forall_mem_cons.mpr ⟨hvalid, hall⟩⟩
          obtain ⟨fault, hfault⟩ := ih rest.length (by omega) hrest rfl
          exact ⟨fault, .next hu hvalid hfault⟩
        · exact ⟨some a, .attr hu hvalid⟩

end Tlv
