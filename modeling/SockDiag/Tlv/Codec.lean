import SockDiag.Tlv.Area

/-!
# Typed attributes

A protocol gives its attributes types: it reads some raw attributes as values, rejects others, and
writes every value as a raw attribute. `Codec` is just that relation and that function, with **no
law** between them. Protocols lose things — two raw attributes read as one value, a value is written
as an attribute that reads as another — and what survives is exactly what the results below say
about a single attribute, lifted to a whole area.

There are four of them. A run of values comes back exactly when each of them does
(`Codec.decodes_encodeAll_self_iff`); bytes can be decoded when they are an area of valid attributes
(`Codec.exists_decodes_iff`); a codec that reads what another reads and does something to it does so
to a whole run (`Codec.decodes_iff_map`); and an attribute that is always read as one value puts
that value where it is and changes nothing else (`Codec.decodes_insert_iff`).
-/

set_option autoImplicit false

namespace Tlv

open Rust

/-- How a protocol reads and writes one attribute. -/
structure Codec (α : Type) where
  Reads : Attr → α → Prop
  encode : α → Attr

namespace Codec

variable {α : Type} (c : Codec α) (o : ByteOrder)

/-- `b` is an area whose attributes, all of them, read as `xs`. -/
def Decodes (b : Bytes) (xs : List α) : Prop :=
  ∃ as, Area o as b ∧ List.Forall₂ c.Reads as xs

/-- The values written one after the other. -/
def encodeAll (xs : List α) : Bytes := wire o (xs.map c.encode)

variable {c o} {b : Bytes} {as : List Attr} {x : α} {xs : List α}

theorem decodes_nil_iff : c.Decodes o b [] ↔ b = [] := by
  refine ⟨?_, ?_⟩
  · intro hd
    obtain ⟨as, ha, h⟩ := hd
    cases h
    exact area_nil_iff.mp ha
  · intro hd
    subst hd
    exact ⟨[], .nil, .nil⟩

/-- Nothing but the empty list is read off the empty byte string. -/
theorem decodes_empty_iff : c.Decodes o [] xs ↔ xs = [] := by
  refine ⟨?_, ?_⟩
  · intro hd
    obtain ⟨as, ha, h⟩ := hd
    obtain rfl := ha.eq_nil rfl
    cases h
    rfl
  · intro hd
    subst hd
    exact ⟨[], .nil, .nil⟩

/-- There is at most one value for every four bytes. -/
theorem Decodes.four_mul_length_le (h : c.Decodes o b xs) : 4 * xs.length ≤ b.length := by
  obtain ⟨as, ha, hxs⟩ := h
  rw [← hxs.length_eq]
  exact ha.four_mul_length_le

/-- Reading an area is reading its first attribute and then the rest. -/
theorem decodes_cons_iff :
    c.Decodes o b (x :: xs) ↔
      ∃ a rest, unframe o b = some (a, rest) ∧ c.Reads a x ∧ c.Decodes o rest xs := by
  refine ⟨?_, ?_⟩
  · intro hd
    obtain ⟨as, ha, h⟩ := hd
    cases h with
    | cons hx hxs =>
      obtain ⟨rest, hu, hr⟩ := area_iff_unframe.mp ha
      exact ⟨_, rest, hu, hx, _, hr, hxs⟩
  · intro hd
    obtain ⟨a, rest, hu, hx, as, hr, hxs⟩ := hd
    exact ⟨a :: as, area_iff_unframe.mpr ⟨rest, hu, hr⟩, .cons hx hxs⟩

/-- What is left to read once the first attribute is known. -/
theorem decodes_iff_of_unframe {a : Attr} {rest : Bytes} (hu : unframe o b = some (a, rest)) :
    c.Decodes o b xs ↔ ∃ y ys, xs = y :: ys ∧ c.Reads a y ∧ c.Decodes o rest ys := by
  cases xs with
  | nil =>
    have hne : b ≠ [] := by
      intro h
      subst h
      rw [unframe_nil] at hu
      exact absurd hu (by simp)
    simp [decodes_nil_iff, hne]
  | cons x xs =>
    rw [decodes_cons_iff]
    refine ⟨?_, ?_⟩
    · intro h
      obtain ⟨a', rest', hu', hx, hxs⟩ := h
      rw [hu] at hu'
      simp only [Option.some.injEq, Prod.mk.injEq] at hu'
      obtain ⟨rfl, rfl⟩ := hu'
      exact ⟨x, xs, rfl, hx, hxs⟩
    · intro h
      obtain ⟨y, ys, hxs, hy, hys⟩ := h
      cases hxs
      exact ⟨a, rest, hu, hy, hys⟩

/-- Bytes that begin no attribute are not an area. -/
theorem not_decodes_of_unframe (hne : b ≠ []) (hu : unframe o b = none) : ¬ c.Decodes o b xs := by
  intro h
  cases xs with
  | nil => exact hne (decodes_nil_iff.mp h)
  | cons x xs =>
    obtain ⟨a, rest, hu', -⟩ := decodes_cons_iff.mp h
    rw [hu] at hu'
    exact absurd hu' (by simp)

/-! ## Round trips -/

theorem decodes_wire_iff (h : ∀ a ∈ as, a.Fits) :
    c.Decodes o (wire o as) xs ↔ List.Forall₂ c.Reads as xs := by
  refine ⟨?_, ?_⟩
  · intro hd
    obtain ⟨bs, hb, hxs⟩ := hd
    obtain rfl := hb.unique (area_wire h)
    exact hxs
  · intro hxs
    exact ⟨as, area_wire h, hxs⟩

theorem fits_map_encode (h : ∀ x ∈ xs, (c.encode x).Fits) : ∀ a ∈ xs.map c.encode, a.Fits := by
  intro a ha
  obtain ⟨x, hx, rfl⟩ := List.mem_map.mp ha
  exact h x hx

/-- **A run of values comes back exactly when each of them does.** -/
theorem decodes_encodeAll_self_iff (h : ∀ x ∈ xs, (c.encode x).Fits) :
    c.Decodes o (c.encodeAll o xs) xs ↔ ∀ x ∈ xs, c.Reads (c.encode x) x := by
  rw [encodeAll, decodes_wire_iff (fits_map_encode h), List.forall₂_map_left_iff]
  exact List.forall₂_same

theorem encodeAll_append (xs ys : List α) :
    c.encodeAll o (xs ++ ys) = c.encodeAll o xs ++ c.encodeAll o ys := by
  unfold encodeAll wire
  rw [List.map_append, List.flatMap_append]

/-! ## Areas attribute by attribute -/

/-- What is read off bytes whose attributes are known. -/
theorem decodes_iff_of_area (ha : Area o as b) : c.Decodes o b xs ↔ List.Forall₂ c.Reads as xs := by
  refine ⟨?_, ?_⟩
  · intro hd
    obtain ⟨bs, hb, hxs⟩ := hd
    obtain rfl := hb.unique ha
    exact hxs
  · intro hxs
    exact ⟨as, ha, hxs⟩

/-- Where a value read off an attribute is written as `canon` of it, the values of an area are
    written as `canon` of its attributes. -/
theorem map_encode_eq_map {canon : Attr → Attr} (hcanon : ∀ a x, c.Reads a x → c.encode x = canon a)
    (h : List.Forall₂ c.Reads as xs) : xs.map c.encode = as.map canon := by
  induction h with
  | nil => rfl
  | cons hx _ ih => rw [List.map_cons, List.map_cons, hcanon _ _ hx, ih]

theorem exists_of_mem_left {a : Attr} (h : List.Forall₂ c.Reads as xs) (ha : a ∈ as) :
    ∃ x ∈ xs, c.Reads a x := by
  induction h with
  | nil => exact absurd ha (by simp)
  | cons hx _ ih =>
    rcases List.mem_cons.mp ha with rfl | ha
    · exact ⟨_, by simp, hx⟩
    · obtain ⟨x, hm, hx⟩ := ih ha
      exact ⟨x, List.mem_cons_of_mem _ hm, hx⟩

theorem exists_of_mem_right (h : List.Forall₂ c.Reads as xs) (hx : x ∈ xs) :
    ∃ a ∈ as, c.Reads a x := by
  induction h with
  | nil => exact absurd hx (by simp)
  | cons ha _ ih =>
    rcases List.mem_cons.mp hx with rfl | hx
    · exact ⟨_, by simp, ha⟩
    · obtain ⟨a, hm, ha⟩ := ih hx
      exact ⟨a, List.mem_cons_of_mem _ hm, ha⟩

/-- What is true of every attribute is true of every value, where the two say the same. -/
theorem forall_mem_iff {p : Attr → Prop} {q : α → Prop} (hpq : ∀ a z, c.Reads a z → (p a ↔ q z))
    (h : List.Forall₂ c.Reads as xs) : (∀ a ∈ as, p a) ↔ ∀ z ∈ xs, q z := by
  induction h with
  | nil => exact iff_of_true (by simp) (by simp)
  | cons hz _ ih => rw [List.forall_mem_cons, List.forall_mem_cons, hpq _ _ hz, ih]

theorem exists_forall₂ (h : ∀ a ∈ as, ∃ x, c.Reads a x) : ∃ xs, List.Forall₂ c.Reads as xs := by
  induction as with
  | nil => exact ⟨[], .nil⟩
  | cons a as ih =>
    obtain ⟨x, hx⟩ := h a (by simp)
    obtain ⟨xs, hxs⟩ := ih fun a' hm => h a' (by simp [hm])
    exact ⟨x :: xs, .cons hx hxs⟩

/-- **A byte string can be decoded when it is an area of valid attributes.** -/
theorem exists_decodes_iff {Valid : Attr → Prop} (hvalid : ∀ a, (∃ x, c.Reads a x) ↔ Valid a) :
    (∃ xs, c.Decodes o b xs) ↔ ∃ as, Area o as b ∧ ∀ a ∈ as, Valid a := by
  refine ⟨?_, ?_⟩
  · intro h
    obtain ⟨xs, as, ha, hxs⟩ := h
    refine ⟨as, ha, ?_⟩
    intro a hm
    obtain ⟨x, -, hx⟩ := exists_of_mem_left hxs hm
    exact (hvalid a).mp ⟨x, hx⟩
  · intro h
    obtain ⟨as, ha, hall⟩ := h
    obtain ⟨xs, hxs⟩ := exists_forall₂ fun a hm => (hvalid a).mpr (hall a hm)
    exact ⟨xs, as, ha, hxs⟩

/-! ## A codec on top of another -/

section Refine

variable {β : Type} {d : Codec β} {Good : α → Prop} {f : α → β} {ys : List β}

/-- `d` reads what `c` reads and is `Good`, as `f` of it. -/
theorem forall₂_reads_iff (hd : ∀ a y, d.Reads a y ↔ ∃ x, c.Reads a x ∧ Good x ∧ y = f x) :
    List.Forall₂ d.Reads as ys ↔
      ∃ xs, List.Forall₂ c.Reads as xs ∧ (∀ x ∈ xs, Good x) ∧ ys = xs.map f := by
  refine ⟨?_, ?_⟩
  · intro h
    induction h with
    | nil => exact ⟨[], .nil, by simp, rfl⟩
    | cons hy _ ih =>
      obtain ⟨x, hx, hgood, rfl⟩ := (hd _ _).mp hy
      obtain ⟨xs, hxs, hall, rfl⟩ := ih
      exact ⟨x :: xs, .cons hx hxs, List.forall_mem_cons.mpr ⟨hgood, hall⟩, rfl⟩
  · intro h
    obtain ⟨xs, hxs, hall, rfl⟩ := h
    induction hxs with
    | nil => exact .nil
    | cons hx _ ih =>
      obtain ⟨hgood, hall⟩ := List.forall_mem_cons.mp hall
      exact .cons ((hd _ _).mpr ⟨_, hx, hgood, rfl⟩) (ih hall)

theorem decodes_iff_map (hd : ∀ a y, d.Reads a y ↔ ∃ x, c.Reads a x ∧ Good x ∧ y = f x) :
    d.Decodes o b ys ↔ ∃ xs, c.Decodes o b xs ∧ (∀ x ∈ xs, Good x) ∧ ys = xs.map f := by
  unfold Decodes
  simp only [forall₂_reads_iff hd]
  refine ⟨?_, ?_⟩
  · intro h
    obtain ⟨as, ha, xs, hxs, hall, hys⟩ := h
    exact ⟨xs, ⟨as, ha, hxs⟩, hall, hys⟩
  · intro h
    obtain ⟨xs, ⟨as, ha, hxs⟩, hall, hys⟩ := h
    exact ⟨as, ha, xs, hxs, hall, hys⟩

end Refine

/-! ## Areas one behind the other -/

section Append

variable {x y mid : Bytes} {u : Attr} {v : α} {zs : List α}

/-- Behind whole attributes, what is read is what they read as and then the rest. -/
theorem decodes_append_iff (hx : Area o as x) (hal : x.length % 4 = 0) :
    c.Decodes o (x ++ y) zs ↔
      ∃ xs ys, zs = xs ++ ys ∧ List.Forall₂ c.Reads as xs ∧ c.Decodes o y ys := by
  refine ⟨?_, ?_⟩
  · intro h
    obtain ⟨cs, hcs, hzs⟩ := h
    obtain ⟨bs, rfl, hbs⟩ := (area_append_iff hx hal).mp hcs
    refine ⟨zs.take as.length, zs.drop as.length, (List.take_append_drop _ _).symm, ?_, bs, hbs, ?_⟩
    · have htake := List.forall₂_take as.length hzs
      rwa [List.take_left] at htake
    · have hdrop := List.forall₂_drop as.length hzs
      rwa [List.drop_left] at hdrop
  · intro h
    obtain ⟨xs, ys, rfl, hxs, bs, hbs, hys⟩ := h
    exact ⟨as ++ bs, hx.append hal hbs, List.rel_append hxs hys⟩

/-- The attributes in front are all among those that are read. -/
theorem Decodes.length_le_of_append (h : c.Decodes o (x ++ y) zs) (hx : Area o as x)
    (hal : x.length % 4 = 0) : as.length ≤ zs.length := by
  obtain ⟨xs, ys, rfl, hxs, -⟩ := (decodes_append_iff hx hal).mp h
  rw [List.length_append, hxs.length_eq]
  exact Nat.le_add_right _ _

/-- **An attribute that is always read as `v` puts `v` where it is**, and nothing else depends on
    it. -/
theorem decodes_insert_iff (hu : ∀ z, c.Reads u z ↔ z = v) (hx : Area o as x)
    (hal : x.length % 4 = 0) (hmid : Area o [u] mid) (hmidal : mid.length % 4 = 0) :
    c.Decodes o (x ++ (mid ++ y)) zs ↔
      ∃ front back, zs = front ++ v :: back ∧ front.length = as.length ∧
        c.Decodes o (x ++ y) (front ++ back) := by
  rw [decodes_append_iff hx hal]
  refine ⟨?_, ?_⟩
  · intro h
    obtain ⟨front, ws, rfl, hfront, hws⟩ := h
    obtain ⟨us, back, rfl, hus, hback⟩ := (decodes_append_iff hmid hmidal).mp hws
    obtain ⟨w, _, hw, hnil, rfl⟩ := List.forall₂_cons_left_iff.mp hus
    obtain rfl := List.forall₂_nil_left_iff.mp hnil
    obtain rfl := (hu w).mp hw
    refine ⟨front, back, rfl, hfront.length_eq.symm, ?_⟩
    exact (decodes_append_iff hx hal).mpr ⟨front, back, rfl, hfront, hback⟩
  · intro h
    obtain ⟨front, back, rfl, hlen, hd⟩ := h
    obtain ⟨front', back', heq, hfront, hback⟩ := (decodes_append_iff hx hal).mp hd
    obtain ⟨rfl, rfl⟩ := List.append_inj heq (hlen.trans hfront.length_eq)
    refine ⟨front, v :: back, rfl, hfront, ?_⟩
    refine (decodes_append_iff hmid hmidal).mpr ⟨[v], back, rfl, ?_, hback⟩
    exact .cons ((hu v).mpr rfl) .nil

end Append

/-! ## The first value of a kind -/

/-- Where a value is of the kind `f` looks for exactly when its attribute has `p`, the first such
    value is what the first such attribute reads as. -/
theorem findSome?_of_reads {β : Type} {p : Attr → Bool} {f : α → Option β} {g : Attr → β}
    (hf : ∀ a z, c.Reads a z → f z = if p a then some (g a) else none)
    (h : List.Forall₂ c.Reads as xs) : xs.findSome? f = (as.find? p).map g := by
  induction h with
  | nil => rfl
  | @cons a z as xs hz _ ih =>
    rw [List.findSome?_cons, List.find?_cons, hf a z hz]
    cases p a with
    | true => rfl
    | false => exact ih

end Codec

end Tlv
