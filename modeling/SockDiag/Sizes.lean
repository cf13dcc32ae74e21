import Mathlib.Algebra.Group.Action.Defs
import Mathlib.Algebra.Order.BigOperators.Group.List
import Mathlib.Algebra.Order.Ring.Nat
import SockDiag.Canonical

/-!
# How long messages are

Everything in a message is padded to a multiple of four, so messages are multiples of four long, and
may be put one behind the other with nothing in between. What was decoded is written again in about
as many bytes: the structs lose what is past their end, and an attribute only ever grows by the NUL
of a congestion control name, which is four bytes at most. `SockDiagMessage.grows` counts these.

`bufferLen_bounds` is both. The first is a fact about areas (`length_wire_mod`), the second goes
attribute by attribute (`Inet.Nla.length_encode_le`, `Unix.Nla.length_encode_le`) and is added up by
`Codec.length_encodeAll_le`. A program that sends on what it has received can plan its buffer by it,
as `SockDiag.Dump.Relay` does.
-/

set_option autoImplicit false

namespace Tlv

open Rust

theorem align_mono {m n : Nat} (h : m ≤ n) : align m ≤ align n := by unfold align; omega

theorem length_wire_mod (o : ByteOrder) (as : List Attr) : (wire o as).length % 4 = 0 := by
  induction as with
  | nil => rfl
  | cons a as ih =>
    rw [wire_cons, List.length_append, Attr.length_wire]
    unfold align
    omega

/-- Written afresh an area is what it was, with the padding that may have been missing. -/
theorem Area.length_wire {o : ByteOrder} {as : List Attr} {b : Bytes} (h : Area o as b) :
    (wire o as).length = align b.length := by
  induction h with
  | nil => rfl
  | @last a pad _ short =>
    have hpad := a.length_add_padding
    rw [wire_cons, wire_nil, List.append_nil, Attr.length_wire, List.length_append,
      Attr.length_body]
    unfold align at hpad ⊢
    omega
  | @cons a pad rest as _ full _ ih =>
    have hpad := a.length_add_padding
    rw [wire_cons, List.length_append, Attr.length_wire, ih, List.length_append, List.length_append,
      Attr.length_body, full]
    unfold align at hpad ⊢
    omega

/-- No attribute is longer than the bytes it stands in. -/
theorem Area.length_le_of_mem {o : ByteOrder} {as : List Attr} {a : Attr} {b : Bytes}
    (h : Area o as b) (ha : a ∈ as) : a.length ≤ b.length := by
  induction h with
  | nil => exact absurd ha (by simp)
  | last =>
    obtain rfl := List.mem_singleton.mp ha
    rw [List.length_append, Attr.length_body]
    exact Nat.le_add_right _ _
  | cons _ _ _ ih =>
    rw [List.length_append, List.length_append, Attr.length_body]
    rcases List.mem_cons.mp ha with rfl | ha
    · omega
    · have hle := ih ha
      omega

/-- Where each attribute grows by no more than `grows` says, so do all of them. -/
theorem Codec.length_encodeAll_le {α : Type} {c : Codec α} {o : ByteOrder} {grows : α → Nat}
    {as : List Attr} {xs : List α} (h : List.Forall₂ c.Reads as xs)
    (hgrows : ∀ a x, c.Reads a x → align (c.encode x).length ≤ align a.length + grows x) :
    (c.encodeAll o xs).length ≤ (wire o as).length + (xs.map grows).sum := by
  induction h with
  | nil => exact Nat.le_refl _
  | @cons a x as xs hx _ ih =>
    have hone := hgrows a x hx
    unfold encodeAll at ih ⊢
    rw [List.map_cons, wire_cons, wire_cons, List.map_cons, List.sum_cons, List.length_append,
      List.length_append, Attr.length_wire, Attr.length_wire]
    omega

end Tlv

namespace SockDiag

open Rust Tlv Inet Unix

/-! ## Attributes -/

/-- Room for the NUL of a name. -/
def Inet.Nla.grows {rich : Bool} : Inet.Nla rich → Nat
  | congestion _ => 4
  | _ => 0

theorem Inet.Nla.grows_of_reads {o : ByteOrder} {rich : Bool} {a : Attr} {x : Nla rich}
    (h : Reads o a x) (hk : nlaType a.kind = inetDiagCong) : x.grows = 4 := by
  cases x with
  | congestion s => rfl
  | other attr => exact absurd (by rw [hk]; decide) h.1
  | _ =>
    have htype := hk.symm.trans h.1
    exact absurd htype (by decide)

theorem Inet.Nla.length_encode_le {o : ByteOrder} {rich : Bool} {a : Attr} {x : Nla rich}
    (h : (codec o rich).Reads a x) :
    align ((codec o rich).encode x).length ≤ align a.length + x.grows := by
  have hcanon : (codec o rich).encode x = canon rich a := toAttr_eq_canon h
  rw [hcanon]
  by_cases hk : nlaType a.kind = inetDiagCong
  · -- The NUL may be one byte too many for the padding there was.
    have hle : (canonPayload rich (nlaType a.kind) a.payload).length ≤ a.payload.length + 1 := by
      rw [hk]
      show (if a.payload.getLast? = some 0 then a.payload else a.payload ++ [0]).length ≤ _
      split
      · exact Nat.le_add_right _ _
      · exact Nat.le_of_eq List.length_append
    rw [grows_of_reads h hk]
    show align (4 + (canonPayload rich (nlaType a.kind) a.payload).length) ≤
      align (4 + a.payload.length) + 4
    unfold align
    omega
  · have hle := length_canonPayload_le rich hk a.payload
    exact Nat.le_trans (align_mono (Nat.add_le_add_left hle 4)) (Nat.le_add_right _ _)

theorem Unix.Nla.length_encode_le {o : ByteOrder} {a : Attr} {x : Nla} (h : (codec o).Reads a x) :
    align ((codec o).encode x).length ≤ align a.length := by
  have hcanon : (codec o).encode x = canon a := toAttr_eq_canon h
  have hvalid := validPayload_of_reads h
  rw [hcanon]
  refine align_mono (Nat.add_le_add_left ?_ 4)
  show (canonPayload (nlaType a.kind) a.payload).length ≤ a.payload.length
  unfold canonPayload
  split
  · exact List.length_take_le' _ _
  split
  · -- There are 36 bytes at least.
    rename_i hk
    rw [hk] at hvalid
    exact Nat.le_trans (length_canonMemInfo_le _) hvalid
  · exact Nat.le_refl _

/-! ## Messages -/

/-- How much longer a message may be than the bytes it was decoded from. -/
def SockDiagMessage.grows {rich : Bool} : SockDiagMessage rich → Nat
  | inetResponse r => (r.nlas.map Inet.Nla.grows).sum
  | _ => 0

section Implements

variable {P : Platform} {H α R : Type} {F : Format H α} {header : R → H} {nlas : R → List α}
  {parse : Bytes → Outcome P.DecodeError R} {bufferLen : R → Nat} {emit : R → Writer Empty}
  {r : R}

theorem Implements.bufferLen_mod (I : Implements P F header nlas parse bufferLen emit)
    (hheader : F.headerLen % 4 = 0) : bufferLen r % 4 = 0 := by
  have hmod := length_wire_mod P.order ((nlas r).map F.codec.encode)
  rw [I.bufferLen_eq, Format.length_encode]
  unfold Codec.encodeAll
  omega

/-- A response is about as long as what it was decoded from. -/
theorem Implements.bufferLen_le (I : Implements P F header nlas parse bufferLen emit)
    (hheader : F.headerLen % 4 = 0) (grows : α → Nat)
    (hgrows : ∀ a x, F.codec.Reads a x → align (F.codec.encode x).length ≤ align a.length + grows x)
    {b : Bytes} (h : parse b = .ok r) :
    bufferLen r ≤ align b.length + ((nlas r).map grows).sum := by
  obtain ⟨hlen, -, as, harea, hxs⟩ := I.parse_eq_ok_iff.mp h
  have hattrs := Codec.length_encodeAll_le (o := P.order) hxs hgrows
  have hwire := harea.length_wire
  rw [List.length_drop] at hwire
  rw [I.bufferLen_eq, Format.length_encode]
  unfold align at hwire ⊢
  omega

end Implements

section Messages

variable {P : Platform} [P.Lawful] {rich : Bool} {b : Bytes} {type : UInt16}
  {m : SockDiagMessage rich}

theorem SockDiagMessage.bufferLen_mod (m : SockDiagMessage rich) : m.bufferLen P % 4 = 0 := by
  cases m with
  | inetRequest r => exact (show 56 % 4 = 0 from rfl)
  | inetResponse r => exact (InetResponse.implements P).bufferLen_mod (show 72 % 4 = 0 from rfl)
  | unixRequest r => exact (show 24 % 4 = 0 from rfl)
  | unixResponse r => exact (UnixResponse.implements P).bufferLen_mod (show 16 % 4 = 0 from rfl)

theorem SockDiagMessage.bufferLen_le (h : parseWithParam P b type = .ok m) :
    m.bufferLen P ≤ align b.length + m.grows := by
  obtain ⟨-, ⟨r, rfl, -, hr⟩ | ⟨r, rfl, -, hr⟩⟩ := parseWithParam_eq_ok_iff.mp h
  · exact (InetResponse.implements P).bufferLen_le (show 72 % 4 = 0 from rfl) _
      (fun _ _ => Inet.Nla.length_encode_le) hr
  · have hle := (UnixResponse.implements P).bufferLen_le (show 16 % 4 = 0 from rfl) (fun _ => 0)
      (fun _ _ => Unix.Nla.length_encode_le) hr
    have hzero : (r.nlas.map fun _ => 0).sum = 0 := by simp
    rw [hzero] at hle
    exact hle

/-- There is a header behind each name, so it does not grow to more than twice its length. -/
theorem SockDiagMessage.grows_le (h : parseWithParam P b type = .ok m) : m.grows ≤ b.length := by
  obtain ⟨-, ⟨r, rfl, -, hr⟩ | ⟨r, rfl, -, -⟩⟩ := parseWithParam_eq_ok_iff.mp h
  · have hcount := (InetResponse.implements P).length_nlas_le hr
    have hfour : (r.nlas.map Inet.Nla.grows).sum ≤ (r.nlas.map Inet.Nla.grows).length • 4 := by
      refine List.sum_le_card_nsmul _ _ (List.forall_mem_map.mpr ?_)
      intro x _
      cases x <;> simp [Inet.Nla.grows]
    rw [List.length_map, smul_eq_mul] at hfour
    show (r.nlas.map Inet.Nla.grows).sum ≤ b.length
    omega
  · exact Nat.zero_le _

end Messages

/-- **Every message is a multiple of four long**, so messages one behind the other are aligned without
    anything between them; and one that was decoded needs no more room than its bytes did, with
    their padding and four bytes for every congestion control name. -/
theorem bufferLen_bounds (P : Platform) [P.Lawful] (rich : Bool) :
    (∀ m : SockDiagMessage rich, m.bufferLen P % 4 = 0) ∧
    ∀ (b : Bytes) (type : UInt16) (m : SockDiagMessage rich),
      SockDiagMessage.parseWithParam P b type = .ok m → m.bufferLen P ≤ align b.length + m.grows := by
  refine ⟨?_, ?_⟩
  · intro m
    exact m.bufferLen_mod
  · intro b type m h
    exact m.bufferLen_le h

/-- 77 bytes whose padding is missing are 80 when they are written again. -/
theorem ones_bufferLen :
    ∃ m : SockDiagMessage true,
      SockDiagMessage.parseWithParam (.reference .little) ones sockDiagByFamily = .ok m ∧
      m.bufferLen (.reference .little) % 4 = 0 ∧ m.bufferLen (.reference .little) ≤ 80 := by
  obtain ⟨hmod, hle⟩ := bufferLen_bounds (.reference .little) true
  exact ⟨_, rfl, hmod _, hle ones sockDiagByFamily _ rfl⟩

end SockDiag
