import SockDiag.Accessors

/-!
# Attributes of no known type

A newer kernel reports attributes this crate has no table for. They are kept as they came, and that
is all they do: a response is accepted with one exactly when it is accepted without, and apart from
the attribute itself the two are parsed as the same. *Unknown* is about the type without its flag
bits: with them set, an attribute of a known type is still of that type.

`unknown_transparent` has both kinds of response, with the attribute put anywhere between the others,
and the accessors of a unix response, none of which sees it. It is proved of anything that implements
a format (`Implements.parse_insert_iff`), so all that is left is that an unknown type reads as itself
whatever its payload.
-/

set_option autoImplicit false

namespace SockDiag

open Rust Tlv Inet Unix

/-- What is asked of a parser of the bytes `within`, which are `without` and an attribute `v` behind
    the first `k`: it makes no difference but for `v`. -/
def Transparent {ε R H α : Type} (parse : Bytes → Outcome ε R) (header : R → H) (nlas : R → List α)
    (k : Nat) (v : α) (without within : Bytes) : Prop :=
  ((∃ r', parse within = .ok r') ↔ ∃ r, parse without = .ok r) ∧
  ∀ r r', parse without = .ok r → parse within = .ok r' →
    header r' = header r ∧
      ∃ front back, front.length = k ∧ nlas r = front ++ back ∧ nlas r' = front ++ v :: back

/-- An attribute that is read as one value only is transparent. -/
theorem Implements.transparent {P : Platform} {H α R : Type} {F : Format H α} {header : R → H}
    {nlas : R → List α} {parse : Bytes → Outcome P.DecodeError R} {bufferLen : R → Nat}
    {emit : R → Writer Empty} (I : Implements P F header nlas parse bufferLen emit)
    (response : H → List α → R) (hheader : ∀ h xs, header (response h xs) = h)
    (hnlas : ∀ h xs, nlas (response h xs) = xs) {as : List Attr} {u : Attr} {v : α}
    {head x mid : Bytes} (y : Bytes) (hlen : head.length = F.headerLen)
    (hu : ∀ z, F.codec.Reads u z ↔ z = v) (hx : Area P.order as x) (hal : x.length % 4 = 0)
    (hmid : Area P.order [u] mid) (hmidal : mid.length % 4 = 0) :
    Transparent parse header nlas as.length v (head ++ x ++ y) (head ++ x ++ mid ++ y) := by
  have hinsert : ∀ r', parse (head ++ (x ++ (mid ++ y))) = .ok r' ↔
      ∃ front back, nlas r' = front ++ v :: back ∧ front.length = as.length ∧
        parse (head ++ (x ++ y)) = .ok (response (header r') (front ++ back)) :=
    fun _ => I.parse_insert_iff response hheader hnlas hlen hu hx hal hmid hmidal
  have hwithout : head ++ x ++ y = head ++ (x ++ y) := List.append_assoc _ _ _
  have hwithin : head ++ x ++ mid ++ y = head ++ (x ++ (mid ++ y)) := by
    simp only [List.append_assoc]
  rw [hwithout, hwithin]
  refine ⟨⟨?_, ?_⟩, ?_⟩
  · intro h
    obtain ⟨r', hr'⟩ := h
    obtain ⟨front, back, -, -, hr⟩ := (hinsert r').mp hr'
    exact ⟨_, hr⟩
  · intro h
    obtain ⟨r, hr⟩ := h
    -- The attributes in front of `mid` are where `v` goes.
    have hle := I.length_le_nlas hlen hx hal hr
    have hcut := List.take_append_drop as.length (nlas r)
    refine ⟨response (header r) ((nlas r).take as.length ++ v :: (nlas r).drop as.length),
      (hinsert _).mpr ⟨_, _, hnlas _ _, by rw [List.length_take, Nat.min_eq_left hle], ?_⟩⟩
    rw [hheader, hcut, I.parse_eq_ok_iff, hheader, hnlas]
    exact I.parse_eq_ok_iff.mp hr
  · intro r r' hr hr'
    obtain ⟨front, back, hxs, hfront, hr''⟩ := (hinsert r').mp hr'
    rw [hr] at hr''
    obtain rfl := Outcome.ok.inj hr''
    exact ⟨(hheader _ _).symm, front, back, hfront, hnlas _ _, hxs⟩

/-- A search does not stop at a value it is not for. -/
theorem findSome?_insert {α β : Type} {f : α → Option β} {v : α} (hv : f v = none)
    (front back : List α) : (front ++ v :: back).findSome? f = (front ++ back).findSome? f := by
  rw [List.findSome?_append, List.findSome?_append, List.findSome?_cons, hv]

/-- No accessor looks for an attribute of no known type. -/
theorem sameAccessors_insert {r r' : UnixResponse} {attr : DefaultNla} {front back : List Unix.Nla}
    (hheader : r'.header = r.header) (hr : r.nlas = front ++ back)
    (hr' : r'.nlas = front ++ .other attr :: back) : SameAccessors r r' := by
  have hfind : ∀ {β : Type} (f : Unix.Nla → Option β), f (.other attr) = none →
      r'.nlas.findSome? f = r.nlas.findSome? f := by
    intro β f hf
    rw [hr, hr', findSome?_insert hf]
  exact .of_searches hheader (hfind _ rfl) (hfind _ rfl) (hfind _ rfl) (hfind _ rfl) (hfind _ rfl)
    (hfind _ rfl)

/-- **An attribute of no known type is transparent**, at any place among the attributes of either
    response, with any payload and any flag bits; and no accessor of a unix response sees it. -/
theorem unknown_transparent (P : Platform) [P.Lawful] (rich : Bool) (head x mid y : Bytes)
    (as : List Attr) (u : Attr) (hx : Area P.order as x) (hal : x.length % 4 = 0)
    (hmid : Area P.order [u] mid) (hmidal : mid.length % 4 = 0) :
    (head.length = 72 → nlaType u.kind ∉ Inet.Nla.kinds →
      Transparent (InetResponse.parse P) InetResponse.header
        (InetResponse.nlas : InetResponse rich → List (Inet.Nla rich)) as.length
        (.other ⟨u.kind, u.payload⟩) (head ++ x ++ y) (head ++ x ++ mid ++ y)) ∧
    (head.length = 16 → nlaType u.kind ∉ Unix.Nla.kinds →
      Transparent (UnixResponse.parse P) UnixResponse.header UnixResponse.nlas as.length
        (.other ⟨u.kind, u.payload⟩) (head ++ x ++ y) (head ++ x ++ mid ++ y) ∧
      ∀ r r', UnixResponse.parse P (head ++ x ++ y) = .ok r →
        UnixResponse.parse P (head ++ x ++ mid ++ y) = .ok r' → SameAccessors r r') := by
  refine ⟨?_, ?_⟩
  · intro hlen hk
    exact (InetResponse.implements P).transparent InetResponse.mk (fun _ _ => rfl) (fun _ _ => rfl) y
      hlen (fun _ => Inet.Nla.reads_iff_of_unknown hk) hx hal hmid hmidal
  · intro hlen hk
    have htransparent := (UnixResponse.implements P).transparent UnixResponse.mk (fun _ _ => rfl)
      (fun _ _ => rfl) y hlen (fun _ => Unix.Nla.reads_iff_of_unknown hk) hx hal hmid hmidal
    refine ⟨htransparent, ?_⟩
    intro r r' hr hr'
    obtain ⟨hheader, front, back, -, hnlas, hnlas'⟩ := htransparent.2 r r' hr hr'
    exact sameAccessors_insert hheader hnlas hnlas'

/-- The inode of a peer, an attribute with a flag bit and three bytes nobody asked for, and how far
    a socket is shut down, which lacks its padding. -/
def peerAttr : Bytes := [8, 0, 2, 0, 13, 79, 0, 0]

def newerAttr : Bytes := [7, 0, 0x64, 0x80, 1, 2, 3, 9]

def shutdownAttr : Bytes := [5, 0, 6, 0, 1]

theorem newerAttr_transparent :
    (∃ r' : InetResponse false,
      InetResponse.parse (.reference .little)
        (afInet :: List.replicate 71 0 ++ peerAttr ++ newerAttr ++ shutdownAttr) = .ok r') ∧
    ∃ r',
      UnixResponse.parse (.reference .little)
        (peerMessage.take 16 ++ peerAttr ++ newerAttr ++ shutdownAttr) = .ok r' ∧
      r'.peer = some 20237 := by
  have hx : Area .little [⟨unixDiagPeer, [13, 79, 0, 0]⟩] peerAttr :=
    split_eq_some_iff.mp (by decide)
  have hmid : Area .little [⟨0x8064, [1, 2, 3]⟩] newerAttr := split_eq_some_iff.mp (by decide)
  have htransparent := fun head => unknown_transparent (.reference .little) false head peerAttr
    newerAttr shutdownAttr _ _ hx rfl hmid rfl
  refine ⟨?_, ?_⟩
  · obtain ⟨haccepts, -⟩ := (htransparent (afInet :: List.replicate 71 0)).1 rfl (by decide)
    exact haccepts.mpr ⟨_, rfl⟩
  · obtain ⟨⟨haccepts, -⟩, hsame⟩ := (htransparent (peerMessage.take 16)).2 rfl (by decide)
    let r : UnixResponse :=
      ⟨⟨1, 1, 20238, #v[160, 105, 0, 0, 0, 0, 0, 0]⟩, [.peer 20237, .shutdown 1]⟩
    have hr : UnixResponse.parse (.reference .little)
        (peerMessage.take 16 ++ peerAttr ++ shutdownAttr) = .ok r := rfl
    obtain ⟨r', hr'⟩ := haccepts.mpr ⟨r, hr⟩
    exact ⟨r', hr', (hsame r r' hr hr').peer⟩

end SockDiag
