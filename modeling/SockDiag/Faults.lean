import SockDiag.Grammar
import SockDiag.Tlv.Fault

/-!
# What a rejected response is rejected for

The loop over the attributes of a response ends at the first that is no good, so that is what the
error is about. It says nothing of the header, of the attributes in front, or of anything behind: it
is the same wherever that attribute stands.

What is no good is said without the code: `Tlv.FirstFault` walks the bytes and comes to an attribute
that is not valid for its type, or to bytes that are no attribute. `ReportsFirst` is what is asked
of a decoder: it rejects exactly where there is such a place, and where that is an attribute the
error is a function of the attribute alone. `reportsFirst_parseResponse` proves it of the code the
two responses share, given that the parser of attributes sees nothing but the attribute
(`SeesAttr`), and `responses_reportFirst` has both responses.
-/

set_option autoImplicit false

namespace SockDiag

open Rust Tlv Inet Unix

open Platform (Lawful)

section Collect

variable {P : Platform} {α : Type} {parse : P.NlaBuffer → Outcome P.DecodeError α} {msg : String}

/-- A parser of attributes sees an attribute and nothing of where it is. -/
def SeesAttr (P : Platform) {α : Type} (parse : P.NlaBuffer → Outcome P.DecodeError α) : Prop :=
  ∀ nla nla' a, P.Views nla a → P.Views nla' a → parse nla = parse nla'

theorem Inet.Nla.seesAttr (P : Platform) (rich : Bool) :
    SeesAttr P (Nla.parse P : P.NlaBuffer → Outcome P.DecodeError (Nla rich)) := by
  intro nla nla' a hv hv'
  unfold Nla.parse
  rw [hv.value, hv'.value, hv.kind, hv'.kind, hv.default, hv'.default]

theorem Unix.Nla.seesAttr (P : Platform) : SeesAttr P (Nla.parse P) := by
  intro nla nla' a hv hv'
  unfold Nla.parse
  rw [hv.value, hv'.value, hv.kind, hv'.kind, hv.default, hv'.default]

/-- A response with a good header is rejected for what its attributes are. -/
theorem parseResponse_eq_err {H R : Type} {headerLen : Nat}
    {parseHeader : Bytes → Outcome P.DecodeError H} {headerMsg : String} {response : H → List α → R}
    {head area : Bytes} {h : H} {e : P.DecodeError}
    (hlen : head.length = headerLen) (hheader : parseHeader head = .ok h)
    (harea : collectNlas P parse msg area = .err e) :
    parseResponse P headerLen parseHeader headerMsg parse msg response (head ++ area) = .err e := by
  have hle : headerLen ≤ (head ++ area).length := by
    rw [List.length_append, hlen]
    exact Nat.le_add_right _ _
  unfold parseResponse
  rw [if_neg (Nat.not_lt.mpr hle), sliceTo_eq_ok hle, sliceFrom_eq_ok hle, List.take_left' hlen,
    List.drop_left' hlen, Outcome.ok_bind, hheader]
  show (collectNlas P parse msg area >>= _) = _
  rw [harea]
  rfl

variable [P.Lawful] {c : Codec α} {Valid : Attr → Prop} {u : Attr} {e : P.DecodeError}

/-- An attribute that is not read has an error. -/
theorem exists_error (hsees : SeesAttr P parse)
    (hparse : ∀ nla a x, P.Views nla a → (parse nla = .ok x ↔ c.Reads a x))
    (hret : ∀ nla a, P.Views nla a → (parse nla).Returns) (hfits : u.Fits)
    (hbad : ¬ ∃ x, c.Reads u x) : ∃ e, ∀ nla, P.Views nla u → parse nla = .err e := by
  -- Any buffer over the attribute will do, and there is one.
  have hu : unframe P.order (P.remaining (P.nlasIterator (u.body P.order ++ []))) =
      some (u, ([] : Bytes).drop u.padding) := by
    rw [Lawful.remaining_nlasIterator]
    exact unframe_body hfits []
  obtain ⟨nla, -, -, -, hv⟩ := Lawful.next_ok _ _ _ hu
  obtain ⟨e, he⟩ := (hret nla u hv).eq_err fun x hx => hbad ⟨x, (hparse nla u x hv).mp hx⟩
  exact ⟨e, fun nla' hv' => (hsees nla' nla u hv' hv).trans he⟩

/-- The loop from any position and with anything already collected. -/
theorem forLoop_pushNla_eq_err
    (hparse : ∀ nla a x, P.Views nla a → (parse nla = .ok x ↔ c.Reads a x))
    (hvalid : ∀ a, (∃ x, c.Reads a x) ↔ Valid a) (herr : ∀ nla, P.Views nla u → parse nla = .err e)
    {b : Bytes} (hfault : FirstFault P.order Valid b (some u)) :
    ∀ {fuel : Nat} {it : P.NlasIterator} {acc : List α}, P.remaining it = b → b.length < fuel →
      forLoop P.next (pushNla P parse msg) fuel it acc = .err (P.context msg e) := by
  generalize hf : some u = fault at hfault
  induction hfault with
  | frame => exact absurd hf (by simp)
  | attr hu _ =>
    obtain rfl := Option.some.inj hf
    intro fuel it acc hb hfuel
    cases fuel with
    | zero => exact absurd hfuel (Nat.not_lt_zero _)
    | succ fuel =>
      rw [← hb] at hu
      obtain ⟨nla, it', hnext, -, hv⟩ := Lawful.next_ok it _ _ hu
      rw [forLoop_step hnext, pushNla, Outcome.ok_bind, herr nla hv]
      rfl
  | next hu ha _ ih =>
    intro fuel it acc hb hfuel
    cases fuel with
    | zero => exact absurd hfuel (Nat.not_lt_zero _)
    | succ fuel =>
      have hlt := length_unframe_lt hu
      rw [← hb] at hu
      obtain ⟨nla, it', hnext, hrest, hv⟩ := Lawful.next_ok it _ _ hu
      obtain ⟨x, hx⟩ := (hvalid _).mpr ha
      rw [forLoop_step hnext, (pushNla_eq_ok_iff hparse hv).mpr ⟨x, hx, rfl⟩, Outcome.ok_bind]
      exact ih hf hrest (by omega)

/-- The loop over an area reports the first attribute that is wrong. -/
theorem collectNlas_eq_err
    (hparse : ∀ nla a x, P.Views nla a → (parse nla = .ok x ↔ c.Reads a x))
    (hvalid : ∀ a, (∃ x, c.Reads a x) ↔ Valid a) (herr : ∀ nla, P.Views nla u → parse nla = .err e)
    {b : Bytes} (hfault : FirstFault P.order Valid b (some u)) :
    collectNlas P parse msg b = .err (P.context msg e) :=
  forLoop_pushNla_eq_err hparse hvalid herr hfault (Lawful.remaining_nlasIterator b)
    (Nat.lt_succ_self _)

end Collect

/-- What a parser rejects bytes behind a good header for: something wrong with the attributes, and
    where it is an attribute, by an error of that attribute's own. -/
def ReportsFirst {ε R : Type} (o : ByteOrder) (Valid : Attr → Prop) (len : Nat)
    (GoodHeader : Bytes → Prop) (parse : Bytes → Outcome ε R) : Prop :=
  ∃ report : Attr → ε, ∀ head area : Bytes, head.length = len → GoodHeader head →
    ((∃ e, parse (head ++ area) = .err e) ↔ ∃ fault, FirstFault o Valid area fault) ∧
    ∀ u, FirstFault o Valid area (some u) → parse (head ++ area) = .err (report u)

theorem reportsFirst_parseResponse {P : Platform} [P.Lawful] {H α R : Type} {F : Format H α}
    {headerLen : Nat} {parseHeader : Bytes → Outcome P.DecodeError H} {headerMsg nlasMsg : String}
    {parseNla : P.NlaBuffer → Outcome P.DecodeError α} {response : H → List α → R}
    {Valid : Attr → Prop} {GoodHeader : Bytes → Prop} (hlen : F.headerLen = headerLen)
    (hheader : ∀ b h, b.length = headerLen → (parseHeader b = .ok h ↔ F.readHeader b = some h))
    (hheaderRet : ∀ b, (parseHeader b).Returns)
    (hgood : ∀ b, b.length = headerLen → GoodHeader b → ∃ h, F.readHeader b = some h)
    (hnla : ∀ nla a x, P.Views nla a → (parseNla nla = .ok x ↔ F.codec.Reads a x))
    (hnlaRet : ∀ nla a, P.Views nla a → (parseNla nla).Returns) (hsees : SeesAttr P parseNla)
    (hvalid : ∀ a, (∃ x, F.codec.Reads a x) ↔ Valid a) :
    ReportsFirst P.order Valid headerLen GoodHeader
      (parseResponse P headerLen parseHeader headerMsg parseNla nlasMsg response) := by
  have hreport : ∀ u : Attr, ∃ e : P.DecodeError,
      u.Fits → ¬ Valid u → ∀ nla, P.Views nla u → parseNla nla = .err e := by
    intro u
    by_cases hu : u.Fits ∧ ¬ Valid u
    · obtain ⟨e, he⟩ := exists_error hsees hnla hnlaRet hu.1 ((hvalid u).not.mpr hu.2)
      exact ⟨e, fun _ _ => he⟩
    · exact ⟨P.decodeError "", fun hfits hbad => absurd ⟨hfits, hbad⟩ hu⟩
  choose report hreport using hreport
  refine ⟨fun u => P.context nlasMsg (report u), ?_⟩
  intro head area hhead hgoodHead
  obtain ⟨h, hread⟩ := hgood head hhead hgoodHead
  have hparsed := (hheader head h hhead).mpr hread
  have hok : (∃ r, parseResponse P headerLen parseHeader headerMsg parseNla nlasMsg response
      (head ++ area) = .ok r) ↔ ∃ as, Area P.order as area ∧ ∀ a ∈ as, Valid a := by
    simp only [parseResponse_eq_ok_iff hlen hheader hnla,
      Format.decodes_append_iff (hhead.trans hlen.symm), ← Codec.exists_decodes_iff hvalid]
    refine ⟨?_, ?_⟩
    · intro hr
      obtain ⟨r, h', xs, -, -, hxs⟩ := hr
      exact ⟨xs, hxs⟩
    · intro hxs
      obtain ⟨xs, hxs⟩ := hxs
      exact ⟨response h xs, h, xs, rfl, hread, hxs⟩
  refine ⟨?_, ?_⟩
  · rw [exists_firstFault_iff, ← hok]
    refine ⟨?_, ?_⟩
    · intro herr hr
      obtain ⟨e, he⟩ := herr
      obtain ⟨r, hr⟩ := hr
      rw [he] at hr
      exact absurd hr (by simp)
    · intro hnone
      exact (parseResponse_returns hheaderRet hnlaRet _).eq_err fun r hr => hnone ⟨r, hr⟩
  · intro u hfault
    obtain ⟨hfits, hbad⟩ := hfault.not_valid
    exact parseResponse_eq_err hhead hparsed
      (collectNlas_eq_err hnla hvalid (hreport u hfits hbad) hfault)

/-- **A response is rejected for the first thing that is wrong with its attributes**, and where that is
    an attribute the error is the same wherever it stands: behind any good header, behind any valid
    attributes, and in front of anything. -/
theorem responses_reportFirst (P : Platform) [P.Lawful] (rich : Bool) :
    ReportsFirst P.order (fun a => Inet.Nla.ValidPayload rich (nlaType a.kind) a.payload) 72
      (fun head => head.head? = some afInet ∨ head.head? = some afInet6)
      (InetResponse.parse P : Bytes → Outcome P.DecodeError (InetResponse rich)) ∧
    ReportsFirst P.order (fun a => Unix.Nla.ValidPayload (nlaType a.kind) a.payload) 16
      (fun _ => True) (UnixResponse.parse P) := by
  refine ⟨?_, ?_⟩
  · exact reportsFirst_parseResponse (F := InetResponse.format P rich) rfl
      (fun _ _ hb => InetResponseHeader.parse_eq_ok_iff P hb) (InetResponseHeader.parse_returns P)
      (fun _ hb => (InetResponse.exists_readHeader_iff hb).mpr)
      (fun _ _ _ hv => Inet.Nla.parse_eq_ok_iff hv) (fun _ _ hv => Inet.Nla.parse_returns hv)
      (Inet.Nla.seesAttr P rich) fun _ => Inet.Nla.exists_reads_iff
  · exact reportsFirst_parseResponse (F := UnixResponse.format P.order) rfl
      (fun _ _ hb => UnixResponse.header_parse_eq_ok_iff P hb) (fun _ => P.readPrefix_map_returns _)
      (fun _ _ _ => ⟨_, rfl⟩) (fun _ _ _ hv => Unix.Nla.parse_eq_ok_iff hv)
      (fun _ _ hv => Unix.Nla.parse_returns hv) (Unix.Nla.seesAttr P) fun _ =>
        Unix.Nla.exists_reads_iff

/-- How far a socket is shut down, in two bytes. -/
def wideShutdown : Bytes := [6, 0, 6, 0, 1, 1, 0, 0]

/-- Behind an attribute and in front of half a header the error is the same as alone. -/
theorem wideShutdown_reported :
    ∃ e, UnixResponse.parse (.reference .little) (peerMessage.take 16 ++ wideShutdown) = .err e ∧
      UnixResponse.parse (.reference .little)
        (peerMessage.take 16 ++ ([8, 0, 2, 0, 13, 79, 0, 0] ++ wideShutdown ++ [9, 9])) = .err e := by
  obtain ⟨report, hreport⟩ := (responses_reportFirst (.reference .little) false).2
  have hbad : ∀ y : Bytes, FirstFault .little
      (fun a => Unix.Nla.ValidPayload (nlaType a.kind) a.payload) (wideShutdown ++ y)
      (some ⟨unixDiagShutdown, [1, 1]⟩) := fun y =>
        .attr rfl (show ¬ ([1, 1] : Bytes).length = 1 by decide)
  refine ⟨report ⟨unixDiagShutdown, [1, 1]⟩, ?_, ?_⟩
  · exact (hreport (peerMessage.take 16) wideShutdown rfl trivial).2 _ (hbad [])
  · refine (hreport (peerMessage.take 16) _ rfl trivial).2 _ ?_
    have hpeer : ([13, 79, 0, 0] : Bytes).length = 4 := rfl
    exact .next (a := ⟨unixDiagPeer, [13, 79, 0, 0]⟩) rfl hpeer (hbad [9, 9])

end SockDiag
