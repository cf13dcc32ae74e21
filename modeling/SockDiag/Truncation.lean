import SockDiag.RoundTrip

/-!
# Responses that are cut short

A buffer may be too small and a connection may end, so a decoder has to be asked what it makes of
the front of a message. A response that is cut anywhere is an error, or it is the same response with
fewer attributes: all those that were over by the cut, and no other. Never is half an attribute
taken for a whole one, and never does what is left of an attribute make it another.

`TruncationSafe` says so, with the positions of the attributes in the bytes. `CutsThrough` is a cut
that goes through the header or through an attribute; in the padding behind an attribute a cut does
no harm, since the last padding of a message may be missing. For anything that implements a format
that is `Implements.truncationSafe`, which rests on what `SockDiag.Tlv.Truncate` proves about areas,
and `truncated_response` is both kinds of response.
-/

set_option autoImplicit false

namespace SockDiag

open Rust Tlv Inet Unix

/-- What is asked of a parser on the prefixes of `e`, in which the attributes `xs` are at their
    positions: a cut through something is an error, any other leaves the attributes that were over
    by then. -/
def TruncationSafe {ε R α : Type} (parse : Bytes → Outcome ε R) (headerLen : Nat) (len : α → Nat)
    (body : α → Bytes) (response : List α → R) (xs : List α) (e : Bytes) : Prop :=
  (∀ i x, xs[i]? = some x →
    slice e (position headerLen len xs i) (position headerLen len xs i + len x) = body x) ∧
  ∀ n, n ≤ e.length →
    (CutsThrough headerLen len xs n → ∃ err, parse (e.take n) = .err err) ∧
    (¬ CutsThrough headerLen len xs n →
      parse (e.take n) = .ok (response (endedBy headerLen len xs n)))

/-- A response that round-trips can be cut. -/
theorem Implements.truncationSafe {P : Platform} {H α R : Type} {F : Format H α} {header : R → H}
    {nlas : R → List α} {parse : Bytes → Outcome P.DecodeError R} {bufferLen : R → Nat}
    {emit : R → Writer Empty} (I : Implements P F header nlas parse bufferLen emit) {r : R}
    (response : List α → R) (hheader : ∀ xs, header (response xs) = header r)
    (hnlas : ∀ xs, nlas (response xs) = xs) {buf e : Bytes} (hbuf : buf.length = bufferLen r)
    (hemit : (emit r).run buf = .ok e) (hparse : parse e = .ok r) :
    TruncationSafe parse F.headerLen F.codec.encodedLength
      (fun x => (F.codec.encode x).body P.order) response (nlas r) e := by
  have fits := I.fits_of_emit hemit
  -- What was written is the encoding, so the cut can be spoken of without the code.
  have he : e = F.encode P.order (header r) (nlas r) := by
    have hrun := I.emit_run fits hbuf
    rw [hemit] at hrun
    exact Outcome.ok.inj hrun
  subst he
  refine ⟨fun i x hx => Format.slice_encode hx, ?_⟩
  intro n _
  refine ⟨fun hcut => I.parse_take_eq_err fits hcut, ?_⟩
  intro hcut
  exact I.parse_take fits hparse hcut (hheader _) (hnlas _)

section Lengths

variable (P : Platform) [P.Lawful] {rich : Bool}

/-- The length of an attribute is what `value_len` says and the four bytes of its own header. -/
theorem inet_encodedLength :
    (InetResponse.format P rich).codec.encodedLength = fun x => 4 + x.valueLen P := by
  funext x
  exact congrArg (4 + ·) (Inet.Nla.toTrait_encodes P x).valueLen.symm

theorem unix_encodedLength :
    (UnixResponse.format P.order).codec.encodedLength = fun x => 4 + x.valueLen P := by
  funext x
  exact congrArg (4 + ·) (Unix.Nla.toTrait_encodes P x).valueLen.symm

end Lengths

/-- **A response cut short is rejected, or is the response without its last attributes.** -/
theorem truncated_response (P : Platform) [P.Lawful] (rich : Bool) :
    (∀ (r : InetResponse rich) (buf e : Bytes), buf.length = r.bufferLen P →
      (r.emit P).run buf = .ok e → InetResponse.parse P e = .ok r →
        TruncationSafe (InetResponse.parse P) 72 (fun x : Inet.Nla rich => 4 + x.valueLen P)
          (fun x => (x.toAttr P.order).body P.order) (InetResponse.mk r.header) r.nlas e) ∧
    ∀ (r : UnixResponse) (buf e : Bytes), buf.length = r.bufferLen P →
      (r.emit P).run buf = .ok e → UnixResponse.parse P e = .ok r →
        TruncationSafe (UnixResponse.parse P) 16 (fun x : Unix.Nla => 4 + x.valueLen P)
          (fun x => (x.toAttr P.order).body P.order) (UnixResponse.mk r.header) r.nlas e := by
  refine ⟨?_, ?_⟩
  · intro r buf e hbuf hemit hparse
    have hsafe := (InetResponse.implements P).truncationSafe
      (InetResponse.mk r.header) (fun _ => rfl) (fun _ => rfl) hbuf hemit hparse
    rw [inet_encodedLength] at hsafe
    exact hsafe
  · intro r buf e hbuf hemit hparse
    have hsafe := (UnixResponse.implements P).truncationSafe
      (UnixResponse.mk r.header) (fun _ => rfl) (fun _ => rfl) hbuf hemit hparse
    rw [unix_encodedLength] at hsafe
    exact hsafe

theorem keptAlive_parsed :
    ∃ e,
      (keptAlive.emit (.reference .little)).run (List.replicate 100 0xff) = .ok e ∧
      InetResponse.parse (.reference .little) e = .ok keptAlive := by
  have I : Implements (.reference .little) (InetResponse.format (.reference .little) false) _ _ _
    _ _ := InetResponse.implements (.reference .little)
  have fits := (InetResponse.fits_iff (.reference .little)).mpr
    (show ∀ x ∈ keptAlive.nlas, x.valueLen (.reference .little) ≤ 65531 by decide)
  refine ⟨_, I.emit_run fits List.length_replicate, (I.parse_encode_iff fits).mpr ⟨?_, ?_⟩⟩
  · exact (InetResponse.readHeader_writeHeader_iff _).mpr ⟨rfl, rfl, ⟨rfl, by decide⟩⟩
  · intro x hx
    refine Inet.Nla.reads_toAttr_iff.mpr (Inet.Nla.forall_survives_iff.mpr ?_ x hx)
    intro attr hm
    obtain rfl : attr = ⟨0x8064, [1, 2, 3]⟩ := by simpa [keptAlive] using hm
    decide

/-- A byte short of its header a response is rejected, and so it is in the middle of its last
    attribute; in the padding before that it is the response with the attributes there are. -/
theorem truncated_samples :
    (∃ e err err',
      (keptAlive.emit (.reference .little)).run (List.replicate 100 0xff) = .ok e ∧
      (InetResponse.parse (.reference .little) (e.take 71) :
        Outcome _ (InetResponse false)) = .err err ∧
      (InetResponse.parse (.reference .little) (e.take 95) :
        Outcome _ (InetResponse false)) = .err err' ∧
      InetResponse.parse (.reference .little) (e.take 90) =
        .ok (⟨keptAlive.header, [.congestion "cubic", .skV6Only true]⟩ : InetResponse false)) ∧
    ∃ header err,
      UnixResponse.parse (.reference .little) peerMessage = .ok ⟨header, [.peer 20237]⟩ ∧
      UnixResponse.parse (.reference .little) (peerMessage.take 23) = .err err ∧
      UnixResponse.parse (.reference .little) (peerMessage.take 16) = .ok ⟨header, []⟩ := by
  obtain ⟨hinet, hunix⟩ := truncated_response (.reference .little) false
  refine ⟨?_, ?_⟩
  · obtain ⟨e, hemit, hparse⟩ := keptAlive_parsed
    have hlen : e.length = 100 := (Writer.length_run _ hemit).trans List.length_replicate
    obtain ⟨-, hcuts⟩ := hinet keptAlive _ e List.length_replicate hemit hparse
    obtain ⟨err, herr⟩ := (hcuts 71 (by rw [hlen]; decide)).1 (.inl (by decide))
    obtain ⟨err', herr'⟩ := (hcuts 95 (by rw [hlen]; decide)).1
      (.inr ⟨2, .other ⟨0x8064, [1, 2, 3]⟩, rfl, by decide, by decide⟩)
    refine ⟨e, err, err', hemit, herr, herr', (hcuts 90 (by rw [hlen]; decide)).2 ?_⟩
    intro hcut
    obtain hshort | ⟨i, x, hx, hlo, hhi⟩ := hcut
    · exact absurd hshort (by decide)
    match i with
    | 0 =>
      obtain rfl := Option.some.inj hx
      exact absurd hhi (by decide)
    | 1 =>
      obtain rfl := Option.some.inj hx
      exact absurd hhi (by decide)
    | 2 =>
      exact absurd hlo (by decide)
    | i + 3 =>
      exact absurd hx (by simp [keptAlive])
  · let header : UnixResponseHeader := ⟨1, 1, 20238, #v[160, 105, 0, 0, 0, 0, 0, 0]⟩
    have hparse : UnixResponse.parse (.reference .little) peerMessage =
        .ok ⟨header, [.peer 20237]⟩ := rfl
    obtain ⟨-, hcuts⟩ := hunix ⟨header, [.peer 20237]⟩ (List.replicate 24 0xff) peerMessage
      List.length_replicate (by decide) hparse
    obtain ⟨err, herr⟩ := (hcuts 23 (by decide)).1
      (.inr ⟨0, .peer 20237, rfl, by decide, by decide⟩)
    refine ⟨header, err, hparse, herr, (hcuts 16 (by decide)).2 ?_⟩
    intro hcut
    obtain hshort | ⟨i, x, -, hlo, -⟩ := hcut
    · exact absurd hshort (by decide)
    · exact absurd hlo (Nat.not_lt.mpr (Nat.le_add_right 16 _))

end SockDiag
