import SockDiag.Unknown

/-!
# Responses with the attributes of two

The attributes of a response have nothing to do with each other: those of two responses with the
same header, one behind the other, are decoded as the attributes of the one and then of the other,
and attributes one behind the other are written as the ones and then the others. Between two areas
the padding has to be there, because it is left out nowhere but at the end.

`Concatenative` says this of a decoder, a `buffer_len` and an encoder. The encoder has one more way
to fail than the two parts together look like: an attribute that is too long makes it panic wherever
the attribute stands, so it panics exactly with one of the parts. Whatever implements a format is
concatenative (`Implements.concatenative`), and so are both responses (`responses_concatenative`).
-/

set_option autoImplicit false

namespace SockDiag

open Rust Tlv Inet Unix

/-- A parser and a writer of `len` bytes and some attributes take the attributes one by one. -/
structure Concatenative {ε H α R : Type} (o : ByteOrder) (len : Nat) (response : H → List α → R)
    (header : R → H) (nlas : R → List α) (parse : Bytes → Outcome ε R) (bufferLen : R → Nat)
    (emit : R → Writer Empty) : Prop where
  parse_append : ∀ (head x y : Bytes) (as : List Attr), head.length = len → Area o as x →
    x.length % 4 = 0 → ∀ r, parse (head ++ x ++ y) = .ok r ↔
      ∃ xs ys, nlas r = xs ++ ys ∧ parse (head ++ x) = .ok (response (header r) xs) ∧
        parse (head ++ y) = .ok (response (header r) ys)
  bufferLen_append : ∀ h xs ys, bufferLen (response h (xs ++ ys)) + len =
    bufferLen (response h xs) + bufferLen (response h ys)
  /-- Where one of the three panics, so does another. -/
  emit_append : ∀ h xs ys (buf bufx bufy : Bytes), buf.length = bufferLen (response h (xs ++ ys)) →
    bufx.length = bufferLen (response h xs) → bufy.length = bufferLen (response h ys) →
    (emit (response h (xs ++ ys))).run buf =
      (emit (response h xs)).run bufx >>= fun outx =>
        (emit (response h ys)).run bufy >>= fun outy => .ok (outx ++ outy.drop len)

/-- **What implements a format takes the attributes one by one.** -/
theorem Implements.concatenative {P : Platform} {H α R : Type} {F : Format H α} {header : R → H}
    {nlas : R → List α} {parse : Bytes → Outcome P.DecodeError R} {bufferLen : R → Nat}
    {emit : R → Writer Empty} (I : Implements P F header nlas parse bufferLen emit)
    (response : H → List α → R) (hheader : ∀ h xs, header (response h xs) = h)
    (hnlas : ∀ h xs, nlas (response h xs) = xs) :
    Concatenative P.order F.headerLen response header nlas parse bufferLen emit where
  parse_append := by
    intro head x y as hlen hx hal r
    rw [List.append_assoc]
    simp only [I.parse_eq_ok_iff, hheader, hnlas, Format.decodes_append_iff hlen,
      Codec.decodes_append_iff hx hal, Codec.decodes_iff_of_area hx]
    refine ⟨?_, ?_⟩
    · intro h
      obtain ⟨hread, xs, ys, hr, hxs, hys⟩ := h
      exact ⟨xs, ys, hr, ⟨hread, hxs⟩, hread, hys⟩
    · intro h
      obtain ⟨xs, ys, hr, ⟨hread, hxs⟩, -, hys⟩ := h
      exact ⟨hread, xs, ys, hr, hxs, hys⟩
  bufferLen_append := by
    intro h xs ys
    simp only [I.bufferLen_eq, hheader, hnlas, Format.length_encode, Codec.encodeAll_append,
      List.length_append]
    omega
  emit_append := by
    intro h xs ys buf bufx bufy hbuf hbufx hbufy
    by_cases hall : ∀ x ∈ xs ++ ys, (F.codec.encode x).Fits
    · obtain ⟨hxs, hys⟩ := List.forall_mem_append.mp hall
      rw [I.emit_run (by rwa [hnlas]) hbuf, I.emit_run (by rwa [hnlas]) hbufx,
        I.emit_run (by rwa [hnlas]) hbufy]
      simp only [hheader, hnlas, Outcome.ok_bind, Format.drop_encode]
      unfold Format.encode
      rw [Codec.encodeAll_append, List.append_assoc]
    · -- What does not fit is in one of the two.
      have hbad : ∀ {zs : List α}, ¬ (∀ x ∈ zs, (F.codec.encode x).Fits) → ∀ b : Bytes,
          (emit (response h zs)).run b = .panic := by
        intro zs hnot b
        push Not at hnot
        exact I.emit_panics (by rwa [hnlas]) b
      rw [hbad hall]
      by_cases hxs : ∀ x ∈ xs, (F.codec.encode x).Fits
      · have hys : ¬ ∀ x ∈ ys, (F.codec.encode x).Fits := fun hys =>
          hall (List.forall_mem_append.mpr ⟨hxs, hys⟩)
        rw [hbad hys, I.emit_run (by rwa [hnlas]) hbufx]
        rfl
      · rw [hbad hxs]
        rfl

/-- **The attributes of a response are read and written one by one**, for both kinds of response. -/
theorem responses_concatenative (P : Platform) [P.Lawful] (rich : Bool) :
    Concatenative P.order 72 (@InetResponse.mk rich) InetResponse.header InetResponse.nlas
      (InetResponse.parse P) (InetResponse.bufferLen P) (InetResponse.emit P) ∧
    Concatenative P.order 16 UnixResponse.mk UnixResponse.header UnixResponse.nlas
      (UnixResponse.parse P) (UnixResponse.bufferLen P) (UnixResponse.emit P) :=
  ⟨(InetResponse.implements P).concatenative InetResponse.mk (fun _ _ => rfl) (fun _ _ => rfl),
    (UnixResponse.implements P).concatenative UnixResponse.mk (fun _ _ => rfl) (fun _ _ => rfl)⟩

/-- The inode of a peer in one message and how far a socket is shut down in another. -/
theorem shutdownAttr_appended :
    UnixResponse.parse (.reference .little) (peerMessage.take 16 ++ peerAttr ++ shutdownAttr) =
      .ok ⟨⟨1, 1, 20238, #v[160, 105, 0, 0, 0, 0, 0, 0]⟩, [.peer 20237] ++ [.shutdown 1]⟩ := by
  have hx : Area .little [⟨unixDiagPeer, [13, 79, 0, 0]⟩] peerAttr :=
    split_eq_some_iff.mp (by decide)
  have hunix := (responses_concatenative (.reference .little) false).2
  exact (hunix.parse_append (peerMessage.take 16) peerAttr shutdownAttr _ rfl hx rfl _).mpr
    ⟨[.peer 20237], [.shutdown 1], rfl, rfl, rfl⟩

end SockDiag
