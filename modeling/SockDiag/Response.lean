import SockDiag.Attributes
import SockDiag.Tlv.Format

/-!
# What the two responses share

An inet and a unix response are the same code over different headers and attributes: check the
length, decode the header, collect the attributes; write the header, then the attributes into the
slice after it. So that code is here once, as `parseResponse`, `responseBufferLen` and
`emitResponse`, and each response is these at its own values.

`Implements` is what it means that such code implements a `Tlv.Format`: the decoder accepts what the
format decodes and returns that, it comes back on anything, `buffer_len` is the length of the
encoding and `emit` writes it, or panics where an attribute does not fit into its length field. It
is all the results about responses use of the code. What is proved in the second half is proved of
anything that implements a format, and so of both responses at once: when a response comes back from
its encoding (`parse_encode_iff`), what bytes are written again as (`emit_run_canonical`), what one
more attribute does (`parse_insert_iff`) and what a cut does (`parse_take`).
-/

set_option autoImplicit false

namespace SockDiag

open Rust Tlv

section Code

variable (P : Platform) {H α R : Type}

/-- `Parseable<[u8]>` of a response. -/
def parseResponse (headerLen : Nat) (parseHeader : Bytes → Outcome P.DecodeError H)
    (headerMsg : String) (parseNla : P.NlaBuffer → Outcome P.DecodeError α) (nlasMsg : String)
    (response : H → List α → R) (payload : Bytes) : Outcome P.DecodeError R :=
  if payload.length < headerLen then
    .err (P.bufferTooSmall payload.length headerLen)
  else do
    let header ← (parseHeader (← sliceTo payload headerLen)).mapErr (P.context headerMsg)
    let nlas ← collectNlas P parseNla nlasMsg (← sliceFrom payload headerLen)
    .ok (response header nlas)

/-- `Emitable::buffer_len` of a response. -/
def responseBufferLen (headerLen : Nat) (nlas : List NlaTrait) : Nat :=
  headerLen + P.nlasBufferLen nlas

/-- `Emitable::emit` of a response. -/
def emitResponse (headerLen : Nat) (emitHeader : Writer Empty) (nlas : List NlaTrait) :
    Writer Empty :=
  emitHeader >> .onSuffix headerLen (P.emitNlas nlas)

/-- `buf[..LEN].copy_from_slice(raw.as_bytes())`, the `emit` of both headers. -/
def emitHeader {Raw : Type} (L : Packed Raw) (raw : Raw) : Writer Empty :=
  .onPrefix L.size (.copyFromSlice (P.asBytes L raw).toList)

end Code

/-- The code `parse`, `bufferLen` and `emit` implements the format `F`. -/
structure Implements (P : Platform) {H α R : Type} (F : Format H α) (header : R → H)
    (nlas : R → List α) (parse : Bytes → Outcome P.DecodeError R) (bufferLen : R → Nat)
    (emit : R → Writer Empty) : Prop where
  parse_eq_ok_iff : ∀ {b r}, parse b = .ok r ↔ F.Decodes P.order b (header r) (nlas r)
  parse_returns : ∀ b, (parse b).Returns
  bufferLen_eq : ∀ r, bufferLen r = (F.encode P.order (header r) (nlas r)).length
  emit_emits : ∀ {r}, (∀ x ∈ nlas r, (F.codec.encode x).Fits) →
    (emit r).Emits (F.encode P.order (header r) (nlas r))
  emit_panics : ∀ {r}, (∃ x ∈ nlas r, ¬ (F.codec.encode x).Fits) →
    ∀ buf, (emit r).run buf = .panic

section Parts

variable (P : Platform) {H α R : Type} {F : Format H α}

theorem emitHeader_needs {Raw : Type} (L : Packed Raw) (raw : Raw) :
    (emitHeader P L raw).Needs L.size := Writer.Needs.onPrefix _ _

variable [P.Lawful]

theorem emitHeader_emits {Raw : Type} (L : Packed Raw) (raw : Raw) :
    (emitHeader P L raw).Emits (L.toBytes raw) := by
  have h := (Writer.fills_copyFromSlice (ε := Empty) (L.toBytes raw)).onPrefix
  rw [L.length_toBytes] at h
  unfold emitHeader
  rw [P.toList_asBytes]
  exact h

variable {P} {headerLen : Nat} {parseHeader : Bytes → Outcome P.DecodeError H}
  {headerMsg nlasMsg : String} {parseNla : P.NlaBuffer → Outcome P.DecodeError α}
  {response : H → List α → R}

theorem parseResponse_eq_ok_iff (hlen : F.headerLen = headerLen)
    (hheader : ∀ b h, b.length = headerLen → (parseHeader b = .ok h ↔ F.readHeader b = some h))
    (hnla : ∀ nla a x, P.Views nla a → (parseNla nla = .ok x ↔ F.codec.Reads a x)) {b : Bytes}
    {r : R} :
    parseResponse P headerLen parseHeader headerMsg parseNla nlasMsg response b = .ok r ↔
      ∃ h xs, response h xs = r ∧ F.Decodes P.order b h xs := by
  subst hlen
  unfold parseResponse Format.Decodes
  by_cases hb : b.length < F.headerLen
  · rw [if_pos hb]
    refine iff_of_false (by simp) ?_
    intro hd
    obtain ⟨_, _, -, hle, -⟩ := hd
    omega
  · have hle : F.headerLen ≤ b.length := Nat.le_of_not_lt hb
    have hread := fun h => hheader (b.take F.headerLen) h (by simp [hle])
    rw [if_neg hb, sliceTo_eq_ok hle, sliceFrom_eq_ok hle, Outcome.ok_bind]
    simp only [Outcome.ok_bind, Outcome.bind_eq_ok, Outcome.mapErr_eq_ok, hread,
      collectNlas_eq_ok_iff hnla, Outcome.ok.injEq]
    refine ⟨?_, ?_⟩
    · intro hd
      obtain ⟨h, hh, xs, hxs, hr⟩ := hd
      exact ⟨h, xs, hr, hle, hh, hxs⟩
    · intro hd
      obtain ⟨h, xs, hr, -, hh, hxs⟩ := hd
      exact ⟨h, hh, xs, hxs, hr⟩

theorem parseResponse_returns (hheader : ∀ b, (parseHeader b).Returns)
    (hnla : ∀ nla a, P.Views nla a → (parseNla nla).Returns) (b : Bytes) :
    (parseResponse P headerLen parseHeader headerMsg parseNla nlasMsg response b).Returns := by
  unfold parseResponse
  split
  · exact Outcome.returns_err _
  · -- Past the length check both slices are in range.
    rename_i hlen
    have hle : headerLen ≤ b.length := Nat.le_of_not_lt hlen
    rw [sliceTo_eq_ok hle, sliceFrom_eq_ok hle, Outcome.ok_bind]
    refine (Outcome.returns_mapErr.mpr (hheader _)).bind fun h _ => ?_
    rw [Outcome.ok_bind]
    exact (collectNlas_returns hnla).bind fun xs _ => Outcome.returns_ok _

variable {writer : Writer Empty} {ns : List NlaTrait} {h : H} {xs : List α}

theorem emitResponse_emits (hlen : F.headerLen = headerLen)
    (hheader : writer.Emits (F.writeHeader h))
    (hnlas : List.Forall₂ NlaTrait.Encodes ns (xs.map F.codec.encode))
    (fits : ∀ x ∈ xs, (F.codec.encode x).Fits) :
    (emitResponse P headerLen writer ns).Emits (F.encode P.order h xs) := by
  have hall := hheader.append (P.emitNlas_emits hnlas (Codec.fits_map_encode fits))
  rw [F.length_writeHeader, hlen] at hall
  exact hall

theorem emitResponse_panics (hlen : F.headerLen = headerLen)
    (hheader : writer.Emits (F.writeHeader h)) (hshort : writer.Needs headerLen)
    (hnlas : List.Forall₂ NlaTrait.Encodes ns (xs.map F.codec.encode))
    (hbad : ∃ x ∈ xs, ¬ (F.codec.encode x).Fits) (buf : Bytes) :
    (emitResponse P headerLen writer ns).run buf = .panic := by
  unfold emitResponse
  rw [Writer.run_andThen]
  -- A buffer without room for the header panics before the attributes do.
  by_cases hb : buf.length < headerLen
  · rw [hshort buf hb]
    rfl
  · have hle : (F.writeHeader h).length ≤ buf.length := by
      rw [F.length_writeHeader, hlen]
      exact Nat.le_of_not_lt hb
    have hhead := hheader buf hle
    obtain ⟨x, hx, hnot⟩ := hbad
    rw [hhead, Outcome.ok_bind, Writer.run_onSuffix _ (by rw [writer.length_run hhead]; omega),
      P.emitNlas_panics hnlas ⟨_, List.mem_map_of_mem hx, hnot⟩]
    rfl

theorem responseBufferLen_eq (hlen : F.headerLen = headerLen)
    (hnlas : List.Forall₂ NlaTrait.Encodes ns (xs.map F.codec.encode)) :
    responseBufferLen P headerLen ns = (F.encode P.order h xs).length := by
  unfold responseBufferLen
  rw [Format.length_encode, hlen, P.nlasBufferLen_eq_length hnlas]
  rfl

end Parts

namespace Implements

variable {P : Platform} {H α R : Type} {F : Format H α} {header : R → H} {nlas : R → List α}
  {parse : Bytes → Outcome P.DecodeError R} {bufferLen : R → Nat} {emit : R → Writer Empty}
  {r : R} {buf out : Bytes}

/-- A response is parsed from what decodes as its header and its attributes. -/
theorem exists_parse_iff (I : Implements P F header nlas parse bufferLen emit)
    (response : H → List α → R) (hheader : ∀ h xs, header (response h xs) = h)
    (hnlas : ∀ h xs, nlas (response h xs) = xs) {b : Bytes} :
    (∃ r, parse b = .ok r) ↔ ∃ h xs, F.Decodes P.order b h xs := by
  refine ⟨?_, ?_⟩
  · intro hr
    obtain ⟨r, hr⟩ := hr
    exact ⟨header r, nlas r, I.parse_eq_ok_iff.mp hr⟩
  · intro hd
    obtain ⟨h, xs, hd⟩ := hd
    refine ⟨response h xs, I.parse_eq_ok_iff.mpr ?_⟩
    rw [hheader, hnlas]
    exact hd

/-- What was parsed has no more attributes than its bytes have room for. -/
theorem length_nlas_le (I : Implements P F header nlas parse bufferLen emit) {b : Bytes}
    (h : parse b = .ok r) : (nlas r).length ≤ (b.length - F.headerLen) / 4 :=
  (I.parse_eq_ok_iff.mp h).length_le

/-- Written into a buffer of its own length, a response is its encoding. -/
theorem emit_run (I : Implements P F header nlas parse bufferLen emit)
    (fits : ∀ x ∈ nlas r, (F.codec.encode x).Fits) (hbuf : buf.length = bufferLen r) :
    (emit r).run buf = .ok (F.encode P.order (header r) (nlas r)) :=
  (I.emit_emits fits).fills buf (hbuf.trans (I.bufferLen_eq r))

/-- Nothing of what was in the buffer is left in it. -/
theorem emit_overwrites (I : Implements P F header nlas parse bufferLen emit)
    (fits : ∀ x ∈ nlas r, (F.codec.encode x).Fits) : (emit r).Overwrites (bufferLen r) := by
  rw [I.bufferLen_eq]
  exact (I.emit_emits fits).fills.overwrites

/-- A response that could be written has attributes that fit. -/
theorem fits_of_emit (I : Implements P F header nlas parse bufferLen emit)
    (hout : (emit r).run buf = .ok out) : ∀ x ∈ nlas r, (F.codec.encode x).Fits := by
  intro x hx
  by_contra hnot
  rw [I.emit_panics ⟨x, hx, hnot⟩] at hout
  exact absurd hout (by simp)

/-- Two responses with the same header bytes and the same raw attributes are written the same. -/
theorem emit_eq (I : Implements P F header nlas parse bufferLen emit) {H' α' R' : Type}
    {F' : Format H' α'} {header' : R' → H'} {nlas' : R' → List α'}
    {parse' : Bytes → Outcome P.DecodeError R'} {bufferLen' : R' → Nat} {emit' : R' → Writer Empty}
    (I' : Implements P F' header' nlas' parse' bufferLen' emit') {r' : R'}
    (hheader : F'.writeHeader (header' r') = F.writeHeader (header r))
    (hnlas : (nlas' r').map F'.codec.encode = (nlas r).map F.codec.encode) :
    bufferLen' r' = bufferLen r ∧
      ∀ buf : Bytes, buf.length = bufferLen r → (emit' r').run buf = (emit r).run buf := by
  have hencode : F'.encode P.order (header' r') (nlas' r') =
      F.encode P.order (header r) (nlas r) := by
    unfold Format.encode Codec.encodeAll
    rw [hheader, hnlas]
  have hlen : bufferLen' r' = bufferLen r := by rw [I'.bufferLen_eq, I.bufferLen_eq, hencode]
  refine ⟨hlen, ?_⟩
  intro buf hbuf
  have hfits : (∀ x ∈ nlas' r', (F'.codec.encode x).Fits) ↔ ∀ x ∈ nlas r, (F.codec.encode x).Fits := by
    rw [← List.forall_mem_map, hnlas, List.forall_mem_map]
  by_cases hall : ∀ x ∈ nlas r, (F.codec.encode x).Fits
  · rw [I.emit_run hall hbuf, I'.emit_run (hfits.mpr hall) (hbuf.trans hlen.symm), hencode]
  · -- What does not fit in one does not fit in the other.
    have hall' : ¬ ∀ x ∈ nlas' r', (F'.codec.encode x).Fits := fun h => hall (hfits.mp h)
    push Not at hall hall'
    rw [I.emit_panics hall, I'.emit_panics hall']

/-- **When a response comes back from its encoding.** -/
theorem parse_encode_iff (I : Implements P F header nlas parse bufferLen emit)
    (fits : ∀ x ∈ nlas r, (F.codec.encode x).Fits) :
    parse (F.encode P.order (header r) (nlas r)) = .ok r ↔
      F.readHeader (F.writeHeader (header r)) = some (header r) ∧
        ∀ x ∈ nlas r, F.codec.Reads (F.codec.encode x) x :=
  I.parse_eq_ok_iff.trans (Format.decodes_encode_iff fits)

/-- What was parsed and could be written is parsed again from what was written. -/
theorem parse_encode_of_parse (I : Implements P F header nlas parse bufferLen emit)
    (hs : F.Stable) (fits : ∀ x ∈ nlas r, (F.codec.encode x).Fits) {b : Bytes}
    (h : parse b = .ok r) : parse (F.encode P.order (header r) (nlas r)) = .ok r :=
  I.parse_eq_ok_iff.mpr (hs.decodes_encode fits (I.parse_eq_ok_iff.mp h))

/-- **What was parsed is written as the canonical form of its bytes**, which is parsed as the
    same. -/
theorem emit_run_canonical (I : Implements P F header nlas parse bufferLen emit) (hs : F.Stable)
    {canonHeader : Bytes → Bytes} {canon : Attr → Attr}
    (hheader : ∀ b h, b.length = F.headerLen → F.readHeader b = some h →
      F.writeHeader h = canonHeader b)
    (hattr : ∀ a x, F.codec.Reads a x → F.codec.encode x = canon a)
    (fits : ∀ x ∈ nlas r, (F.codec.encode x).Fits) {b : Bytes} (h : parse b = .ok r) :
    (∀ buf : Bytes, buf.length = bufferLen r →
      (emit r).run buf = .ok (canonical P.order F.headerLen canonHeader canon b)) ∧
    parse (canonical P.order F.headerLen canonHeader canon b) = .ok r := by
  rw [← Format.encode_of_decodes hheader hattr (I.parse_eq_ok_iff.mp h)]
  exact ⟨fun buf hbuf => I.emit_run fits hbuf, I.parse_encode_of_parse hs fits h⟩

section Insert

variable {as : List Attr} {u : Attr} {v : α} {head x mid y : Bytes} {r' : R}

/-- Parsed with an attribute put in, a response is what it was without, and `v`. -/
theorem parse_insert_iff (I : Implements P F header nlas parse bufferLen emit)
    (response : H → List α → R) (hheader : ∀ h xs, header (response h xs) = h)
    (hnlas : ∀ h xs, nlas (response h xs) = xs) (hlen : head.length = F.headerLen)
    (hu : ∀ z, F.codec.Reads u z ↔ z = v) (hx : Area P.order as x) (hal : x.length % 4 = 0)
    (hmid : Area P.order [u] mid) (hmidal : mid.length % 4 = 0) :
    parse (head ++ (x ++ (mid ++ y))) = .ok r' ↔
      ∃ front back, nlas r' = front ++ v :: back ∧ front.length = as.length ∧
        parse (head ++ (x ++ y)) = .ok (response (header r') (front ++ back)) := by
  simp only [I.parse_eq_ok_iff, Format.decodes_insert_iff hlen hu hx hal hmid hmidal, hheader, hnlas]

/-- The attributes in front are all among those of the response. -/
theorem length_le_nlas (I : Implements P F header nlas parse bufferLen emit)
    (hlen : head.length = F.headerLen) (hx : Area P.order as x) (hal : x.length % 4 = 0)
    (h : parse (head ++ (x ++ y)) = .ok r) : as.length ≤ (nlas r).length := by
  have hd := (Format.decodes_append_iff hlen).mp (I.parse_eq_ok_iff.mp h)
  exact hd.2.length_le_of_append hx hal

end Insert

/-- Cut through none of its parts, what round-trips is parsed as `r'`, what is left of it. -/
theorem parse_take (I : Implements P F header nlas parse bufferLen emit)
    (fits : ∀ x ∈ nlas r, (F.codec.encode x).Fits) {r' : R} {n : Nat}
    (hself : parse (F.encode P.order (header r) (nlas r)) = .ok r)
    (hcut : ¬ CutsThrough F.headerLen F.codec.encodedLength (nlas r) n)
    (hheader : header r' = header r)
    (hnlas : nlas r' = endedBy F.headerLen F.codec.encodedLength (nlas r) n) :
    parse ((F.encode P.order (header r) (nlas r)).take n) = .ok r' := by
  rw [I.parse_eq_ok_iff, hheader, hnlas]
  exact Format.decodes_take fits (I.parse_eq_ok_iff.mp hself) hcut

/-- Cut through its header or through an attribute, a response is not parsed. -/
theorem parse_take_eq_err (I : Implements P F header nlas parse bufferLen emit)
    (fits : ∀ x ∈ nlas r, (F.codec.encode x).Fits) {n : Nat}
    (hcut : CutsThrough F.headerLen F.codec.encodedLength (nlas r) n) :
    ∃ e, parse ((F.encode P.order (header r) (nlas r)).take n) = .err e :=
  (I.parse_returns _).eq_err fun _ h => Format.not_decodes_take fits hcut (I.parse_eq_ok_iff.mp h)

end Implements

end SockDiag
