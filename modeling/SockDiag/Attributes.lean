import SockDiag.Platform

/-!
# The attribute list of a response

Both responses end in a list of netlink attributes, written by one call and read by one loop. The
two are the crate's, the attribute types are not yet known: what a type has to satisfy is

* to be written: `Encodes`, that `value_len`, `kind` and `emit_value` are three views of one raw
  attribute — `emit_value` fills exactly `value_len` bytes and panics on fewer;
* to be read: that its parser is the `Reads` of a `Tlv.Codec`.

From the first comes what a list is written as (`emitNlas_emits`) and when it cannot be
(`emitNlas_panics`), from the second what the loop accepts (`collectNlas_eq_ok_iff`).
-/

set_option autoImplicit false

namespace SockDiag

open Rust Tlv

/-- The type of an attribute without its two flag bits (`NlaBuffer::kind`). -/
def nlaType (kind : UInt16) : UInt16 := kind &&& 0x3fff

theorem Platform.Views.nlaKind {P : Platform} {nla : P.NlaBuffer} {a : Attr} (h : P.Views nla a) :
    P.nlaKind nla = nlaType a.kind := h.kind

/-! ## Writing -/

/-- The trait object writes the raw attribute `a`. -/
structure NlaTrait.Encodes (n : NlaTrait) (a : Attr) : Prop where
  kind : n.kind = a.kind
  valueLen : n.valueLen = a.payload.length
  fills : n.emitValue.Fills a.payload
  needs : n.emitValue.Needs a.payload.length

namespace NlaTrait

/-- The length field is wide enough for 65531 bytes of payload. -/
theorem Encodes.fits_iff {n : NlaTrait} {a : Attr} (h : n.Encodes a) :
    a.Fits ↔ n.valueLen ≤ 65531 := by
  rw [Attr.fits_iff, h.valueLen]

/-- `emit_value` writes as many bytes as `value_len` says, every one of them. -/
theorem Encodes.overwrites {n : NlaTrait} {a : Attr} (h : n.Encodes a) :
    n.emitValue.Overwrites n.valueLen := by
  rw [h.valueLen]
  exact h.fills.overwrites

/-- `emit_value` copies the whole payload. -/
theorem encodes_copyFromSlice (kind : UInt16) (src : Bytes) :
    Encodes ⟨src.length, kind, .copyFromSlice src⟩ ⟨kind, src⟩ where
  kind := rfl
  valueLen := rfl
  fills := Writer.fills_copyFromSlice src
  needs := Writer.needs_copyFromSlice src

/-- `emit_value` writes one byte. -/
theorem encodes_set (kind : UInt16) (b : UInt8) : Encodes ⟨1, kind, .set 0 b⟩ ⟨kind, [b]⟩ where
  kind := rfl
  valueLen := rfl
  fills := (Writer.emits_set_zero b).fills
  needs := Writer.needs_set 0 b

/-- `emit_value` writes one native integer. -/
theorem encodes_emitU32 (P : Platform) [P.Lawful] (kind : UInt16) (v : UInt32) :
    Encodes ⟨4, kind, (P.emitU32 v).unwrap⟩ ⟨kind, (Packed.u32 P.order).toBytes v⟩ where
  kind := rfl
  valueLen := by simp
  fills := (P.emitU32_unwrap_emits v).fills
  needs := by simpa using P.emitU32_unwrap_needs v

/-- `emit_value` copies a packed struct. -/
theorem encodes_asBytes (P : Platform) [P.Lawful] {α : Type} (kind : UInt16) (L : Packed α) (a : α) :
    Encodes ⟨L.size, kind, .copyFromSlice (P.asBytes L a).toList⟩ ⟨kind, L.toBytes a⟩ := by
  have h := encodes_copyFromSlice kind (L.toBytes a)
  rw [L.length_toBytes] at h
  rw [P.toList_asBytes]
  exact h

end NlaTrait

namespace Platform

variable (P : Platform) [P.Lawful] {n : NlaTrait} {ns : List NlaTrait} {a : Attr} {as : List Attr}

theorem nlaBufferLen_eq_align (h : n.Encodes a) : P.nlaBufferLen n = align a.length := by
  rw [Lawful.nlaBufferLen_eq, h.valueLen, ← align_add_four]
  rfl

/-- `buffer_len` of a list is the length of what is written. -/
theorem nlasBufferLen_eq_length (h : List.Forall₂ NlaTrait.Encodes ns as) :
    P.nlasBufferLen ns = (wire P.order as).length := by
  rw [Lawful.nlasBufferLen_eq]
  induction h with
  | nil => rfl
  | cons hn _ ih =>
    rw [List.map_cons, List.sum_cons, ih, P.nlaBufferLen_eq_align hn, wire_cons,
      List.length_append, Attr.length_wire]

/-- An attribute whose length field is wide enough fills its slice. -/
theorem emitNla_fills (h : n.Encodes a) (fits : a.Fits) : (P.emitNla n).Fills (a.wire P.order) := by
  intro buf hl
  have hlen : buf.length = P.nlaBufferLen n := by
    rw [hl, P.nlaBufferLen_eq_align h, Attr.length_wire]
  have hval : (slice buf 4 (4 + n.valueLen)).length = a.payload.length := by
    have := le_align a.length
    have hal : a.length = 4 + a.payload.length := rfl
    rw [length_slice, h.valueLen, hl, Attr.length_wire]
    omega
  have hle : n.valueLen ≤ 65531 := by
    rw [h.valueLen]
    exact Attr.fits_iff.mp fits
  rw [Lawful.emitNla_eq n buf hle hlen, h.fills _ hval, Outcome.ok_bind, h.kind]

/-- An attribute whose length field is too narrow is never written: the length overflows, or it
    wraps around and `emit_value` is lent fewer bytes than it needs. -/
theorem emitNla_panics (h : n.Encodes a) (hfits : ¬ a.Fits) {buf : Bytes}
    (hl : buf.length = P.nlaBufferLen n) : (P.emitNla n).run buf = .panic := by
  have hbig : 65532 ≤ n.valueLen := by
    rw [Attr.fits_iff] at hfits
    rw [h.valueLen]
    omega
  -- Either the `+ 4` overflows the 16 bits, or the cast before it has already wrapped.
  by_cases hov : 65532 ≤ n.valueLen % 65536
  · exact Lawful.emitNla_overflow n buf hov
  · have hwrap : 65536 ≤ n.valueLen := by omega
    refine Lawful.emitNla_wrapped n buf hwrap hl (h.needs _ ?_)
    rw [length_slice, ← h.valueLen]
    omega

/-- **A list of attributes is written as the raw attributes it stands for**, at the front of what
    it is lent. -/
theorem emitNlas_emits (h : List.Forall₂ NlaTrait.Encodes ns as) (fits : ∀ a ∈ as, a.Fits) :
    (P.emitNlas ns).Emits (wire P.order as) := by
  -- Each attribute fills the slice it is lent and leaves the rest of the list the rest.
  induction h with
  | nil =>
    intro buf _
    exact Lawful.emitNlas_nil buf
  | @cons n a ns as hn _ ih =>
    intro buf hl
    have hsize : P.nlaBufferLen n = (a.wire P.order).length := by
      rw [P.nlaBufferLen_eq_align hn, Attr.length_wire]
    rw [wire_cons, List.length_append] at hl
    have hle : P.nlaBufferLen n ≤ buf.length := by omega
    have hhead := P.emitNla_fills hn (fits a (by simp)) (buf.take (P.nlaBufferLen n))
      (by rw [List.length_take, hsize]; omega)
    have htail := ih (fun a' hm => fits a' (by simp [hm])) (buf.drop (P.nlaBufferLen n))
      (by rw [List.length_drop, hsize]; omega)
    rw [Lawful.emitNlas_cons n ns buf hle, hhead, Outcome.ok_bind, htail, Outcome.ok_bind,
      List.drop_drop, hsize, ← List.length_append, ← wire_cons, ← List.append_assoc, ← wire_cons]

/-- One attribute that does not fit is enough for the whole list to panic. -/
theorem emitNlas_panics (h : List.Forall₂ NlaTrait.Encodes ns as) (hbad : ∃ a ∈ as, ¬ a.Fits)
    (buf : Bytes) : (P.emitNlas ns).run buf = .panic := by
  induction h generalizing buf with
  | nil =>
    obtain ⟨a, hm, -⟩ := hbad
    exact absurd hm (by simp)
  | @cons n a ns as hn _ ih =>
    by_cases hle : P.nlaBufferLen n ≤ buf.length
    · have hlen : (buf.take (P.nlaBufferLen n)).length = P.nlaBufferLen n := by
        rw [List.length_take]
        omega
      rw [Lawful.emitNlas_cons n ns buf hle]
      by_cases hfit : a.Fits
      · -- The head is written, so the attribute that does not fit is in the tail.
        have hbad' : ∃ a' ∈ as, ¬ a'.Fits := by
          obtain ⟨a', hm, hnot⟩ := hbad
          rcases List.mem_cons.mp hm with rfl | hm
          · exact absurd hfit hnot
          · exact ⟨a', hm, hnot⟩
        rw [P.emitNla_fills hn hfit _ (by rw [hlen, P.nlaBufferLen_eq_align hn, Attr.length_wire]),
          Outcome.ok_bind, ih hbad']
        rfl
      · rw [P.emitNla_panics hn hfit hlen]
        rfl
    · exact Lawful.emitNlas_short n ns buf (Nat.lt_of_not_le hle)

end Platform

/-! ## Reading -/

section Collect

open Platform (Lawful)

variable (P : Platform) {α : Type} (parse : P.NlaBuffer → Outcome P.DecodeError α) (msg : String)

/-- The body of the loop: `nlas.push(Nla::parse(&nla_buf?).context(msg)?)`. -/
def pushNla (nlaBuf : Outcome P.DecodeError P.NlaBuffer) (nlas : List α) :
    Outcome P.DecodeError (List α) := do
  -- The iterator's own error has no context added to it.
  let nlaBuf ← nlaBuf
  let nla ← (parse nlaBuf).mapErr (P.context msg)
  .ok (nlas ++ [nla])

/-- `for nla_buf in NlasIterator::new(payload) { nlas.push(…) }`. Every turn but the last takes at
    least four bytes, so the payload's length is fuel enough. -/
def collectNlas (payload : Bytes) : Outcome P.DecodeError (List α) :=
  forLoop P.next (pushNla P parse msg) (payload.length + 1) (P.nlasIterator payload) []

variable {P parse msg} {c : Codec α} {payload : Bytes} {xs : List α}

theorem pushNla_eq_ok_iff (hparse : ∀ nla a x, P.Views nla a → (parse nla = .ok x ↔ c.Reads a x))
    {nla : P.NlaBuffer} {a : Attr} (hv : P.Views nla a) {acc ys : List α} :
    pushNla P parse msg (.ok nla) acc = .ok ys ↔ ∃ x, c.Reads a x ∧ ys = acc ++ [x] := by
  simp only [pushNla, Outcome.ok_bind, Outcome.bind_eq_ok, Outcome.mapErr_eq_ok,
    Outcome.ok.injEq, hparse nla a _ hv]
  refine ⟨?_, ?_⟩
  · intro h
    obtain ⟨x, hx, rfl⟩ := h
    exact ⟨x, hx, rfl⟩
  · intro h
    obtain ⟨x, hx, rfl⟩ := h
    exact ⟨x, hx, rfl⟩

variable [P.Lawful]

/-- The loop from any position and with anything already collected. -/
theorem forLoop_pushNla_eq_ok_iff
    (hparse : ∀ nla a x, P.Views nla a → (parse nla = .ok x ↔ c.Reads a x)) {fuel : Nat} :
    ∀ {it : P.NlasIterator} {acc ys : List α}, (P.remaining it).length < fuel →
      (forLoop P.next (pushNla P parse msg) fuel it acc = .ok ys ↔
        ∃ xs, ys = acc ++ xs ∧ c.Decodes P.order (P.remaining it) xs) := by
  -- On the fuel, of which there is more than there are bytes left; each turn uses one of it up and
  -- at least four of them.
  induction fuel with
  | zero =>
    intro it acc ys hfuel
    exact absurd hfuel (Nat.not_lt_zero _)
  | succ fuel ih =>
    intro it acc ys hfuel
    by_cases hdone : P.remaining it = []
    · rw [forLoop_done (Lawful.next_done it hdone), hdone, Outcome.ok.injEq]
      refine ⟨?_, ?_⟩
      · intro hd
        subst hd
        exact ⟨[], by simp, Codec.decodes_empty_iff.mpr rfl⟩
      · intro hd
        obtain ⟨xs, rfl, hxs⟩ := hd
        rw [Codec.decodes_empty_iff.mp hxs, List.append_nil]
    · cases hu : unframe P.order (P.remaining it) with
      | none =>
        obtain ⟨e, it', hnext, -⟩ := Lawful.next_err it hdone hu
        rw [forLoop_step hnext]
        refine ⟨?_, ?_⟩
        · intro h
          exact absurd h (by simp [pushNla])
        · intro hd
          obtain ⟨xs, -, hxs⟩ := hd
          exact absurd hxs (Codec.not_decodes_of_unframe hdone hu)
      | some p =>
        obtain ⟨a, rest⟩ := p
        obtain ⟨nla, it', hnext, hrest, hv⟩ := Lawful.next_ok it a rest hu
        have hlt := length_unframe_lt hu
        rw [forLoop_step hnext, Outcome.bind_eq_ok]
        simp only [pushNla_eq_ok_iff hparse hv, ih (show (P.remaining it').length < fuel by
          rw [hrest]; omega), hrest, Codec.decodes_iff_of_unframe hu]
        refine ⟨?_, ?_⟩
        · intro hd
          obtain ⟨_, ⟨x, hx, rfl⟩, xs, rfl, hxs⟩ := hd
          exact ⟨x :: xs, by simp, x, xs, rfl, hx, hxs⟩
        · intro hd
          obtain ⟨_, rfl, x, xs, rfl, hx, hxs⟩ := hd
          exact ⟨acc ++ [x], ⟨x, hx, rfl⟩, xs, by simp, hxs⟩

/-- **The loop accepts exactly the areas whose attributes all read**, and collects what they read
    as. -/
theorem collectNlas_eq_ok_iff
    (hparse : ∀ nla a x, P.Views nla a → (parse nla = .ok x ↔ c.Reads a x)) :
    collectNlas P parse msg payload = .ok xs ↔ c.Decodes P.order payload xs := by
  have hrem : P.remaining (P.nlasIterator payload) = payload := Lawful.remaining_nlasIterator _
  have hfuel : (P.remaining (P.nlasIterator payload)).length < payload.length + 1 := by
    rw [hrem]
    exact Nat.lt_succ_self _
  unfold collectNlas
  rw [forLoop_pushNla_eq_ok_iff hparse hfuel, hrem]
  refine ⟨?_, ?_⟩
  · intro h
    obtain ⟨ys, rfl, hys⟩ := h
    exact hys
  · intro hxs
    exact ⟨xs, rfl, hxs⟩

theorem forLoop_pushNla_returns (hret : ∀ nla a, P.Views nla a → (parse nla).Returns) {fuel : Nat} :
    ∀ {it : P.NlasIterator} {acc : List α}, (P.remaining it).length < fuel →
      (forLoop P.next (pushNla P parse msg) fuel it acc).Returns := by
  induction fuel with
  | zero =>
    intro it acc hfuel
    exact absurd hfuel (Nat.not_lt_zero _)
  | succ fuel ih =>
    intro it acc hfuel
    by_cases hdone : P.remaining it = []
    · rw [forLoop_done (Lawful.next_done it hdone)]
      exact Outcome.returns_ok _
    · cases hu : unframe P.order (P.remaining it) with
      | none =>
        obtain ⟨e, it', hnext, -⟩ := Lawful.next_err it hdone hu
        rw [forLoop_step hnext]
        exact Outcome.returns_err e
      | some p =>
        obtain ⟨a, rest⟩ := p
        obtain ⟨nla, it', hnext, hrest, hv⟩ := Lawful.next_ok it a rest hu
        have hlt := length_unframe_lt hu
        rw [forLoop_step hnext]
        refine Outcome.Returns.bind ?_ fun acc' _ => ih (by rw [hrest]; omega)
        show (Outcome.mapErr _ (parse nla) >>= _).Returns
        exact (Outcome.returns_mapErr.mpr (hret nla a hv)).bind fun _ _ => Outcome.returns_ok _

/-- The loop terminates and never panics. -/
theorem collectNlas_returns (hret : ∀ nla a, P.Views nla a → (parse nla).Returns) :
    (collectNlas P parse msg payload).Returns := by
  refine forLoop_pushNla_returns hret ?_
  rw [Lawful.remaining_nlasIterator]
  exact Nat.lt_succ_self _

end Collect

end SockDiag
