import SockDiag.Requests

/-!
# The buffer a message is written to

`Emitable` asks for a buffer that is big enough. Responses keep to that: they write into slices of
the sizes they announce and leave what is past them alone. Requests copy into the whole buffer, and
`copy_from_slice` panics on any length but its own.

`bigEnough_iff` is which of the two a message does, and with it `serialize` and a destroy request,
which only pass the buffer on. `Writer.Frames` is what is asked of an encoder there: whatever the
buffer, the message is written to the front of it and the rest stays as it was.

What was in the buffer makes no difference: every byte of a message is written, padding included, so
nothing of what the memory held before goes out with it. That is `emit_leaves_nothing`, for whole
messages and for the slice each attribute is lent for its value.
-/

set_option autoImplicit false

namespace SockDiag

open Rust Tlv Inet Unix

/-- No attribute is too long for its length field. -/
def SockDiagMessage.AttrsFit (P : Platform) {rich : Bool} : SockDiagMessage rich → Prop
  | inetResponse r => ∀ x ∈ r.nlas, x.valueLen P ≤ 65531
  | unixResponse r => ∀ x ∈ r.nlas, x.valueLen P ≤ 65531
  | inetRequest _ | unixRequest _ => True

section Frames

variable {P : Platform} {H α R : Type} {F : Format H α} {header : R → H} {nlas : R → List α}
  {parse : Bytes → Outcome P.DecodeError R} {bufferLen : R → Nat} {emit : R → Writer Empty}
  {r : R} {buf : Bytes}

/-- A response is written in front of whatever is left over. -/
theorem Implements.emit_frames (I : Implements P F header nlas parse bufferLen emit)
    (fits : ∀ x ∈ nlas r, (F.codec.encode x).Fits) (hbuf : bufferLen r ≤ buf.length) :
    (emit r).Frames (bufferLen r) buf := by
  rw [I.bufferLen_eq] at hbuf ⊢
  exact (I.emit_emits fits).frames hbuf

variable (P) [P.Lawful]

theorem inetRequest_frames_iff (r : InetRequest) :
    (r.emit P).Frames (r.bufferLen P) buf ↔ buf.length = r.bufferLen P := by
  have hlen : (r.bytes P).length = r.bufferLen P := r.length_bytes P
  rw [InetRequest.emit_eq, ← hlen]
  exact Writer.frames_copyFromSlice_iff

theorem unixRequest_frames_iff (r : UnixRequest) :
    (r.emit P).Frames (r.bufferLen P) buf ↔ buf.length = r.bufferLen P := by
  have hlen : (r.bytes P.order).length = r.bufferLen P := r.length_bytes P.order
  rw [UnixRequest.emit_eq, ← hlen]
  exact Writer.frames_copyFromSlice_iff

theorem SockDiagMessage.emit_frames_iff {rich : Bool} (m : SockDiagMessage rich)
    (hfit : m.AttrsFit P) (hbuf : m.bufferLen P ≤ buf.length) :
    (m.emit P).Frames (m.bufferLen P) buf ↔
      (m.isInetResponse = true ∨ m.isUnixResponse = true) ∨ buf.length = m.bufferLen P := by
  cases m with
  -- A request copies into the whole buffer, a response into slices of it.
  | inetRequest r =>
    rw [or_iff_right (by simp [isInetResponse, isUnixResponse])]
    exact inetRequest_frames_iff P r
  | inetResponse r =>
    refine iff_of_true ?_ (.inl (.inl rfl))
    exact (InetResponse.implements P).emit_frames ((InetResponse.fits_iff P).mpr hfit) hbuf
  | unixRequest r =>
    rw [or_iff_right (by simp [isInetResponse, isUnixResponse])]
    exact unixRequest_frames_iff P r
  | unixResponse r =>
    refine iff_of_true ?_ (.inl (.inr rfl))
    exact (UnixResponse.implements P).emit_frames ((UnixResponse.fits_iff P).mpr hfit) hbuf

end Frames

/-- **A big enough buffer is enough for a response, and for a request only the exact one is.** The
    three ways to write a message are the same in this. -/
theorem bigEnough_iff (P : Platform) [P.Lawful] {rich : Bool} (m : SockDiagMessage rich)
    (hfit : m.AttrsFit P) (buf : Bytes) (hbuf : m.bufferLen P ≤ buf.length) :
    ∀ w ∈ [m.emit P, m.serialize P, (SockDiagDestroy.new m).serialize P],
      w.Frames (m.bufferLen P) buf ↔
        (m.isInetResponse = true ∨ m.isUnixResponse = true) ∨ buf.length = m.bufferLen P := by
  intro w hw
  have hemit : w = m.emit P := by
    simp only [List.mem_cons, List.not_mem_nil, or_false] at hw
    rcases hw with rfl | rfl | rfl
    · rfl
    · rfl
    · rfl
  rw [hemit]
  exact m.emit_frames_iff P hfit hbuf

/-- A response of 100 bytes, with its attributes, leaves the last four of 104 alone. -/
theorem keptAlive_bigEnough :
    ((SockDiagMessage.inetResponse keptAlive).emit (.reference .little)).Frames 100
      (List.replicate 104 0xff) := by
  have hfit : (SockDiagMessage.inetResponse keptAlive).AttrsFit (.reference .little) :=
    show ∀ x ∈ keptAlive.nlas, x.valueLen (.reference .little) ≤ 65531 by decide
  exact (bigEnough_iff (.reference .little) (.inetResponse keptAlive) hfit
    (List.replicate 104 0xff) (by decide) _ (by simp)).mpr (.inl (.inl rfl))

/-- One byte more than a request needs is too many. -/
theorem anySocket_tooMuch :
    (SockDiagMessage.unixRequest anySocket : SockDiagMessage false).bufferLen (.reference .little) ≤
      (List.replicate 25 (0 : UInt8)).length ∧
    ((SockDiagMessage.unixRequest anySocket : SockDiagMessage false).emit
      (.reference .little)).run (List.replicate 25 0) = .panic := ⟨by decide, rfl⟩

/-! ## What was in the buffer -/

theorem SockDiagMessage.emit_overwrites (P : Platform) [P.Lawful] {rich : Bool}
    (m : SockDiagMessage rich) (hfit : m.AttrsFit P) : (m.emit P).Overwrites (m.bufferLen P) := by
  cases m with
  | inetRequest r =>
    refine ⟨r.bytes P, r.length_bytes P, ?_⟩
    intro buf hbuf
    exact emit_inetRequest P hbuf
  | inetResponse r =>
    exact (InetResponse.implements P).emit_overwrites ((InetResponse.fits_iff P).mpr hfit)
  | unixRequest r =>
    refine ⟨r.bytes P.order, r.length_bytes P.order, ?_⟩
    intro buf hbuf
    exact emit_unixRequest P hbuf
  | unixResponse r =>
    exact (UnixResponse.implements P).emit_overwrites ((UnixResponse.fits_iff P).mpr hfit)

/-- **No byte of a buffer survives what is written to it**: two buffers of the message's length end
    up the same, and so do the two slices any single attribute is lent for its value. -/
theorem emit_leaves_nothing (P : Platform) [P.Lawful] (rich : Bool) :
    (∀ m : SockDiagMessage rich, m.AttrsFit P → ∀ buf buf' : Bytes,
      buf.length = m.bufferLen P → buf'.length = m.bufferLen P →
        ∃ out, (m.emit P).run buf = .ok out ∧ (m.emit P).run buf' = .ok out) ∧
    (∀ x : Inet.Nla rich, (x.emitValue P).Overwrites (x.valueLen P)) ∧
    ∀ x : Unix.Nla, (x.emitValue P).Overwrites (x.valueLen P) := by
  refine ⟨?_, ?_, ?_⟩
  · intro m hfit buf buf' hbuf hbuf'
    exact (m.emit_overwrites P hfit).agree hbuf hbuf'
  · intro x
    exact (Inet.Nla.toTrait_encodes P x).overwrites
  · intro x
    exact (Unix.Nla.toTrait_encodes P x).overwrites

theorem keptAlive_leaves_nothing :
    ∃ out,
      ((SockDiagMessage.inetResponse keptAlive).emit (.reference .little)).run
        (List.replicate 100 0xff) = .ok out ∧
      ((SockDiagMessage.inetResponse keptAlive).emit (.reference .little)).run
        (List.replicate 100 0) = .ok out := by
  have hfit : (SockDiagMessage.inetResponse keptAlive).AttrsFit (.reference .little) :=
    show ∀ x ∈ keptAlive.nlas, x.valueLen (.reference .little) ≤ 65531 by decide
  exact (emit_leaves_nothing (.reference .little) false).1 (.inetResponse keptAlive) hfit
    _ _ List.length_replicate List.length_replicate

end SockDiag
