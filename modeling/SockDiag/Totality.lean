import SockDiag.Grammar

/-!
# Every decoder comes back

The bytes are somebody else's, and so are all the lengths in them. Whatever they are, a decoder
returns: no index or slice is out of range, nothing is unwrapped that is not there, and the loop
over the attributes ends. A decoder that is a chain of steps comes back when each step does, so all
there is left to do is to collect what the functions' own lemmas say.

`decoders_return` has all six decoders, and besides that they cannot be made to return much: there
are no more attributes in a response than a quarter of its bytes behind the header. The steps are
partial functions in the model as they are in the source, and the loop has fuel; so a decoder that
indexed past its bytes or went round forever would be one of which this could not be proved.
-/

set_option autoImplicit false

namespace SockDiag

open Rust Tlv Inet Unix

/-- What is decoded is a response, with an attribute for every four bytes after its header at the
    most. -/
theorem length_nlas_of_parseWithParam {P : Platform} [P.Lawful] {rich : Bool} {b : Bytes}
    {type : UInt16} {m : SockDiagMessage rich}
    (h : SockDiagMessage.parseWithParam P b type = .ok m) :
    (∃ r, m = .inetResponse r ∧ r.nlas.length ≤ (b.length - 72) / 4) ∨
      ∃ r, m = .unixResponse r ∧ r.nlas.length ≤ (b.length - 16) / 4 := by
  obtain ⟨-, ⟨r, hm, -, hr⟩ | ⟨r, hm, -, hr⟩⟩ := SockDiagMessage.parseWithParam_eq_ok_iff.mp h
  · exact .inl ⟨r, hm, (InetResponse.implements P).length_nlas_le hr⟩
  · exact .inr ⟨r, hm, (UnixResponse.implements P).length_nlas_le hr⟩

/-- **Decoding never panics and always ends**, and what it returns is no longer than its bytes. -/
theorem decoders_return (P : Platform) [P.Lawful] (rich : Bool) (b : Bytes) (type : UInt16) :
    (SockDiagMessage.parseWithParam P b type : Outcome _ (SockDiagMessage rich)).Returns ∧
    (InetResponse.parse P b : Outcome _ (InetResponse rich)).Returns ∧
    (UnixResponse.parse P b).Returns ∧
    (InetRequest.parse P b).Returns ∧
    (UnixRequest.parse P b).Returns ∧
    (UnixDiagName.parse P b).Returns ∧
    (∀ m : SockDiagMessage rich, SockDiagMessage.parseWithParam P b type = .ok m →
      (∃ r, m = .inetResponse r ∧ r.nlas.length ≤ (b.length - 72) / 4) ∨
        ∃ r, m = .unixResponse r ∧ r.nlas.length ≤ (b.length - 16) / 4) ∧
    (∀ r : InetResponse rich, InetResponse.parse P b = .ok r →
      r.nlas.length ≤ (b.length - 72) / 4) ∧
    ∀ r, UnixResponse.parse P b = .ok r → r.nlas.length ≤ (b.length - 16) / 4 := by
  refine ⟨SockDiagMessage.parseWithParam_returns, ?_, ?_, ?_, ?_, ?_, ?_, ?_, ?_⟩
  · exact (InetResponse.implements P).parse_returns b
  · exact (UnixResponse.implements P).parse_returns b
  · exact InetRequest.parse_returns P b
  · exact UnixRequest.parse_returns P b
  · exact UnixDiagName.parse_returns P
  · exact fun m hm => length_nlas_of_parseWithParam hm
  · exact fun r hr => (InetResponse.implements P).length_nlas_le hr
  · exact fun r hr => (UnixResponse.implements P).length_nlas_le hr

theorem peerMessage_returns :
    (SockDiagMessage.parseWithParam (.reference .little) peerMessage sockDiagByFamily :
      Outcome _ (SockDiagMessage true)).Returns ∧
    ∃ r, UnixResponse.parse (.reference .little) peerMessage = .ok r ∧
      r.nlas.length ≤ (24 - 16) / 4 := by
  obtain ⟨hmessage, -, -, -, -, -, -, -, hunix⟩ :=
    decoders_return (.reference .little) true peerMessage sockDiagByFamily
  let r : UnixResponse := ⟨⟨1, 1, 20238, #v[160, 105, 0, 0, 0, 0, 0, 0]⟩, [.peer 20237]⟩
  have hr : UnixResponse.parse (.reference .little) peerMessage = .ok r := rfl
  exact ⟨hmessage, r, hr, hunix r hr⟩

end SockDiag
