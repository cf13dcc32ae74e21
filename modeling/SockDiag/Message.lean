import SockDiag.Inet.Request
import SockDiag.Inet.Response
import SockDiag.Unix.Request
import SockDiag.Unix.Response

/-!
# `message.rs` — messages and their dispatch

One enumeration for both directions, but only half of it is ever decoded: the message type and the
family byte are the same in a request and in the response to it, and the decoder takes whatever it
is given for a response. `SockDiagDestroy` is any message with another type in front, and the same
decoder behind it.

The functions are thin. `parse_with_param` looks at the message type it is told and at the first
byte, and hands the bytes on; the rest are `match`es that call the function of the variant. What
there is to prove of them is which variant it is, and that is `parseWithParam_eq_ok_iff`: a message
is decoded exactly when its type is `SOCK_DIAG_BY_FAMILY` and the decoder of responses for the
family in its first byte accepts the bytes. The other results about decoding start from it.
`parseWithParam_returns` is the same for the question whether it comes back at all.
-/

set_option autoImplicit false

namespace SockDiag

open Rust Tlv Inet Unix

inductive SockDiagMessage (rich : Bool) where
  | inetRequest (msg : InetRequest)
  | inetResponse (msg : InetResponse rich)
  | unixRequest (msg : UnixRequest)
  | unixResponse (msg : UnixResponse)

/-- What the crate reads of `netlink_packet_core::NetlinkHeader`. -/
structure NetlinkHeader where
  messageType : UInt16

section Code

variable (P : Platform) {rich : Bool}

namespace SockDiagMessage

def messageType (_ : SockDiagMessage rich) : UInt16 := sockDiagByFamily

def isInetResponse : SockDiagMessage rich → Bool
  | inetResponse _ => true
  | _ => false

def isUnixResponse : SockDiagMessage rich → Bool
  | unixResponse _ => true
  | _ => false

/-- The `match (message_type, buf[0])` of `parse_with_param`. -/
def dispatch (buf : Bytes) (messageType : UInt16) (af : UInt8) :
    Outcome P.DecodeError (SockDiagMessage rich) :=
  if messageType = sockDiagByFamily ∧ af = afInet then
    inetResponse <$> (InetResponse.parse P buf).mapErr (P.context "invalid AF_INET response")
  else if messageType = sockDiagByFamily ∧ af = afInet6 then
    inetResponse <$> (InetResponse.parse P buf).mapErr (P.context "invalid AF_INET6 response")
  else if messageType = sockDiagByFamily ∧ af = afUnix then
    unixResponse <$> (UnixResponse.parse P buf).mapErr (P.context "invalid AF_UNIX response")
  -- No arm for requests, which have the same type and the same families.
  else if messageType = sockDiagByFamily then
    .err (P.decodeError s!"unknown address family {af}")
  else
    .err (P.decodeError s!"unknown message type {messageType}")

/-- `impl ParseableParametrized<[u8], u16> for SockDiagMessage` -/
def parseWithParam (buf : Bytes) (messageType : UInt16) :
    Outcome P.DecodeError (SockDiagMessage rich) :=
  if buf.length < 2 then
    .err (P.decodeError
      s!"invalid buffer: length is {buf.length} but packets are at least 2 bytes")
  -- The second byte is asked for and not looked at.
  else do
    let af ← index buf 0
    dispatch P buf messageType af

def bufferLen : SockDiagMessage rich → Nat
  | inetRequest msg => msg.bufferLen P
  | inetResponse msg => msg.bufferLen P
  | unixRequest msg => msg.bufferLen P
  | unixResponse msg => msg.bufferLen P

/-- `impl Emitable for SockDiagMessage` -/
def emit : SockDiagMessage rich → Writer Empty
  | inetRequest msg => msg.emit P
  | inetResponse msg => msg.emit P
  | unixRequest msg => msg.emit P
  | unixResponse msg => msg.emit P

/-- `NetlinkSerializable::serialize` -/
def serialize (m : SockDiagMessage rich) : Writer Empty := m.emit P

/-- `NetlinkDeserializable::deserialize` -/
def deserialize (header : NetlinkHeader) (payload : Bytes) :
    Outcome P.DecodeError (SockDiagMessage rich) := parseWithParam P payload header.messageType

end SockDiagMessage

/-- A message to destroy the sockets it names. -/
structure SockDiagDestroy (rich : Bool) where
  message : SockDiagMessage rich

namespace SockDiagDestroy

def new (message : SockDiagMessage rich) : SockDiagDestroy rich := ⟨message⟩

def messageType (_ : SockDiagDestroy rich) : UInt16 := sockDestroy

def bufferLen (d : SockDiagDestroy rich) : Nat := d.message.bufferLen P

/-- `NetlinkSerializable::serialize` -/
def serialize (d : SockDiagDestroy rich) : Writer Empty := d.message.serialize P

/-- `NetlinkDeserializable::deserialize`: the header goes to the message's own decoder as it is. -/
def deserialize (header : NetlinkHeader) (payload : Bytes) :
    Outcome P.DecodeError (SockDiagDestroy rich) := do
  let message ← SockDiagMessage.deserialize P header payload
  .ok (new message)

end SockDiagDestroy

end Code

/-! ## The dispatch -/

namespace SockDiagMessage

section Dispatch

variable {P : Platform} {rich : Bool} {b : Bytes} {type : UInt16} {m : SockDiagMessage rich}

theorem dispatch_eq_ok_iff {af : UInt8} :
    dispatch P b type af = .ok m ↔
      type = sockDiagByFamily ∧
        ((∃ r, m = inetResponse r ∧ (af = afInet ∨ af = afInet6) ∧ InetResponse.parse P b = .ok r) ∨
          ∃ r, m = unixResponse r ∧ af = afUnix ∧ UnixResponse.parse P b = .ok r) := by
  unfold dispatch
  refine ⟨?_, ?_⟩
  · intro h
    rcases Outcome.arm_eq_ok h with ⟨⟨ht, haf⟩, r, hr, rfl⟩ | ⟨-, h⟩
    · exact ⟨ht, .inl ⟨r, rfl, .inl haf, Outcome.mapErr_eq_ok.mp hr⟩⟩
    rcases Outcome.arm_eq_ok h with ⟨⟨ht, haf⟩, r, hr, rfl⟩ | ⟨-, h⟩
    · exact ⟨ht, .inl ⟨r, rfl, .inr haf, Outcome.mapErr_eq_ok.mp hr⟩⟩
    rcases Outcome.arm_eq_ok h with ⟨⟨ht, haf⟩, r, hr, rfl⟩ | ⟨-, h⟩
    · exact ⟨ht, .inr ⟨r, rfl, haf, Outcome.mapErr_eq_ok.mp hr⟩⟩
    split at h
    · exact absurd h (by simp)
    · exact absurd h (by simp)
  · intro hd
    obtain ⟨rfl, ⟨r, rfl, haf, hr⟩ | ⟨r, rfl, rfl, hr⟩⟩ := hd
    · rw [hr]
      rcases haf with rfl | rfl
      · rfl
      · rfl
    · rw [hr]
      rfl

variable [P.Lawful]

theorem length_of_inet_parse {r : InetResponse rich} (h : InetResponse.parse P b = .ok r) :
    72 ≤ b.length := ((InetResponse.implements P).parse_eq_ok_iff.mp h).1

theorem length_of_unix_parse {r : UnixResponse} (h : UnixResponse.parse P b = .ok r) :
    16 ≤ b.length := ((UnixResponse.implements P).parse_eq_ok_iff.mp h).1

/-- **Only responses are decoded**, by the family in the first byte. -/
theorem parseWithParam_eq_ok_iff :
    parseWithParam P b type = .ok m ↔
      type = sockDiagByFamily ∧
        ((∃ r, m = inetResponse r ∧ (b.head? = some afInet ∨ b.head? = some afInet6) ∧
            InetResponse.parse P b = .ok r) ∨
          ∃ r, m = unixResponse r ∧ b.head? = some afUnix ∧ UnixResponse.parse P b = .ok r) := by
  unfold parseWithParam
  split
  · rename_i hshort
    refine iff_of_false (by simp) ?_
    intro h
    obtain ⟨-, ⟨r, -, -, hr⟩ | ⟨r, -, -, hr⟩⟩ := h
    · have := length_of_inet_parse hr
      omega
    · have := length_of_unix_parse hr
      omega
  · rename_i hlong
    cases b with
    | nil => exact absurd (by simp) hlong
    | cons af rest =>
      rw [index_cons_zero, Outcome.ok_bind, dispatch_eq_ok_iff]
      simp only [List.head?_cons, Option.some.injEq]

theorem dispatch_returns {af : UInt8} :
    (dispatch P b type af : Outcome _ (SockDiagMessage rich)).Returns := by
  have hinet : (InetResponse.parse P b : Outcome _ (InetResponse rich)).Returns :=
    (InetResponse.implements P).parse_returns b
  have hunix := (UnixResponse.implements P).parse_returns b
  unfold dispatch
  refine .arm (Outcome.returns_mapErr.mpr hinet) ?_
  refine .arm (Outcome.returns_mapErr.mpr hinet) ?_
  refine .arm (Outcome.returns_mapErr.mpr hunix) ?_
  split
  · exact Outcome.returns_err _
  · exact Outcome.returns_err _

theorem parseWithParam_returns :
    (parseWithParam P b type : Outcome _ (SockDiagMessage rich)).Returns := by
  unfold parseWithParam
  split
  · exact Outcome.returns_err _
  · rename_i hlong
    cases b with
    | nil => exact absurd (by simp) hlong
    | cons af rest =>
      rw [index_cons_zero, Outcome.ok_bind]
      exact dispatch_returns

end Dispatch

end SockDiagMessage

end SockDiag
