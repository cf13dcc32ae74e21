import SockDiag.Machine.Run
import SockDiag.Netlink

/-!
# `examples/dump_ipv4.rs` — a client

The program that comes with the crate: it asks the kernel for the IPv4 TCP sockets and prints what
comes back. The answer is many messages in some datagrams, up to one that says it is done; the client
reads a datagram into a buffer of 4096 bytes and takes the messages off it one by one.

`main` is two things here. Up to the socket it is a function, `serialized`. From the loop on it is a
machine whose state is the state of `main` between two turns of a loop, and whose events are the turns
of the inner loop, what `recv` returns and, on the other side of the socket, the datagrams the kernel
sends, whenever it does.

## What is assumed of the socket

The socket and the kernel behind it are not part of the repository. Three things are assumed of them,
and nothing else:

* **order** — datagrams are received in the order they were sent: `Event.send` puts one at the end of
  `System.inFlight`, and `Event.recv` takes the first;
* **no loss** — each is received once at most, and none is skipped. Where the kernel has to drop one
  it says so by an error, which is `Event.recvErr`, and the client does not receive again after that;
* **truncation** — a call of `recv` takes one datagram, writes the front of it into the front of the
  buffer and returns how much that was: `NetlinkMessages.Lawful.recv_size` and `recv_front`. What is
  behind it in the buffer may be anything.

When something is sent, how much in one datagram, and whether it is netlink at all, is open.
-/

set_option autoImplicit false

namespace SockDiag

open Rust Inet

namespace Dump

/-! ## The request -/

def nlmFRequest : UInt16 := 1
def nlmFDump : UInt16 := 768

def request : InetRequest where
  family := afInet
  protocol := ipprotoTcp
  extensions := ⟨0⟩
  states := .all
  socketId := .newV4

section Code

variable {P : Platform} (N : NetlinkMessages P)

/-- `let mut buf = vec![0; …]; assert_eq!(buf.len(), packet.buffer_len()); packet.serialize(…);` -/
def serialized {I : Type} (S : NetlinkSerializable I) (packet : N.Message I) : Outcome Empty Bytes :=
  let buf : Bytes := List.replicate packet.header.length.toNat 0
  if buf.length = N.bufferLen S packet then (N.serialize S packet).run buf else .panic

/-- `NetlinkMessage::new(nl_hdr, message.into())`, finalized. -/
def finalized {I : Type} (S : NetlinkSerializable I) (flags : UInt16)
    (payload : NetlinkPayload N.DoneMessage N.ErrorMessage I) : N.Message I :=
  N.finalize S ⟨{ WholeHeader.default with flags := flags }, payload⟩

/-- The packet `main` sends. -/
def packet (rich : Bool) : N.Message (SockDiagMessage rich) :=
  finalized N (SockDiagMessage.serializable P rich) (nlmFRequest ||| nlmFDump)
    (SockDiagMessage.inetRequest request).toPayload

/-! ## The client -/

/-- What is printed. -/
inductive Line (rich : Bool) where
  /-- `println!("<<< {rx_packet:?}")` -/
  | received (rxPacket : N.Message (SockDiagMessage rich))
  /-- `println!("{response:#?}")` -/
  | response (response : InetResponse rich)
  /-- `println!("Done!")` -/
  | done

/-- Where `main` can return. -/
inductive Exit where
  | done
  /-- `_ => return` -/
  | other
  /-- `while let Ok(size)`, when it is not -/
  | recvErr
deriving DecidableEq, Repr

inductive Phase where
  /-- At the `recv` of the outer loop. -/
  | receiving
  /-- At the top of the inner loop, with `size` bytes received. -/
  | reading (size : Nat)
  | returned (exit : Exit)
  | panicked
deriving DecidableEq, Repr

/-- `vec![0; 4096]`, and never any longer or shorter. -/
abbrev ReceiveBuffer : Type := { buf : Bytes // buf.length = 4096 }

structure Client (rich : Bool) where
  receiveBuffer : ReceiveBuffer
  offset : Nat
  phase : Phase
  lines : List (Line N rich)

end Code

namespace Client

variable {P : Platform} {N : NetlinkMessages P} {rich : Bool}

/-- When the request has been sent. -/
def start : Client N rich where
  receiveBuffer := ⟨List.replicate 4096 0, List.length_replicate⟩
  offset := 0
  phase := .receiving
  lines := []

/-- `recv` returns `Ok(size)`. -/
def receive (c : Client N rich) (datagram : Bytes) : Client N rich :=
  let received := N.recv c.receiveBuffer datagram
  { c with receiveBuffer := received.1, phase := .reading received.2 }

def print (c : Client N rich) (line : Line N rich) : Client N rich :=
  { c with lines := c.lines ++ [line] }

/-- The `if` at the end of the inner loop. -/
def advance (c : Client N rich) (size : Nat) (length : UInt32) : Client N rich :=
  let offset := c.offset + length.toNat
  if offset = size ∨ length = 0 then { c with offset := 0, phase := .receiving }
  else { c with offset := offset }

/-- `println!("<<< {rx_packet:?}")` and the `match` after it. -/
def handle (c : Client N rich) (size : Nat) (rxPacket : N.Message (SockDiagMessage rich)) :
    Client N rich :=
  let c := c.print (.received rxPacket)
  match rxPacket.payload with
  | .noop => c.advance size rxPacket.header.length
  | .innerMessage (.inetResponse response) =>
    (c.print (.response response)).advance size rxPacket.header.length
  | .done _ => { c.print .done with phase := .returned .done }
  | _ => { c with phase := .returned .other }

/-- `let bytes = &receive_buffer[offset..]` and `deserialize(bytes).unwrap()`. The slice ends where
    the buffer does, not where the datagram does. -/
def rxPacket (c : Client N rich) : Outcome Empty (N.Message (SockDiagMessage rich)) := do
  let bytes ← sliceFrom c.receiveBuffer.1 c.offset
  (N.deserialize (SockDiagMessage.deserialize P) bytes).unwrap

/-- One turn of the inner loop. -/
def turn (c : Client N rich) (size : Nat) : Client N rich :=
  match c.rxPacket with
  | .ok rxPacket => c.handle size rxPacket
  | .panic => { c with phase := .panicked }
  -- A call that does not come back leaves the client where it is.
  | .diverge => c

end Client

/-! ## The client and the kernel -/

inductive Event where
  /-- The kernel sends a datagram. -/
  | send (datagram : Bytes)
  /-- `recv` returns `Ok` with the next datagram. -/
  | recv
  /-- `recv` returns `Err`. -/
  | recvErr
  | turn
deriving DecidableEq, Repr

structure System {P : Platform} (N : NetlinkMessages P) (rich : Bool) where
  /-- What the kernel has sent. -/
  sent : List Bytes
  /-- What of it has not been received. -/
  inFlight : List Bytes
  client : Client N rich

section System

variable {P : Platform} {N : NetlinkMessages P} {rich : Bool}

def step (s : System N rich) : Event → Option (System N rich)
  | .send datagram =>
    some { s with sent := s.sent ++ [datagram], inFlight := s.inFlight ++ [datagram] }
  | .recv =>
    match s.client.phase, s.inFlight with
    | .receiving, datagram :: inFlight =>
      some { s with inFlight := inFlight, client := s.client.receive datagram }
    | _, _ => none
  | .recvErr =>
    match s.client.phase with
    | .receiving => some { s with client := { s.client with phase := .returned .recvErr } }
    | _ => none
  | .turn =>
    match s.client.phase with
    | .reading size => some { s with client := s.client.turn size }
    | _ => none

def machine (N : NetlinkMessages P) (rich : Bool) : Machine (System N rich) Event where
  init := ⟨[], [], .start⟩
  step := step

end System

end Dump

end SockDiag
