import SockDiag.Canonical

/-!
# Requests, decoded and encoded

The two codecs of a request are inverse to each other but for what one side cannot hold: flag bits
outside `all`, an address of the wrong family, fields nobody reads. `InverseUpTo` says exactly what
is lost in either direction. It names three things: `Fits`, the requests that come back; `Accepts`,
the bytes that are decoded, apart from their length; and `canonical`, what those bytes are written
as again.

It is proved once for a struct off the front of the bytes with a function after it
(`InverseUpTo.of_packed`), where `Fits` and `canonical` are what that function does to a struct, and
then of both requests. The work for each is to say these in terms of the request and of its bytes:
`ofRaw_from_iff` and `toBytes_eq_canonical`. `requests_inverse` has the two results.
-/

set_option autoImplicit false

namespace SockDiag

open Rust

/-- The codec of values that take `len` bytes is inverse in both directions, up to what is not in
    `Fits` and what `canonical` does to the bytes. -/
structure InverseUpTo {ε R : Type} (parse : Bytes → Outcome ε R) (emit : R → Writer Empty)
    (len : Nat) (Fits : R → Prop) (Accepts : Bytes → Prop) (canonical : Bytes → Bytes) : Prop where
  parse_emit : ∀ r (buf : Bytes), buf.length = len →
    ∃ out, (emit r).run buf = .ok out ∧ (parse out = .ok r ↔ Fits r)
  accepts : ∀ p, (∃ r, parse p = .ok r) ↔ len ≤ p.length ∧ Accepts p
  emit_parse : ∀ p r, parse p = .ok r → ∀ buf : Bytes, buf.length = len →
    (emit r).run buf = .ok (canonical p)
  /-- What comes after the struct makes no difference. -/
  parse_take : ∀ p, parse p = parse (p.take len)

/-- A codec that is `g` after the struct is read and `f` before it is written. -/
theorem InverseUpTo.of_packed {ε R Raw : Type} {parse : Bytes → Outcome ε R}
    {emit : R → Writer Empty} {Fits : R → Prop} {Accepts : Bytes → Prop}
    {canonical : Bytes → Bytes} (L : Packed Raw) {g : Raw → Option R} {f : R → Raw}
    (hparse : ∀ p r, parse p = .ok r ↔ L.size ≤ p.length ∧ g (L.ofBytes (p.take L.size)) = some r)
    (htake : ∀ p, parse (p.take L.size) = parse p)
    (hemit : ∀ r, emit r = .copyFromSlice (L.toBytes (f r)))
    (hfits : ∀ r, g (f r) = some r ↔ Fits r)
    (haccepts : ∀ p, L.size ≤ p.length →
      ((∃ r, g (L.ofBytes (p.take L.size)) = some r) ↔ Accepts p))
    (hcanonical : ∀ p raw r, p.take L.size = L.toBytes raw → g raw = some r →
      L.toBytes (f r) = canonical p) :
    InverseUpTo parse emit L.size Fits Accepts canonical where
  parse_emit := by
    intro r buf hbuf
    have hlen : (L.toBytes (f r)).length = L.size := L.length_toBytes (f r)
    refine ⟨L.toBytes (f r), ?_, ?_⟩
    · rw [hemit]
      exact Writer.fills_copyFromSlice _ buf (hbuf.trans hlen.symm)
    · rw [hparse, List.take_of_length_le (Nat.le_of_eq hlen), L.ofBytes_toBytes, hfits]
      exact and_iff_right (Nat.le_of_eq hlen.symm)
  accepts := by
    intro p
    refine ⟨?_, ?_⟩
    · intro h
      obtain ⟨r, hr⟩ := h
      obtain ⟨hlen, hg⟩ := (hparse p r).mp hr
      exact ⟨hlen, (haccepts p hlen).mp ⟨r, hg⟩⟩
    · intro h
      obtain ⟨hlen, hp⟩ := h
      obtain ⟨r, hr⟩ := (haccepts p hlen).mpr hp
      exact ⟨r, (hparse p r).mpr ⟨hlen, hr⟩⟩
  emit_parse := by
    intro p r hr buf hbuf
    obtain ⟨hlen, hg⟩ := (hparse p r).mp hr
    have hraw := L.toBytes_ofBytes (p.take L.size) (by rw [List.length_take, Nat.min_eq_left hlen])
    have hout : (L.toBytes (f r)).length = L.size := L.length_toBytes (f r)
    rw [hemit, ← hcanonical p _ r hraw.symm hg]
    exact Writer.fills_copyFromSlice _ buf (hbuf.trans hout.symm)
  parse_take := fun p => (htake p).symm

/-! ## Inet requests -/

namespace Inet.InetRequest

/-- `InetRequest::parse` without its errors and without its bytes. -/
def ofRaw (o : ByteOrder) (raw : InetRequestBuffer) : Option InetRequest := do
  let socketId ← SocketId.ofRaw o raw.family ((SocketIdBuffer.layout o).ofBytes raw.socketId.toList)
  some
    { family := raw.family
      protocol := raw.protocol
      extensions := ⟨raw.extensions &&& ExtensionFlags.all.bits⟩
      states := ⟨raw.states &&& StateFlags.all.bits⟩
      socketId }

/-- The requests that come back. -/
structure Fits (r : InetRequest) : Prop where
  family : r.family = afInet ∨ r.family = afInet6
  source : AddrFamily r.family r.socketId.sourceAddress
  destination : AddrFamily r.family r.socketId.destinationAddress
  states : r.states.bits &&& ~~~StateFlags.all.bits = 0
  extensions : r.extensions.bits &&& ~~~ExtensionFlags.all.bits = 0

/-- The 56 bytes of a request as they are written after having been read. The unused bytes of an
    IPv4 address are cleared, a byte nobody reads and every state there is no flag for. -/
def canonical (o : ByteOrder) (b : Bytes) : Bytes :=
  let family := b.headD 0
  blank 3 4 <|
    Packed.maskWord o 4 StateFlags.all.bits <|
    blankIf (family = afInet) 16 28 <|
    blankIf (family = afInet) 32 44 b

/-- `canonical` on a request cut where it cuts it. -/
theorem canonical_append {o : ByteOrder} {family protocol extensions pad : UInt8} {states : UInt32}
    {ports src src' dst dst' rest : Bytes} (hports : ports.length = 4) (hsrc : src.length = 4)
    (hsrc' : src'.length = 12) (hdst : dst.length = 4) (hdst' : dst'.length = 12) :
    canonical o ([family, protocol, extensions] ++ ([pad] ++ ((Packed.u32 o).toBytes states ++
        (ports ++ (src ++ (src' ++ (dst ++ (dst' ++ rest)))))))) =
      [family, protocol, extensions] ++ ([0] ++
        ((Packed.u32 o).toBytes (states &&& StateFlags.all.bits) ++ (ports ++ (src ++
          ((if family = afInet then List.replicate 12 0 else src') ++ (dst ++
            ((if family = afInet then List.replicate 12 0 else dst') ++ rest))))))) := by
  have hstates : ((Packed.u32 o).toBytes states).length = 4 := (Packed.u32 o).length_toBytes states
  -- From the back, so that what is in front of a cut is as it was.
  have e1 := blankIf_append (c := family = afInet) 32 44
    (x := [family, protocol, extensions] ++ ([pad] ++ ((Packed.u32 o).toBytes states ++
      (ports ++ (src ++ (src' ++ dst)))))) (y := dst')
    (by simp [hports, hsrc, hsrc', hdst]) (by rw [hdst']) rest
  have e2 := blankIf_append (c := family = afInet) 16 28
    (x := [family, protocol, extensions] ++ ([pad] ++ ((Packed.u32 o).toBytes states ++
      (ports ++ src)))) (y := src')
    (by simp [hports, hsrc]) (by rw [hsrc'])
    (dst ++ ((if family = afInet then List.replicate 12 0 else dst') ++ rest))
  have e3 := Packed.maskWord_append (o := o) (v := states)
    (x := [family, protocol, extensions] ++ [pad]) (n := 4)
    (y := ports ++ (src ++ ((if family = afInet then List.replicate 12 0 else src') ++ (dst ++
      ((if family = afInet then List.replicate 12 0 else dst') ++ rest))))) StateFlags.all.bits rfl
  have e4 := blank_append 3 4 (x := [family, protocol, extensions]) (y := [pad]) rfl rfl
    ((Packed.u32 o).toBytes (states &&& StateFlags.all.bits) ++ (ports ++ (src ++
      ((if family = afInet then List.replicate 12 0 else src') ++ (dst ++
        ((if family = afInet then List.replicate 12 0 else dst') ++ rest))))))
  rw [hdst'] at e1
  rw [hsrc'] at e2
  simp only [List.append_assoc] at e1 e2 e3 e4
  show blank 3 4 (Packed.maskWord o 4 StateFlags.all.bits (blankIf (family = afInet) 16 28
    (blankIf (family = afInet) 32 44 _))) = _
  rw [e1, e2, e3, e4]
  rfl

section Codec

variable {P : Platform} [P.Lawful] {p : Bytes} {r : InetRequest}

theorem parse_eq_ok_iff :
    InetRequest.parse P p = .ok r ↔
      56 ≤ p.length ∧
        ofRaw P.order ((InetRequestBuffer.layout P.order).ofBytes (p.take 56)) = some r := by
  unfold InetRequest.parse ofRaw
  simp only [Outcome.bind_eq_ok, P.readPrefix_eq_ok_iff, InetRequestBuffer.size_layout,
    Outcome.mapErr_eq_ok, SocketId.parse_vector_iff, Option.bind_eq_bind, Option.bind_eq_some_iff,
    Outcome.ok.injEq, Option.some.injEq, Platform.Lawful.fromBitsTruncate_eq]
  refine ⟨?_, ?_⟩
  · intro h
    obtain ⟨raw, ⟨hlen, rfl⟩, s, hs, rfl⟩ := h
    exact ⟨hlen, s, hs, rfl⟩
  · intro h
    obtain ⟨hlen, s, hs, rfl⟩ := h
    exact ⟨_, ⟨hlen, rfl⟩, s, hs, rfl⟩

/-- **Which requests come back from their own bytes.** -/
theorem ofRaw_from_iff : ofRaw P.order (.fromInetRequest P r) = some r ↔ r.Fits := by
  have hid : SocketId.ofRaw P.order r.family ((SocketIdBuffer.layout P.order).ofBytes
      (InetRequestBuffer.fromInetRequest P r).socketId.toList) = some r.socketId ↔
        AddrFamily r.family r.socketId.sourceAddress ∧
          AddrFamily r.family r.socketId.destinationAddress := SocketId.ofRaw_asBytes_iff P
  have hstates := u32_and_eq_self_iff r.states.bits StateFlags.all.bits
  have hextensions := u8_and_eq_self_iff r.extensions.bits ExtensionFlags.all.bits
  unfold ofRaw
  rw [Option.bind_eq_bind, Option.bind_eq_some_iff]
  refine ⟨?_, ?_⟩
  · intro hd
    obtain ⟨s, hs, hr⟩ := hd
    have h := Option.some.inj hr
    have hs' : s = r.socketId := congrArg InetRequest.socketId h
    have he : r.extensions.bits &&& ExtensionFlags.all.bits = r.extensions.bits :=
      congrArg (fun r => r.extensions.bits) h
    have ht : r.states.bits &&& StateFlags.all.bits = r.states.bits :=
      congrArg (fun r => r.states.bits) h
    rw [hs'] at hs
    obtain ⟨hsrc, hdst⟩ := hid.mp hs
    have hfamily : r.family = afInet ∨ r.family = afInet6 :=
      (SocketId.ofRaw_isSome_iff _).mp (Option.isSome_of_eq_some hs)
    exact ⟨hfamily, hsrc, hdst, hstates.mp ht, hextensions.mp he⟩
  · intro hd
    refine ⟨r.socketId, hid.mpr ⟨hd.source, hd.destination⟩, ?_⟩
    show some (InetRequest.mk r.family r.protocol ⟨r.extensions.bits &&& ExtensionFlags.all.bits⟩
      ⟨r.states.bits &&& StateFlags.all.bits⟩ r.socketId) = some r
    rw [hstates.mpr hd.states, hextensions.mpr hd.extensions]

/-- There is a flag for every bit of the extensions. -/
theorem extensions_and_all (v : UInt8) : v &&& ExtensionFlags.all.bits = v := by
  have hall : ~~~ExtensionFlags.all.bits = 0 := by decide
  rw [u8_and_eq_self_iff, hall, UInt8.and_zero]

/-- Written again, a request is its bytes in canonical form. -/
theorem toBytes_eq_canonical {raw : InetRequestBuffer} (h : ofRaw P.order raw = some r) :
    (InetRequestBuffer.layout P.order).toBytes (.fromInetRequest P r) =
      canonical P.order ((InetRequestBuffer.layout P.order).toBytes raw) := by
  obtain ⟨s, hs, hr⟩ := Option.bind_eq_some_iff.mp h
  obtain rfl := Option.some.inj hr
  have hid := (SocketIdBuffer.layout P.order).toBytes_ofBytes raw.socketId.toList (by simp)
  generalize (SocketIdBuffer.layout P.order).ofBytes raw.socketId.toList = id at hid hs
  -- The bytes that were read, and the bytes that are written, cut at the same places.
  have hold : (InetRequestBuffer.layout P.order).toBytes raw =
      [raw.family, raw.protocol, raw.extensions] ++ ([raw.pad] ++
        ((Packed.u32 P.order).toBytes raw.states ++ raw.socketId.toList)) := rfl
  have hnew : (InetRequestBuffer.layout P.order).toBytes (.fromInetRequest P
      { family := raw.family, protocol := raw.protocol,
        extensions := ⟨raw.extensions &&& ExtensionFlags.all.bits⟩,
        states := ⟨raw.states &&& StateFlags.all.bits⟩, socketId := s }) =
      [raw.family, raw.protocol, raw.extensions &&& ExtensionFlags.all.bits] ++ ([0] ++
        ((Packed.u32 P.order).toBytes (raw.states &&& StateFlags.all.bits) ++
          (P.asBytes (SocketIdBuffer.layout P.order) (.fromSocketId P.order s)).toList)) := rfl
  rw [hnew, hold, ← hid, P.toList_asBytes, InetResponse.toBytes_fromSocketId hs,
    InetResponse.toBytes_socketIdBuffer, extensions_and_all,
    canonical_append (by simp) (by simp) (by simp) (by simp) (by simp)]

/-- **The codec of an inet request.** -/
theorem inverseUpTo :
    InverseUpTo (InetRequest.parse P) (InetRequest.emit P) 56 Fits
      (fun p => p.head? = some afInet ∨ p.head? = some afInet6)
      (fun p => canonical P.order (p.take 56)) := by
  refine .of_packed (InetRequestBuffer.layout P.order) (g := ofRaw P.order)
    (f := .fromInetRequest P) ?_ ?_ ?_ ?_ ?_ ?_
  · exact fun p r => parse_eq_ok_iff
  · intro p
    unfold InetRequest.parse
    rw [P.readPrefix_take]
  · exact fun r => r.emit_eq P
  · exact fun r => ofRaw_from_iff
  · intro p hlen
    rw [InetRequestBuffer.size_layout] at hlen ⊢
    have hraw := (InetRequestBuffer.layout P.order).toBytes_ofBytes (p.take 56)
      (by rw [List.length_take, Nat.min_eq_left hlen, InetRequestBuffer.size_layout])
    generalize (InetRequestBuffer.layout P.order).ofBytes (p.take 56) = raw at hraw ⊢
    -- The family is the first byte of all 56.
    have hhead : p.head? = some raw.family := by
      have htake : (p.take 56).head? = p.head? := by rw [List.head?_take, if_neg (by decide)]
      rw [← htake, ← hraw]
      rfl
    rw [hhead, Option.some.injEq, Option.some.injEq]
    exact SocketId.exists_ofRaw_map_iff
  · intro p raw r hp hr
    show _ = canonical P.order (p.take 56)
    rw [toBytes_eq_canonical hr]
    exact congrArg (canonical P.order) hp.symm

end Codec

end Inet.InetRequest

/-! ## Unix requests -/

namespace Unix.UnixRequest

/-- `UnixRequest::parse` without its errors and without its bytes. -/
def ofRaw (raw : UnixRequestBuffer) : UnixRequest where
  stateFlags := ⟨raw.stateFlags &&& StateFlags.all.bits⟩
  inode := raw.inode
  showFlags := ⟨raw.showFlags &&& ShowFlags.all.bits⟩
  cookie := raw.cookie

/-- The requests that come back. -/
structure Fits (r : UnixRequest) : Prop where
  stateFlags : r.stateFlags.bits &&& ~~~StateFlags.all.bits = 0
  showFlags : r.showFlags.bits &&& ~~~ShowFlags.all.bits = 0

/-- The 24 bytes of a request as they are written after having been read. The family is not read
    and always `AF_UNIX`, the protocol and the padding are zero, and there are two words of flags. -/
def canonical (o : ByteOrder) (b : Bytes) : Bytes :=
  (blank 1 4 <|
    Packed.maskWord o 4 StateFlags.all.bits <|
    Packed.maskWord o 12 ShowFlags.all.bits b).set 0 afUnix

section Codec

variable {P : Platform} [P.Lawful] {p : Bytes} {r : UnixRequest}

theorem parse_eq_ok_iff :
    UnixRequest.parse P p = .ok r ↔
      24 ≤ p.length ∧ some (ofRaw ((UnixRequestBuffer.layout P.order).ofBytes (p.take 24))) =
        some r := by
  unfold UnixRequest.parse
  simp only [Platform.Lawful.fromBitsTruncate_eq]
  rw [Option.some.injEq]
  exact P.readPrefix_map_eq_ok_iff (g := ofRaw)

/-- **Which requests come back from their own bytes.** -/
theorem ofRaw_from_iff : some (ofRaw (.fromUnixRequest r)) = some r ↔ r.Fits := by
  have hstate := u32_and_eq_self_iff r.stateFlags.bits StateFlags.all.bits
  have hshow := u32_and_eq_self_iff r.showFlags.bits ShowFlags.all.bits
  rw [Option.some.injEq]
  refine ⟨?_, ?_⟩
  · intro h
    have hs : r.stateFlags.bits &&& StateFlags.all.bits = r.stateFlags.bits :=
      congrArg (fun r => r.stateFlags.bits) h
    have hw : r.showFlags.bits &&& ShowFlags.all.bits = r.showFlags.bits :=
      congrArg (fun r => r.showFlags.bits) h
    exact ⟨hstate.mp hs, hshow.mp hw⟩
  · intro h
    show UnixRequest.mk ⟨r.stateFlags.bits &&& StateFlags.all.bits⟩ r.inode
      ⟨r.showFlags.bits &&& ShowFlags.all.bits⟩ r.cookie = r
    rw [hstate.mpr h.stateFlags, hshow.mpr h.showFlags]

/-- Written again, a request is its bytes in canonical form. -/
theorem toBytes_eq_canonical {o : ByteOrder} (raw : UnixRequestBuffer) :
    (UnixRequestBuffer.layout o).toBytes (.fromUnixRequest (ofRaw raw)) =
      canonical o ((UnixRequestBuffer.layout o).toBytes raw) := by
  have hpad : ((Packed.u16 o).toBytes raw.pad).length = 2 := (Packed.u16 o).length_toBytes _
  -- The bytes that were read, and the bytes that are written, cut at the same places.
  have hold : (UnixRequestBuffer.layout o).toBytes raw =
      [raw.family] ++ (([raw.protocol] ++ (Packed.u16 o).toBytes raw.pad) ++
        ((Packed.u32 o).toBytes raw.stateFlags ++ ((Packed.u32 o).toBytes raw.inode ++
          ((Packed.u32 o).toBytes raw.showFlags ++ raw.cookie.toList)))) := rfl
  have hnew : (UnixRequestBuffer.layout o).toBytes (.fromUnixRequest (ofRaw raw)) =
      [afUnix] ++ (([0] ++ (Packed.u16 o).toBytes 0) ++
        ((Packed.u32 o).toBytes (raw.stateFlags &&& StateFlags.all.bits) ++
          ((Packed.u32 o).toBytes raw.inode ++
            ((Packed.u32 o).toBytes (raw.showFlags &&& ShowFlags.all.bits) ++
              raw.cookie.toList)))) := rfl
  have e1 := Packed.maskWord_append (o := o) (v := raw.showFlags)
    (x := [raw.family] ++ (([raw.protocol] ++ (Packed.u16 o).toBytes raw.pad) ++
      ((Packed.u32 o).toBytes raw.stateFlags ++ (Packed.u32 o).toBytes raw.inode))) (n := 12)
    (y := raw.cookie.toList) ShowFlags.all.bits (by simp)
  have e2 := Packed.maskWord_append (o := o) (v := raw.stateFlags)
    (x := [raw.family] ++ ([raw.protocol] ++ (Packed.u16 o).toBytes raw.pad)) (n := 4)
    (y := (Packed.u32 o).toBytes raw.inode ++
      ((Packed.u32 o).toBytes (raw.showFlags &&& ShowFlags.all.bits) ++ raw.cookie.toList))
    StateFlags.all.bits (by simp)
  have e3 := blank_append 1 4 (x := [raw.family])
    (y := [raw.protocol] ++ (Packed.u16 o).toBytes raw.pad) rfl (by simp)
    ((Packed.u32 o).toBytes (raw.stateFlags &&& StateFlags.all.bits) ++
      ((Packed.u32 o).toBytes raw.inode ++
        ((Packed.u32 o).toBytes (raw.showFlags &&& ShowFlags.all.bits) ++ raw.cookie.toList)))
  have hzero : [0] ++ (Packed.u16 o).toBytes 0 =
      List.replicate ([raw.protocol] ++ (Packed.u16 o).toBytes raw.pad).length 0 := by
    rw [List.length_append, hpad]
    exact congrArg (List.cons 0) (o.toBytes_zero 2)
  simp only [List.append_assoc] at e1 e2 e3 hzero hold hnew ⊢
  unfold canonical
  rw [hold, hnew, e1, e2, e3, ← hzero]
  rfl

/-- **The codec of a unix request.** -/
theorem inverseUpTo :
    InverseUpTo (UnixRequest.parse P) (UnixRequest.emit P) 24 Fits (fun _ => True)
      (fun p => canonical P.order (p.take 24)) := by
  refine .of_packed (UnixRequestBuffer.layout P.order) (g := fun raw => some (ofRaw raw))
    (f := .fromUnixRequest) ?_ ?_ ?_ ?_ ?_ ?_
  · exact fun p r => parse_eq_ok_iff
  · intro p
    unfold UnixRequest.parse
    rw [P.readPrefix_take]
  · exact fun r => r.emit_eq P
  · exact fun r => ofRaw_from_iff
  · exact fun p _ => iff_of_true ⟨_, rfl⟩ trivial
  · intro p raw r hp hr
    obtain rfl := Option.some.inj hr
    show _ = canonical P.order (p.take 24)
    rw [toBytes_eq_canonical]
    exact congrArg (canonical P.order) hp.symm

end Codec

end Unix.UnixRequest

/-- **The codecs of the two requests are inverse but for what is named**: a request comes back when
    its addresses are of its family and it has no flag bits of its own invention, and bytes come back
    as their canonical form, whatever follows them. -/
theorem requests_inverse (P : Platform) [P.Lawful] :
    InverseUpTo (Inet.InetRequest.parse P) (Inet.InetRequest.emit P) 56 Inet.InetRequest.Fits
      (fun p => p.head? = some afInet ∨ p.head? = some afInet6)
      (fun p => Inet.InetRequest.canonical P.order (p.take 56)) ∧
    InverseUpTo (Unix.UnixRequest.parse P) (Unix.UnixRequest.emit P) 24 Unix.UnixRequest.Fits
      (fun _ => True) (fun p => Unix.UnixRequest.canonical P.order (p.take 24)) :=
  ⟨Inet.InetRequest.inverseUpTo, Unix.UnixRequest.inverseUpTo⟩

/-- A request for unix sockets with every bit of its flags set, a family of its own and bytes
    behind. -/
def overflagged : Bytes :=
  [7, 1, 1, 1] ++ List.replicate 4 0xff ++ [1, 0, 0, 0] ++ List.replicate 12 0xff ++ [1, 2, 3]

theorem requests_inverse_overflagged :
    (∃ r, Inet.InetRequest.parse (.reference .little) (afInet :: List.replicate 55 0) = .ok r) ∧
    ∃ r, Unix.UnixRequest.parse (.reference .little) overflagged = .ok r ∧
      (r.emit (.reference .little)).run (List.replicate 24 0) =
        .ok ([1, 0, 0, 0] ++ [2, 4, 0, 0] ++ [1, 0, 0, 0] ++ [0x3f, 0, 0, 0] ++
          List.replicate 8 0xff) := by
  obtain ⟨hinet, hunix⟩ := requests_inverse (.reference .little)
  obtain ⟨r, hr⟩ := (hunix.accepts overflagged).mpr ⟨by decide, trivial⟩
  exact ⟨(hinet.accepts _).mpr ⟨by decide, .inl rfl⟩, r, hr,
    hunix.emit_parse overflagged r hr _ List.length_replicate⟩

end SockDiag
