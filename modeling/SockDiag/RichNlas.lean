import SockDiag.Grammar

/-!
# The two builds

With the feature `rich_nlas` the attribute `INET_DIAG_INFO` is decoded into a struct, without it the
bytes are kept. The two decoders of an attribute are one after the other: the rich one is the plain
one and then `enrich`, on the attributes that are long enough for it (`Inet.Nla.reads_rich_iff`).
Everything about whole responses follows from that.

The rich build accepts less. It rejects a response in which the kernel has sent less than the whole
struct, and no other that the plain build accepts. What it accepts it decodes as the same response,
with a struct for the bytes; and that struct is written as the first 232 of them, so a struct of
exactly that length is written as it came. `Refines` is this for an attribute, and
`rich_refines_plain` for a response. `SockDiag.Dump.Builds` is what comes of it in a program that
unwraps.
-/

set_option autoImplicit false

namespace SockDiag

open Rust Tlv Inet

namespace Inet.Nla

/-- What the length of the bytes of `INET_DIAG_INFO` is asked to be, if that is what this is. -/
def InfoLength (p : Nat → Prop) : Nla false → Prop
  | tcpInfo bytes => p (List.length bytes)
  | _ => True

/-- The attribute of the rich build for one of the plain build. -/
def enrich (o : ByteOrder) : Nla false → Nla true
  | legacyMemInfo value => legacyMemInfo value
  | tcpInfo bytes => tcpInfo (TcpInfo.ofRaw ((TcpInfoBuffer.layout o).ofBytes (List.take 232 bytes)))
  | congestion s => congestion s
  | tos b => tos b
  | tc b => tc b
  | memInfo value => memInfo value
  | shutdown b => shutdown b
  | protocol b => protocol b
  | skV6Only value => skV6Only value
  | mark value => mark value
  | classId value => classId value
  | other attr => other attr

section Enrich

variable {o : ByteOrder} {a : Attr} {x : Nla false} {y : Nla true}

/-- **The rich build reads what the plain build reads**, if there is enough of it, and enriches
    it. -/
theorem reads_rich_iff :
    (codec o true).Reads a y ↔
      ∃ x, (codec o false).Reads a x ∧ x.InfoLength (232 ≤ ·) ∧ y = x.enrich o := by
  refine ⟨?_, ?_⟩
  · intro h
    cases y with
    | tcpInfo info =>
      obtain ⟨hk, hlen, rfl⟩ := h
      rw [TcpInfoBuffer.size_layout] at hlen
      exact ⟨.tcpInfo a.payload, ⟨hk, rfl⟩, hlen, by rw [TcpInfoBuffer.size_layout]; rfl⟩
    | legacyMemInfo value => exact ⟨.legacyMemInfo value, h, trivial, rfl⟩
    | congestion s => exact ⟨.congestion s, h, trivial, rfl⟩
    | tos b => exact ⟨.tos b, h, trivial, rfl⟩
    | tc b => exact ⟨.tc b, h, trivial, rfl⟩
    | memInfo value => exact ⟨.memInfo value, h, trivial, rfl⟩
    | shutdown b => exact ⟨.shutdown b, h, trivial, rfl⟩
    | protocol b => exact ⟨.protocol b, h, trivial, rfl⟩
    | skV6Only value => exact ⟨.skV6Only value, h, trivial, rfl⟩
    | mark value => exact ⟨.mark value, h, trivial, rfl⟩
    | classId value => exact ⟨.classId value, h, trivial, rfl⟩
    | other attr => exact ⟨.other attr, h, trivial, rfl⟩
  · intro hd
    obtain ⟨x, h, hlen, rfl⟩ := hd
    cases x with
    | tcpInfo bytes =>
      obtain ⟨hk, rfl⟩ := h
      exact ⟨hk, by rw [TcpInfoBuffer.size_layout]; exact hlen,
        by rw [TcpInfoBuffer.size_layout]⟩
    | legacyMemInfo | congestion | tos | tc | memInfo | shutdown | protocol | skV6Only | mark |
        classId | other => exact h

theorem infoLength_iff_of_reads {p : Nat → Prop} (h : (codec o false).Reads a x) :
    x.InfoLength p ↔ (nlaType a.kind = inetDiagInfo → p a.payload.length) := by
  cases x with
  | tcpInfo bytes =>
    obtain ⟨hk, rfl⟩ := h
    exact ⟨fun hp _ => hp, fun hp => hp hk⟩
  | legacyMemInfo | congestion | tos | tc | memInfo | shutdown | protocol | skV6Only | mark |
      classId =>
    obtain ⟨hk, -⟩ := h
    refine iff_of_true trivial fun hinfo => ?_
    rw [hk] at hinfo
    exact absurd hinfo (by decide)
  | other =>
    obtain ⟨hk, -⟩ := h
    refine iff_of_true trivial fun hinfo => ?_
    rw [hinfo] at hk
    exact absurd (by decide) hk

/-- Nothing is enriched away: what is as long as the struct is written as it came. -/
theorem toAttr_enrich (h : x.InfoLength (· = 232)) : (x.enrich o).toAttr o = x.toAttr o := by
  cases x with
  | tcpInfo bytes =>
    have hlen : bytes.length = 232 := h
    have hbytes : (TcpInfoBuffer.layout o).toBytes
        (.fromTcpInfo (.ofRaw ((TcpInfoBuffer.layout o).ofBytes (bytes.take 232)))) = bytes := by
      rw [TcpInfoBuffer.fromTcpInfo_ofRaw, List.take_of_length_le (Nat.le_of_eq hlen)]
      exact (TcpInfoBuffer.layout o).toBytes_ofBytes bytes (by rw [hlen, TcpInfoBuffer.size_layout])
    exact congrArg (Attr.mk inetDiagInfo) hbytes
  | legacyMemInfo | congestion | tos | tc | memInfo | shutdown | protocol | skV6Only | mark |
      classId | other => rfl

end Enrich

/-- The attribute of the rich build has what that of the plain build has: the same value, or a
    struct for the bytes it is written as again. -/
inductive Refines (P : Platform) : Nla false → Nla true → Prop
  | legacyMemInfo (value : LegacyMemInfo) : Refines P (.legacyMemInfo value) (.legacyMemInfo value)
  | tcpInfo {bytes : Bytes} {info : TcpInfo} (hlen : 232 ≤ bytes.length)
      (hemit : ∀ buf : Bytes, buf.length = 232 →
        (TcpInfo.emit P info).run buf = .ok (bytes.take 232)) :
      Refines P (.tcpInfo bytes) (.tcpInfo info)
  | congestion (s : String) : Refines P (.congestion s) (.congestion s)
  | tos (b : UInt8) : Refines P (.tos b) (.tos b)
  | tc (b : UInt8) : Refines P (.tc b) (.tc b)
  | memInfo (value : MemInfo) : Refines P (.memInfo value) (.memInfo value)
  | shutdown (b : UInt8) : Refines P (.shutdown b) (.shutdown b)
  | protocol (b : UInt8) : Refines P (.protocol b) (.protocol b)
  | skV6Only (value : Bool) : Refines P (.skV6Only value) (.skV6Only value)
  | mark (value : UInt32) : Refines P (.mark value) (.mark value)
  | classId (value : UInt32) : Refines P (.classId value) (.classId value)
  | other (attr : DefaultNla) : Refines P (.other attr) (.other attr)

section Platform

variable (P : Platform) [P.Lawful]

/-- Fifty-four fields into the struct and out of it again, and they are the bytes. -/
theorem emit_ofRaw {bytes buf : Bytes} (hlen : bytes.length = 232) (hbuf : buf.length = 232) :
    (TcpInfo.emit P (.ofRaw ((TcpInfoBuffer.layout P.order).ofBytes bytes))).run buf = .ok bytes := by
  have hsize : bytes.length = (TcpInfoBuffer.layout P.order).size := by
    rw [hlen, TcpInfoBuffer.size_layout]
  unfold TcpInfo.emit
  rw [P.toList_asBytes, TcpInfoBuffer.fromTcpInfo_ofRaw,
    (TcpInfoBuffer.layout P.order).toBytes_ofBytes bytes hsize]
  exact Writer.fills_copyFromSlice bytes buf (hbuf.trans hlen.symm)

theorem refines_enrich {x : Nla false} (h : x.InfoLength (232 ≤ ·)) :
    Refines P x (x.enrich P.order) := by
  cases x with
  | tcpInfo bytes =>
    have hlen : 232 ≤ bytes.length := h
    exact .tcpInfo hlen fun buf hbuf => emit_ofRaw P (by simp [hlen]) hbuf
  | legacyMemInfo value => exact .legacyMemInfo value
  | congestion s => exact .congestion s
  | tos b => exact .tos b
  | tc b => exact .tc b
  | memInfo value => exact .memInfo value
  | shutdown b => exact .shutdown b
  | protocol b => exact .protocol b
  | skV6Only value => exact .skV6Only value
  | mark value => exact .mark value
  | classId value => exact .classId value
  | other attr => exact .other attr

end Platform

end Inet.Nla

/-! ## Whole responses -/

/-- Every `INET_DIAG_INFO` attribute of the response `b` has as many bytes as `p` asks for. -/
def InfoBytes (o : ByteOrder) (p : Nat → Prop) (b : Bytes) : Prop :=
  ∀ as, Area o as (b.drop 72) → ∀ a ∈ as, nlaType a.kind = inetDiagInfo → p a.payload.length

section Responses

variable {P : Platform} [P.Lawful] {b : Bytes}

/-- What the attributes of the bytes have, those of the plain response have. -/
theorem infoBytes_iff_of_parse {p : Nat → Prop} {r : InetResponse false}
    (h : InetResponse.parse P b = .ok r) : InfoBytes P.order p b ↔ ∀ x ∈ r.nlas, x.InfoLength p := by
  obtain ⟨-, -, as, has, hreads⟩ := (InetResponse.implements P).parse_eq_ok_iff.mp h
  have hmem := Codec.forall_mem_iff
    (fun a x ha => (Nla.infoLength_iff_of_reads (p := p) ha).symm) hreads
  rw [← hmem]
  refine ⟨fun hinfo => hinfo as has, ?_⟩
  intro hall as' has'
  obtain rfl := has'.unique has
  exact hall

/-- **The rich parser is the plain parser and then `enrich`.** -/
theorem parse_rich_iff {r' : InetResponse true} :
    InetResponse.parse P b = .ok r' ↔
      ∃ r : InetResponse false, InetResponse.parse P b = .ok r ∧ InfoBytes P.order (232 ≤ ·) b ∧
        r' = ⟨r.header, r.nlas.map (Nla.enrich P.order)⟩ := by
  have hmap : ∀ ys, (Nla.codec P.order true).Decodes P.order (b.drop 72) ys ↔
      ∃ xs, (Nla.codec P.order false).Decodes P.order (b.drop 72) xs ∧
        (∀ x ∈ xs, x.InfoLength (232 ≤ ·)) ∧ ys = xs.map (Nla.enrich P.order) :=
    fun _ => Codec.decodes_iff_map fun _ _ => Nla.reads_rich_iff
  refine ⟨?_, ?_⟩
  · intro h
    obtain ⟨hlen, hheader, hnlas⟩ := (InetResponse.implements P).parse_eq_ok_iff.mp h
    obtain ⟨xs, hxs, hall, hmapped⟩ := (hmap _).mp hnlas
    have hr : InetResponse.parse P b = .ok ⟨r'.header, xs⟩ :=
      (InetResponse.implements P).parse_eq_ok_iff.mpr ⟨hlen, hheader, hxs⟩
    refine ⟨_, hr, (infoBytes_iff_of_parse hr).mpr hall, ?_⟩
    show r' = ⟨r'.header, xs.map (Nla.enrich P.order)⟩
    rw [← hmapped]
  · intro h
    obtain ⟨r, hr, hinfo, rfl⟩ := h
    obtain ⟨hlen, hheader, hnlas⟩ := (InetResponse.implements P).parse_eq_ok_iff.mp hr
    refine (InetResponse.implements P).parse_eq_ok_iff.mpr ⟨hlen, hheader, ?_⟩
    exact (hmap _).mpr ⟨r.nlas, hnlas, (infoBytes_iff_of_parse hr).mp hinfo, rfl⟩

end Responses

/-- **The rich build refines the plain one.** It accepts what the plain build accepts with enough
    bytes in every `INET_DIAG_INFO`, with the same header and the same attributes but for the
    struct; and where there are no more bytes than the struct has, both are written the same. -/
theorem rich_refines_plain (P : Platform) [P.Lawful] (b : Bytes) :
    ((∃ r' : InetResponse true, InetResponse.parse P b = .ok r') ↔
      (∃ r : InetResponse false, InetResponse.parse P b = .ok r) ∧
        InfoBytes P.order (232 ≤ ·) b) ∧
    ∀ (r : InetResponse false) (r' : InetResponse true), InetResponse.parse P b = .ok r →
      InetResponse.parse P b = .ok r' →
      r'.header = r.header ∧ List.Forall₂ (Nla.Refines P) r.nlas r'.nlas ∧
      (InfoBytes P.order (· = 232) b →
        r'.bufferLen P = r.bufferLen P ∧
        ∀ buf : Bytes, buf.length = r.bufferLen P → (r'.emit P).run buf = (r.emit P).run buf) := by
  refine ⟨⟨?_, ?_⟩, ?_⟩
  · intro h
    obtain ⟨r', hr'⟩ := h
    obtain ⟨r, hr, hinfo, -⟩ := parse_rich_iff.mp hr'
    exact ⟨⟨r, hr⟩, hinfo⟩
  · intro h
    obtain ⟨⟨r, hr⟩, hinfo⟩ := h
    exact ⟨_, parse_rich_iff.mpr ⟨r, hr, hinfo, rfl⟩⟩
  · intro r r' hr hr'
    obtain ⟨r₀, hr₀, hinfo, rfl⟩ := parse_rich_iff.mp hr'
    obtain rfl := Outcome.ok.inj (hr₀.symm.trans hr)
    have hall := (infoBytes_iff_of_parse hr).mp hinfo
    refine ⟨rfl, ?_, ?_⟩
    · rw [List.forall₂_map_right_iff]
      exact List.forall₂_same.mpr fun x hx => Nla.refines_enrich P (hall x hx)
    · intro hexact
      have hexact := (infoBytes_iff_of_parse hr).mp hexact
      refine (InetResponse.implements P).emit_eq (InetResponse.implements P) rfl ?_
      -- Each attribute is the same raw attribute again.
      rw [List.map_map]
      exact List.map_congr_left fun x hx => Nla.toAttr_enrich (hexact x hx)

/-- An inet socket with all the bytes of `struct tcp_info` and a mark. -/
def infoMessage : Bytes :=
  afInet :: List.replicate 71 0 ++ [236, 0, 2, 0] ++ List.replicate 232 7 ++
    [8, 0, 15, 0, 1, 0, 0, 0]

set_option maxRecDepth 4000 in
theorem infoMessage_refines :
    ∃ (r : InetResponse false) (r' : InetResponse true),
      InetResponse.parse (.reference .little) infoMessage = .ok r ∧
      InetResponse.parse (.reference .little) infoMessage = .ok r' ∧
      r.nlas = [.tcpInfo (List.replicate 232 7), .mark 1] ∧
      r'.bufferLen (.reference .little) = r.bufferLen (.reference .little) := by
  obtain ⟨haccepts, hrefines⟩ := rich_refines_plain (.reference .little) infoMessage
  let header : InetResponseHeader := ⟨afInet, 0, none, .newV4, 0, 0, 0, 0⟩
  let r : InetResponse false := ⟨header, [.tcpInfo (List.replicate 232 7), .mark 1]⟩
  have hr : InetResponse.parse (.reference .little) infoMessage = .ok r := rfl
  have hinfo : InfoBytes .little (· = 232) infoMessage := by
    refine (infoBytes_iff_of_parse (P := .reference .little) hr).mpr ?_
    intro x hx
    rcases List.mem_pair.mp hx with rfl | rfl
    · exact List.length_replicate
    · trivial
  obtain ⟨r', hr'⟩ := haccepts.mpr ⟨⟨r, hr⟩, fun as has a ha hk =>
    Nat.le_of_eq (hinfo as has a ha hk).symm⟩
  obtain ⟨-, -, hexact⟩ := hrefines r r' hr hr'
  exact ⟨r, r', hr, hr', rfl, (hexact hinfo).1⟩

end SockDiag
