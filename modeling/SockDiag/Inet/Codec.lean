import SockDiag.Attributes
import SockDiag.Inet.Nlas

/-!
# What the attributes of an inet response mean

The source spreads an attribute over four tables: `kind`, `value_len`, `emit_value` and `parse`.
Here each type has one line in `Reads`, which raw attributes it is read from, and one in `toAttr`,
the raw attribute it is written as; `parse_eq_ok_iff` and `toTrait_encodes` say the tables are
these. Everything else about an attribute follows without looking at the code again:

* `exists_reads_iff` — which payloads are accepted, by type;
* `reads_toAttr_iff` — which values come back from their own encoding;
* `toAttr_eq_canon` — what decoding and encoding again makes of an attribute.
-/

set_option autoImplicit false

namespace SockDiag.Inet

open Rust Tlv

namespace Nla

variable {rich : Bool}

/-- The types `Nla::parse` has an arm for. -/
def kinds : List UInt16 :=
  [inetDiagMeminfo, inetDiagInfo, inetDiagCong, inetDiagTos, inetDiagTclass, inetDiagSkmeminfo,
    inetDiagShutdown, inetDiagProtocol, inetDiagSkv6only, inetDiagMark, inetDiagClassId]

theorem nlaType_eq_self (kind : UInt16) (hk : kind ∈ kinds) : nlaType kind = kind := by
  have hall : kinds.all (fun k => nlaType k == k) = true := by decide
  exact eq_of_beq (List.all_eq_true.mp hall kind hk)

/-! ## Writing -/

def tcpInfoBytes (o : ByteOrder) : {rich : Bool} → TcpInfoValue rich → Bytes
  | true, value => (TcpInfoBuffer.layout o).toBytes (.fromTcpInfo value)
  | false, bytes => bytes

/-- The raw attribute a value is written as. -/
def toAttr (o : ByteOrder) : Nla rich → Attr
  | legacyMemInfo value =>
      ⟨inetDiagMeminfo, (LegacyMemInfoBuffer.layout o).toBytes (.fromLegacyMemInfo value)⟩
  | tcpInfo value => ⟨inetDiagInfo, tcpInfoBytes o value⟩
  | congestion s => ⟨inetDiagCong, asBytes s ++ [0]⟩
  | tos b => ⟨inetDiagTos, [b]⟩
  | tc b => ⟨inetDiagTclass, [b]⟩
  | memInfo value => ⟨inetDiagSkmeminfo, (MemInfoBuffer.layout o).toBytes (.fromMemInfo value)⟩
  | shutdown b => ⟨inetDiagShutdown, [b]⟩
  | protocol b => ⟨inetDiagProtocol, [b]⟩
  | skV6Only value => ⟨inetDiagSkv6only, [if value then 1 else 0]⟩
  | mark value => ⟨inetDiagMark, (Packed.u32 o).toBytes value⟩
  | classId value => ⟨inetDiagClassId, (Packed.u32 o).toBytes value⟩
  | other attr => ⟨attr.kind, attr.value⟩

/-- **`kind`, `value_len` and `emit_value` agree**, for every type. -/
theorem toTrait_encodes (P : Platform) [P.Lawful] (x : Nla rich) :
    (x.toTrait P).Encodes (x.toAttr P.order) := by
  cases x with
  | legacyMemInfo value => exact NlaTrait.encodes_asBytes P _ _ _
  | tcpInfo value =>
    cases rich with
    | true => exact NlaTrait.encodes_asBytes P _ _ _
    | false =>
      exact
        { kind := rfl
          valueLen := rfl
          fills := (Writer.fills_copyFromSlice _).onPrefix.fills
          needs := Writer.Needs.onPrefix _ _ }
  | congestion s =>
    have hwrite := (Writer.fills_copyFromSlice (ε := Empty) (asBytes s)).onPrefix
    refine ⟨rfl, by simp [toTrait, valueLen, toAttr], (hwrite.append_set 0).fills, ?_⟩
    intro buf hl
    have hl' : buf.length < (asBytes s).length + 1 := by simpa [toAttr] using hl
    show (Writer.onPrefix s.utf8ByteSize (.copyFromSlice (asBytes s)) >>
      Writer.set s.utf8ByteSize 0).run buf = .panic
    -- Either the name does not fit, or it does and there is no room for the NUL.
    by_cases hname : buf.length < (asBytes s).length
    · exact (Writer.Needs.onPrefix _ _).andThen _ buf hname
    · have hlen : (asBytes s).length = buf.length := by omega
      rw [Writer.run_andThen, ← length_asBytes, hwrite buf (Nat.le_of_eq hlen), Outcome.ok_bind]
      exact Writer.needs_set _ 0 _ (by simp [← hlen])
  | tos b => exact NlaTrait.encodes_set _ _
  | tc b => exact NlaTrait.encodes_set _ _
  | memInfo value => exact NlaTrait.encodes_asBytes P _ _ _
  | shutdown b => exact NlaTrait.encodes_set _ _
  | protocol b => exact NlaTrait.encodes_set _ _
  | skV6Only value => exact NlaTrait.encodes_set _ _
  | mark value => exact NlaTrait.encodes_emitU32 P _ _
  | classId value => exact NlaTrait.encodes_emitU32 P _ _
  | other attr =>
    unfold toTrait
    simp only [valueLen, kind, emitValue, Platform.Lawful.defaultNla_eq]
    exact NlaTrait.encodes_copyFromSlice _ _

/-! ## Reading -/

def TcpInfoReads (o : ByteOrder) (payload : Bytes) : {rich : Bool} → TcpInfoValue rich → Prop
  | true, value => (TcpInfoBuffer.layout o).ReadsAs TcpInfo.ofRaw payload value
  | false, bytes => payload = bytes

/-- The values a raw attribute reads as: at most one, and none where it is rejected. -/
def Reads (o : ByteOrder) (a : Attr) : Nla rich → Prop
  | legacyMemInfo value =>
      nlaType a.kind = inetDiagMeminfo ∧
        (LegacyMemInfoBuffer.layout o).ReadsAs LegacyMemInfo.ofRaw a.payload value
  | tcpInfo value => nlaType a.kind = inetDiagInfo ∧ TcpInfoReads o a.payload value
  | congestion s => nlaType a.kind = inetDiagCong ∧ stripNul a.payload = asBytes s
  | tos b => nlaType a.kind = inetDiagTos ∧ a.payload = [b]
  | tc b => nlaType a.kind = inetDiagTclass ∧ a.payload = [b]
  | memInfo value =>
      nlaType a.kind = inetDiagSkmeminfo ∧
        (MemInfoBuffer.layout o).ReadsAs MemInfo.ofRaw a.payload value
  | shutdown b => nlaType a.kind = inetDiagShutdown ∧ a.payload = [b]
  | protocol b => nlaType a.kind = inetDiagProtocol ∧ a.payload = [b]
  | skV6Only value => nlaType a.kind = inetDiagSkv6only ∧ ∃ b, a.payload = [b] ∧ (b != 0) = value
  | mark value => nlaType a.kind = inetDiagMark ∧ a.payload = (Packed.u32 o).toBytes value
  | classId value => nlaType a.kind = inetDiagClassId ∧ a.payload = (Packed.u32 o).toBytes value
  | other attr => nlaType a.kind ∉ kinds ∧ attr = ⟨a.kind, a.payload⟩

def codec (o : ByteOrder) (rich : Bool) : Codec (Nla rich) := ⟨Reads o, toAttr o⟩

section Parse

variable (P : Platform) {nla : P.NlaBuffer} {a : Attr} {x : Nla rich} {payload : Bytes}

theorem tcpInfoParse_returns : (tcpInfoParse P rich payload).Returns := by
  cases rich with
  | true => exact Outcome.returns_mapErr.mpr (TcpInfo.parse_returns P payload)
  | false => exact Outcome.returns_ok _

variable [P.Lawful]

theorem tcpInfoParse_eq_ok_iff {value : TcpInfoValue rich} :
    tcpInfoParse P rich payload = .ok value ↔ TcpInfoReads P.order payload value := by
  cases rich with
  | true => exact Outcome.mapErr_eq_ok.trans (TcpInfo.parse_eq_ok_iff P)
  | false => exact iff_of_eq (Outcome.ok.injEq payload value)

variable {P}

/-- What `parse` makes of an attribute is what the attribute reads as. -/
theorem reads_of_parse (hv : P.Views nla a) (h : parse P nla = .ok x) : Reads P.order a x := by
  unfold parse at h
  rw [hv.value, Outcome.ok_bind, hv.nlaKind] at h
  rcases Outcome.arm_eq_ok h with ⟨hk, value, hp, rfl⟩ | ⟨h1, h⟩
  · exact ⟨hk, P.readPrefix_map_eq_ok_iff.mp (Outcome.mapErr_eq_ok.mp hp)⟩
  rcases Outcome.arm_eq_ok h with ⟨hk, value, hp, rfl⟩ | ⟨h2, h⟩
  · exact ⟨hk, (tcpInfoParse_eq_ok_iff P).mp hp⟩
  rcases Outcome.arm_eq_ok h with ⟨hk, s, hp, rfl⟩ | ⟨h3, h⟩
  · exact ⟨hk, P.parseString_eq_ok_iff.mp (Outcome.mapErr_eq_ok.mp hp)⟩
  rcases Outcome.arm_eq_ok h with ⟨hk, b, hp, rfl⟩ | ⟨h4, h⟩
  · exact ⟨hk, P.parseU8_eq_ok_iff.mp (Outcome.mapErr_eq_ok.mp hp)⟩
  rcases Outcome.arm_eq_ok h with ⟨hk, b, hp, rfl⟩ | ⟨h5, h⟩
  · exact ⟨hk, P.parseU8_eq_ok_iff.mp (Outcome.mapErr_eq_ok.mp hp)⟩
  rcases Outcome.arm_eq_ok h with ⟨hk, value, hp, rfl⟩ | ⟨h6, h⟩
  · exact ⟨hk, P.readPrefix_map_eq_ok_iff.mp (Outcome.mapErr_eq_ok.mp hp)⟩
  rcases Outcome.arm_eq_ok h with ⟨hk, b, hp, rfl⟩ | ⟨h7, h⟩
  · exact ⟨hk, P.parseU8_eq_ok_iff.mp (Outcome.mapErr_eq_ok.mp hp)⟩
  rcases Outcome.arm_eq_ok h with ⟨hk, b, hp, rfl⟩ | ⟨h8, h⟩
  · exact ⟨hk, P.parseU8_eq_ok_iff.mp (Outcome.mapErr_eq_ok.mp hp)⟩
  rcases Outcome.arm_eq_ok h with ⟨hk, b, hp, rfl⟩ | ⟨h9, h⟩
  · exact ⟨hk, b, P.parseU8_eq_ok_iff.mp (Outcome.mapErr_eq_ok.mp hp), rfl⟩
  rcases Outcome.arm_eq_ok h with ⟨hk, value, hp, rfl⟩ | ⟨h10, h⟩
  · exact ⟨hk, P.parseU32_eq_ok_iff.mp (Outcome.mapErr_eq_ok.mp hp)⟩
  rcases Outcome.arm_eq_ok h with ⟨hk, value, hp, rfl⟩ | ⟨h11, h⟩
  · exact ⟨hk, P.parseU32_eq_ok_iff.mp (Outcome.mapErr_eq_ok.mp hp)⟩
  -- The last arm: the type is none of the eleven.
  obtain ⟨attr, hp, rfl⟩ := Outcome.map_eq_ok.mp h
  rw [hv.default, Outcome.mapErr_eq_ok, Outcome.ok.injEq] at hp
  refine ⟨?_, hp.symm⟩
  unfold kinds
  simp only [List.mem_cons, List.not_mem_nil, h1, h2, h3, h4, h5, h6, h7, h8, h9, h10, h11,
    or_self, not_false_eq_true]

/-- An attribute that reads as something is parsed as that. -/
theorem parse_of_reads (hv : P.Views nla a) (h : Reads P.order a x) : parse P nla = .ok x := by
  unfold parse
  rw [hv.value, Outcome.ok_bind, hv.nlaKind]
  cases x with
  | legacyMemInfo value =>
    obtain ⟨hk, h⟩ := h
    rw [hk]
    exact Outcome.map_eq_ok.mpr
      ⟨value, Outcome.mapErr_eq_ok.mpr (P.readPrefix_map_eq_ok_iff.mpr h), rfl⟩
  | tcpInfo value =>
    obtain ⟨hk, h⟩ := h
    rw [hk]
    exact Outcome.map_eq_ok.mpr ⟨value, (tcpInfoParse_eq_ok_iff P).mpr h, rfl⟩
  | congestion s =>
    obtain ⟨hk, h⟩ := h
    rw [hk]
    exact Outcome.map_eq_ok.mpr ⟨s, Outcome.mapErr_eq_ok.mpr (P.parseString_eq_ok_iff.mpr h), rfl⟩
  | tos b =>
    obtain ⟨hk, h⟩ := h
    rw [hk]
    exact Outcome.map_eq_ok.mpr ⟨b, Outcome.mapErr_eq_ok.mpr (P.parseU8_eq_ok_iff.mpr h), rfl⟩
  | tc b =>
    obtain ⟨hk, h⟩ := h
    rw [hk]
    exact Outcome.map_eq_ok.mpr ⟨b, Outcome.mapErr_eq_ok.mpr (P.parseU8_eq_ok_iff.mpr h), rfl⟩
  | memInfo value =>
    obtain ⟨hk, h⟩ := h
    rw [hk]
    exact Outcome.map_eq_ok.mpr
      ⟨value, Outcome.mapErr_eq_ok.mpr (P.readPrefix_map_eq_ok_iff.mpr h), rfl⟩
  | shutdown b =>
    obtain ⟨hk, h⟩ := h
    rw [hk]
    exact Outcome.map_eq_ok.mpr ⟨b, Outcome.mapErr_eq_ok.mpr (P.parseU8_eq_ok_iff.mpr h), rfl⟩
  | protocol b =>
    obtain ⟨hk, h⟩ := h
    rw [hk]
    exact Outcome.map_eq_ok.mpr ⟨b, Outcome.mapErr_eq_ok.mpr (P.parseU8_eq_ok_iff.mpr h), rfl⟩
  | skV6Only value =>
    obtain ⟨hk, b, h, rfl⟩ := h
    rw [hk]
    exact Outcome.map_eq_ok.mpr ⟨b, Outcome.mapErr_eq_ok.mpr (P.parseU8_eq_ok_iff.mpr h), rfl⟩
  | mark value =>
    obtain ⟨hk, h⟩ := h
    rw [hk]
    exact Outcome.map_eq_ok.mpr ⟨value, Outcome.mapErr_eq_ok.mpr (P.parseU32_eq_ok_iff.mpr h), rfl⟩
  | classId value =>
    obtain ⟨hk, h⟩ := h
    rw [hk]
    exact Outcome.map_eq_ok.mpr ⟨value, Outcome.mapErr_eq_ok.mpr (P.parseU32_eq_ok_iff.mpr h), rfl⟩
  | other attr =>
    obtain ⟨hk, rfl⟩ := h
    simp only [kinds, List.mem_cons, List.not_mem_nil, not_or, or_false] at hk
    obtain ⟨h1, h2, h3, h4, h5, h6, h7, h8, h9, h10, h11⟩ := hk
    rw [if_neg h1, if_neg h2, if_neg h3, if_neg h4, if_neg h5, if_neg h6, if_neg h7, if_neg h8,
      if_neg h9, if_neg h10, if_neg h11, hv.default]
    rfl

theorem parse_eq_ok_iff (hv : P.Views nla a) : parse P nla = .ok x ↔ (codec P.order rich).Reads a x :=
  ⟨reads_of_parse hv, parse_of_reads hv⟩

theorem parse_returns (hv : P.Views nla a) : (parse P nla : Outcome _ (Nla rich)).Returns := by
  unfold parse
  rw [hv.value, Outcome.ok_bind]
  refine .arm (Outcome.returns_mapErr.mpr (P.readPrefix_map_returns _)) ?_
  refine .arm (tcpInfoParse_returns P) ?_
  refine .arm (Outcome.returns_mapErr.mpr P.parseString_returns) ?_
  refine .arm (Outcome.returns_mapErr.mpr P.parseU8_returns) ?_
  refine .arm (Outcome.returns_mapErr.mpr P.parseU8_returns) ?_
  refine .arm (Outcome.returns_mapErr.mpr (P.readPrefix_map_returns _)) ?_
  refine .arm (Outcome.returns_mapErr.mpr P.parseU8_returns) ?_
  refine .arm (Outcome.returns_mapErr.mpr P.parseU8_returns) ?_
  refine .arm (Outcome.returns_mapErr.mpr P.parseU8_returns) ?_
  refine .arm (Outcome.returns_mapErr.mpr P.parseU32_returns) ?_
  refine .arm (Outcome.returns_mapErr.mpr P.parseU32_returns) ?_
  rw [hv.default]
  trivial

end Parse

/-! ## What is accepted -/

/-- The rule a payload has to meet, by type without flag bits. The packed structs ask for a
    minimum, everything else for an exact length. -/
def ValidPayload (rich : Bool) (type : UInt16) (v : Bytes) : Prop :=
  if type = inetDiagMeminfo then 16 ≤ v.length
  else if type = inetDiagInfo then rich = true → 232 ≤ v.length
  else if type = inetDiagCong then IsUtf8 (stripNul v)
  else if type ∈ [inetDiagTos, inetDiagTclass, inetDiagShutdown, inetDiagProtocol,
    inetDiagSkv6only] then v.length = 1
  else if type = inetDiagSkmeminfo then 36 ≤ v.length
  else if type ∈ [inetDiagMark, inetDiagClassId] then v.length = 4
  else True

section Meaning

variable {o : ByteOrder} {a : Attr} {x : Nla rich}

theorem validPayload_of_reads (h : Reads o a x) :
    ValidPayload rich (nlaType a.kind) a.payload := by
  unfold ValidPayload
  cases x with
  | legacyMemInfo value =>
    obtain ⟨hk, hlen, -⟩ := h
    rw [hk]
    exact hlen
  | tcpInfo value =>
    obtain ⟨hk, h⟩ := h
    rw [hk]
    show rich = true → 232 ≤ a.payload.length
    intro hd
    subst hd
    have hlen := h.1
    rwa [TcpInfoBuffer.size_layout] at hlen
  | congestion s =>
    obtain ⟨hk, h⟩ := h
    rw [hk]
    show IsUtf8 (stripNul a.payload)
    rw [h]
    exact isUtf8_asBytes s
  | tos b | tc b | shutdown b | protocol b =>
    obtain ⟨hk, h⟩ := h
    rw [hk, h]
    rfl
  | memInfo value =>
    obtain ⟨hk, hlen, -⟩ := h
    rw [hk]
    exact hlen
  | skV6Only value =>
    obtain ⟨hk, b, h, -⟩ := h
    rw [hk, h]
    rfl
  | mark value | classId value =>
    obtain ⟨hk, h⟩ := h
    rw [hk, h]
    exact Packed.length_toBytes _ value
  | other attr =>
    obtain ⟨hk, -⟩ := h
    simp only [kinds, List.mem_cons, List.not_mem_nil, not_or, or_false] at hk
    obtain ⟨h1, h2, h3, h4, h5, h6, h7, h8, h9, h10, h11⟩ := hk
    simp [h1, h2, h3, h4, h5, h6, h7, h8, h9, h10, h11]

theorem exists_reads_of_validPayload (h : ValidPayload rich (nlaType a.kind) a.payload) :
    ∃ x : Nla rich, Reads o a x := by
  unfold ValidPayload at h
  split at h
  · rename_i hk
    exact ⟨legacyMemInfo _, hk, h, rfl⟩
  split at h
  · rename_i hk
    cases rich with
    | true => exact ⟨tcpInfo _, hk, by rw [TcpInfoBuffer.size_layout]; exact h rfl, rfl⟩
    | false => exact ⟨tcpInfo a.payload, hk, rfl⟩
  split at h
  · rename_i hk
    exact ⟨congestion (fromUtf8 _ h), hk, rfl⟩
  split at h
  · rename_i hk
    obtain ⟨b, hb⟩ := List.length_eq_one_iff.mp h
    simp only [List.mem_cons, List.not_mem_nil, or_false] at hk
    rcases hk with hk | hk | hk | hk | hk
    · exact ⟨tos b, hk, hb⟩
    · exact ⟨tc b, hk, hb⟩
    · exact ⟨shutdown b, hk, hb⟩
    · exact ⟨protocol b, hk, hb⟩
    · exact ⟨skV6Only _, hk, b, hb, rfl⟩
  split at h
  · rename_i hk
    exact ⟨memInfo _, hk, h, rfl⟩
  split at h
  · rename_i hk
    have hv := ((Packed.u32 o).toBytes_ofBytes a.payload h).symm
    simp only [List.mem_cons, List.not_mem_nil, or_false] at hk
    rcases hk with hk | hk
    · exact ⟨mark _, hk, hv⟩
    · exact ⟨classId _, hk, hv⟩
  · rename_i h1 h2 h3 h4 h5 h6
    refine ⟨other _, ?_, rfl⟩
    simp only [List.mem_cons, List.not_mem_nil, or_false, not_or] at h4 h6
    simp [kinds, h1, h2, h3, h4, h5, h6]

/-- An attribute of no known type reads as itself and as nothing else. -/
theorem reads_iff_of_unknown (hk : nlaType a.kind ∉ kinds) :
    (codec o rich).Reads a x ↔ x = .other ⟨a.kind, a.payload⟩ := by
  refine ⟨?_, ?_⟩
  · intro h
    cases x with
    | other attr =>
      obtain ⟨-, rfl⟩ := h
      rfl
    | legacyMemInfo | tcpInfo | congestion | tos | tc | memInfo | shutdown | protocol | skV6Only |
        mark | classId =>
      -- Every other line of `Reads` asks for a type there is an arm for.
      obtain ⟨htype, -⟩ := h
      rw [htype] at hk
      exact absurd (by decide) hk
  · intro h
    subst h
    exact ⟨hk, rfl⟩

/-- **An attribute reads as something when its payload meets the rule of its type.** -/
theorem exists_reads_iff :
    (∃ x, (codec o rich).Reads a x) ↔ ValidPayload rich (nlaType a.kind) a.payload := by
  refine ⟨?_, ?_⟩
  · intro h
    obtain ⟨x, hx⟩ := h
    exact validPayload_of_reads hx
  · exact exists_reads_of_validPayload

/-! ## What comes back -/

/-- The value is read from its own encoding. Only `Other` can pose as something else. -/
def Survives : Nla rich → Prop
  | other attr => nlaType attr.kind ∉ kinds
  | _ => True

theorem reads_toAttr_iff : (codec o rich).Reads ((codec o rich).encode x) x ↔ Survives x := by
  cases x with
  | legacyMemInfo value =>
    exact iff_of_true
      ⟨nlaType_eq_self inetDiagMeminfo (by decide), Packed.readsAs_toBytes_iff.mpr rfl⟩ trivial
  | tcpInfo value =>
    refine iff_of_true ⟨nlaType_eq_self inetDiagInfo (by decide), ?_⟩ trivial
    cases rich with
    | true => exact Packed.readsAs_toBytes_iff.mpr (TcpInfo.ofRaw_fromTcpInfo value)
    | false => rfl
  | congestion s =>
    exact iff_of_true ⟨nlaType_eq_self inetDiagCong (by decide), stripNul_concat_zero _⟩ trivial
  | tos b => exact iff_of_true ⟨nlaType_eq_self inetDiagTos (by decide), rfl⟩ trivial
  | tc b => exact iff_of_true ⟨nlaType_eq_self inetDiagTclass (by decide), rfl⟩ trivial
  | memInfo value =>
    exact iff_of_true
      ⟨nlaType_eq_self inetDiagSkmeminfo (by decide), Packed.readsAs_toBytes_iff.mpr rfl⟩ trivial
  | shutdown b => exact iff_of_true ⟨nlaType_eq_self inetDiagShutdown (by decide), rfl⟩ trivial
  | protocol b => exact iff_of_true ⟨nlaType_eq_self inetDiagProtocol (by decide), rfl⟩ trivial
  | skV6Only value =>
    refine iff_of_true ⟨nlaType_eq_self inetDiagSkv6only (by decide), _, rfl, ?_⟩ trivial
    cases value <;> rfl
  | mark value => exact iff_of_true ⟨nlaType_eq_self inetDiagMark (by decide), rfl⟩ trivial
  | classId value => exact iff_of_true ⟨nlaType_eq_self inetDiagClassId (by decide), rfl⟩ trivial
  | other attr => exact and_iff_left rfl

theorem forall_survives_iff {xs : List (Nla rich)} :
    (∀ x ∈ xs, x.Survives) ↔ ∀ attr, other attr ∈ xs → nlaType attr.kind ∉ kinds := by
  refine ⟨?_, ?_⟩
  · intro h attr hm
    exact h _ hm
  · intro h x hm
    cases x with
    | other attr => exact h attr hm
    | _ => trivial

/-- What was read survives. -/
theorem survives_of_reads (h : Reads o a x) : Survives x := by
  cases x with
  | other attr =>
    obtain ⟨hk, rfl⟩ := h
    exact hk
  | _ => trivial

/-! ## What decoding and encoding again changes -/

def canonPayload (rich : Bool) (type : UInt16) (v : Bytes) : Bytes :=
  if type = inetDiagMeminfo then v.take 16
  else if type = inetDiagInfo then if rich then v.take 232 else v
  else if type = inetDiagCong then if v.getLast? = some 0 then v else v ++ [0]
  else if type = inetDiagSkmeminfo then v.take 36
  else if type = inetDiagSkv6only then v.map fun b => if b = 0 then 0 else 1
  else v

/-- The attribute as it is written after having been read: a known type loses its flag bits. -/
def canon (rich : Bool) (a : Attr) : Attr where
  kind := if nlaType a.kind ∈ kinds then nlaType a.kind else a.kind
  payload := canonPayload rich (nlaType a.kind) a.payload

theorem toAttr_eq_canon (h : Reads o a x) : toAttr o x = canon rich a := by
  unfold canon
  cases x with
  | legacyMemInfo value =>
    obtain ⟨hk, h⟩ := h
    rw [hk]
    exact congrArg (Attr.mk inetDiagMeminfo) (h.toBytes_eq fun _ => rfl)
  | tcpInfo value =>
    obtain ⟨hk, h⟩ := h
    rw [hk]
    refine congrArg (Attr.mk inetDiagInfo) ?_
    cases rich with
    | true =>
      have hb := Packed.ReadsAs.toBytes_eq h TcpInfoBuffer.fromTcpInfo_ofRaw
      rwa [TcpInfoBuffer.size_layout] at hb
    | false => exact h.symm
  | congestion s =>
    obtain ⟨hk, h⟩ := h
    rw [hk]
    show Attr.mk inetDiagCong (asBytes s ++ [0]) = _
    rw [← h, stripNul_append_zero]
    rfl
  | tos b | tc b | shutdown b | protocol b =>
    obtain ⟨hk, h⟩ := h
    rw [hk, h]
    rfl
  | memInfo value =>
    obtain ⟨hk, h⟩ := h
    rw [hk]
    exact congrArg (Attr.mk inetDiagSkmeminfo) (h.toBytes_eq fun _ => rfl)
  | skV6Only value =>
    obtain ⟨hk, b, h, rfl⟩ := h
    rw [hk, h]
    show Attr.mk inetDiagSkv6only [if b != 0 then 1 else 0] =
      ⟨inetDiagSkv6only, [if b = 0 then 0 else 1]⟩
    by_cases hb : b = 0 <;> simp [hb]
  | mark value | classId value =>
    obtain ⟨hk, h⟩ := h
    rw [hk, h]
    rfl
  | other attr =>
    obtain ⟨hk, rfl⟩ := h
    rw [if_neg hk]
    simp only [kinds, List.mem_cons, List.not_mem_nil, not_or, or_false] at hk
    obtain ⟨h1, h2, h3, -, -, h6, -, -, h9, -, -⟩ := hk
    simp [toAttr, canonPayload, h1, h2, h3, h6, h9]

/-- The one attribute that grows too long to be written again: a congestion control name that
    arrived unterminated in the largest payload there is. -/
def Overlong (a : Attr) : Prop :=
  nlaType a.kind = inetDiagCong ∧ a.payload.length = 65531 ∧ a.payload.getLast? ≠ some 0

theorem length_canonPayload_le (rich : Bool) {type : UInt16} (htype : type ≠ inetDiagCong) (v : Bytes) :
    (canonPayload rich type v).length ≤ v.length := by
  unfold canonPayload
  rw [if_neg htype]
  split
  · exact List.length_take_le' _ _
  split
  · split
    · exact List.length_take_le' _ _
    · exact Nat.le_refl _
  split
  · exact List.length_take_le' _ _
  split
  · exact Nat.le_of_eq (List.length_map _)
  · exact Nat.le_refl _

theorem fits_canon_iff (fits : a.Fits) : (canon rich a).Fits ↔ ¬ Overlong a := by
  rw [Attr.fits_iff] at fits ⊢
  show (canonPayload rich (nlaType a.kind) a.payload).length ≤ 65531 ↔ _
  by_cases hk : nlaType a.kind = inetDiagCong
  · have hcong : canonPayload rich (nlaType a.kind) a.payload =
        if a.payload.getLast? = some 0 then a.payload else a.payload ++ [0] := by
      rw [hk]
      rfl
    rw [hcong]
    unfold Overlong
    by_cases hlast : a.payload.getLast? = some 0
    · simp [hlast, fits]
    · rw [if_neg hlast, List.length_append, List.length_singleton]
      simp only [hk, hlast, ne_eq, not_false_eq_true, true_and, and_true]
      omega
  · have hle := length_canonPayload_le rich hk a.payload
    exact iff_of_true (Nat.le_trans hle fits) fun hover => hk hover.1

end Meaning

end Nla

end SockDiag.Inet
