import SockDiag.Unix.Nlas

/-!
# What the attributes of a unix response mean

As for inet: `Reads` and `toAttr` have one line for each type and do not mention the code, and the
four tables of the source are these. `toTrait_encodes` says it of `value_len`, `kind` and
`emit_value`, `parse_eq_ok_iff` of `parse`. What is proved of attributes from there on is proved of
the two relations:

* what is accepted — `exists_reads_iff`: an attribute reads as something when its payload meets the
  rule `ValidPayload` has for its type, and flag bits in the type make no difference;
* what comes back — `reads_toAttr_iff`: an attribute that `Survives`, which is every one but a
  pathname that is empty or has a NUL in it and an unknown one whose type is known;
* what changes — `toAttr_eq_canon`: read and written again an attribute is its `canon`, in which a
  known type has lost its flag bits, the struct of the file system what is past its eight bytes, and
  the memory counters those nobody reads.
-/

set_option autoImplicit false

namespace SockDiag.Unix

open Rust Tlv

namespace Nla

/-- The types `Nla::parse` has an arm for. -/
def kinds : List UInt16 :=
  [unixDiagName, unixDiagVfs, unixDiagPeer, unixDiagIcons, unixDiagRqlen, unixDiagMeminfo,
    unixDiagShutdown]

theorem nlaType_eq_self (kind : UInt16) (hk : kind ∈ kinds) : nlaType kind = kind := by
  have hall : kinds.all (fun k => nlaType k == k) = true := by decide
  exact eq_of_beq (List.all_eq_true.mp hall kind hk)

/-! ## Writing -/

/-- The raw attribute a value is written as. -/
def toAttr (o : ByteOrder) : Nla → Attr
  | name s => ⟨unixDiagName, s.bytes⟩
  | vfs value => ⟨unixDiagVfs, (VfsBuffer.layout o).toBytes (.fromVfs value)⟩
  | peer value => ⟨unixDiagPeer, (Packed.u32 o).toBytes value⟩
  | pendingConnections values => ⟨unixDiagIcons, words o values⟩
  | receiveQueueLength v1 v2 =>
      ⟨unixDiagRqlen, (Packed.u32 o).toBytes v1 ++ (Packed.u32 o).toBytes v2⟩
  | memInfo value => ⟨unixDiagMeminfo, (MemInfoBuffer.layout o).toBytes (.fromMemInfo value)⟩
  | shutdown value => ⟨unixDiagShutdown, [value]⟩
  | other attr => ⟨attr.kind, attr.value⟩

/-- **`kind`, `value_len` and `emit_value` agree**, for every type. -/
theorem toTrait_encodes (P : Platform) [P.Lawful] (x : Nla) :
    (x.toTrait P).Encodes (x.toAttr P.order) := by
  cases x with
  | name s =>
    exact
      { kind := rfl
        valueLen := s.bufferLen_eq
        fills := s.emit_fills
        needs := by
          have h := s.emit_needs
          rw [s.bufferLen_eq] at h
          exact h }
  | vfs value => exact NlaTrait.encodes_asBytes P _ _ _
  | peer value => exact NlaTrait.encodes_emitU32 P _ _
  | pendingConnections values =>
    have hlen := length_words P.order values
    refine ⟨rfl, hlen.symm, (emitPending_emits P values).fills, ?_⟩
    show (emitPending P 0 values).Needs (words P.order values).length
    rw [hlen]
    exact emitPending_needs P values
  | receiveQueueLength v1 v2 =>
    have h4 : ∀ v, ((Packed.u32 P.order).toBytes v).length = 4 := fun v => by simp
    have hemit := (P.emitU32_unwrap_emits v1).append (P.emitU32_unwrap_emits v2)
    rw [h4] at hemit
    refine ⟨rfl, by simp [toTrait, valueLen, toAttr], hemit.fills, ?_⟩
    intro buf hl
    have hl : buf.length < 8 := by simpa [toAttr] using hl
    show ((P.emitU32 v1).unwrap >> Writer.onSuffix 4 (P.emitU32 v2).unwrap).run buf = .panic
    -- Too short for the first number, or for the second only.
    by_cases hfirst : buf.length < 4
    · exact (P.emitU32_unwrap_needs v1).andThen _ buf hfirst
    · have hrun := P.emitU32_unwrap_emits v1 buf (by rw [h4]; omega)
      have hout := Writer.length_run _ hrun
      rw [Writer.run_andThen, hrun, Outcome.ok_bind, Writer.run_onSuffix _ (by omega),
        P.emitU32_unwrap_needs v2 _ (by rw [List.length_drop]; omega)]
      rfl
  | memInfo value => exact NlaTrait.encodes_asBytes P _ _ _
  | shutdown value => exact NlaTrait.encodes_set _ _
  | other attr =>
    unfold toTrait
    simp only [valueLen, kind, emitValue, Platform.Lawful.defaultNla_eq]
    exact NlaTrait.encodes_copyFromSlice _ _

/-! ## Reading -/

/-- The values a raw attribute reads as: at most one, and none where it is rejected. -/
def Reads (o : ByteOrder) (a : Attr) : Nla → Prop
  | name s => nlaType a.kind = unixDiagName ∧ s.Reads a.payload
  | vfs value =>
      nlaType a.kind = unixDiagVfs ∧ (VfsBuffer.layout o).ReadsAs Vfs.ofRaw a.payload value
  | peer value => nlaType a.kind = unixDiagPeer ∧ a.payload = (Packed.u32 o).toBytes value
  | pendingConnections values => nlaType a.kind = unixDiagIcons ∧ a.payload = words o values
  | receiveQueueLength v1 v2 =>
      nlaType a.kind = unixDiagRqlen ∧
        a.payload = (Packed.u32 o).toBytes v1 ++ (Packed.u32 o).toBytes v2
  | memInfo value =>
      nlaType a.kind = unixDiagMeminfo ∧
        (MemInfoBuffer.layout o).ReadsAs MemInfo.ofRaw a.payload value
  | shutdown value => nlaType a.kind = unixDiagShutdown ∧ a.payload = [value]
  | other attr => nlaType a.kind ∉ kinds ∧ attr = ⟨a.kind, a.payload⟩

def codec (o : ByteOrder) : Codec Nla := ⟨Reads o, toAttr o⟩

section Parse

variable {P : Platform} [P.Lawful] {nla : P.NlaBuffer} {a : Attr} {x : Nla}

/-- What `parse` makes of an attribute is what the attribute reads as. -/
theorem reads_of_parse (hv : P.Views nla a) (h : parse P nla = .ok x) : Reads P.order a x := by
  unfold parse at h
  rw [hv.value, Outcome.ok_bind, hv.nlaKind] at h
  rcases Outcome.arm_eq_ok h with ⟨hk, s, hp, rfl⟩ | ⟨h1, h⟩
  · exact ⟨hk, (UnixDiagName.parse_eq_ok_iff P).mp (Outcome.mapErr_eq_ok.mp hp)⟩
  rcases Outcome.arm_eq_ok h with ⟨hk, value, hp, rfl⟩ | ⟨h2, h⟩
  · exact ⟨hk, P.readPrefix_map_eq_ok_iff.mp (Outcome.mapErr_eq_ok.mp hp)⟩
  rcases Outcome.arm_eq_ok h with ⟨hk, value, hp, rfl⟩ | ⟨h3, h⟩
  · exact ⟨hk, P.parseU32_eq_ok_iff.mp (Outcome.mapErr_eq_ok.mp hp)⟩
  rcases Outcome.arm_eq_ok h with ⟨hk, values, hp, rfl⟩ | ⟨h4, h⟩
  · exact ⟨hk, (parseIcons_eq_ok_iff P).mp hp⟩
  rcases Outcome.arm_eq_ok h with ⟨hk, ⟨v1, v2⟩, hp, rfl⟩ | ⟨h5, h⟩
  · exact ⟨hk, (parseRqlen_eq_ok_iff P).mp hp⟩
  rcases Outcome.arm_eq_ok h with ⟨hk, value, hp, rfl⟩ | ⟨h6, h⟩
  · exact ⟨hk, P.readPrefix_map_eq_ok_iff.mp (Outcome.mapErr_eq_ok.mp hp)⟩
  rcases Outcome.arm_eq_ok h with ⟨hk, value, hp, rfl⟩ | ⟨h7, h⟩
  · exact ⟨hk, P.parseU8_eq_ok_iff.mp (Outcome.mapErr_eq_ok.mp hp)⟩
  -- The last arm: the type is none of the seven.
  obtain ⟨attr, hp, rfl⟩ := Outcome.map_eq_ok.mp h
  rw [hv.default, Outcome.mapErr_eq_ok, Outcome.ok.injEq] at hp
  refine ⟨?_, hp.symm⟩
  unfold kinds
  simp only [List.mem_cons, List.not_mem_nil, h1, h2, h3, h4, h5, h6, h7, or_self,
    not_false_eq_true]

/-- An attribute that reads as something is parsed as that. -/
theorem parse_of_reads (hv : P.Views nla a) (h : Reads P.order a x) : parse P nla = .ok x := by
  unfold parse
  rw [hv.value, Outcome.ok_bind, hv.nlaKind]
  cases x with
  | name s =>
    obtain ⟨hk, h⟩ := h
    rw [hk]
    exact Outcome.map_eq_ok.mpr
      ⟨s, Outcome.mapErr_eq_ok.mpr ((UnixDiagName.parse_eq_ok_iff P).mpr h), rfl⟩
  | vfs value =>
    obtain ⟨hk, h⟩ := h
    rw [hk]
    exact Outcome.map_eq_ok.mpr
      ⟨value, Outcome.mapErr_eq_ok.mpr (P.readPrefix_map_eq_ok_iff.mpr h), rfl⟩
  | peer value =>
    obtain ⟨hk, h⟩ := h
    rw [hk]
    exact Outcome.map_eq_ok.mpr ⟨value, Outcome.mapErr_eq_ok.mpr (P.parseU32_eq_ok_iff.mpr h), rfl⟩
  | pendingConnections values =>
    obtain ⟨hk, h⟩ := h
    rw [hk]
    exact Outcome.map_eq_ok.mpr ⟨values, (parseIcons_eq_ok_iff P).mpr h, rfl⟩
  | receiveQueueLength v1 v2 =>
    obtain ⟨hk, h⟩ := h
    rw [hk]
    exact Outcome.map_eq_ok.mpr ⟨(v1, v2), (parseRqlen_eq_ok_iff P).mpr h, rfl⟩
  | memInfo value =>
    obtain ⟨hk, h⟩ := h
    rw [hk]
    exact Outcome.map_eq_ok.mpr
      ⟨value, Outcome.mapErr_eq_ok.mpr (P.readPrefix_map_eq_ok_iff.mpr h), rfl⟩
  | shutdown value =>
    obtain ⟨hk, h⟩ := h
    rw [hk]
    exact Outcome.map_eq_ok.mpr ⟨value, Outcome.mapErr_eq_ok.mpr (P.parseU8_eq_ok_iff.mpr h), rfl⟩
  | other attr =>
    obtain ⟨hk, rfl⟩ := h
    simp only [kinds, List.mem_cons, List.not_mem_nil, not_or, or_false] at hk
    obtain ⟨h1, h2, h3, h4, h5, h6, h7⟩ := hk
    rw [if_neg h1, if_neg h2, if_neg h3, if_neg h4, if_neg h5, if_neg h6, if_neg h7, hv.default]
    rfl

theorem parse_eq_ok_iff (hv : P.Views nla a) : parse P nla = .ok x ↔ (codec P.order).Reads a x :=
  ⟨reads_of_parse hv, parse_of_reads hv⟩

theorem parse_returns (hv : P.Views nla a) : (parse P nla).Returns := by
  unfold parse
  rw [hv.value, Outcome.ok_bind]
  refine .arm (Outcome.returns_mapErr.mpr (UnixDiagName.parse_returns P)) ?_
  refine .arm (Outcome.returns_mapErr.mpr (P.readPrefix_map_returns _)) ?_
  refine .arm (Outcome.returns_mapErr.mpr P.parseU32_returns) ?_
  refine .arm (parseIcons_returns P) ?_
  refine .arm (parseRqlen_returns P) ?_
  refine .arm (Outcome.returns_mapErr.mpr (P.readPrefix_map_returns _)) ?_
  refine .arm (Outcome.returns_mapErr.mpr P.parseU8_returns) ?_
  rw [hv.default]
  trivial

end Parse

/-! ## What is accepted -/

/-- The rule a payload has to meet, by type without flag bits. -/
def ValidPayload (type : UInt16) (v : Bytes) : Prop :=
  if type = unixDiagName then
    v.head? = some 0 ∨ (v.getLast? = some 0 ∧ (0 : UInt8) ∉ v.dropLast)
  else if type = unixDiagVfs then 8 ≤ v.length
  else if type = unixDiagPeer then v.length = 4
  else if type = unixDiagIcons then v.length % 4 = 0
  else if type = unixDiagRqlen then v.length = 8
  else if type = unixDiagMeminfo then 36 ≤ v.length
  else if type = unixDiagShutdown then v.length = 1
  else True

section Meaning

variable {o : ByteOrder} {a : Attr} {x : Nla}

theorem validPayload_of_reads (h : Reads o a x) : ValidPayload (nlaType a.kind) a.payload := by
  unfold ValidPayload
  have h4 : ∀ v, ((Packed.u32 o).toBytes v).length = 4 := fun v => by simp
  cases x with
  | name s =>
    obtain ⟨hk, h⟩ := h
    rw [hk, if_pos rfl]
    cases s with
    | abstract address =>
      -- A leading NUL makes the name abstract, whatever follows it.
      rw [show a.payload = 0 :: address from h]
      exact .inl rfl
    | pathname path =>
      obtain ⟨-, hnul, hp⟩ := h
      rw [hp]
      refine .inr ⟨by simp, ?_⟩
      rwa [List.dropLast_concat]
  | vfs value =>
    obtain ⟨hk, hlen, -⟩ := h
    rw [hk]
    exact hlen
  | peer value =>
    obtain ⟨hk, h⟩ := h
    rw [hk, h]
    exact h4 value
  | pendingConnections values =>
    obtain ⟨hk, h⟩ := h
    rw [hk, h]
    show (words o values).length % 4 = 0
    rw [length_words, Nat.mul_mod_right]
  | receiveQueueLength v1 v2 =>
    obtain ⟨hk, h⟩ := h
    rw [hk, h]
    show (List.append _ _).length = 8
    rw [List.append_eq, List.length_append, h4, h4]
  | memInfo value =>
    obtain ⟨hk, hlen, -⟩ := h
    rw [hk]
    exact hlen
  | shutdown value =>
    obtain ⟨hk, h⟩ := h
    rw [hk, h]
    rfl
  | other attr =>
    obtain ⟨hk, -⟩ := h
    simp only [kinds, List.mem_cons, List.not_mem_nil, not_or, or_false] at hk
    obtain ⟨h1, h2, h3, h4, h5, h6, h7⟩ := hk
    simp [h1, h2, h3, h4, h5, h6, h7]

theorem exists_name_reads {v : Bytes}
    (h : v.head? = some 0 ∨ (v.getLast? = some 0 ∧ (0 : UInt8) ∉ v.dropLast)) :
    ∃ s : UnixDiagName, s.Reads v := by
  by_cases hhead : v.head? = some 0
  · obtain ⟨address, rfl⟩ := List.head?_eq_some_iff.mp hhead
    exact ⟨.abstract address, rfl⟩
  · rcases h with h | ⟨hlast, hnul⟩
    · exact absurd h hhead
    · have hv : v = v.dropLast ++ [0] := (List.dropLast_append_getLast? 0 hlast).symm
      refine ⟨.pathname v.dropLast, ?_, hnul, hv⟩
      intro hnil
      rw [hnil] at hv
      exact hhead (by rw [hv]; rfl)

theorem exists_reads_of_validPayload (h : ValidPayload (nlaType a.kind) a.payload) :
    ∃ x, Reads o a x := by
  unfold ValidPayload at h
  split at h
  · rename_i hk
    obtain ⟨s, hs⟩ := exists_name_reads h
    exact ⟨name s, hk, hs⟩
  split at h
  · rename_i hk
    exact ⟨vfs _, hk, h, rfl⟩
  split at h
  · rename_i hk
    exact ⟨peer _, hk, ((Packed.u32 o).toBytes_ofBytes a.payload h).symm⟩
  split at h
  · rename_i hk
    obtain ⟨values, hvs⟩ := exists_words o h
    exact ⟨pendingConnections values, hk, hvs⟩
  split at h
  · rename_i hk
    have hfst : (a.payload.take 4).length = 4 := by rw [List.length_take]; omega
    have hsnd : (a.payload.drop 4).length = 4 := by rw [List.length_drop]; omega
    refine ⟨receiveQueueLength ((Packed.u32 o).ofBytes (a.payload.take 4))
      ((Packed.u32 o).ofBytes (a.payload.drop 4)), hk, ?_⟩
    rw [(Packed.u32 o).toBytes_ofBytes _ hfst, (Packed.u32 o).toBytes_ofBytes _ hsnd,
      List.take_append_drop]
  split at h
  · rename_i hk
    exact ⟨memInfo _, hk, h, rfl⟩
  split at h
  · rename_i hk
    obtain ⟨b, hb⟩ := List.length_eq_one_iff.mp h
    exact ⟨shutdown b, hk, hb⟩
  · rename_i h1 h2 h3 h4 h5 h6 h7
    refine ⟨other _, ?_, rfl⟩
    simp [kinds, h1, h2, h3, h4, h5, h6, h7]

/-- An attribute of no known type reads as itself and as nothing else. -/
theorem reads_iff_of_unknown (hk : nlaType a.kind ∉ kinds) :
    (codec o).Reads a x ↔ x = .other ⟨a.kind, a.payload⟩ := by
  refine ⟨?_, ?_⟩
  · intro h
    cases x with
    | other attr =>
      obtain ⟨-, rfl⟩ := h
      rfl
    | name | vfs | peer | pendingConnections | receiveQueueLength | memInfo | shutdown =>
      obtain ⟨htype, -⟩ := h
      rw [htype] at hk
      exact absurd (by decide) hk
  · intro h
    subst h
    exact ⟨hk, rfl⟩

/-- **An attribute reads as something when its payload meets the rule of its type.** -/
theorem exists_reads_iff :
    (∃ x, (codec o).Reads a x) ↔ ValidPayload (nlaType a.kind) a.payload := by
  refine ⟨?_, ?_⟩
  · intro h
    obtain ⟨x, hx⟩ := h
    exact validPayload_of_reads hx
  · exact exists_reads_of_validPayload

/-! ## What comes back -/

/-- The value is read from its own encoding. A pathname that is empty or has a NUL inside is
    written as something else, or as nothing. -/
def Survives : Nla → Prop
  | name (.pathname path) => path ≠ [] ∧ (0 : UInt8) ∉ path
  | other attr => nlaType attr.kind ∉ kinds
  | _ => True

theorem reads_toAttr_iff : (codec o).Reads ((codec o).encode x) x ↔ Survives x := by
  cases x with
  | name s =>
    have htype := nlaType_eq_self unixDiagName (by decide)
    cases s with
    | abstract address => exact iff_of_true ⟨htype, rfl⟩ trivial
    | pathname path =>
      refine ⟨?_, ?_⟩
      · intro h
        obtain ⟨-, hne, hnul, -⟩ := h
        exact ⟨hne, hnul⟩
      · intro h
        obtain ⟨hne, hnul⟩ := h
        exact ⟨htype, hne, hnul, rfl⟩
  | vfs value =>
    exact iff_of_true
      ⟨nlaType_eq_self unixDiagVfs (by decide), Packed.readsAs_toBytes_iff.mpr rfl⟩ trivial
  | peer value => exact iff_of_true ⟨nlaType_eq_self unixDiagPeer (by decide), rfl⟩ trivial
  | pendingConnections values =>
    exact iff_of_true ⟨nlaType_eq_self unixDiagIcons (by decide), rfl⟩ trivial
  | receiveQueueLength v1 v2 =>
    exact iff_of_true ⟨nlaType_eq_self unixDiagRqlen (by decide), rfl⟩ trivial
  | memInfo value =>
    exact iff_of_true
      ⟨nlaType_eq_self unixDiagMeminfo (by decide), Packed.readsAs_toBytes_iff.mpr rfl⟩ trivial
  | shutdown value => exact iff_of_true ⟨nlaType_eq_self unixDiagShutdown (by decide), rfl⟩ trivial
  | other attr => exact and_iff_left rfl

theorem forall_survives_iff {xs : List Nla} :
    (∀ x ∈ xs, x.Survives) ↔
      (∀ path, name (.pathname path) ∈ xs → path ≠ [] ∧ (0 : UInt8) ∉ path) ∧
        ∀ attr, other attr ∈ xs → nlaType attr.kind ∉ kinds := by
  refine ⟨?_, ?_⟩
  · intro h
    exact ⟨fun path hm => h _ hm, fun attr hm => h _ hm⟩
  · intro hd x hm
    obtain ⟨hname, hother⟩ := hd
    cases x with
    | name s =>
      cases s with
      | pathname path => exact hname path hm
      | abstract address => trivial
    | other attr => exact hother attr hm
    | _ => trivial

/-- What was read survives. -/
theorem survives_of_reads (h : Reads o a x) : Survives x := by
  cases x with
  | name s =>
    cases s with
    | abstract address => trivial
    | pathname path =>
      obtain ⟨-, hne, hnul, -⟩ := h
      exact ⟨hne, hnul⟩
  | other attr =>
    obtain ⟨hk, rfl⟩ := h
    exact hk
  | _ => trivial

/-! ## What decoding and encoding again changes -/

/-- The 36 bytes of a memory attribute with all but words 1, 3 and 5 set to zero. -/
def canonMemInfo (v : Bytes) : Bytes :=
  blank 24 36 (blank 16 20 (blank 8 12 (blank 0 4 (v.take 36))))

theorem length_canonMemInfo_le (v : Bytes) : (canonMemInfo v).length ≤ 36 := by
  simp only [canonMemInfo, length_blank, List.length_take]
  omega

def canonPayload (type : UInt16) (v : Bytes) : Bytes :=
  if type = unixDiagVfs then v.take 8
  else if type = unixDiagMeminfo then canonMemInfo v
  else v

/-- The attribute as it is written after having been read: a known type loses its flag bits. -/
def canon (a : Attr) : Attr where
  kind := if nlaType a.kind ∈ kinds then nlaType a.kind else a.kind
  payload := canonPayload (nlaType a.kind) a.payload

private theorem blank_words {w0 w1 w2 w3 w4 w5 w6 w7 w8 : Bytes} (h0 : w0.length = 4)
    (h1 : w1.length = 4) (h2 : w2.length = 4) (h3 : w3.length = 4) (h4 : w4.length = 4)
    (h5 : w5.length = 4) (h6 : w6.length = 4) (h7 : w7.length = 4) (h8 : w8.length = 4) :
    blank 24 36 (blank 16 20 (blank 8 12 (blank 0 4
        (w0 ++ (w1 ++ (w2 ++ (w3 ++ (w4 ++ (w5 ++ (w6 ++ (w7 ++ w8))))))))))) =
      [0, 0, 0, 0] ++ (w1 ++ ([0, 0, 0, 0] ++ (w3 ++ ([0, 0, 0, 0] ++ (w5 ++
        ([0, 0, 0, 0] ++ ([0, 0, 0, 0] ++ [0, 0, 0, 0]))))))) := by
  have hz : List.replicate 4 (0 : UInt8) = [0, 0, 0, 0] := rfl
  have hz3 : List.replicate 12 (0 : UInt8) =
      [0, 0, 0, 0] ++ ([0, 0, 0, 0] ++ [0, 0, 0, 0]) := rfl
  have hlen : (w6 ++ (w7 ++ w8)).length = 12 := by simp [h6, h7, h8]
  -- Each step cuts the words so far at the one it sets to zero.
  have e0 := blank_append 0 4 (x := []) (y := w0) rfl (by rw [h0])
    (w1 ++ (w2 ++ (w3 ++ (w4 ++ (w5 ++ (w6 ++ (w7 ++ w8)))))))
  have e2 := blank_append 8 12 (x := [0, 0, 0, 0] ++ w1) (y := w2)
    (by simp [h1]) (by rw [h2]) (w3 ++ (w4 ++ (w5 ++ (w6 ++ (w7 ++ w8)))))
  have e4 := blank_append 16 20 (x := [0, 0, 0, 0] ++ (w1 ++ ([0, 0, 0, 0] ++ w3)))
    (y := w4) (by simp [h1, h3]) (by rw [h4]) (w5 ++ (w6 ++ (w7 ++ w8)))
  have e6 := blank_append 24 36
    (x := [0, 0, 0, 0] ++ (w1 ++ ([0, 0, 0, 0] ++ (w3 ++ ([0, 0, 0, 0] ++ w5)))))
    (y := w6 ++ (w7 ++ w8)) (by simp [h1, h3, h5]) (by rw [hlen]) []
  rw [h0, hz, List.nil_append, List.nil_append] at e0
  rw [h2, hz, List.append_assoc, List.append_assoc] at e2
  rw [h4, hz] at e4
  rw [hlen, hz3, List.append_nil, List.append_nil] at e6
  simp only [List.append_assoc] at e4 e6
  rw [e0, e2, e4, e6]

theorem memInfo_toBytes_eq {value : MemInfo} {v : Bytes}
    (h : (MemInfoBuffer.layout o).ReadsAs MemInfo.ofRaw v value) :
    (MemInfoBuffer.layout o).toBytes (.fromMemInfo value) = canonMemInfo v := by
  have hsize : (MemInfoBuffer.layout o).size = 36 := rfl
  unfold Packed.ReadsAs at h
  rw [hsize] at h
  obtain ⟨hlen, rfl⟩ := h
  have hraw := (MemInfoBuffer.layout o).toBytes_ofBytes (v.take 36) (by
    rw [List.length_take]
    exact Nat.min_eq_left hlen)
  generalize (MemInfoBuffer.layout o).ofBytes (v.take 36) = raw at hraw ⊢
  unfold canonMemInfo
  rw [← hraw]
  obtain ⟨w0, w1, w2, w3, w4, w5, w6, w7, w8⟩ := raw
  have h4 : ∀ w, ((Packed.u32 o).toBytes w).length = 4 := fun w => by simp
  simp only [MemInfoBuffer.layout, Packed.toBytes_iso, Packed.toBytes_pair, Equiv.coe_fn_mk,
    MemInfo.ofRaw, MemInfoBuffer.fromMemInfo, Packed.toBytes_u32_zero]
  exact (blank_words (h4 w0) (h4 w1) (h4 w2) (h4 w3) (h4 w4) (h4 w5) (h4 w6) (h4 w7) (h4 w8)).symm

theorem toAttr_eq_canon (h : Reads o a x) : toAttr o x = canon a := by
  unfold canon
  cases x with
  | name s =>
    obtain ⟨hk, h⟩ := h
    rw [hk]
    refine congrArg (Attr.mk unixDiagName) ?_
    cases s with
    | abstract address => exact h.symm
    | pathname path => exact h.2.2.symm
  | vfs value =>
    obtain ⟨hk, h⟩ := h
    rw [hk]
    exact congrArg (Attr.mk unixDiagVfs) (h.toBytes_eq fun _ => rfl)
  | peer value | pendingConnections values | receiveQueueLength v1 v2 | shutdown value =>
    obtain ⟨hk, h⟩ := h
    rw [hk, h]
    rfl
  | memInfo value =>
    obtain ⟨hk, h⟩ := h
    rw [hk]
    exact congrArg (Attr.mk unixDiagMeminfo) (memInfo_toBytes_eq h)
  | other attr =>
    obtain ⟨hk, rfl⟩ := h
    rw [if_neg hk]
    simp only [kinds, List.mem_cons, List.not_mem_nil, not_or, or_false] at hk
    obtain ⟨-, h2, -, -, -, h6, -⟩ := hk
    simp [toAttr, canonPayload, h2, h6]

/-- No attribute of a unix response grows. -/
theorem fits_canon (fits : a.Fits) : (canon a).Fits := by
  rw [Attr.fits_iff] at fits ⊢
  show (canonPayload (nlaType a.kind) a.payload).length ≤ 65531
  unfold canonPayload
  split
  · exact Nat.le_trans (List.length_take_le' _ _) fits
  split
  · exact Nat.le_trans (length_canonMemInfo_le _) (by decide)
  · exact fits

end Meaning

end Nla

end SockDiag.Unix
