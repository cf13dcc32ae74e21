import SockDiag.Platform

/-!
# A platform that satisfies the laws

`Platform.reference o` implements the three crates as they are documented, at byte order `o`. It is
what a closed example runs on, and the reason the laws of `Platform.Lawful` are not vacuous: the
last declaration of the module is that it satisfies them, at either order.

It is a model of the documentation and not of the crates' code, and where the documentation leaves
something open it takes a choice: errors are strings, and an attribute is kept as its type and its
payload. No theorem depends on these choices, since nothing is about this platform but the examples.
The attribute iterator takes one attribute off the front of the bytes (`next`) as `Tlv.unframe`
does, and `emitNlas` writes into one slice after another as `Tlv.wire` lays them out; that they are
these is most of the work here.
-/

set_option autoImplicit false

namespace SockDiag

open Rust Tlv

namespace Platform

namespace Reference

def parseString (p : Bytes) : Outcome String String :=
  if h : IsUtf8 (stripNul p) then .ok (fromUtf8 (stripNul p) h) else .err "invalid string"

def emitU32 (o : ByteOrder) (v : UInt32) : Writer String where
  run buf :=
    if buf.length < 4 then .err "buffer too small"
    else (Writer.onPrefix 4 (.copyFromSlice ((Packed.u32 o).toBytes v))).run buf
  length_run := by
    intro buf out h
    split at h
    · cases h
    · exact Writer.length_run _ h

def next (o : ByteOrder) (b : Bytes) : Option (Outcome String Attr × Bytes) :=
  if b = [] then none
  else match unframe o b with
    -- An error moves the iterator to the end, so that it is reported once.
    | none => some (.err "invalid NLA buffer", [])
    | some (a, rest) => some (.ok a, rest)

def nlaBufferLen (n : NlaTrait) : Nat := 4 + align n.valueLen

/-- The length field, the type, the value, and then zeros up to the next multiple of four. -/
def emitNla (o : ByteOrder) (n : NlaTrait) : Writer Empty :=
  if 65532 ≤ n.valueLen % 65536 then .abort
  else
    Writer.onRange 0 2 (.copyFromSlice ((Packed.u16 o).toBytes (UInt16.ofNat (4 + n.valueLen)))) >>
    Writer.onRange 2 4 (.copyFromSlice ((Packed.u16 o).toBytes n.kind)) >>
    -- The slice is as long as the length field says, which is `valueLen` without the wrap.
    Writer.onRange 4 (4 + n.valueLen % 65536) n.emitValue >>
    Writer.onRange (4 + n.valueLen) (nlaBufferLen n)
      (.copyFromSlice (List.replicate (nlaBufferLen n - (4 + n.valueLen)) 0))

def emitNlas (o : ByteOrder) : List NlaTrait → Writer Empty
  | [] => .skip
  | n :: ns =>
      Writer.onPrefix (nlaBufferLen n) (emitNla o n) >>
      Writer.onSuffix (nlaBufferLen n) (emitNlas o ns)

end Reference

def reference (o : ByteOrder) : Platform where
  order := o
  displayNulError
    | .interiorNul position => s!"interior nul byte at {position}"
    | .notNulTerminated => "not nul terminated"
  DecodeError := String
  bufferTooSmall n m := s!"buffer too small: {n} of {m} bytes"
  decodeError msg := msg
  context msg e := s!"{msg}: {e}"
  parseU8
    | [b] => .ok b
    | _ => .err "invalid u8"
  parseU32 p := if p.length = 4 then .ok ((Packed.u32 o).ofBytes p) else .err "invalid u32"
  parseString := Reference.parseString
  emitU32 := Reference.emitU32 o
  NlaBuffer := Attr
  nlaValue a := .ok a.payload
  nlaKind a := a.kind &&& 0x3fff
  defaultNlaParse a := .ok ⟨a.kind, a.payload⟩
  defaultNla d := ⟨d.value.length, d.kind, .copyFromSlice d.value⟩
  NlasIterator := Bytes
  nlasIterator b := b
  next := Reference.next o
  remaining b := b
  nlaBufferLen := Reference.nlaBufferLen
  emitNla := Reference.emitNla o
  nlasBufferLen ns := (ns.map Reference.nlaBufferLen).sum
  emitNlas := Reference.emitNlas o
  refFromPrefix L b :=
    if L.size ≤ b.length then some (L.ofBytes (b.take L.size), b.drop L.size) else none
  asBytes L a := ⟨(L.toBytes a).toArray, by simp⟩
  fromBitsTruncate all bits := bits &&& all

namespace Reference

variable {o : ByteOrder}

theorem emitU32_emits (v : UInt32) : (emitU32 o v).Emits ((Packed.u32 o).toBytes v) := by
  have h4 : ((Packed.u32 o).toBytes v).length = 4 := by simp
  intro buf hl
  have hlt : ¬ buf.length < 4 := by omega
  show (if buf.length < 4 then _ else _) = _
  rw [if_neg hlt, ← h4]
  exact (Writer.fills_copyFromSlice _).onPrefix buf hl

/-- A writer lent the middle of three pieces. -/
private theorem run_onRange_append {w : Writer Empty} {x y z : Bytes} {lo hi : Nat}
    (hx : x.length = lo) (hy : x.length + y.length = hi) :
    (Writer.onRange lo hi w).run (x ++ y ++ z) = w.run y >>= fun m => .ok (x ++ m ++ z) := by
  subst hx hy
  have hlen : (x ++ y).length = x.length + y.length := by simp
  have hin : x.length ≤ x.length + y.length ∧
      x.length + y.length ≤ (x ++ y ++ z).length := by simp
  have hslice : slice (x ++ y ++ z) x.length (x.length + y.length) = y := by
    rw [slice, List.take_left' hlen, List.drop_left]
  have htake : (x ++ y ++ z).take x.length = x := by
    rw [List.append_assoc, List.take_left]
  have hdrop : (x ++ y ++ z).drop (x.length + y.length) = z := List.drop_left' hlen
  simp only [Writer.onRange, if_pos hin, hslice, htake, hdrop]

/-- The four steps of `emitNla` on a buffer cut where they cut it. -/
private theorem emitNla_run (n : NlaTrait) (len kind val old pad : Bytes)
    (hov : ¬ 65532 ≤ n.valueLen % 65536) (h0 : len.length = 2) (h2 : kind.length = 2)
    (h4 : val.length = n.valueLen % 65536) (hv : val.length + old.length = n.valueLen)
    (hp : 4 + n.valueLen + pad.length = nlaBufferLen n) :
    (emitNla o n).run (len ++ kind ++ val ++ (old ++ pad)) =
      n.emitValue.run val >>= fun v =>
        .ok ((Packed.u16 o).toBytes (UInt16.ofNat (4 + n.valueLen)) ++
          (Packed.u16 o).toBytes n.kind ++ v ++ old ++ List.replicate pad.length 0) := by
  have hL : ((Packed.u16 o).toBytes (UInt16.ofNat (4 + n.valueLen))).length = 2 := by simp
  have hK : ((Packed.u16 o).toBytes n.kind).length = 2 := by simp
  generalize hLdef : (Packed.u16 o).toBytes (UInt16.ofNat (4 + n.valueLen)) = L at hL ⊢
  generalize hKdef : (Packed.u16 o).toBytes n.kind = K at hK ⊢
  have s1 : (Writer.onRange 0 2 (.copyFromSlice L) : Writer Empty).run
      ([] ++ len ++ (kind ++ val ++ (old ++ pad))) = .ok ([] ++ L ++ (kind ++ val ++ (old ++ pad))) := by
    rw [run_onRange_append List.length_nil (by simp [h0]),
      Writer.fills_copyFromSlice L len (by omega)]
    rfl
  have s2 : (Writer.onRange 2 4 (.copyFromSlice K) : Writer Empty).run
      (L ++ kind ++ (val ++ (old ++ pad))) = .ok (L ++ K ++ (val ++ (old ++ pad))) := by
    rw [run_onRange_append hL (by omega), Writer.fills_copyFromSlice K kind (by omega)]
    rfl
  have s3 : (Writer.onRange 4 (4 + n.valueLen % 65536) n.emitValue).run
      (L ++ K ++ val ++ (old ++ pad)) =
        n.emitValue.run val >>= fun v => .ok (L ++ K ++ v ++ (old ++ pad)) :=
    run_onRange_append (by simp [hL, hK]) (by simp [hL, hK, h4])
  have s4 : ∀ v : Bytes, v.length = val.length →
      (Writer.onRange (4 + n.valueLen) (nlaBufferLen n)
        (.copyFromSlice (List.replicate (nlaBufferLen n - (4 + n.valueLen)) 0)) : Writer Empty).run
        (L ++ K ++ v ++ old ++ pad ++ []) =
          .ok (L ++ K ++ v ++ old ++ List.replicate pad.length 0 ++ []) := by
    intro v hvl
    have hn : nlaBufferLen n - (4 + n.valueLen) = pad.length := by omega
    rw [run_onRange_append (by simp [hL, hK]; omega) (by simp [hL, hK]; omega), hn,
      Writer.fills_copyFromSlice _ pad (by simp)]
    rfl
  simp only [emitNla, if_neg hov, hLdef, hKdef]
  simp only [List.nil_append, List.append_assoc] at s1 s2 s3 s4 ⊢
  rw [Writer.run_andThen, s1, Outcome.ok_bind, Writer.run_andThen, s2, Outcome.ok_bind,
    Writer.run_andThen, s3, Outcome.bind_assoc]
  cases hr : n.emitValue.run val with
  | ok v => simpa using s4 v (n.emitValue.length_run hr)
  | err e => exact e.elim
  | panic => rfl
  | diverge => rfl

/-- A buffer of the attribute's size is a header, a value slice, what the length field leaves out
    of the value, and the padding. -/
private theorem buffer_pieces (buf : Bytes) (n : NlaTrait) :
    buf = slice buf 0 2 ++ slice buf 2 4 ++ slice buf 4 (4 + n.valueLen % 65536) ++
      (slice buf (4 + n.valueLen % 65536) (4 + n.valueLen) ++ buf.drop (4 + n.valueLen)) := by
  have hm : n.valueLen % 65536 ≤ n.valueLen := Nat.mod_le _ _
  have cut : ∀ lo hi : Nat, lo ≤ hi → slice buf 0 lo ++ slice buf lo hi = slice buf 0 hi := by
    intro lo hi h
    unfold slice
    rw [List.drop_zero, List.drop_zero]
    conv_rhs => rw [← List.take_append_drop lo (buf.take hi), List.take_take, Nat.min_eq_left h]
  rw [cut 2 4 (by omega), cut 4 _ (by omega), ← List.append_assoc, cut _ _ (by omega), slice,
    List.drop_zero, List.take_append_drop]

theorem emitNla_panic {n : NlaTrait} {buf : Bytes} (hl : buf.length = nlaBufferLen n)
    (hp : n.emitValue.run (slice buf 4 (4 + n.valueLen % 65536)) = .panic) :
    (emitNla o n).run buf = .panic := by
  by_cases hov : 65532 ≤ n.valueLen % 65536
  · simp [emitNla, hov, Writer.abort]
  · have hle := le_align n.valueLen
    have hm : n.valueLen % 65536 ≤ n.valueLen := Nat.mod_le _ _
    have hbl : nlaBufferLen n = 4 + align n.valueLen := rfl
    rw [buffer_pieces buf n, emitNla_run n _ _ _ _ _ hov, hp]
    · rfl
    all_goals simp only [length_slice, List.length_drop]
    all_goals omega

theorem emitNla_wire {n : NlaTrait} {buf : Bytes} (hn : n.valueLen ≤ 65531)
    (hl : buf.length = nlaBufferLen n) :
    (emitNla o n).run buf = n.emitValue.run (slice buf 4 (4 + n.valueLen)) >>= fun v =>
      .ok (Attr.wire o ⟨n.kind, v⟩) := by
  have hmod : n.valueLen % 65536 = n.valueLen := Nat.mod_eq_of_lt (by omega)
  have hle := le_align n.valueLen
  have hbl : nlaBufferLen n = 4 + align n.valueLen := rfl
  have hval : (slice buf 4 (4 + n.valueLen)).length = n.valueLen := by
    simp only [length_slice]; omega
  have hrun := emitNla_run (o := o) n (slice buf 0 2) (slice buf 2 4)
    (slice buf 4 (4 + n.valueLen)) [] (buf.drop (4 + n.valueLen))
    (by omega) (by simp; omega) (by simp; omega) (by rw [hval, hmod])
    (by simp only [hval, List.length_nil]; omega) (by simp only [List.length_drop]; omega)
  have hbuf := buffer_pieces buf n
  rw [hmod, show slice buf (4 + n.valueLen) (4 + n.valueLen) = [] by simp [slice]] at hbuf
  rw [hbuf.symm] at hrun
  rw [hrun]
  cases hr : n.emitValue.run (slice buf 4 (4 + n.valueLen)) with
  | ok v =>
    have hvl : v.length = n.valueLen := by rw [n.emitValue.length_run hr, hval]
    have hpad : Attr.padding ⟨n.kind, v⟩ = buf.length - (4 + n.valueLen) := by
      show align (4 + v.length) - (4 + v.length) = _
      rw [hvl, align_add_four]; omega
    simp [Attr.wire, Attr.body, Attr.length, hvl, hpad]
  | err e => exact e.elim
  | panic => rfl
  | diverge => rfl

theorem emitNlas_cons_run (n : NlaTrait) (ns : List NlaTrait) {buf : Bytes}
    (hl : nlaBufferLen n ≤ buf.length) :
    (emitNlas o (n :: ns)).run buf =
      (emitNla o n).run (buf.take (nlaBufferLen n)) >>= fun head =>
        (emitNlas o ns).run (buf.drop (nlaBufferLen n)) >>= fun tail => .ok (head ++ tail) := by
  show (Writer.onPrefix (nlaBufferLen n) (emitNla o n) >>
    Writer.onSuffix (nlaBufferLen n) (emitNlas o ns)).run buf = _
  rw [Writer.run_andThen, Writer.run_onPrefix _ hl, Outcome.bind_assoc]
  cases hr : (emitNla o n).run (buf.take (nlaBufferLen n)) with
  | ok head =>
    have hh : head.length = nlaBufferLen n := by
      rw [(emitNla o n).length_run hr, List.length_take]; omega
    rw [Outcome.ok_bind, Outcome.ok_bind, Writer.run_onSuffix _ (by simp [hh]),
      List.drop_left' hh, List.take_left' hh]
    rfl
  | err e => exact e.elim
  | panic => rfl
  | diverge => rfl

theorem emitNlas_short_run (n : NlaTrait) (ns : List NlaTrait) {buf : Bytes}
    (hl : buf.length < nlaBufferLen n) : (emitNlas o (n :: ns)).run buf = .panic := by
  show (Writer.onPrefix (nlaBufferLen n) (emitNla o n) >>
    Writer.onSuffix (nlaBufferLen n) (emitNlas o ns)).run buf = _
  rw [Writer.run_andThen, Writer.run_onPrefix_of_lt _ hl]
  rfl

theorem next_eq_err {b : Bytes} (hne : b ≠ []) (hu : unframe o b = none) :
    next o b = some (.err "invalid NLA buffer", []) := by
  rw [next, if_neg hne, hu]

theorem next_eq_ok {b rest : Bytes} {a : Attr} (hu : unframe o b = some (a, rest)) :
    next o b = some (.ok a, rest) := by
  have hne : b ≠ [] := by
    intro h
    subst h
    rw [unframe_nil] at hu
    exact absurd hu (by simp)
  rw [next, if_neg hne, hu]

end Reference

instance (o : ByteOrder) : (reference o).Lawful where
  parseU8_ok _ := rfl
  parseU8_err p h := by
    match p, h with
    | [], _ => exact ⟨_, rfl⟩
    | [_], h => exact absurd rfl h
    | _ :: _ :: _, _ => exact ⟨_, rfl⟩
  parseU32_ok p h := if_pos h
  parseU32_err p h := ⟨_, if_neg h⟩
  parseString_ok p s h := by
    have hu : IsUtf8 (stripNul p) := h ▸ isUtf8_asBytes s
    show Reference.parseString p = _
    rw [Reference.parseString, dif_pos hu]
    congr 1
    exact asBytes_inj (by rw [asBytes_fromUtf8, h])
  parseString_err p h := ⟨_, dif_neg h⟩
  emitU32_ok v := Reference.emitU32_emits v
  emitU32_err v buf h := ⟨_, if_pos h⟩
  remaining_nlasIterator _ := rfl
  next_done it h := if_pos h
  next_err _ hne hu := ⟨_, _, Reference.next_eq_err hne hu, rfl⟩
  next_ok _ a rest hu := ⟨a, rest, Reference.next_eq_ok hu, rfl, ⟨rfl, rfl, rfl⟩⟩
  defaultNla_eq _ := rfl
  nlaBufferLen_eq _ := rfl
  emitNla_eq n buf hn hl := Reference.emitNla_wire hn hl
  emitNla_overflow n buf h := by
    show (Reference.emitNla o n).run buf = _
    rw [Reference.emitNla, if_pos h]
    rfl
  emitNla_wrapped n buf _ hl hp := Reference.emitNla_panic hl hp
  nlasBufferLen_eq _ := rfl
  emitNlas_nil _ := rfl
  emitNlas_cons n ns buf hl := Reference.emitNlas_cons_run n ns hl
  emitNlas_short n ns _ hl := Reference.emitNlas_short_run n ns hl
  refFromPrefix_eq _ _ := rfl
  asBytes_eq _ _ := rfl
  fromBitsTruncate_eq _ _ := rfl

end Platform

end SockDiag
