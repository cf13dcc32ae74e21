import SockDiag.Attributes
import SockDiag.Constants

/-!
# `unix/nlas.rs` — the attributes of a unix response

The code of the attributes, in the order of the source: names, the two packed structs, the attribute
itself with its four tables `value_len`, `emit_value`, `kind` and `parse`. Behind it stands what the
code with a loop or a branch in it does, so that nothing later has to open it.

Both kinds of name travel under one attribute type: an abstract name starts with a NUL, a pathname
ends with one, and nothing else tells them apart (`UnixDiagName.parse_eq_ok_iff`). An empty payload
has no first byte and is taken for a pathname, which it then is not.

The pending connections are a payload full of 32-bit words. They are written by a loop over indices
and read off chunks of four bytes, and both loops are described by one function, `words`:
`emitPending_emits` for writing, `Nla.parseIcons_eq_ok_iff` for reading. The loop over chunks has
fuel, and `collect_chunksFuel_eq_ok_iff` says the length of the payload is enough.
-/

set_option autoImplicit false

namespace SockDiag.Unix

open Rust

/-! ## Names -/

inductive UnixDiagName where
  /-- The file system path the socket is bound to (an `OsString`, any bytes). -/
  | pathname (path : Bytes)
  /-- The abstract address the socket is bound to. -/
  | abstract (address : Bytes)
deriving DecidableEq, Repr

namespace UnixDiagName

/-- `impl Parseable<T> for UnixDiagName` -/
def parse (P : Platform) (buf : Bytes) : Outcome P.DecodeError UnixDiagName :=
  -- An empty payload has no first byte and is taken for a pathname.
  if buf.head? = some 0 then
    .ok (abstract buf.tail)
  else
    pathname <$> (fromBytesWithNul buf).mapErr fun e =>
      P.decodeError ("pathname is not null-terminated: " ++ P.displayNulError e)

def bufferLen : UnixDiagName → Nat
  | pathname path => path.length + 1
  | abstract address => address.length + 1

def emit : UnixDiagName → Writer Empty
  | pathname path => .splitLast (.copyFromSlice path) 0
  | abstract address => .splitFirst 0 (.copyFromSlice address)

end UnixDiagName

/-! ## Packed values -/

structure VfsBuffer where
  inode : UInt32
  device : UInt32

def VfsBuffer.layout (o : ByteOrder) : Packed VfsBuffer :=
  Packed.iso (.pair (.u32 o) (.u32 o))
    { toFun := fun v => (v.inode, v.device)
      invFun := fun (inode, device) => ⟨inode, device⟩
      left_inv := fun _ => rfl
      right_inv := fun _ => rfl }

structure Vfs where
  inode : UInt32
  device : UInt32

def Vfs.ofRaw (raw : VfsBuffer) : Vfs where
  inode := raw.inode
  device := raw.device

/-- `Vfs::parse` -/
def Vfs.parse (P : Platform) (payload : Bytes) : Outcome P.DecodeError Vfs := do
  let raw ← P.readPrefix (VfsBuffer.layout P.order) payload
  .ok (.ofRaw raw)

/-- `impl From<&Vfs> for VfsBuffer` -/
def VfsBuffer.fromVfs (value : Vfs) : VfsBuffer where
  inode := value.inode
  device := value.device

/-- `impl Emitable for Vfs` -/
def Vfs.emit (P : Platform) (value : Vfs) : Writer Empty :=
  .copyFromSlice (P.asBytes (VfsBuffer.layout P.order) (.fromVfs value)).toList

structure MemInfoBuffer where
  unusedSkRmemAlloc : UInt32
  soRcvbuf : UInt32
  unusedSkWmemQueued : UInt32
  maxDatagramSize : UInt32
  unusedSkFwdAlloc : UInt32
  alloc : UInt32
  unusedSkOptmem : UInt32
  unusedBacklog : UInt32
  unusedDrops : UInt32

def MemInfoBuffer.layout (o : ByteOrder) : Packed MemInfoBuffer :=
  Packed.iso
    (.pair (.u32 o) <| .pair (.u32 o) <| .pair (.u32 o) <| .pair (.u32 o) <| .pair (.u32 o) <|
      .pair (.u32 o) <| .pair (.u32 o) <| .pair (.u32 o) (.u32 o))
    { toFun := fun m => (m.unusedSkRmemAlloc, m.soRcvbuf, m.unusedSkWmemQueued, m.maxDatagramSize,
        m.unusedSkFwdAlloc, m.alloc, m.unusedSkOptmem, m.unusedBacklog, m.unusedDrops)
      invFun := fun (unusedSkRmemAlloc, soRcvbuf, unusedSkWmemQueued, maxDatagramSize,
        unusedSkFwdAlloc, alloc, unusedSkOptmem, unusedBacklog, unusedDrops) =>
        ⟨unusedSkRmemAlloc, soRcvbuf, unusedSkWmemQueued, maxDatagramSize, unusedSkFwdAlloc, alloc,
        unusedSkOptmem, unusedBacklog, unusedDrops⟩
      left_inv := fun _ => rfl
      right_inv := fun _ => rfl }

/-- The three of the nine words of `UNIX_DIAG_MEMINFO` that are kept. -/
structure MemInfo where
  /-- `sock.sk_rcvbuf`, which has no effect on unix sockets. -/
  soRcvbuf : UInt32
  /-- `sock.sk_sndbuf` -/
  maxDatagramSize : UInt32
  /-- Memory of the data sent and not yet read by the peer. -/
  alloc : UInt32

def MemInfo.ofRaw (raw : MemInfoBuffer) : MemInfo where
  soRcvbuf := raw.soRcvbuf
  maxDatagramSize := raw.maxDatagramSize
  alloc := raw.alloc

/-- `MemInfo::parse` -/
def MemInfo.parse (P : Platform) (payload : Bytes) : Outcome P.DecodeError MemInfo := do
  let raw ← P.readPrefix (MemInfoBuffer.layout P.order) payload
  .ok (.ofRaw raw)

/-- `impl From<&MemInfo> for MemInfoBuffer` -/
def MemInfoBuffer.fromMemInfo (value : MemInfo) : MemInfoBuffer where
  unusedSkRmemAlloc := 0
  soRcvbuf := value.soRcvbuf
  unusedSkWmemQueued := 0
  maxDatagramSize := value.maxDatagramSize
  unusedSkFwdAlloc := 0
  alloc := value.alloc
  unusedSkOptmem := 0
  unusedBacklog := 0
  unusedDrops := 0

/-- `impl Emitable for MemInfo` -/
def MemInfo.emit (P : Platform) (value : MemInfo) : Writer Empty :=
  .copyFromSlice (P.asBytes (MemInfoBuffer.layout P.order) (.fromMemInfo value)).toList

/-- Where the three words that are kept are. -/
theorem MemInfo.ofRaw_ofBytes (o : ByteOrder) (p : Bytes) :
    MemInfo.ofRaw ((MemInfoBuffer.layout o).ofBytes (p.take 36)) =
      ⟨Packed.wordAt o p 4, Packed.wordAt o p 12, Packed.wordAt o p 20⟩ := by
  have hlong : ∀ i, i + 4 ≤ 36 → Packed.wordAt o p i = Packed.wordAt o (p.take 36) i :=
    fun i hi => (Packed.wordAt_take hi).symm
  rw [hlong 4 (by decide), hlong 12 (by decide), hlong 20 (by decide)]
  simp only [MemInfo.ofRaw, MemInfoBuffer.layout, Packed.ofBytes_iso, Packed.ofBytes_pair,
    Equiv.coe_fn_symm_mk, Packed.size_u32, List.drop_drop, Packed.wordAt_eq]

/-! ## The attribute -/

inductive Nla where
  | name (name : UnixDiagName)
  | vfs (value : Vfs)
  /-- The inode of the peer of a connected socket. -/
  | peer (value : UInt32)
  /-- The inodes of the sockets that wait to be accepted. -/
  | pendingConnections (values : List UInt32)
  /-- Of a listening socket the pending connections and the backlog, of any other the data in the
      receive queue and the memory of outgoing data. -/
  | receiveQueueLength (v1 v2 : UInt32)
  | memInfo (value : MemInfo)
  | shutdown (value : UInt8)
  | other (attr : DefaultNla)

section Model

variable (P : Platform)

/-- `for (i, v) in values.iter().enumerate() { emit_u32(&mut buffer[i * 4..], *v).unwrap(); }`,
    from index `i` on. -/
def emitPending : Nat → List UInt32 → Writer Empty
  | _, [] => .skip
  | i, v :: values => .onSuffix (i * 4) (P.emitU32 v).unwrap >> emitPending (i + 1) values

namespace Nla

def valueLen : Nla → Nat
  | name s => s.bufferLen
  | vfs _ => (VfsBuffer.layout P.order).size
  | peer _ => 4
  | pendingConnections v => 4 * v.length
  | receiveQueueLength _ _ => 8
  | memInfo _ => (MemInfoBuffer.layout P.order).size
  | shutdown _ => 1
  | other attr => (P.defaultNla attr).valueLen

def emitValue : Nla → Writer Empty
  | name s => s.emit
  | vfs value => value.emit P
  | peer value => (P.emitU32 value).unwrap
  | pendingConnections values => emitPending P 0 values
  | receiveQueueLength v1 v2 => (P.emitU32 v1).unwrap >> .onSuffix 4 (P.emitU32 v2).unwrap
  | memInfo value => value.emit P
  | shutdown value => .set 0 value
  | other attr => (P.defaultNla attr).emitValue

def kind : Nla → UInt16
  | name _ => unixDiagName
  | vfs _ => unixDiagVfs
  | peer _ => unixDiagPeer
  | pendingConnections _ => unixDiagIcons
  | receiveQueueLength _ _ => unixDiagRqlen
  | memInfo _ => unixDiagMeminfo
  | shutdown _ => unixDiagShutdown
  | other attr => (P.defaultNla attr).kind

/-- `impl netlink_packet_core::Nla for Nla` -/
def toTrait (nla : Nla) : NlaTrait := ⟨nla.valueLen P, nla.kind P, nla.emitValue P⟩

/-- The `UNIX_DIAG_ICONS` arm of `parse`. -/
def parseIcons (payload : Bytes) : Outcome P.DecodeError (List UInt32) :=
  -- The check is what keeps the `unwrap` from an `Err`.
  if payload.length % 4 ≠ 0 then .err (P.decodeError "invalid UNIX_DIAG_ICONS")
  else .collect ((chunks 4 payload).map fun b => (P.parseU32 b).unwrap)

/-- The `UNIX_DIAG_RQLEN` arm of `parse`. -/
def parseRqlen (payload : Bytes) : Outcome P.DecodeError (UInt32 × UInt32) :=
  if payload.length ≠ 8 then .err (P.decodeError "invalid UNIX_DIAG_RQLEN")
  else do
    let v1 ← P.parseU32 (← sliceTo payload 4)
    let v2 ← P.parseU32 (← sliceFrom payload 4)
    .ok (v1, v2)

/-- `impl Parseable<NlaBuffer<&T>> for Nla` -/
def parse (buf : P.NlaBuffer) : Outcome P.DecodeError Nla := do
  let payload ← P.nlaValue buf
  let kind := P.nlaKind buf
  if kind = unixDiagName then
    name <$> (UnixDiagName.parse P payload).mapErr (P.context "invalid UNIX_DIAG_NAME value")
  else if kind = unixDiagVfs then
    vfs <$> (Vfs.parse P payload).mapErr (P.context "invalid UNIX_DIAG_VFS value")
  else if kind = unixDiagPeer then
    peer <$> (P.parseU32 payload).mapErr (P.context "invalid UNIX_DIAG_PEER value")
  else if kind = unixDiagIcons then
    pendingConnections <$> parseIcons P payload
  else if kind = unixDiagRqlen then
    (fun (v1, v2) => receiveQueueLength v1 v2) <$> parseRqlen P payload
  else if kind = unixDiagMeminfo then
    memInfo <$> (MemInfo.parse P payload).mapErr (P.context "invalid UNIX_DIAG_MEMINFO value")
  else if kind = unixDiagShutdown then
    shutdown <$> (P.parseU8 payload).mapErr (P.context "invalid UNIX_DIAG_SHUTDOWN value")
  else
    other <$> (P.defaultNlaParse buf).mapErr (P.context s!"unknown NLA type {kind}")

end Nla

end Model

/-! ## Names, read and written -/

namespace UnixDiagName

/-- The payloads a name is read from. -/
def Reads (payload : Bytes) : UnixDiagName → Prop
  | pathname path => path ≠ [] ∧ (0 : UInt8) ∉ path ∧ payload = path ++ [0]
  | abstract address => payload = 0 :: address

/-- The payload a name is written as. -/
def bytes : UnixDiagName → Bytes
  | pathname path => path ++ [0]
  | abstract address => 0 :: address

theorem bufferLen_eq (name : UnixDiagName) : name.bufferLen = name.bytes.length := by
  cases name with
  | pathname path => simp [bufferLen, bytes]
  | abstract address => rfl

theorem emit_fills (name : UnixDiagName) : name.emit.Fills name.bytes := by
  cases name with
  | pathname path => exact (Writer.fills_copyFromSlice path).splitLast 0
  | abstract address => exact (Writer.fills_copyFromSlice address).splitFirst 0

theorem emit_needs (name : UnixDiagName) : name.emit.Needs name.bufferLen := by
  cases name with
  | pathname path => exact (Writer.needs_copyFromSlice path).splitLast 0
  | abstract address => exact (Writer.needs_copyFromSlice address).splitFirst 0

variable (P : Platform) {payload : Bytes}

theorem parse_returns : (parse P payload).Returns := by
  unfold parse
  split
  · exact Outcome.returns_ok _
  · exact Outcome.returns_map.mpr (Outcome.returns_mapErr.mpr (fromBytesWithNul_returns _))

theorem parse_eq_ok_iff {name : UnixDiagName} :
    parse P payload = .ok name ↔ name.Reads payload := by
  unfold parse
  split
  · rename_i hhead
    obtain ⟨address, rfl⟩ := List.head?_eq_some_iff.mp hhead
    rw [Outcome.ok.injEq]
    cases name with
    | abstract address' =>
      refine ⟨?_, ?_⟩
      · intro h
        cases h
        rfl
      · intro h
        cases h
        rfl
    | pathname path =>
      refine iff_of_false (by simp) ?_
      intro hd
      obtain ⟨hne, hnul, hp⟩ := hd
      cases path with
      | nil => exact hne rfl
      | cons c path =>
        obtain rfl : 0 = c := (List.cons.inj hp).1
        exact hnul (by simp)
  · rename_i hhead
    rw [Outcome.map_eq_ok]
    simp only [Outcome.mapErr_eq_ok, fromBytesWithNul_eq_ok_iff]
    refine ⟨?_, ?_⟩
    · intro hd
      obtain ⟨path, ⟨rfl, hnul⟩, rfl⟩ := hd
      refine ⟨?_, hnul, rfl⟩
      intro hd
      subst hd
      exact hhead rfl
    · intro h
      cases name with
      | abstract address =>
        rw [show payload = 0 :: address from h] at hhead
        exact absurd rfl hhead
      | pathname path =>
        obtain ⟨-, hnul, rfl⟩ := h
        exact ⟨path, ⟨rfl, hnul⟩, rfl⟩

end UnixDiagName

/-! ## What the loops do

The two arms of `UNIX_DIAG_ICONS` are loops, one over an index and one over chunks; both are about
the same bytes. -/

/-- Native integers one after the other. -/
def words (o : ByteOrder) (values : List UInt32) : Bytes := values.flatMap (Packed.u32 o).toBytes

theorem length_words (o : ByteOrder) (values : List UInt32) :
    (words o values).length = 4 * values.length := by
  induction values with
  | nil => rfl
  | cons v values ih =>
    have h4 : ((Packed.u32 o).toBytes v).length = 4 := by simp
    simp only [words, List.flatMap_cons, List.length_append, List.length_cons] at ih ⊢
    omega

/-- Any whole number of words is the words of something. -/
theorem exists_words (o : ByteOrder) {b : Bytes} (hlen : b.length % 4 = 0) :
    ∃ values, b = words o values := by
  have hgen : ∀ n (b : Bytes), b.length = 4 * n → ∃ values, b = words o values := by
    intro n
    induction n with
    | zero =>
      intro b hb
      exact ⟨[], List.eq_nil_of_length_eq_zero hb⟩
    | succ n ih =>
      intro b hb
      obtain ⟨values, hvs⟩ := ih (b.drop 4) (by rw [List.length_drop]; omega)
      have h4 : (b.take 4).length = (Packed.u32 o).size := by
        rw [List.length_take, Packed.size_u32]
        omega
      refine ⟨(Packed.u32 o).ofBytes (b.take 4) :: values, ?_⟩
      show b = (Packed.u32 o).toBytes _ ++ words o values
      rw [(Packed.u32 o).toBytes_ofBytes _ h4, ← hvs, List.take_append_drop]
  exact hgen (b.length / 4) b (by omega)

/-- The words at every fourth byte. -/
theorem wordAt_words (o : ByteOrder) (values : List UInt32) :
    (List.range values.length).map (fun i => Packed.wordAt o (words o values) (4 * i)) = values := by
  induction values with
  | nil => rfl
  | cons v values ih =>
    have hcons : words o (v :: values) = (Packed.u32 o).toBytes v ++ words o values := rfl
    have hlen : ((Packed.u32 o).toBytes v).length = 4 := (Packed.u32 o).length_toBytes v
    rw [List.length_cons, List.range_succ_eq_map, List.map_cons, List.map_map, hcons]
    refine congrArg₂ List.cons Packed.wordAt_toBytes_append (Eq.trans ?_ ih)
    refine List.map_congr_left fun i _ => ?_
    -- The index is one word further on.
    show Packed.wordAt o _ (4 * (i + 1)) = _
    rw [Nat.mul_succ, Nat.add_comm, Packed.wordAt_append hlen]

section Loops

variable (P : Platform) [P.Lawful] {values : List UInt32} {payload : Bytes}

/-- The loop writes from index `i` on and leaves the rest alone. -/
theorem emitPending_run (i : Nat) {buf : Bytes} (hl : i * 4 + 4 * values.length ≤ buf.length) :
    (emitPending P i values).run buf =
      .ok (buf.take (i * 4) ++ words P.order values ++ buf.drop (i * 4 + 4 * values.length)) := by
  induction values generalizing i buf with
  | nil => simp [emitPending, Writer.skip, words]
  | cons v values ih =>
    rw [List.length_cons] at hl
    have h4 : ((Packed.u32 P.order).toBytes v).length = 4 := by simp
    have hi : (buf.take (i * 4)).length = i * 4 := by rw [List.length_take]; omega
    have hword := P.emitU32_unwrap_emits v (buf.drop (i * 4)) (by rw [h4, List.length_drop]; omega)
    have hnext : (buf.take (i * 4) ++ (Packed.u32 P.order).toBytes v).length = (i + 1) * 4 := by
      rw [List.length_append, hi, h4]
      omega
    show (Writer.onSuffix (i * 4) (P.emitU32 v).unwrap >> emitPending P (i + 1) values).run buf = _
    rw [Writer.run_andThen, Writer.run_onSuffix _ (by omega), hword, Outcome.ok_bind,
      Outcome.ok_bind, h4, List.drop_drop, ← List.append_assoc]
    rw [ih (i + 1) (by rw [List.length_append, hnext, List.length_drop]; omega),
      List.take_left' hnext, List.drop_append, hnext, List.drop_of_length_le (by omega),
      List.drop_drop, List.nil_append, List.length_cons]
    have hend : i * 4 + 4 + ((i + 1) * 4 + 4 * values.length - (i + 1) * 4) =
        i * 4 + 4 * (values.length + 1) := by omega
    rw [hend]
    simp [words]

theorem emitPending_emits (values : List UInt32) :
    (emitPending P 0 values).Emits (words P.order values) := by
  intro buf hl
  rw [length_words] at hl ⊢
  rw [emitPending_run P 0 (by omega)]
  simp

theorem emitPending_needs (values : List UInt32) :
    (emitPending P 0 values).Needs (4 * values.length) := by
  have hgen : ∀ (i : Nat) (buf : Bytes), buf.length < i * 4 + 4 * values.length →
      0 < values.length → (emitPending P i values).run buf = .panic := by
    induction values with
    | nil =>
      intro i buf _ hpos
      exact absurd hpos (Nat.lt_irrefl 0)
    | cons v values ih =>
      intro i buf hl _
      rw [List.length_cons] at hl
      show (Writer.onSuffix (i * 4) (P.emitU32 v).unwrap >> emitPending P (i + 1) values).run buf = _
      rw [Writer.run_andThen]
      -- The slice is out of range, or too short for this word, or for one of the words after it.
      by_cases hi : buf.length < i * 4
      · rw [Writer.run_onSuffix_of_lt _ hi]
        rfl
      · rw [Writer.run_onSuffix _ (by omega)]
        by_cases h4 : buf.length < i * 4 + 4
        · rw [P.emitU32_unwrap_needs v _ (by rw [List.length_drop]; omega)]
          rfl
        · have hw : ((Packed.u32 P.order).toBytes v).length = 4 := by simp
          rw [P.emitU32_unwrap_emits v _ (by rw [hw, List.length_drop]; omega), Outcome.ok_bind,
            Outcome.ok_bind]
          refine ih (i + 1) _ ?_ (by omega)
          simp only [List.length_append, List.length_take, List.length_drop, hw]
          omega
  intro buf hl
  exact hgen 0 buf (by omega) (by omega)

theorem nil_eq_words_iff {o : ByteOrder} : [] = words o values ↔ values = [] := by
  refine ⟨?_, ?_⟩
  · intro h
    have hlen := length_words o values
    rw [← h, List.length_nil] at hlen
    exact List.eq_nil_of_length_eq_zero (by omega)
  · intro hd
    subst hd
    rfl

theorem collect_chunksFuel_eq_ok_iff {fuel : Nat} (hfuel : payload.length ≤ fuel)
    (hlen : payload.length % 4 = 0) :
    Outcome.collect ((chunksFuel 4 fuel payload).map fun b =>
        ((P.parseU32 b).unwrap : Outcome P.DecodeError UInt32)) = .ok values ↔
      payload = words P.order values := by
  induction fuel generalizing payload values with
  | zero =>
    obtain rfl : payload = [] := List.eq_nil_of_length_eq_zero (by omega)
    rw [nil_eq_words_iff]
    exact (iff_of_eq (Outcome.ok.injEq [] values)).trans eq_comm
  | succ fuel ih =>
    by_cases hne : payload = []
    · subst hne
      rw [nil_eq_words_iff]
      exact (iff_of_eq (Outcome.ok.injEq [] values)).trans eq_comm
    · have hpos := List.length_pos_iff.mpr hne
      have hrest : (payload.drop 4).length ≤ fuel ∧ (payload.drop 4).length % 4 = 0 := by
        rw [List.length_drop]
        omega
      rw [chunksFuel, if_neg hne, List.map_cons, Outcome.collect_cons_eq_ok]
      simp only [Outcome.unwrap_eq_ok, P.parseU32_eq_ok_iff, ih hrest.1 hrest.2]
      refine ⟨?_, ?_⟩
      · intro hd
        obtain ⟨v, values, rfl, hv, hvs⟩ := hd
        rw [← List.take_append_drop 4 payload, hv, hvs]
        rfl
      · intro h
        cases values with
        | nil => exact absurd h hne
        | cons v values =>
          have h4 : ((Packed.u32 P.order).toBytes v).length = 4 := by simp
          have hsplit : payload = (Packed.u32 P.order).toBytes v ++ words P.order values := h
          exact ⟨v, values, rfl, by rw [hsplit, List.take_left' h4],
            by rw [hsplit, List.drop_left' h4]⟩

/-- Whole words are never an `Err` under the `unwrap`. -/
theorem collect_chunksFuel_returns {fuel : Nat} (hlen : payload.length % 4 = 0) :
    (Outcome.collect ((chunksFuel 4 fuel payload).map fun b =>
        ((P.parseU32 b).unwrap : Outcome P.DecodeError UInt32))).Returns := by
  induction fuel generalizing payload with
  | zero => exact Outcome.returns_ok _
  | succ fuel ih =>
    by_cases hne : payload = []
    · rw [chunksFuel, if_pos hne]
      exact Outcome.returns_ok _
    · have hpos := List.length_pos_iff.mpr hne
      have h4 : (payload.take 4).length = 4 := by rw [List.length_take]; omega
      have hrest : (payload.drop 4).length % 4 = 0 := by rw [List.length_drop]; omega
      rw [chunksFuel, if_neg hne, List.map_cons, Platform.Lawful.parseU32_ok _ h4]
      refine Outcome.Returns.bind (Outcome.returns_ok _) fun _ _ => ?_
      exact (ih hrest).bind fun _ _ => Outcome.returns_ok _

end Loops

section Arms

variable (P : Platform) [P.Lawful] {payload : Bytes}

theorem Nla.parseIcons_eq_ok_iff {values : List UInt32} :
    Nla.parseIcons P payload = .ok values ↔ payload = words P.order values := by
  unfold Nla.parseIcons
  split
  · rename_i hlen
    refine iff_of_false (by simp) ?_
    intro h
    subst h
    rw [length_words] at hlen
    omega
  · rename_i hlen
    exact collect_chunksFuel_eq_ok_iff P (Nat.le_refl _) (Decidable.not_not.mp hlen)

theorem Nla.parseIcons_returns : (Nla.parseIcons P payload).Returns := by
  unfold Nla.parseIcons
  split
  · exact Outcome.returns_err _
  · rename_i hlen
    exact collect_chunksFuel_returns P (Decidable.not_not.mp hlen)

theorem Nla.parseRqlen_eq_ok_iff {v1 v2 : UInt32} :
    Nla.parseRqlen P payload = .ok (v1, v2) ↔
      payload = (Packed.u32 P.order).toBytes v1 ++ (Packed.u32 P.order).toBytes v2 := by
  have h4 : ∀ v, ((Packed.u32 P.order).toBytes v).length = 4 := fun v => by simp
  unfold Nla.parseRqlen
  split
  · rename_i hlen
    refine iff_of_false (by simp) ?_
    intro h
    subst h
    exact hlen (by rw [List.length_append, h4, h4])
  · rename_i hlen
    have hle : 4 ≤ payload.length := by omega
    rw [sliceTo_eq_ok hle, sliceFrom_eq_ok hle]
    simp only [Outcome.ok_bind, Outcome.bind_eq_ok, P.parseU32_eq_ok_iff, Outcome.ok.injEq,
      Prod.mk.injEq]
    refine ⟨?_, ?_⟩
    · intro h
      obtain ⟨_, h1, _, h2, rfl, rfl⟩ := h
      rw [← h1, ← h2, List.take_append_drop]
    · intro h
      subst h
      exact ⟨v1, List.take_left' (h4 v1), v2, List.drop_left' (h4 v1), rfl, rfl⟩

theorem Nla.parseRqlen_returns : (Nla.parseRqlen P payload).Returns := by
  unfold Nla.parseRqlen
  split
  · exact Outcome.returns_err _
  · rename_i hlen
    have hle : 4 ≤ payload.length := by omega
    rw [sliceTo_eq_ok hle, sliceFrom_eq_ok hle, Outcome.ok_bind]
    refine P.parseU32_returns.bind fun _ _ => ?_
    rw [Outcome.ok_bind]
    exact P.parseU32_returns.bind fun _ _ => Outcome.returns_ok _

end Arms

end SockDiag.Unix
