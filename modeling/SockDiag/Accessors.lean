import SockDiag.Grammar

/-!
# The accessors of a unix response

An accessor looks for the first attribute of one kind among the decoded ones. `accessors_report`
follows that search back to the bytes: it is the first attribute of one type there, and nothing else
about where the attributes are matters. The two numbers of `UNIX_DIAG_RQLEN` mean one thing for a
listening socket and another for any other. Three of their accessors know; `sendQueueSize` answers
for the wrong one of the two, and with the wrong number (`queueLengthsSplit_iff`).
-/

set_option autoImplicit false

namespace SockDiag

open Rust Tlv Unix

/-! ## The two numbers of a queue -/

namespace Unix.UnixResponse

variable {r : UnixResponse} {a b : UInt32}

/-- The first queue length among the attributes. -/
def FirstQueueLength (r : UnixResponse) (a b : UInt32) : Prop :=
  ∃ front back, r.nlas = front ++ .receiveQueueLength a b :: back ∧
    ∀ c d, Nla.receiveQueueLength c d ∉ front

theorem receiveQueueLength_eq_some_iff :
    r.receiveQueueLength = some (a, b) ↔ r.FirstQueueLength a b := by
  refine ⟨?_, ?_⟩
  · intro h
    obtain ⟨front, x, back, hnlas, hx, hfront⟩ := List.findSome?_eq_some_iff.mp h
    cases x with
    | receiveQueueLength c d =>
      obtain ⟨rfl, rfl⟩ := Prod.mk.inj (Option.some.inj hx)
      refine ⟨front, back, hnlas, ?_⟩
      intro c d hm
      exact absurd (hfront _ hm) (by simp)
    | name | vfs | peer | pendingConnections | memInfo | shutdown | other => exact absurd hx (by simp)
  · intro h
    obtain ⟨front, back, hnlas, hfront⟩ := h
    refine List.findSome?_eq_some_iff.mpr ⟨front, _, back, hnlas, rfl, ?_⟩
    intro x hx
    cases x with
    | receiveQueueLength c d => exact absurd hx (hfront c d)
    | name | vfs | peer | pendingConnections | memInfo | shutdown | other => rfl

theorem receiveQueueLength_eq_none_iff :
    r.receiveQueueLength = none ↔ ∀ a b, Nla.receiveQueueLength a b ∉ r.nlas := by
  refine ⟨?_, ?_⟩
  · intro h a b hm
    exact absurd (List.findSome?_eq_none_iff.mp h _ hm) (by simp)
  · intro h
    refine List.findSome?_eq_none_iff.mpr ?_
    intro x hx
    cases x with
    | receiveQueueLength a b => exact absurd hx (h a b)
    | name | vfs | peer | pendingConnections | memInfo | shutdown | other => rfl

/-- What the accessors say of a listening socket. -/
theorem queueLengths_of_listen (h : r.receiveQueueLength = some (a, b))
    (hs : r.header.state = tcpListen) :
    r.numberOfPendingConnection = some a ∧ r.maxNumberOfPendingConnection = some b ∧
      r.receiveQueueSize = none ∧ r.sendQueueSize = some a := by
  unfold numberOfPendingConnection maxNumberOfPendingConnection receiveQueueSize sendQueueSize
  rw [if_pos hs, if_pos hs, if_pos hs, h]
  exact ⟨rfl, rfl, rfl, rfl⟩

/-- What the accessors say of any other: there is none for the second number. -/
theorem queueLengths_of_not_listen (h : r.receiveQueueLength = some (a, b))
    (hs : r.header.state ≠ tcpListen) :
    r.receiveQueueSize = some a ∧ r.sendQueueSize = none ∧ r.numberOfPendingConnection = none ∧
      r.maxNumberOfPendingConnection = none := by
  unfold numberOfPendingConnection maxNumberOfPendingConnection receiveQueueSize sendQueueSize
  rw [if_neg hs, if_neg hs, if_neg hs, h]
  exact ⟨rfl, rfl, rfl, rfl⟩

theorem queueLengths_of_none (h : r.receiveQueueLength = none) :
    r.numberOfPendingConnection = none ∧ r.maxNumberOfPendingConnection = none ∧
      r.receiveQueueSize = none ∧ r.sendQueueSize = none := by
  unfold numberOfPendingConnection maxNumberOfPendingConnection receiveQueueSize sendQueueSize
  simp only [h, Option.map_none, ite_self, and_self]

end Unix.UnixResponse

/-- What the accessors are for: the two numbers of the first queue length, under the names they have
    in the state the socket is in. -/
structure QueueLengthsSplit (r : UnixResponse) : Prop where
  listening : ∀ a b, r.FirstQueueLength a b → r.header.state = tcpListen →
    r.numberOfPendingConnection = some a ∧ r.maxNumberOfPendingConnection = some b ∧
      r.receiveQueueSize = none ∧ r.sendQueueSize = none
  other : ∀ a b, r.FirstQueueLength a b → r.header.state ≠ tcpListen →
    r.receiveQueueSize = some a ∧ r.sendQueueSize = some b ∧
      r.numberOfPendingConnection = none ∧ r.maxNumberOfPendingConnection = none
  absent : (∀ a b, Nla.receiveQueueLength a b ∉ r.nlas) →
    r.numberOfPendingConnection = none ∧ r.maxNumberOfPendingConnection = none ∧
      r.receiveQueueSize = none ∧ r.sendQueueSize = none

/-- **The two numbers are told apart only where there are none.** -/
theorem queueLengthsSplit_iff (r : UnixResponse) :
    QueueLengthsSplit r ↔ ∀ a b, Nla.receiveQueueLength a b ∉ r.nlas := by
  refine ⟨?_, ?_⟩
  · intro hsplit
    rw [← UnixResponse.receiveQueueLength_eq_none_iff]
    by_contra hsome
    obtain ⟨⟨a, b⟩, hq⟩ := Option.ne_none_iff_exists'.mp hsome
    have hfirst := UnixResponse.receiveQueueLength_eq_some_iff.mp hq
    -- In either state it is the send queue size that is wrong.
    by_cases hs : r.header.state = tcpListen
    · obtain ⟨-, -, -, hsize⟩ := hsplit.listening a b hfirst hs
      obtain ⟨-, -, -, hcode⟩ := UnixResponse.queueLengths_of_listen hq hs
      exact absurd (hcode.symm.trans hsize) (by simp)
    · obtain ⟨-, hsize, -⟩ := hsplit.other a b hfirst hs
      obtain ⟨-, hcode, -⟩ := UnixResponse.queueLengths_of_not_listen hq hs
      exact absurd (hcode.symm.trans hsize) (by simp)
  · intro hnone
    have hq := UnixResponse.receiveQueueLength_eq_none_iff.mpr hnone
    have hnot : ∀ a b, ¬ r.FirstQueueLength a b := by
      intro a b hfirst
      rw [UnixResponse.receiveQueueLength_eq_some_iff.mpr hfirst] at hq
      exact absurd hq (by simp)
    exact
      { listening := fun a b h => absurd h (hnot a b)
        other := fun a b h => absurd h (hnot a b)
        absent := fun _ => UnixResponse.queueLengths_of_none hq }

/-- A socket in some state with a queue length. -/
def queueResponse (state : UInt8) : UnixResponse :=
  ⟨⟨1, state, 20238, .replicate 8 0⟩, [.shutdown 0, .receiveQueueLength 2 128]⟩

/-- The pending connections of a listening socket are given out as its send queue, and the send queue
    of a connected one as nothing. -/
theorem not_queueLengthsSplit :
    ¬ QueueLengthsSplit (queueResponse tcpListen) ∧ ¬ QueueLengthsSplit (queueResponse 1) := by
  have hfirst : ∀ state, (queueResponse state).FirstQueueLength 2 128 := by
    intro state
    refine ⟨[.shutdown 0], [], rfl, ?_⟩
    intro c d hm
    exact absurd (List.mem_singleton.mp hm) (by simp)
  refine ⟨?_, ?_⟩
  · intro hsplit
    obtain ⟨-, -, -, hsize⟩ := hsplit.listening 2 128 (hfirst _) rfl
    exact absurd hsize (by decide)
  · intro hsplit
    obtain ⟨-, hsize, -⟩ := hsplit.other 2 128 (hfirst _) (by decide)
    exact absurd hsize (by decide)

/-! ## What is searched for -/

/-- The accessors of a unix response say the same of both. -/
structure SameAccessors (r r' : UnixResponse) : Prop where
  peer : r'.peer = r.peer
  name : r'.name = r.name
  pendingConnections : r'.pendingConnections = r.pendingConnections
  shutdownState : r'.shutdownState = r.shutdownState
  numberOfPendingConnection : r'.numberOfPendingConnection = r.numberOfPendingConnection
  maxNumberOfPendingConnection : r'.maxNumberOfPendingConnection = r.maxNumberOfPendingConnection
  receiveQueueSize : r'.receiveQueueSize = r.receiveQueueSize
  sendQueueSize : r'.sendQueueSize = r.sendQueueSize
  maxDatagramSize : r'.maxDatagramSize = r.maxDatagramSize
  memoryUsedForOutgoingData : r'.memoryUsedForOutgoingData = r.memoryUsedForOutgoingData

/-- There are six searches, and everything an accessor says comes from one of them. -/
theorem SameAccessors.of_searches {r r' : UnixResponse} (hheader : r'.header = r.header)
    (hpeer : r'.peer = r.peer) (hname : r'.name = r.name)
    (hpending : r'.pendingConnections = r.pendingConnections)
    (hshutdown : r'.shutdownState = r.shutdownState)
    (hqueue : r'.receiveQueueLength = r.receiveQueueLength) (hmem : r'.memInfo = r.memInfo) :
    SameAccessors r r' where
  peer := hpeer
  name := hname
  pendingConnections := hpending
  shutdownState := hshutdown
  numberOfPendingConnection := by
    unfold UnixResponse.numberOfPendingConnection
    rw [hheader, hqueue]
  maxNumberOfPendingConnection := by
    unfold UnixResponse.maxNumberOfPendingConnection
    rw [hheader, hqueue]
  receiveQueueSize := by
    unfold UnixResponse.receiveQueueSize
    rw [hheader, hqueue]
  sendQueueSize := by
    unfold UnixResponse.sendQueueSize
    rw [hheader, hqueue]
  maxDatagramSize := by
    unfold UnixResponse.maxDatagramSize
    rw [hmem]
  memoryUsedForOutgoingData := by
    unfold UnixResponse.memoryUsedForOutgoingData
    rw [hmem]

/-- The first attribute of a type, which is the type without its flag bits. -/
def firstOf (type : UInt16) (as : List Attr) : Option Attr := as.find? (nlaType ·.kind == type)

/-- Nothing is found exactly where there is nothing of the type. -/
theorem map_firstOf_eq_none_iff {β : Type} {type : UInt16} {as : List Attr} {f : Attr → β} :
    (firstOf type as).map f = none ↔ ∀ a ∈ as, nlaType a.kind ≠ type := by
  unfold firstOf
  rw [Option.map_eq_none_iff, List.find?_eq_none]
  exact forall₂_congr fun a _ => not_congr beq_iff_eq

theorem mem_of_firstOf {type : UInt16} {as : List Attr} {a : Attr} (h : firstOf type as = some a) :
    a ∈ as := List.mem_of_find?_eq_some h

theorem nlaType_of_firstOf {type : UInt16} {as : List Attr} {a : Attr}
    (h : firstOf type as = some a) : nlaType a.kind = type := by
  have htype := List.find?_some h
  exact eq_of_beq htype

/-- The name a payload is: abstract behind a leading NUL, a path in front of a final one. -/
def decodedName (payload : Bytes) : UnixDiagName :=
  if payload.head? = some 0 then .abstract payload.tail else .pathname payload.dropLast

theorem eq_decodedName {payload : Bytes} {name : UnixDiagName} (h : name.Reads payload) :
    name = decodedName payload := by
  unfold decodedName
  cases name with
  | abstract address =>
    obtain rfl : payload = 0 :: address := h
    rfl
  | pathname path =>
    obtain ⟨hne, hnul, rfl⟩ := h
    have hhead : (path ++ [0]).head? ≠ some 0 := by
      cases path with
      | nil => exact absurd rfl hne
      | cons b path =>
        intro hb
        rw [List.cons_append, List.head?_cons, Option.some.injEq] at hb
        exact hnul (hb ▸ List.mem_cons_self)
    rw [if_neg hhead, List.dropLast_concat]

/-- `payload / 4` native integers. -/
def decodedWords (o : ByteOrder) (payload : Bytes) : List UInt32 :=
  (List.range (payload.length / 4)).map fun i => Packed.wordAt o payload (4 * i)

theorem decodedWords_words (o : ByteOrder) (values : List UInt32) :
    decodedWords o (words o values) = values := by
  have hlen : (words o values).length / 4 = values.length := by
    rw [length_words, Nat.mul_div_cancel_left _ (by decide)]
  unfold decodedWords
  rw [hlen]
  exact wordAt_words o values

/-! ## What is found -/

section Found

variable {β : Type} {a : Attr} {type : UInt16} {v : β}

theorem some_of_type (h : nlaType a.kind = type) :
    some v = if nlaType a.kind == type then some v else none :=
  (if_pos (beq_iff_eq.mpr h)).symm

theorem none_of_type (h : nlaType a.kind ≠ type) :
    none = if nlaType a.kind == type then some v else none :=
  (if_neg (mt beq_iff_eq.mp h)).symm

/-- An attribute of no known type is not of this one. -/
theorem none_of_unknown (h : nlaType a.kind ∉ Unix.Nla.kinds) (htype : type ∈ Unix.Nla.kinds) :
    none = if nlaType a.kind == type then some v else none := by
  refine none_of_type ?_
  intro heq
  rw [heq] at h
  exact h htype

end Found

/-- What the accessors say, by the attributes of the bytes. -/
structure Reports (o : ByteOrder) (as : List Attr) (r : UnixResponse) : Prop where
  peer : r.peer = (firstOf unixDiagPeer as).map fun a => Packed.wordAt o a.payload 0
  name : r.name = (firstOf unixDiagName as).map fun a => decodedName a.payload
  pendingConnections :
    r.pendingConnections = (firstOf unixDiagIcons as).map fun a => decodedWords o a.payload
  shutdownState : r.shutdownState = (firstOf unixDiagShutdown as).map fun a => a.payload.headD 0
  receiveQueueLength : r.receiveQueueLength = (firstOf unixDiagRqlen as).map fun a =>
    (Packed.wordAt o a.payload 0, Packed.wordAt o a.payload 4)
  memInfo : r.memInfo = (firstOf unixDiagMeminfo as).map fun a =>
    ⟨Packed.wordAt o a.payload 4, Packed.wordAt o a.payload 12, Packed.wordAt o a.payload 20⟩

/-- **An accessor finds the first attribute of its type**, decoded. -/
theorem reports_of_reads {o : ByteOrder} {as : List Attr} {r : UnixResponse}
    (h : List.Forall₂ (Unix.Nla.codec o).Reads as r.nlas) : Reports o as r where
  peer := by
    refine Codec.findSome?_of_reads (fun a z hz => ?_) h
    cases z with
    | peer value =>
      obtain ⟨hk, hp⟩ := hz
      rw [← some_of_type hk, hp, Packed.wordAt_toBytes]
    | other => exact none_of_unknown hz.1 (by decide)
    | name | vfs | pendingConnections | receiveQueueLength | memInfo | shutdown =>
      exact none_of_type (by rw [hz.1]; decide)
  name := by
    refine Codec.findSome?_of_reads (fun a z hz => ?_) h
    cases z with
    | name s =>
      obtain ⟨hk, hs⟩ := hz
      rw [← some_of_type hk, ← eq_decodedName hs]
    | other => exact none_of_unknown hz.1 (by decide)
    | vfs | peer | pendingConnections | receiveQueueLength | memInfo | shutdown =>
      exact none_of_type (by rw [hz.1]; decide)
  pendingConnections := by
    refine Codec.findSome?_of_reads (fun a z hz => ?_) h
    cases z with
    | pendingConnections values =>
      obtain ⟨hk, hp⟩ := hz
      rw [← some_of_type hk, hp, decodedWords_words]
    | other => exact none_of_unknown hz.1 (by decide)
    | name | vfs | peer | receiveQueueLength | memInfo | shutdown =>
      exact none_of_type (by rw [hz.1]; decide)
  shutdownState := by
    refine Codec.findSome?_of_reads (fun a z hz => ?_) h
    cases z with
    | shutdown value =>
      obtain ⟨hk, hp⟩ := hz
      rw [← some_of_type hk, hp]
      rfl
    | other => exact none_of_unknown hz.1 (by decide)
    | name | vfs | peer | pendingConnections | receiveQueueLength | memInfo =>
      exact none_of_type (by rw [hz.1]; decide)
  receiveQueueLength := by
    refine Codec.findSome?_of_reads (fun a z hz => ?_) h
    cases z with
    | receiveQueueLength v1 v2 =>
      obtain ⟨hk, hp⟩ := hz
      have hlen : ((Packed.u32 o).toBytes v1).length = 4 := (Packed.u32 o).length_toBytes v1
      have h4 := Packed.wordAt_append (o := o) (y := (Packed.u32 o).toBytes v2) (i := 0) hlen
      rw [← some_of_type hk, hp, Packed.wordAt_toBytes_append, h4, Packed.wordAt_toBytes]
    | other => exact none_of_unknown hz.1 (by decide)
    | name | vfs | peer | pendingConnections | memInfo | shutdown =>
      exact none_of_type (by rw [hz.1]; decide)
  memInfo := by
    refine Codec.findSome?_of_reads (fun a z hz => ?_) h
    cases z with
    | memInfo value =>
      obtain ⟨hk, -, hp⟩ := hz
      rw [← some_of_type hk, ← hp]
      exact congrArg some (Unix.MemInfo.ofRaw_ofBytes o a.payload)
    | other => exact none_of_unknown hz.1 (by decide)
    | name | vfs | peer | pendingConnections | receiveQueueLength | shutdown =>
      exact none_of_type (by rw [hz.1]; decide)

section Counters

variable {o : ByteOrder} {as : List Attr} {r : UnixResponse}

theorem Reports.maxDatagramSize (h : Reports o as r) :
    r.maxDatagramSize =
      (firstOf unixDiagMeminfo as).map fun a => Packed.wordAt o a.payload 12 := by
  unfold UnixResponse.maxDatagramSize
  rw [h.memInfo, Option.map_map]
  rfl

theorem Reports.memoryUsedForOutgoingData (h : Reports o as r) :
    r.memoryUsedForOutgoingData =
      (firstOf unixDiagMeminfo as).map fun a => Packed.wordAt o a.payload 20 := by
  unfold UnixResponse.memoryUsedForOutgoingData
  rw [h.memInfo, Option.map_map]
  rfl

end Counters

/-- An accessor has nothing to say exactly when there is no attribute of its type. -/
structure SilentWithout (as : List Attr) (r : UnixResponse) : Prop where
  peer : r.peer = none ↔ ∀ a ∈ as, nlaType a.kind ≠ unixDiagPeer
  name : r.name = none ↔ ∀ a ∈ as, nlaType a.kind ≠ unixDiagName
  pendingConnections : r.pendingConnections = none ↔ ∀ a ∈ as, nlaType a.kind ≠ unixDiagIcons
  shutdownState : r.shutdownState = none ↔ ∀ a ∈ as, nlaType a.kind ≠ unixDiagShutdown
  maxDatagramSize : r.maxDatagramSize = none ↔ ∀ a ∈ as, nlaType a.kind ≠ unixDiagMeminfo
  memoryUsedForOutgoingData :
    r.memoryUsedForOutgoingData = none ↔ ∀ a ∈ as, nlaType a.kind ≠ unixDiagMeminfo

theorem Reports.silentWithout {o : ByteOrder} {as : List Attr} {r : UnixResponse}
    (h : Reports o as r) : SilentWithout as r where
  peer := by rw [h.peer, map_firstOf_eq_none_iff]
  name := by rw [h.name, map_firstOf_eq_none_iff]
  pendingConnections := by rw [h.pendingConnections, map_firstOf_eq_none_iff]
  shutdownState := by rw [h.shutdownState, map_firstOf_eq_none_iff]
  maxDatagramSize := by rw [h.maxDatagramSize, map_firstOf_eq_none_iff]
  memoryUsedForOutgoingData := by rw [h.memoryUsedForOutgoingData, map_firstOf_eq_none_iff]

/-! ## Where the attributes are -/

/-- The attributes of each type, in the order they are in, are the same. -/
def SameOrder (as as' : List Attr) : Prop :=
  ∀ type, (as'.filter (nlaType ·.kind == type)) = as.filter (nlaType ·.kind == type)

section Reorder

variable {as as' : List Attr}

theorem SameOrder.firstOf_eq (h : SameOrder as as') (type : UInt16) :
    firstOf type as' = firstOf type as := by
  unfold firstOf
  rw [← List.head?_filter, ← List.head?_filter, h type]

theorem SameOrder.mem (h : SameOrder as as') {a : Attr} (ha : a ∈ as') : a ∈ as := by
  have hm : a ∈ as'.filter (nlaType ·.kind == nlaType a.kind) :=
    List.mem_filter.mpr ⟨ha, beq_self_eq_true _⟩
  rw [h] at hm
  exact (List.mem_filter.mp hm).1

/-- Two neighbours of different types can change places. -/
theorem sameOrder_swap {a b : Attr} (hne : nlaType a.kind ≠ nlaType b.kind) (as : List Attr) :
    SameOrder (a :: b :: as) (b :: a :: as) := by
  intro type
  simp only [List.filter_cons]
  by_cases ha : nlaType a.kind = type
  · have hb : nlaType b.kind ≠ type := fun h => hne (ha.trans h.symm)
    simp [ha, hb]
  · simp [ha]

/-- Where the first attributes are the same, so is what is said of them. -/
theorem Reports.sameAccessors {o : ByteOrder} {r r' : UnixResponse} (h : Reports o as r)
    (h' : Reports o as' r') (horder : SameOrder as as') (hheader : r'.header = r.header) :
    SameAccessors r r' := by
  refine .of_searches hheader ?_ ?_ ?_ ?_ ?_ ?_
  · rw [h'.peer, h.peer, horder.firstOf_eq]
  · rw [h'.name, h.name, horder.firstOf_eq]
  · rw [h'.pendingConnections, h.pendingConnections, horder.firstOf_eq]
  · rw [h'.shutdownState, h.shutdownState, horder.firstOf_eq]
  · rw [h'.receiveQueueLength, h.receiveQueueLength, horder.firstOf_eq]
  · rw [h'.memInfo, h.memInfo, horder.firstOf_eq]

end Reorder

/-- With its attributes in another order a response is still accepted, with the same header. -/
theorem exists_parse_of_sameOrder {P : Platform} [P.Lawful] {b b' : Bytes} {as as' : List Attr}
    {r : UnixResponse} (h : UnixResponse.parse P b = .ok r)
    (hreads : List.Forall₂ (Unix.Nla.codec P.order).Reads as r.nlas)
    (hhead : b'.take 16 = b.take 16) (has' : Area P.order as' (b'.drop 16))
    (horder : SameOrder as as') :
    ∃ xs, UnixResponse.parse P b' = .ok ⟨r.header, xs⟩ ∧
      List.Forall₂ (Unix.Nla.codec P.order).Reads as' xs := by
  obtain ⟨hlen, hread, -⟩ := (UnixResponse.implements P).parse_eq_ok_iff.mp h
  -- Every attribute that is there was there before, and accepted.
  have hread' : ∀ a ∈ as', ∃ x, (Unix.Nla.codec P.order).Reads a x := by
    intro a ha
    obtain ⟨x, -, hx⟩ := Codec.exists_of_mem_left hreads (horder.mem ha)
    exact ⟨x, hx⟩
  obtain ⟨xs, hxs⟩ := Codec.exists_forall₂ hread'
  have hlen' : 16 ≤ b'.length := by
    have htake := congrArg List.length hhead
    have h16 : 16 ≤ b.length := hlen
    rw [List.length_take, List.length_take, Nat.min_eq_left h16] at htake
    omega
  have hheader : (UnixResponse.format P.order).readHeader (b'.take 16) = some r.header :=
    (congrArg (UnixResponse.format P.order).readHeader hhead).trans hread
  exact ⟨xs, (UnixResponse.implements P).parse_eq_ok_iff.mpr ⟨hlen', hheader, as', has', hxs⟩, hxs⟩

/-- **The accessors report the first attributes of the bytes**, and where they are among the others
    makes no difference: with the attributes in another order, those of one type as before, the
    bytes are still accepted and every accessor says the same. -/
theorem accessors_report (P : Platform) [P.Lawful] (b : Bytes) (r : UnixResponse)
    (h : UnixResponse.parse P b = .ok r) :
    ∃ as, Area P.order as (b.drop 16) ∧ Reports P.order as r ∧
      (r.maxDatagramSize =
        (firstOf unixDiagMeminfo as).map fun a => Packed.wordAt P.order a.payload 12) ∧
      (r.memoryUsedForOutgoingData =
        (firstOf unixDiagMeminfo as).map fun a => Packed.wordAt P.order a.payload 20) ∧
      SilentWithout as r ∧
      ∀ (b' : Bytes) (as' : List Attr), b'.take 16 = b.take 16 → Area P.order as' (b'.drop 16) →
        SameOrder as as' →
        ∃ r', UnixResponse.parse P b' = .ok r' ∧ r'.header = r.header ∧ SameAccessors r r' := by
  obtain ⟨-, -, as, has, hreads⟩ := (UnixResponse.implements P).parse_eq_ok_iff.mp h
  have hreports : Reports P.order as r := reports_of_reads hreads
  refine ⟨as, has, hreports, hreports.maxDatagramSize, hreports.memoryUsedForOutgoingData,
    hreports.silentWithout, ?_⟩
  intro b' as' hhead has' horder
  obtain ⟨xs, hr', hxs⟩ := exists_parse_of_sameOrder h hreads hhead has' horder
  exact ⟨_, hr', rfl, hreports.sameAccessors (reports_of_reads hxs) horder rfl⟩

/-- A peer, how far the socket is shut down, and another peer. -/
def interleaved : Bytes :=
  peerMessage.take 16 ++ [8, 0, 2, 0, 13, 79, 0, 0] ++ [5, 0, 6, 0, 1, 0, 0, 0] ++
    [8, 0, 2, 0, 7, 0, 0, 0]

def reordered : Bytes :=
  peerMessage.take 16 ++ [5, 0, 6, 0, 1, 0, 0, 0] ++ [8, 0, 2, 0, 13, 79, 0, 0] ++
    [8, 0, 2, 0, 7, 0, 0, 0]

theorem interleaved_reports :
    ∃ r r', UnixResponse.parse (.reference .little) interleaved = .ok r ∧
      UnixResponse.parse (.reference .little) reordered = .ok r' ∧
      r.peer = some 20237 ∧ r'.peer = some 20237 ∧ r'.shutdownState = some 1 ∧ r'.name = none := by
  let r : UnixResponse :=
    ⟨⟨1, 1, 20238, #v[160, 105, 0, 0, 0, 0, 0, 0]⟩, [.peer 20237, .shutdown 1, .peer 7]⟩
  have hr : UnixResponse.parse (.reference .little) interleaved = .ok r := rfl
  let first : Attr := ⟨unixDiagPeer, [13, 79, 0, 0]⟩
  let second : Attr := ⟨unixDiagPeer, [7, 0, 0, 0]⟩
  let shut : Attr := ⟨unixDiagShutdown, [1]⟩
  have harea : Area .little [first, shut, second] (interleaved.drop 16) :=
    split_eq_some_iff.mp (by decide)
  have harea' : Area .little [shut, first, second] (reordered.drop 16) :=
    split_eq_some_iff.mp (by decide)
  have horder : SameOrder [first, shut, second] [shut, first, second] :=
    sameOrder_swap (by decide) [second]
  obtain ⟨as, has, -, -, -, -, hmove⟩ := accessors_report (.reference .little) interleaved r hr
  obtain rfl := has.unique harea
  obtain ⟨r', hr', -, hsame⟩ := hmove reordered _ rfl harea' horder
  exact ⟨r, r', hr, hr', rfl, hsame.peer, hsame.shutdownState, hsame.name⟩

end SockDiag
