import SockDiag.Machine.Run

/-!
# A mailbox

What a reader of messages is for, whatever the messages are. They are posted in batches; the reader
fetches a batch when it is through with the one before, takes the messages out one by one, and stops
at the first that `stops` it. Between two batches it may also leave. Posts and what the reader does
come in any order.

`Accounted` is what there is to say of it at any time: every message posted has been taken or is
still there, in the order of the posts, and what was taken is what comes up to the first that stops.
It holds after every run (`accounted_of_run`).

What a reader is to take is `upTo stops` of what was posted. At any time it has taken the first of
these, and all of them once it has stopped or there is nothing left for it
(`Accounted.taken_prefix`). A program that is shown to be a mailbox has that for nothing, in every
interleaving, and it needs no list of what was read when.
-/

set_option autoImplicit false

namespace Mailbox

variable {α : Type}

/-- What has become of the reader. -/
inductive Status where
  | reading
  | stopped
  | left
deriving DecidableEq, Repr

end Mailbox

structure Mailbox (α : Type) where
  /-- Everything there ever was. -/
  posted : List α
  queue : List (List α)
  batch : List α
  taken : List α
  status : Mailbox.Status

namespace Mailbox

variable {α : Type}

inductive Op (α : Type) where
  | post (batch : List α)
  | fetch
  | take
  | leave

/-- The reader does nothing once it has stopped or left, and fetches or leaves only when the batch
    is empty. -/
def step (stops : α → Bool) (m : Mailbox α) : Op α → Option (Mailbox α)
  | .post batch => some { m with posted := m.posted ++ batch, queue := m.queue ++ [batch] }
  | .fetch =>
    match m.status, m.batch, m.queue with
    | .reading, [], batch :: queue => some { m with queue := queue, batch := batch }
    | _, _, _ => none
  | .take =>
    match m.status, m.batch with
    | .reading, x :: batch =>
      some
        { m with
          batch := batch
          taken := m.taken ++ [x]
          status := if stops x then .stopped else .reading }
    | _, _ => none
  | .leave =>
    match m.status, m.batch with
    | .reading, [] => some { m with status := .left }
    | _, _ => none

def machine (stops : α → Bool) : Machine (Mailbox α) (Op α) where
  init := ⟨[], [], [], [], .reading⟩
  step := step stops

section Steps

variable {stops : α → Bool} {m m' : Mailbox α} {x : α} {batch : List α} {queue : List (List α)}

theorem step_fetch (hstatus : m.status = .reading) (hbatch : m.batch = [])
    (hqueue : m.queue = batch :: queue) :
    step stops m .fetch = some { m with queue := queue, batch := batch } := by
  simp only [step, hstatus, hbatch, hqueue]

theorem step_take (hstatus : m.status = .reading) (hbatch : m.batch = x :: batch) :
    step stops m .take = some
      { m with
        batch := batch
        taken := m.taken ++ [x]
        status := if stops x then .stopped else .reading } := by
  simp only [step, hstatus, hbatch]

theorem step_leave (hstatus : m.status = .reading) (hbatch : m.batch = []) :
    step stops m .leave = some { m with status := .left } := by
  simp only [step, hstatus, hbatch]

/-- All a step can do. -/
theorem step_cases {op : Op α} (h : step stops m op = some m') :
    (∃ batch, m' = { m with posted := m.posted ++ batch, queue := m.queue ++ [batch] }) ∨
    (∃ batch queue, m.status = .reading ∧ m.batch = [] ∧ m.queue = batch :: queue ∧
      m' = { m with queue := queue, batch := batch }) ∨
    (∃ x batch, m.status = .reading ∧ m.batch = x :: batch ∧
      m' =
        { m with
          batch := batch
          taken := m.taken ++ [x]
          status := if stops x then .stopped else .reading }) ∨
    (m.status = .reading ∧ m' = { m with status := .left }) := by
  cases op with
  | post batch => exact .inl ⟨batch, (Option.some.inj h).symm⟩
  | fetch =>
    simp only [step] at h
    split at h
    · rename_i hstatus hbatch hqueue
      exact .inr (.inl ⟨_, _, hstatus, hbatch, hqueue, (Option.some.inj h).symm⟩)
    · exact absurd h (by simp)
  | take =>
    simp only [step] at h
    split at h
    · rename_i hstatus hbatch
      exact .inr (.inr (.inl ⟨_, _, hstatus, hbatch, (Option.some.inj h).symm⟩))
    · exact absurd h (by simp)
  | leave =>
    simp only [step] at h
    split at h
    · rename_i hstatus hbatch
      exact .inr (.inr (.inr ⟨hstatus, (Option.some.inj h).symm⟩))
    · exact absurd h (by simp)

end Steps

/-! ## Nothing is lost, nothing comes twice -/

/-- Where every message is, and that the reader has read as far as it should and no further. -/
structure Accounted (stops : α → Bool) (m : Mailbox α) : Prop where
  all : m.taken ++ (m.batch ++ m.queue.flatten) = m.posted
  reading : m.status ≠ .stopped → ∀ x ∈ m.taken, stops x = false
  stopped : m.status = .stopped →
    ∃ front x, m.taken = front ++ [x] ∧ stops x = true ∧ ∀ y ∈ front, stops y = false

theorem accounted_init (stops : α → Bool) : Accounted stops (machine stops).init where
  all := rfl
  reading := fun _ x hx => absurd hx (by simp [machine])
  stopped := fun h => absurd h (by simp [machine])

theorem Accounted.step {stops : α → Bool} {m m' : Mailbox α} {op : Op α} (h : Accounted stops m)
    (hstep : Mailbox.step stops m op = some m') : Accounted stops m' := by
  rcases step_cases hstep with ⟨batch, rfl⟩ | ⟨batch, queue, hstatus, hbatch, hqueue, rfl⟩ |
    ⟨x, batch, hstatus, hbatch, rfl⟩ | ⟨hstatus, rfl⟩
  · refine ⟨?_, h.reading, h.stopped⟩
    show m.taken ++ (m.batch ++ (m.queue ++ [batch]).flatten) = m.posted ++ batch
    rw [← h.all]
    simp
  · refine ⟨?_, h.reading, h.stopped⟩
    rw [← h.all, hbatch, hqueue]
    rfl
  · have hread := h.reading (by rw [hstatus]; decide)
    refine ⟨?_, ?_, ?_⟩
    · rw [← h.all, hbatch]
      simp
    · intro hnot y hy
      have hx : stops x = false := by
        by_contra hx
        exact hnot (if_pos (by simpa using hx))
      rcases List.mem_append.mp hy with hy | hy
      · exact hread y hy
      · rw [List.mem_singleton.mp hy]
        exact hx
    · intro hstopped
      refine ⟨m.taken, x, rfl, ?_, hread⟩
      by_contra hx
      have hstill : (if stops x = true then Status.stopped else .reading) = .reading := if_neg hx
      exact absurd (hstill.symm.trans hstopped) (by decide)
  · exact ⟨h.all, fun _ => h.reading (by rw [hstatus]; decide), fun hl => absurd hl (by simp)⟩

theorem Accounted.runFrom {stops : α → Bool} {ops : List (Op α)} {m m' : Mailbox α}
    (hm : Accounted stops m) (h : (machine stops).runFrom m ops = some m') : Accounted stops m' := by
  have hany : ∀ op ∈ ops, True := fun _ _ => trivial
  refine Machine.runFrom_invariant ?_ hm hany h
  intro m op m' hm _ hstep
  exact hm.step hstep

/-- **At any time every message is accounted for**, in whatever order posts and reads came. -/
theorem accounted_of_run {stops : α → Bool} {ops : List (Op α)} {m : Mailbox α}
    (h : (machine stops).run ops = some m) : Accounted stops m := (accounted_init stops).runFrom h

/-! ## What a reader is to take -/

/-- As many as there are up to the first that stops it, that one included. -/
def upTo (stops : α → Bool) : List α → List α
  | [] => []
  | x :: xs => if stops x then [x] else x :: upTo stops xs

theorem upTo_append {stops : α → Bool} {xs : List α} (h : ∀ x ∈ xs, stops x = false)
    (ys : List α) : upTo stops (xs ++ ys) = xs ++ upTo stops ys := by
  induction xs with
  | nil => rfl
  | cons x xs ih =>
    obtain ⟨hx, hxs⟩ := List.forall_mem_cons.mp h
    simp [upTo, hx, ih hxs]

/-- **What was taken is the first of what is to be taken**, and all of it once the reader has stopped
    or has nothing to read. -/
theorem Accounted.taken_prefix {stops : α → Bool} {m : Mailbox α} (h : Accounted stops m) :
    m.taken <+: upTo stops m.posted ∧
      (m.status = .stopped ∨ (m.batch = [] ∧ m.queue = []) → m.taken = upTo stops m.posted) := by
  rw [← h.all]
  by_cases hstopped : m.status = .stopped
  · obtain ⟨front, x, htaken, hx, hfront⟩ := h.stopped hstopped
    have hupTo : upTo stops (m.taken ++ (m.batch ++ m.queue.flatten)) = m.taken := by
      rw [htaken, List.append_assoc, upTo_append hfront]
      simp [upTo, hx]
    rw [hupTo]
    exact ⟨List.prefix_rfl, fun _ => rfl⟩
  · rw [upTo_append (h.reading hstopped)]
    refine ⟨List.prefix_append _ _, ?_⟩
    intro hdone
    obtain ⟨hbatch, hqueue⟩ := hdone.resolve_left hstopped
    rw [hbatch, hqueue]
    simp [upTo]

end Mailbox
