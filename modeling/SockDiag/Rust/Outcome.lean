import Mathlib.Tactic.Common

/-!
# `Outcome` — what running a piece of Rust can do

A Rust function that returns `Result<T, E>` has four ends, not two: it returns `Ok`, it returns
`Err`, it panics (an index out of range, an `unwrap` of an `Err`), or it never returns. The four
are the constructors below, and the monad threads the last three past the code that follows, so
that a `do` block reads like the function it translates: `←` is `?`.

A function that does not return a `Result` is an `Outcome Empty`: there is no error to be had.
-/

set_option autoImplicit false

namespace Rust

/-- The end of a run of Rust code with result type `α` and error type `ε`. -/
inductive Outcome (ε α : Type) where
  | ok (a : α)
  | err (e : ε)
  | panic
  | diverge
deriving Repr, DecidableEq

namespace Outcome

variable {ε ε' α β γ : Type}

protected def bind (x : Outcome ε α) (f : α → Outcome ε β) : Outcome ε β :=
  match x with
  | ok a => f a
  | err e => err e
  | panic => panic
  | diverge => diverge

instance : Monad (Outcome ε) where
  pure := ok
  bind := Outcome.bind

@[simp] theorem pure_eq_ok (a : α) : (pure a : Outcome ε α) = ok a := rfl
@[simp] theorem ok_bind (a : α) (f : α → Outcome ε β) : ok a >>= f = f a := rfl
@[simp] theorem err_bind (e : ε) (f : α → Outcome ε β) : err e >>= f = err e := rfl
@[simp] theorem panic_bind (f : α → Outcome ε β) : panic >>= f = panic := rfl
@[simp] theorem diverge_bind (f : α → Outcome ε β) : diverge >>= f = diverge := rfl

/-- A block returns `Ok` only through its first step. -/
theorem bind_eq_ok {x : Outcome ε α} {f : α → Outcome ε β} {b : β} :
    x >>= f = ok b ↔ ∃ a, x = ok a ∧ f a = ok b := by
  cases x <;> simp

theorem map_eq_ok {x : Outcome ε α} {f : α → β} {b : β} :
    f <$> x = ok b ↔ ∃ a, x = ok a ∧ f a = b := by
  cases x <;> simp [Functor.map, Outcome.bind]

/-- One arm of a `match` that wraps what it parses in a constructor. -/
theorem arm_eq_ok {c : Prop} [Decidable c] {x : Outcome ε α} {f : α → β} {y : Outcome ε β} {b : β}
    (h : (if c then f <$> x else y) = ok b) : (c ∧ ∃ a, x = ok a ∧ f a = b) ∨ (¬ c ∧ y = ok b) := by
  by_cases hc : c
  · rw [if_pos hc] at h
    exact .inl ⟨hc, map_eq_ok.mp h⟩
  · rw [if_neg hc] at h
    exact .inr ⟨hc, h⟩

theorem bind_assoc (x : Outcome ε α) (f : α → Outcome ε β) (g : β → Outcome ε γ) :
    (x >>= f) >>= g = x >>= fun a => f a >>= g := by
  cases x <;> simp

/-! ## Errors and panics -/

/-- `Result::map_err`. -/
def mapErr (f : ε → ε') : Outcome ε α → Outcome ε' α
  | ok a => ok a
  | err e => err (f e)
  | panic => panic
  | diverge => diverge

/-- `Result::unwrap`: an `Err` becomes a panic. -/
def unwrap : Outcome ε α → Outcome ε' α
  | ok a => ok a
  | err _ => panic
  | panic => panic
  | diverge => diverge

/-- `Option::ok_or_else`, the error already built. -/
def ofOption (e : ε) : Option α → Outcome ε α
  | some a => ok a
  | none => err e

@[simp] theorem mapErr_eq_ok {f : ε → ε'} {x : Outcome ε α} {a : α} :
    x.mapErr f = ok a ↔ x = ok a := by
  cases x <;> simp [mapErr]

@[simp] theorem unwrap_eq_ok {x : Outcome ε α} {a : α} :
    (x.unwrap : Outcome ε' α) = ok a ↔ x = ok a := by
  cases x <;> simp [unwrap]

@[simp] theorem unwrap_ok (a : α) : ((ok a : Outcome ε α).unwrap : Outcome ε' α) = ok a := rfl
@[simp] theorem unwrap_err (e : ε) : ((err e : Outcome ε α).unwrap : Outcome ε' α) = panic := rfl

@[simp] theorem ofOption_eq_ok {e : ε} {x : Option α} {a : α} :
    ofOption e x = ok a ↔ x = some a := by
  cases x <;> simp [ofOption]

/-- The run comes back to its caller, with `Ok` or with `Err`. -/
def Returns : Outcome ε α → Prop
  | ok _ => True
  | err _ => True
  | panic => False
  | diverge => False

@[simp] theorem returns_ok (a : α) : (ok a : Outcome ε α).Returns := trivial
@[simp] theorem returns_err (e : ε) : (err e : Outcome ε α).Returns := trivial
@[simp] theorem not_returns_panic : ¬ (panic : Outcome ε α).Returns := id
@[simp] theorem not_returns_diverge : ¬ (diverge : Outcome ε α).Returns := id

theorem Returns.bind {x : Outcome ε α} {f : α → Outcome ε β} (hx : x.Returns)
    (hf : ∀ a, x = ok a → (f a).Returns) : (x >>= f).Returns := by
  cases x with
  | ok a => exact hf a rfl
  | err e => trivial
  | panic => exact hx
  | diverge => exact hx

@[simp] theorem returns_map {x : Outcome ε α} {f : α → β} : (f <$> x).Returns ↔ x.Returns := by
  cases x <;> rfl

@[simp] theorem returns_mapErr {f : ε → ε'} {x : Outcome ε α} :
    (x.mapErr f).Returns ↔ x.Returns := by
  cases x <;> rfl

@[simp] theorem returns_ofOption (e : ε) (x : Option α) : (ofOption e x).Returns := by
  cases x <;> trivial

theorem Returns.arm {c : Prop} [Decidable c] {x : Outcome ε α} {f : α → β} {y : Outcome ε β}
    (hx : x.Returns) (hy : y.Returns) : (if c then f <$> x else y).Returns := by
  split
  · exact returns_map.mpr hx
  · exact hy

/-- A run that comes back without `Ok` comes back with an error. -/
theorem Returns.eq_err {x : Outcome ε α} (hx : x.Returns) (h : ∀ a, x ≠ ok a) :
    ∃ e, x = err e := by
  cases x with
  | ok a => exact absurd rfl (h a)
  | err e => exact ⟨e, rfl⟩
  | panic => exact absurd hx not_returns_panic
  | diverge => exact absurd hx not_returns_diverge

/-- `Iterator::collect` of results into a list of them. -/
def collect : List (Outcome ε α) → Outcome ε (List α)
  | [] => ok []
  | x :: xs => do
      let a ← x
      let as ← collect xs
      ok (a :: as)

theorem collect_cons_eq_ok {x : Outcome ε α} {xs : List (Outcome ε α)} {as : List α} :
    collect (x :: xs) = ok as ↔ ∃ b bs, as = b :: bs ∧ x = ok b ∧ collect xs = ok bs := by
  show (x >>= fun a => collect xs >>= fun as => ok (a :: as)) = ok as ↔ _
  simp only [bind_eq_ok, ok.injEq]
  refine ⟨?_, ?_⟩
  · intro h
    obtain ⟨b, hb, bs, hbs, rfl⟩ := h
    exact ⟨b, bs, rfl, hb, hbs⟩
  · intro h
    obtain ⟨b, bs, rfl, hb, hbs⟩ := h
    exact ⟨b, hb, bs, hbs, rfl⟩

end Outcome

/-! ## `for` loops

A `for` over an iterator runs its body until `next` answers `None`. Nothing bounds the number of
turns beforehand, so the loop takes fuel and says `diverge` where the fuel runs out; a caller owes
a proof that the fuel it hands over is enough. -/

/-- `for item in it { … }` over the loop state `β`, at most `fuel` calls of `next`. -/
def forLoop {ε σ ι β : Type} (next : σ → Option (ι × σ)) (body : ι → β → Outcome ε β) :
    Nat → σ → β → Outcome ε β
  -- Not an end of the loop but of what is known about it.
  | 0, _, _ => .diverge
  | fuel + 1, it, acc =>
      match next it with
      | none => .ok acc
      | some (item, it') => body item acc >>= forLoop next body fuel it'

section ForLoop

variable {ε σ ι β : Type} {next : σ → Option (ι × σ)} {body : ι → β → Outcome ε β}
variable {fuel : Nat} {it it' : σ} {item : ι} {acc : β}

theorem forLoop_done (h : next it = none) :
    forLoop next body (fuel + 1) it acc = .ok acc := by
  simp [forLoop, h]

theorem forLoop_step (h : next it = some (item, it')) :
    forLoop next body (fuel + 1) it acc = body item acc >>= forLoop next body fuel it' := by
  simp [forLoop, h]

end ForLoop

end Rust
