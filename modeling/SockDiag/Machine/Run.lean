import Mathlib.Tactic.Common

/-!
# Machines and their runs

A *machine* is a state and a step that takes an event, or refuses it. A *run* is a list of events,
none of them refused. Whatever order things happen in is an order of events, so what holds after
every run holds in every interleaving.

The rules that are used of it: what holds at the start and is kept by every step holds after every
run (`run_invariant`); what can always go on and cannot go on forever gets there
(`exists_runFrom_done`); what one machine does on an event and another does too, it does on a run of
them (`runFrom_lockStep`); and where every step of one machine is a few steps of another, so is every
run (`Simulation.run`).
-/

set_option autoImplicit false

/-- A state and what an event makes of it. -/
structure Machine (σ ε : Type) where
  init : σ
  /-- `none` where the event cannot happen. -/
  step : σ → ε → Option σ

namespace Machine

variable {σ τ ε δ : Type} (M : Machine σ ε)

/-- One event after the other. -/
def runFrom (s : σ) : List ε → Option σ
  | [] => some s
  | e :: es => (M.step s e).bind fun s' => runFrom s' es

/-- A run from the start. -/
def run (es : List ε) : Option σ := M.runFrom M.init es

variable {M} {s s' t : σ} {e : ε} {es fs : List ε}

@[simp] theorem runFrom_nil : M.runFrom s [] = some s := rfl

theorem runFrom_cons_eq_some_iff :
    M.runFrom s (e :: es) = some t ↔ ∃ s', M.step s e = some s' ∧ M.runFrom s' es = some t :=
  Option.bind_eq_some_iff

theorem runFrom_singleton : M.runFrom s [e] = M.step s e := Option.bind_fun_some _

/-- Runs can be put together and taken apart. -/
theorem runFrom_append_eq_some_iff :
    M.runFrom s (es ++ fs) = some t ↔ ∃ s', M.runFrom s es = some s' ∧ M.runFrom s' fs = some t := by
  induction es generalizing s with
  | nil => simp
  | cons e es ih =>
    simp only [List.cons_append, runFrom_cons_eq_some_iff, ih]
    refine ⟨?_, ?_⟩
    · intro h
      obtain ⟨a, ha, b, hb, hfs⟩ := h
      exact ⟨b, ⟨a, ha, hb⟩, hfs⟩
    · intro h
      obtain ⟨b, ⟨a, ha, hb⟩, hfs⟩ := h
      exact ⟨a, ha, b, hb, hfs⟩

/-! ## Invariants -/

section Invariant

variable {I : σ → Prop} {Fair : ε → Prop}

/-- What every step with a fair event keeps, every run of fair events keeps. -/
theorem runFrom_invariant (hstep : ∀ s e s', I s → Fair e → M.step s e = some s' → I s')
    (hs : I s) (hfair : ∀ e ∈ es, Fair e) (h : M.runFrom s es = some t) : I t := by
  induction es generalizing s with
  | nil =>
    obtain rfl := Option.some.inj h
    exact hs
  | cons e es ih =>
    obtain ⟨s', hs', hes⟩ := runFrom_cons_eq_some_iff.mp h
    obtain ⟨he, hall⟩ := List.forall_mem_cons.mp hfair
    exact ih (hstep s e s' hs he hs') hall hes

theorem run_invariant (hinit : I M.init)
    (hstep : ∀ s e s', I s → Fair e → M.step s e = some s' → I s') (hfair : ∀ e ∈ es, Fair e)
    (h : M.run es = some t) : I t := runFrom_invariant hstep hinit hfair h

end Invariant

/-! ## Progress -/

/-- **What can always go on and cannot go on forever gets there**: as long as it is not `Done`, some
    fair event makes the measure smaller. -/
theorem exists_runFrom_done {I Done : σ → Prop} {Fair : ε → Prop} (μ : σ → Nat)
    (hstep : ∀ s, I s → ¬ Done s → ∃ e s', Fair e ∧ M.step s e = some s' ∧ I s' ∧ μ s' < μ s)
    (hs : I s) :
    ∃ es t, (∀ e ∈ es, Fair e) ∧ es.length ≤ μ s ∧ M.runFrom s es = some t ∧ I t ∧ Done t := by
  generalize hn : μ s = n
  induction n using Nat.strongRecOn generalizing s with
  | ind n ih =>
    by_cases hdone : Done s
    · exact ⟨[], s, by simp, Nat.zero_le _, rfl, hs, hdone⟩
    · obtain ⟨e, s', he, hs', hI, hlt⟩ := hstep s hs hdone
      rw [hn] at hlt
      obtain ⟨es, t, hall, hlen, hrun, hIt, ht⟩ := ih (μ s') hlt hI rfl
      refine ⟨e :: es, t, List.forall_mem_cons.mpr ⟨he, hall⟩, ?_, ?_, hIt, ht⟩
      · rw [List.length_cons]
        omega
      · exact runFrom_cons_eq_some_iff.mpr ⟨s', hs', hrun⟩

/-! ## Lock step -/

section LockStep

variable {A : Machine τ ε} {R : σ → τ → Prop} {Ok : σ → Prop} {a : τ}

/-- What no step makes good again is bad at the end. -/
theorem ok_of_runFrom (hback : ∀ s e s', M.step s e = some s' → Ok s' → Ok s)
    (h : M.runFrom s es = some t) (hok : Ok t) : Ok s := by
  induction es generalizing s with
  | nil =>
    obtain rfl := Option.some.inj h
    exact hok
  | cons e es ih =>
    obtain ⟨s', hs', hes⟩ := runFrom_cons_eq_some_iff.mp h
    exact hback s e s' hs' (ih hes)

/-- **As long as all is well, one machine does what another does on the same events.** -/
theorem runFrom_lockStep (hback : ∀ s e s', M.step s e = some s' → Ok s' → Ok s)
    (hstep : ∀ s e s' a, R s a → Ok s' → M.step s e = some s' →
      ∃ a', A.step a e = some a' ∧ R s' a')
    (hR : R s a) (h : M.runFrom s es = some t) (hok : Ok t) :
    ∃ b, A.runFrom a es = some b ∧ R t b := by
  induction es generalizing s a with
  | nil =>
    obtain rfl := Option.some.inj h
    exact ⟨a, rfl, hR⟩
  | cons e es ih =>
    obtain ⟨s', hs', hes⟩ := runFrom_cons_eq_some_iff.mp h
    obtain ⟨a', ha', hR'⟩ := hstep s e s' a hR (ok_of_runFrom hback hes hok) hs'
    obtain ⟨b, hb, hRb⟩ := ih hR' hes
    exact ⟨b, runFrom_cons_eq_some_iff.mpr ⟨a', ha', hb⟩, hRb⟩

end LockStep

/-! ## Simulation -/

/-- Every step of `M` with a fair event is a run of `A`, between states that stay in the relation. -/
structure Simulation (M : Machine σ ε) (A : Machine τ δ) (Fair : ε → Prop) (R : σ → τ → Prop) :
    Prop where
  init : R M.init A.init
  step : ∀ {s s' : σ} {e : ε} {a : τ}, R s a → Fair e → M.step s e = some s' →
    ∃ ds a', A.runFrom a ds = some a' ∧ R s' a'

/-- **Every run of `M` is a run of `A`.** -/
theorem Simulation.run {A : Machine τ δ} {Fair : ε → Prop} {R : σ → τ → Prop}
    (S : Simulation M A Fair R) (hfair : ∀ e ∈ es, Fair e) (h : M.run es = some s) :
    ∃ ds a, A.run ds = some a ∧ R s a := by
  -- The relation, with the run of `A` so far, is an invariant of `M`.
  refine run_invariant (I := fun s => ∃ ds a, A.run ds = some a ∧ R s a) ?_ ?_ hfair h
  · exact ⟨[], A.init, rfl, S.init⟩
  · intro s e s' hs he hstep
    obtain ⟨ds, a, ha, hR⟩ := hs
    obtain ⟨ds', a', ha', hR'⟩ := S.step hR he hstep
    exact ⟨ds ++ ds', a', runFrom_append_eq_some_iff.mpr ⟨a, ha, ha'⟩, hR'⟩

end Machine
