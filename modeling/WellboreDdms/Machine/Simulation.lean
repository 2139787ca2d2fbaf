import WellboreDdms.Machine.Run

/-!
# Simulations between machines

A machine refines a more abstract one if each of its steps is a run of the abstract one
between related states.

- `Simulates`: every step under a condition is matched by a run.
- `Simulates.run`: a guarded run is matched by a run, by induction on its labels.
- `run_matched`: where each step is matched by one step, so is each label of a run.
- `Simulates.invariant`: what every abstract step preserves holds of what is related to it.
-/

namespace Machine

universe u v w x

variable {σ : Type u} {ℓ : Type v} {α : Type w} {μ : Type x}

/-- Steps of `step` that meet `ok` are runs of `astep`, between states related by `R`. -/
structure Simulates (step : σ → ℓ → Option σ) (ok : σ → ℓ → Prop) (astep : α → μ → Option α)
    (R : σ → α → Prop) : Prop where
  matched : ∀ {s t : σ} {l : ℓ} {a : α}, R s a → ok s l → step s l = some t →
    ∃ ms b, run astep a ms = some b ∧ R t b

variable {step : σ → ℓ → Option σ} {ok : σ → ℓ → Prop} {astep : α → μ → Option α}
  {R : σ → α → Prop} {s t : σ} {a : α} {ls : List ℓ}

/-- One step is a run. -/
theorem run_of_step {l : ℓ} (h : step s l = some t) : Machine.run step s [l] = some t :=
  run_cons_eq_some.mpr ⟨t, h, rfl⟩

/-- **Runs are simulated.** -/
theorem Simulates.run (h : Simulates step ok astep R) (hinit : R s a) (hok : Guarded step ok s ls)
    (hrun : run step s ls = some t) : ∃ ms b, Machine.run astep a ms = some b ∧ R t b := by
  induction ls generalizing s a with
  | nil =>
    cases hrun
    exact ⟨[], a, rfl, hinit⟩
  | cons l ls ih =>
    obtain ⟨r, hstep, hrun⟩ := run_cons_eq_some.mp hrun
    obtain ⟨ms, b, hms, hr⟩ := h.matched hinit hok.1 hstep
    obtain ⟨ms', b', hms', ht⟩ := ih hr (hok.2 r hstep) hrun
    exact ⟨ms ++ ms', b', run_append_eq_some.mpr ⟨b, hms, hms'⟩, ht⟩

/-- Steps that are matched one by one, each under a label of its own. -/
theorem run_matched {f : ℓ → μ}
    (hstep : ∀ {s t : σ} {l : ℓ} {a : α}, R s a → ok s l → step s l = some t →
      ∃ b, astep a (f l) = some b ∧ R t b)
    (hinit : R s a) (hok : Guarded step ok s ls) (hrun : Machine.run step s ls = some t) :
    ∃ b, Machine.run astep a (ls.map f) = some b ∧ R t b := by
  induction ls generalizing s a with
  | nil =>
    cases hrun
    exact ⟨a, rfl, hinit⟩
  | cons l ls ih =>
    obtain ⟨r, hl, hrun⟩ := run_cons_eq_some.mp hrun
    obtain ⟨b, hb, hr⟩ := hstep hinit hok.1 hl
    obtain ⟨c, hc, ht⟩ := ih hr (hok.2 r hl) hrun
    exact ⟨c, run_cons_eq_some.mpr ⟨b, hb, hc⟩, ht⟩

/-- **Invariants are inherited**: the last state of a guarded run is related to one that has
whatever the abstract steps preserve. -/
theorem Simulates.invariant (h : Simulates step ok astep R) {Inv : α → Prop}
    (hinv : ∀ {a b m}, Inv a → astep a m = some b → Inv b) (hinit : R s a) (ha : Inv a)
    (hok : Guarded step ok s ls) (hrun : Machine.run step s ls = some t) : ∃ b, R t b ∧ Inv b := by
  obtain ⟨ms, b, hms, ht⟩ := h.run hinit hok hrun
  exact ⟨b, ht, run_invariant' hinv ha hms⟩

end Machine
