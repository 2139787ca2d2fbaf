import Mathlib.Logic.Function.Basic
import Mathlib.Data.List.Basic

/-!
# Runs of a partial step function

A machine is a partial step function `step : σ → ℓ → Option σ`: a label that is
not enabled in a state is refused with `none`. A run is a list of labels.

- `run`: the state a list of labels leads to, if none of them is refused.
- `Guarded`: every label of the run meets a condition in the state it is taken
  from. What a guarded run begins with is guarded (`guarded_append`), so a fact about
  the last state of every guarded run is a fact about every state it reaches.
- `checkRun`: `Guarded` evaluated on a concrete run.
- `guarded_congr`: conditions that agree along a run guard it alike.
- `run_invariant`: the induction over runs, done once. A safety theorem is then
  an initial lemma and a step lemma.
-/

namespace Machine

universe u v

variable {σ : Type u} {ℓ : Type v} {step : σ → ℓ → Option σ}

/-- The state reached from `s` by the labels of `ls`, taken in order. -/
def run (step : σ → ℓ → Option σ) : σ → List ℓ → Option σ
  | s, [] => some s
  | s, l :: ls => (step s l).bind fun t => run step t ls

/-- Every label of the run from `s` meets `ok` in the state it is taken from. -/
def Guarded (step : σ → ℓ → Option σ) (ok : σ → ℓ → Prop) : σ → List ℓ → Prop
  | _, [] => True
  | s, l :: ls => ok s l ∧ ∀ t, step s l = some t → Guarded step ok t ls

/-- `Guarded` for a condition that can be evaluated. -/
def checkRun (step : σ → ℓ → Option σ) (ok : σ → ℓ → Bool) : σ → List ℓ → Bool
  | _, [] => true
  | s, l :: ls => ok s l && (step s l).all fun t => checkRun step ok t ls

@[simp] theorem run_nil (s : σ) : run step s [] = some s := rfl

theorem run_cons_eq_some {s t : σ} {l : ℓ} {ls : List ℓ} :
    run step s (l :: ls) = some t ↔ ∃ r, step s l = some r ∧ run step r ls = some t :=
  Option.bind_eq_some_iff

theorem run_append_eq_some {s t : σ} {ls ms : List ℓ} :
    run step s (ls ++ ms) = some t ↔ ∃ r, run step s ls = some r ∧ run step r ms = some t := by
  induction ls generalizing s with
  | nil => simp
  | cons l ls ih =>
    simp only [List.cons_append, run_cons_eq_some, ih]
    constructor
    · rintro ⟨q, hq, r, hr, ht⟩
      exact ⟨r, ⟨q, hq, hr⟩, ht⟩
    · rintro ⟨r, ⟨q, hq, hr⟩, ht⟩
      exact ⟨q, hq, r, hr, ht⟩

/-- A run of two parts is guarded iff the second part is guarded from the state
the first one reaches. -/
theorem guarded_append {ok : σ → ℓ → Prop} {s r : σ} {ls ms : List ℓ}
    (hr : run step s ls = some r) :
    Guarded step ok s (ls ++ ms) ↔ Guarded step ok s ls ∧ Guarded step ok r ms := by
  induction ls generalizing s with
  | nil =>
    cases hr
    simp [Guarded]
  | cons l ls ih =>
    obtain ⟨q, hq, hr⟩ := run_cons_eq_some.mp hr
    simp only [List.cons_append, Guarded, hq, Option.some.injEq, forall_eq']
    rw [ih hr, and_assoc]

/-- A guard that can be evaluated along the run. -/
theorem guarded_of_checkRun {ok : σ → ℓ → Prop} [∀ s l, Decidable (ok s l)] {s : σ} {ls : List ℓ}
    (h : checkRun step (fun s l => decide (ok s l)) s ls = true) : Guarded step ok s ls := by
  induction ls generalizing s with
  | nil => trivial
  | cons l ls ih =>
    obtain ⟨hok, hrest⟩ := Bool.and_eq_true_iff.mp h
    refine ⟨of_decide_eq_true hok, fun t ht => ih ?_⟩
    rw [ht] at hrest
    exact hrest

/-- A condition on the labels alone guards the runs of such labels. -/
theorem guarded_of_labels {P : ℓ → Prop} {s : σ} {ls : List ℓ} (hP : ∀ l ∈ ls, P l) :
    Guarded step (fun _ l => P l) s ls := by
  induction ls generalizing s with
  | nil => trivial
  | cons l ls ih =>
    obtain ⟨hl, hls⟩ := List.forall_mem_cons.mp hP
    exact ⟨hl, fun _ _ => ih hls⟩

/-- Such a condition may come on top of another one. -/
theorem Guarded.and_forall {ok : σ → ℓ → Prop} {P : ℓ → Prop} {s : σ} {ls : List ℓ}
    (h : Guarded step ok s ls) (hP : ∀ l ∈ ls, P l) :
    Guarded step (fun s l => ok s l ∧ P l) s ls := by
  induction ls generalizing s with
  | nil => trivial
  | cons l ls ih =>
    obtain ⟨hl, hls⟩ := List.forall_mem_cons.mp hP
    exact ⟨⟨h.1, hl⟩, fun t ht => ih (h.2 t ht) hls⟩

/-- **The induction over runs.** What the initial state has and every step that
meets `ok` preserves, the last state of every guarded run has. -/
theorem run_invariant {ok : σ → ℓ → Prop} {Inv : σ → Prop}
    (hstep : ∀ {s l t}, Inv s → ok s l → step s l = some t → Inv t)
    {s t : σ} {ls : List ℓ} (hinit : Inv s) (hok : Guarded step ok s ls)
    (hrun : run step s ls = some t) : Inv t := by
  induction ls generalizing s with
  | nil =>
    cases hrun
    exact hinit
  | cons l ls ih =>
    obtain ⟨r, hr, hrun⟩ := run_cons_eq_some.mp hrun
    exact ih (hstep hinit hok.1 hr) (hok.2 r hr) hrun

/-- Two conditions that agree on the steps taken from states with an invariant
guard the same runs. -/
theorem guarded_congr {ok ok' : σ → ℓ → Prop} {Inv : σ → Prop}
    (hstep : ∀ {s l t}, Inv s → step s l = some t → Inv t)
    (hiff : ∀ {s l t}, Inv s → step s l = some t → (ok s l ↔ ok' s l))
    {s t : σ} {ls : List ℓ} (hinit : Inv s) (hrun : run step s ls = some t) :
    Guarded step ok s ls ↔ Guarded step ok' s ls := by
  induction ls generalizing s with
  | nil => exact Iff.rfl
  | cons l ls ih =>
    obtain ⟨r, hr, hrun⟩ := run_cons_eq_some.mp hrun
    have hrest := ih (hstep hinit hr) hrun
    simp only [Guarded, hr, Option.some.injEq, forall_eq']
    rw [hiff hinit hr, hrest]

/-- The unconditional form of `run_invariant`. -/
theorem run_invariant' {Inv : σ → Prop}
    (hstep : ∀ {s l t}, Inv s → step s l = some t → Inv t)
    {s t : σ} {ls : List ℓ} (hinit : Inv s) (hrun : run step s ls = some t) : Inv t :=
  have hall : Guarded step (fun _ _ => True) s ls := guarded_of_labels fun _ _ => trivial
  run_invariant (fun hs _ ht => hstep hs ht) hinit hall hrun

end Machine
