import Mathlib.Data.List.Induction
import WellboreDdms.Machine.Run

/-!
# Tasks that copy their state

A task has a state of its own, that no other task changes. A task started by another one
begins with a copy of its state, as the context variables of a task do.

- `TaskEvent`, `Tasks.step`: the tasks of a machine, interleaved in any order.
- `origin`, `line`: the root a task descends from, and all that was done on the way: the
  actions of each ancestor up to the start of the next one, then the actions of the task.
- `Tasks.alone`: a task is where its line takes the state its root began with. What the
  other tasks do in between does not matter.
- `Tasks.invariant`: what a root begins with and each action keeps holds of every task.
-/

namespace Machine

universe u v w x

variable {ι : Type u} {ρ : Type v} {σ : Type w} {α : Type x}

/-- What happens to the tasks: a root begins, a task acts, or it starts another one. -/
inductive TaskEvent (ι : Type u) (ρ : Type v) (α : Type x) where
  | create (root : ι) (request : ρ)
  | act (task : ι) (action : α)
  | start (task child : ι)

/-- The state of each task there is. -/
abbrev Tasks (ι : Type u) (σ : Type w) := ι → Option σ

/-- No task has begun. -/
def Tasks.none : Tasks ι σ := fun _ => Option.none

variable [DecidableEq ι]

/-- One event. The name of a new task is not in use. -/
def Tasks.step (begin : ρ → σ) (act : σ → α → Option σ) (ts : Tasks ι σ) :
    TaskEvent ι ρ α → Option (Tasks ι σ)
  | .create root request =>
    match ts root with
    | some _ => Option.none
    | Option.none => some (Function.update ts root (some (begin request)))
  | .act task action =>
    (ts task).bind fun s => (act s action).map fun s' => Function.update ts task (some s')
  | .start task child =>
    match ts child with
    | some _ => Option.none
    | Option.none => (ts task).map fun s => Function.update ts child (some s)

/-- What an event adds to the lines. -/
def lineOf (lines : ι → List α) : TaskEvent ι ρ α → ι → List α
  | .create root _ => Function.update lines root []
  | .act task action => Function.update lines task (lines task ++ [action])
  | .start task child => Function.update lines child (lines task)

/-- All that was done on the way to each task, by its ancestors and by itself. -/
def line (es : List (TaskEvent ι ρ α)) : ι → List α := es.foldl lineOf fun _ => []

/-- What an event adds to the origins. -/
def originOf (origins : ι → ι) : TaskEvent ι ρ α → ι → ι
  | .create root _ => Function.update origins root root
  | .act _ _ => origins
  | .start task child => Function.update origins child (origins task)

/-- The root each task descends from. -/
def origin (es : List (TaskEvent ι ρ α)) : ι → ι := es.foldl originOf id

theorem line_append (es : List (TaskEvent ι ρ α)) (e : TaskEvent ι ρ α) :
    line (es ++ [e]) = lineOf (line es) e := by
  rw [line, List.foldl_append]
  rfl

theorem origin_append (es : List (TaskEvent ι ρ α)) (e : TaskEvent ι ρ α) :
    origin (es ++ [e]) = originOf (origin es) e := by
  rw [origin, List.foldl_append]
  rfl

namespace Tasks

variable {begin : ρ → σ} {act : σ → α → Option σ} {ts us : Tasks ι σ}

theorem step_create {root : ι} {request : ρ}
    (h : step begin act ts (.create root request) = some us) :
    us = Function.update ts root (some (begin request)) := by
  rw [step] at h
  split at h
  · cases h
  · exact (Option.some.inj h).symm

theorem step_act {task : ι} {action : α} (h : step begin act ts (.act task action) = some us) :
    ∃ s s', ts task = some s ∧ act s action = some s' ∧
      us = Function.update ts task (some s') := by
  obtain ⟨s, hs, h⟩ := Option.bind_eq_some_iff.mp h
  obtain ⟨s', hs', h⟩ := Option.map_eq_some_iff.mp h
  exact ⟨s, s', hs, hs', h.symm⟩

/-- A started task takes over the state of its parent. -/
theorem step_start {task child : ι} (h : step begin act ts (.start task child) = some us) :
    ∃ s, ts task = some s ∧ us = Function.update ts child (some s) := by
  rw [step] at h
  split at h
  · cases h
  · obtain ⟨s, hs, h⟩ := Option.map_eq_some_iff.mp h
    exact ⟨s, hs, h.symm⟩

/-- **A task is where its own line takes it**: it descends from a root that was created, and
its state is the one the root began with, after the actions of its line. No event of another
task is among them. -/
theorem alone {es : List (TaskEvent ι ρ α)} (hrun : run (step begin act) Tasks.none es = some ts)
    {i : ι} {s : σ} (hi : ts i = some s) :
    ∃ request, .create (origin es i) request ∈ es ∧
      run act (begin request) (line es i) = some s := by
  induction es using List.reverseRecOn generalizing ts i s with
  | nil =>
    cases hrun
    cases hi
  | append_singleton es e ih =>
    obtain ⟨us, hus, hlast⟩ := run_append_eq_some.mp hrun
    obtain ⟨ts', hstep, hts⟩ := run_cons_eq_some.mp hlast
    cases hts
    -- a task the event does not touch has the origin and the line it had
    have hother : ts i = us i → originOf (origin es) e i = origin es i →
        lineOf (line es) e i = line es i → ∃ request, .create (origin (es ++ [e]) i) request ∈
          es ++ [e] ∧ run act (begin request) (line (es ++ [e]) i) = some s := by
      intro hsame horigin hline
      obtain ⟨request, hcreate, halone⟩ := ih hus (hsame.symm.trans hi)
      rw [origin_append, line_append, horigin, hline]
      exact ⟨request, List.mem_append_left _ hcreate, halone⟩
    cases e with
    | create root request =>
      obtain rfl := step_create hstep
      by_cases hroot : i = root
      · subst hroot
        rw [Function.update_self] at hi
        cases hi
        rw [origin_append, line_append]
        simp only [originOf, lineOf, Function.update_self]
        exact ⟨request, by simp, rfl⟩
      · exact hother (Function.update_of_ne hroot _ _) (Function.update_of_ne hroot _ _)
          (Function.update_of_ne hroot _ _)
    | act task action =>
      obtain ⟨r, r', hr, hact, rfl⟩ := step_act hstep
      by_cases htask : i = task
      · subst htask
        rw [Function.update_self] at hi
        cases hi
        obtain ⟨request, hcreate, halone⟩ := ih hus hr
        refine ⟨request, ?_, ?_⟩
        · rw [origin_append]
          exact List.mem_append_left _ hcreate
        · rw [line_append]
          simp only [lineOf, Function.update_self]
          exact run_append_eq_some.mpr ⟨r, halone, run_cons_eq_some.mpr ⟨_, hact, rfl⟩⟩
      · exact hother (Function.update_of_ne htask _ _) rfl (Function.update_of_ne htask _ _)
    | start task child =>
      obtain ⟨r, hr, rfl⟩ := step_start hstep
      by_cases hchild : i = child
      · subst hchild
        rw [Function.update_self] at hi
        cases hi
        obtain ⟨request, hcreate, halone⟩ := ih hus hr
        rw [origin_append, line_append]
        simp only [originOf, lineOf, Function.update_self]
        exact ⟨request, List.mem_append_left _ hcreate, halone⟩
      · exact hother (Function.update_of_ne hchild _ _) (Function.update_of_ne hchild _ _)
          (Function.update_of_ne hchild _ _)

/-- What the roots begin with and every action keeps holds of each task, with the request of
its root. -/
theorem invariant {Inv : ρ → σ → Prop} (hinit : ∀ request, Inv request (begin request))
    (hact : ∀ {request s s' action}, Inv request s → act s action = some s' → Inv request s')
    {es : List (TaskEvent ι ρ α)} (hrun : run (step begin act) Tasks.none es = some ts) {i : ι}
    {s : σ} (hi : ts i = some s) :
    ∃ request, .create (origin es i) request ∈ es ∧ Inv request s := by
  obtain ⟨request, hcreate, halone⟩ := alone hrun hi
  exact ⟨request, hcreate, run_invariant' hact (hinit request) halone⟩

end Tasks

end Machine
