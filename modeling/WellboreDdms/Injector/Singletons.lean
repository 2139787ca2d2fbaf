import WellboreDdms.Machine.Run
import Mathlib.Data.Fintype.Basic

/-!
# The instances of the injector

`AppInjector.get` awaits a builder for a dependency. With the lifetime `Singleton` the
instance that was built first is to be given to every later call; but other calls run while
the builder is awaited.

- `AppInjector`: the factories by interface, with the instance a singleton keeps.
- `Injection`, `step`: any number of calls, each at its await or past it.
- `built_once`: if no call finds the singleton unbuilt while another call builds it, the builder
  completes at most once, and exactly once if a call has returned; all calls return its instance.
- `built_twice`: two calls that both find it unbuilt return two instances.
-/

namespace WellboreDdms

open Machine

variable {ι α ε : Type}

/-- How long an instance lives. -/
inductive LifeTime where
  | transient
  | singleton
  deriving DecidableEq

/-- What `make` returns: the builder itself, or the singleton with its `_instance`. -/
inductive Factory (α : Type) where
  | builder
  | singleton (instance? : Option α)
  deriving DecidableEq

/-- What is registered for a lifetime. -/
def LifeTime.make : LifeTime → Factory α
  | .transient => .builder
  | .singleton => .singleton none

/-- `_factory_dict`. -/
structure AppInjector (α : Type) where
  factories : String → Option (Factory α)

namespace AppInjector

/-- Registration replaces the factory of the interface. -/
def register (injector : AppInjector α) (interface : String) (lifetime : LifeTime) :
    AppInjector α where
  factories := Function.update injector.factories interface (some lifetime.make)

/-- `self._instance = await self._builder_fn(..)`, when the builder has returned `a`. -/
def keep (injector : AppInjector α) (interface : String) (a : α) : AppInjector α where
  factories := Function.update injector.factories interface
    ((injector.factories interface).map fun
      | .builder => .builder
      | .singleton _ => .singleton (some a))

end AppInjector

/-- What a call of `get` is doing: it awaits the builder, or has ended. Without a factory it
raises a `KeyError`. -/
inductive GetPhase (α ε : Type) where
  | idle
  | building (interface : String)
  | returned (interface : String) (a : α)
  | unregistered (interface : String)
  | raised (interface : String) (e : ε)
  deriving DecidableEq

/-- The injector, its calls, and the instances the builders have completed, the last first. -/
structure Injection (ι α ε : Type) where
  injector : AppInjector α
  phase : ι → GetPhase α ε
  builds : String → List α

/-- What happens at the await points: a call is made, a builder suspends once more, returns an
object, which is not `None`, or raises. -/
inductive InjectionEvent (ι α ε : Type) where
  | get (i : ι) (interface : String)
  | suspended (i : ι)
  | built (i : ι) (a : α)
  | failed (i : ι) (e : ε)

namespace Injection

/-- No call has been made yet. -/
def start (injector : AppInjector α) : Injection ι α ε where
  injector := injector
  phase := fun _ => .idle
  builds := fun _ => []

variable [DecidableEq ι]

/-- The call goes on to its next phase. -/
def enter (s : Injection ι α ε) (i : ι) (p : GetPhase α ε) : Injection ι α ε :=
  { s with phase := Function.update s.phase i p }

/-- The builder of call `i` has returned `a`, which is kept and returned. -/
def complete (s : Injection ι α ε) (i : ι) (k : String) (a : α) : Injection ι α ε :=
  { s.enter i (.returned k a) with
    injector := s.injector.keep k a
    builds := Function.update s.builds k (a :: s.builds k) }

/-- A call finds the factory, builds the instance over any number of steps, and returns it. -/
def step (s : Injection ι α ε) : InjectionEvent ι α ε → Option (Injection ι α ε)
  | .get i k =>
    match s.phase i with
    | .idle =>
      match s.injector.factories k with
      | none => some (s.enter i (.unregistered k))
      | some .builder => some (s.enter i (.building k))
      | some (.singleton none) => some (s.enter i (.building k))
      | some (.singleton (some a)) => some (s.enter i (.returned k a))
    | _ => none
  | .suspended i =>
    match s.phase i with
    | .building _ => some s
    | _ => none
  | .built i a =>
    match s.phase i with
    | .building k => some (s.complete i k a)
    | _ => none
  | .failed i e =>
    match s.phase i with
    | .building k => some (s.enter i (.raised k e))
    | _ => none

/-- A call of the singleton `k` does not find it unbuilt while another call builds it. -/
def FindsNoBuild (k : String) (s : Injection ι α ε) : InjectionEvent ι α ε → Prop
  | .get _ interface =>
    interface = k → s.injector.factories k = some (.singleton none) → ∀ j, s.phase j ≠ .building k
  | _ => True

instance [Fintype ι] [DecidableEq α] [DecidableEq ε] (k : String) (s : Injection ι α ε)
    (e : InjectionEvent ι α ε) : Decidable (s.FindsNoBuild k e) :=
  match e with
  | .get _ interface => inferInstanceAs (Decidable
    (interface = k → s.injector.factories k = some (.singleton none) → ∀ j,
      s.phase j ≠ .building k))
  | .suspended _ | .built _ _ | .failed _ _ => isTrue trivial

/-! ## One instance -/

section

variable {s t : Injection ι α ε} {k : String} {instance? : Option α}

/-- The singleton `k` keeps the instance that was built, and no other is on its way. -/
structure KeepsOne (k : String) (instance? : Option α) (s : Injection ι α ε) : Prop where
  kept : s.injector.factories k = some (.singleton instance?)
  builds : s.builds k = instance?.toList
  returned : ∀ i a, s.phase i = .returned k a → instance? = some a
  alone : ∀ i j, s.phase i = .building k → s.phase j = .building k → i = j
  done : ∀ i, s.phase i = .building k → instance? = none

omit [DecidableEq ι] in
/-- At the start nothing has been built for a singleton. -/
theorem keepsOne_start {injector : AppInjector α}
    (h : injector.factories k = some LifeTime.singleton.make) :
    KeepsOne k none (start injector : Injection ι α ε) where
  kept := h
  builds := rfl
  returned := nofun
  alone := nofun
  done := fun _ _ => rfl

/-- A call goes on to a phase that does not build `k`, and returns the instance kept if it
returns one. -/
theorem KeepsOne.enter (h : s.KeepsOne k instance?) {i : ι} {p : GetPhase α ε}
    (hbuilding : p ≠ .building k) (hreturned : ∀ a, p = .returned k a → instance? = some a) :
    (s.enter i p).KeepsOne k instance? := by
  have hphase : ∀ j, (s.enter i p).phase j = if j = i then p else s.phase j :=
    fun j => Function.update_apply s.phase i p j
  have hold : ∀ j, (s.enter i p).phase j = .building k → s.phase j = .building k := by
    intro j hj
    rw [hphase] at hj
    split at hj
    · exact absurd hj hbuilding
    · exact hj
  refine ⟨h.kept, h.builds, fun j a hj => ?_, fun j j' hj hj' => ?_, fun j hj => ?_⟩
  · rw [hphase] at hj
    split at hj
    · exact hreturned a hj
    · exact h.returned j a hj
  · exact h.alone j j' (hold j hj) (hold j' hj')
  · exact h.done j (hold j hj)

/-- The only call that builds `k` begins. -/
theorem KeepsOne.begin (h : s.KeepsOne k none) (hnone : ∀ j, s.phase j ≠ .building k) (i : ι) :
    (s.enter i (.building k)).KeepsOne k none := by
  have hphase : ∀ j, (s.enter i (.building k)).phase j = if j = i then .building k else s.phase j :=
    fun j => Function.update_apply s.phase i _ j
  have hi : ∀ j, (s.enter i (.building k)).phase j = .building k → j = i := by
    intro j hj
    rw [hphase] at hj
    split at hj
    · assumption
    · exact absurd hj (hnone j)
  refine ⟨h.kept, h.builds, fun j a hj => ?_, fun j j' hj hj' => ?_, fun _ _ => rfl⟩
  · rw [hphase] at hj
    split at hj
    · cases hj
    · exact h.returned j a hj
  · exact (hi j hj).trans (hi j' hj').symm

/-- The builder of `k` completes, for the first time. -/
theorem KeepsOne.complete (h : s.KeepsOne k instance?) {i : ι} (hi : s.phase i = .building k)
    (a : α) :
    (s.complete i k a).KeepsOne k (some a) := by
  obtain rfl := h.done i hi
  have hphase : ∀ j, (s.complete i k a).phase j = if j = i then .returned k a else s.phase j :=
    fun j => Function.update_apply s.phase i _ j
  -- the call that returns was the only one that was building
  have hnone : ∀ j, (s.complete i k a).phase j ≠ .building k := by
    intro j hj
    rw [hphase] at hj
    split at hj
    · cases hj
    · rename_i hne
      exact hne (h.alone j i hj hi)
  refine ⟨?_, ?_, fun j b hj => ?_, fun j j' hj _ => absurd hj (hnone j),
    fun j hj => absurd hj (hnone j)⟩
  · show Function.update s.injector.factories k _ k = _
    rw [Function.update_self, h.kept]
    rfl
  · show Function.update s.builds k (a :: s.builds k) k = _
    rw [Function.update_self, h.builds]
    rfl
  · rw [hphase] at hj
    split at hj
    · cases hj
      rfl
    · cases h.returned j b hj

/-- The builder of another interface completes. -/
theorem KeepsOne.complete_other (h : s.KeepsOne k instance?) (i : ι) {k' : String} (hne : k' ≠ k)
    (a : α) : (s.complete i k' a).KeepsOne k instance? := by
  have henter : (s.enter i (.returned k' a)).KeepsOne k instance? :=
    h.enter nofun fun b hb => absurd (GetPhase.returned.inj hb).1 hne
  refine { henter with kept := ?_, builds := ?_ }
  · show Function.update s.injector.factories k' _ k = _
    rw [Function.update_of_ne hne.symm]
    exact h.kept
  · show Function.update s.builds k' (a :: s.builds k') k = _
    rw [Function.update_of_ne hne.symm]
    exact h.builds

/-- The invariant of the runs. -/
def KeepsSome (k : String) (s : Injection ι α ε) : Prop := ∃ instance?, s.KeepsOne k instance?

/-- A call that finds no build under way keeps the one instance. -/
theorem keepsSome_step {e : InjectionEvent ι α ε} (h : s.KeepsSome k) (hok : s.FindsNoBuild k e)
    (hstep : step s e = some t) : t.KeepsSome k := by
  obtain ⟨instance?, h⟩ := h
  cases e with
  | get i k' =>
    simp only [step] at hstep
    split at hstep
    · split at hstep
      · cases hstep
        exact ⟨_, h.enter nofun nofun⟩
      · rename_i hbuilder
        cases hstep
        -- a builder is registered for other interfaces only
        refine ⟨_, h.enter (fun hk => ?_) nofun⟩
        cases hk
        cases h.kept.symm.trans hbuilder
      · rename_i hunbuilt
        cases hstep
        -- the condition: no other call is building the same singleton
        by_cases hk : k' = k
        · subst hk
          cases h.kept.symm.trans hunbuilt
          exact ⟨none, h.begin (hok rfl hunbuilt) i⟩
        · exact ⟨_, h.enter (fun hp => hk (GetPhase.building.inj hp)) nofun⟩
      · rename_i a hbuilt
        cases hstep
        -- the instance returned is the one kept
        refine ⟨_, h.enter nofun fun b hb => ?_⟩
        cases hb
        cases h.kept.symm.trans hbuilt
        rfl
    · cases hstep
  | suspended i =>
    simp only [step] at hstep
    split at hstep
    · cases hstep
      exact ⟨_, h⟩
    · cases hstep
  | built i a =>
    simp only [step] at hstep
    split at hstep
    · rename_i k' hi
      cases hstep
      by_cases hk : k' = k
      · subst hk
        exact ⟨_, h.complete hi a⟩
      · exact ⟨_, h.complete_other i hk a⟩
    · cases hstep
  | failed i e =>
    simp only [step] at hstep
    split at hstep
    · cases hstep
      exact ⟨_, h.enter nofun nofun⟩
    · cases hstep

/-- **A singleton is built once**: in every run of any calls of an injector, in which no call of
the singleton finds it unbuilt while another call builds it, its builder completes at most once,
and if a call has returned, then exactly once and with the instance returned. -/
theorem built_once {injector : AppInjector α} {es : List (InjectionEvent ι α ε)}
    (hregistered : injector.factories k = some LifeTime.singleton.make)
    (hok : Guarded step (FindsNoBuild k) (start injector) es)
    (hrun : run step (start injector) es = some t) :
    (t.builds k).length ≤ 1 ∧ ∀ i a, t.phase i = .returned k a → t.builds k = [a] := by
  have hinit : (start injector : Injection ι α ε).KeepsSome k := ⟨none, keepsOne_start hregistered⟩
  obtain ⟨instance?, h⟩ := run_invariant keepsSome_step hinit hok hrun
  rw [h.builds]
  constructor
  · cases instance? with
    | none => exact Nat.zero_le 1
    | some a => exact Nat.le_refl 1
  · intro i a hi
    rw [h.returned i a hi]
    rfl

end

/-! ## Two calls -/

/-- An injector with one singleton. -/
def oneSingleton : AppInjector Nat := AppInjector.register ⟨fun _ => none⟩ "BulkIO" .singleton

/-- Both calls test the instance before the first builder has completed. -/
def overlappingCalls : List (InjectionEvent (Fin 2) Nat Empty) :=
  [.get 0 "BulkIO", .suspended 0, .get 1 "BulkIO", .built 0 0, .built 1 1]

/-- The second call is made when the first one has returned. -/
def callsInTurn : List (InjectionEvent (Fin 2) Nat Empty) :=
  [.get 0 "BulkIO", .suspended 0, .suspended 0, .built 0 0, .get 1 "BulkIO"]

/-- Two calls one after the other share their instance. -/
theorem built_once_in_turn :
    ∃ t, run step (start oneSingleton) callsInTurn = some t ∧
      t.phase 1 = .returned "BulkIO" 0 ∧ t.builds "BulkIO" = [0] := by
  have hregistered : oneSingleton.factories "BulkIO" = some LifeTime.singleton.make := rfl
  have hok : Guarded step (FindsNoBuild "BulkIO") (start oneSingleton) callsInTurn :=
    guarded_of_checkRun (by decide)
  exact ⟨_, rfl, rfl, (built_once hregistered hok rfl).2 1 0 rfl⟩

/-- **Built twice**: two calls that overlap return two instances. -/
theorem built_twice :
    ¬ ∀ (es : List (InjectionEvent (Fin 2) Nat Empty)) (t : Injection (Fin 2) Nat Empty),
      run step (start oneSingleton) es = some t →
      (t.builds "BulkIO").length ≤ 1 ∧
        ∀ i a, t.phase i = .returned "BulkIO" a → t.builds "BulkIO" = [a] := by
  intro h
  exact absurd (h overlappingCalls _ rfl).1 (by decide)

end Injection

end WellboreDdms
