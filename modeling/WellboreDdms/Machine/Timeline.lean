import Mathlib.Data.List.Basic
import Mathlib.Algebra.Order.Ring.Int

/-!
# Values that change over time

What was written to one place, with the time of each write. A reader that looks later, or that
has looked earlier and kept what it saw, has seen a value that was the current one at some time.

- `WasCurrent h since until v`: at some time from `since` to `until` the current value was `v`.
- `wasCurrent_last`: the last value is current from its write on.
- `WasCurrent.write`, `WasCurrent.mono`: later writes, and longer periods.
- `WasCurrent.not_superseded`: no write that came after the value was done before the period.
-/

namespace Machine

universe u

variable {β : Type u} {h : List (Int × β)} {since until' : Int} {v : β}

/-- The value was written by `until'`, and the next one, if there is one, not before `since`. -/
def WasCurrent (h : List (Int × β)) (since until' : Int) (v : β) : Prop :=
  ∃ before time after, h = before ++ (time, v) :: after ∧ time ≤ until' ∧
    ∀ p ∈ after.head?, since ≤ p.1

/-- The value that was written last is current. -/
theorem wasCurrent_last {before : List (Int × β)} {time now : Int} (htime : time ≤ now) :
    WasCurrent (before ++ [(time, v)]) now now v :=
  ⟨before, time, [], rfl, htime, by simp⟩

theorem WasCurrent.mono {since' until'' : Int} (hcurrent : WasCurrent h since until' v)
    (hsince : since' ≤ since) (huntil : until' ≤ until'') : WasCurrent h since' until'' v := by
  obtain ⟨before, time, after, rfl, htime, hnext⟩ := hcurrent
  exact ⟨before, time, after, rfl, htime.trans huntil, fun p hp => hsince.trans (hnext p hp)⟩

/-- A later write does not change what was current. -/
theorem WasCurrent.write {time : Int} {w : β} (hcurrent : WasCurrent h since until' v)
    (hsince : since ≤ time) : WasCurrent (h ++ [(time, w)]) since until' v := by
  obtain ⟨before, time', after, rfl, htime, hnext⟩ := hcurrent
  refine ⟨before, time', after ++ [(time, w)], by simp, htime, fun p hp => ?_⟩
  cases after with
  | nil =>
    obtain rfl := Option.some.inj hp
    exact hsince
  | cons q after => exact hnext p hp

/-- What was written before the period is not newer than the value: the value is the last one
written before the period, or it comes after it. -/
theorem WasCurrent.not_superseded (hcurrent : WasCurrent h since until' v)
    (hsorted : h.Pairwise fun p q => p.1 ≤ q.1) :
    ∃ before time after, h = before ++ (time, v) :: after ∧ time ≤ until' ∧
      ∀ p ∈ after, since ≤ p.1 := by
  obtain ⟨before, time, after, rfl, htime, hnext⟩ := hcurrent
  refine ⟨before, time, after, rfl, htime, fun p hp => ?_⟩
  cases after with
  | nil => cases hp
  | cons q after =>
    have hq : since ≤ q.1 := hnext q rfl
    rcases List.mem_cons.mp hp with rfl | hp
    · exact hq
    · have htail := (List.pairwise_cons.mp (List.pairwise_append.mp hsorted).2.1).2
      exact hq.trans ((List.pairwise_cons.mp htail).1 p hp)

end Machine
