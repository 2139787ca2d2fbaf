import Mathlib.Data.List.Basic
import Mathlib.Data.List.Induction

/-!
# Histories of a keyed store

What was written under a key since the key was last deleted, for any history of writes and
deletions.

- `since k log`: the values, in the order they were written.
- `since_wrote`, `mem_since_wrote`, `since_deleted`: one more entry; entries of other keys change
  nothing.
- `since_ne_nil_iff`: a key is `Live` if it was written and not deleted since.
-/

namespace Machine

universe u v

variable {κ : Type u} {β : Type v}

/-- What has happened to a key. -/
inductive Entry (κ : Type u) (β : Type v) where
  | wrote (k : κ) (v : β)
  | deleted (k : κ)

/-- A key that was written and not deleted since. -/
def Live (k : κ) (log : List (Entry κ β)) : Prop :=
  ∃ before v after, log = before ++ .wrote k v :: after ∧ .deleted k ∉ after

variable [DecidableEq κ]

/-- What an entry makes of the values of `k`. -/
def Entry.apply (k : κ) (values : List β) : Entry κ β → List β
  | .wrote j v => if j = k then values ++ [v] else values
  | .deleted j => if j = k then [] else values

/-- The values written under `k` since it was last deleted. -/
def since (k : κ) (log : List (Entry κ β)) : List β := log.foldl (Entry.apply k) []

@[simp] theorem since_nil (k : κ) : since k ([] : List (Entry κ β)) = [] := rfl

/-- The last entry decides what it does to the values before it. -/
theorem since_append (k : κ) (log : List (Entry κ β)) (entry : Entry κ β) :
    since k (log ++ [entry]) = entry.apply k (since k log) := by
  rw [since, List.foldl_append]
  rfl

theorem since_wrote (k : κ) (log : List (Entry κ β)) (v : β) :
    since k (log ++ [.wrote k v]) = since k log ++ [v] := by
  rw [since_append, Entry.apply, if_pos rfl]

theorem since_wrote_of_ne {j k : κ} (h : j ≠ k) (log : List (Entry κ β)) (v : β) :
    since k (log ++ [.wrote j v]) = since k log := by
  rw [since_append, Entry.apply, if_neg h]

theorem mem_since_wrote {j k : κ} {log : List (Entry κ β)} {v w : β} :
    w ∈ since k (log ++ [.wrote j v]) ↔ w ∈ since k log ∨ (j = k ∧ w = v) := by
  by_cases hj : j = k
  · rw [hj, since_wrote, List.mem_append, List.mem_singleton]
    simp
  · rw [since_wrote_of_ne hj]
    simp [hj]

theorem since_deleted (k : κ) (log : List (Entry κ β)) : since k (log ++ [.deleted k]) = [] := by
  rw [since_append, Entry.apply, if_pos rfl]

theorem since_deleted_of_ne {j k : κ} (h : j ≠ k) (log : List (Entry κ β)) :
    since k (log ++ [.deleted j]) = since k log := by
  rw [since_append, Entry.apply, if_neg h]

/-- Several deletions. -/
theorem since_append_deleted (k : κ) (log : List (Entry κ β)) (ks : List κ) :
    since k (log ++ ks.map .deleted) = if k ∈ ks then [] else since k log := by
  induction ks using List.reverseRecOn with
  | nil => simp
  | append_singleton ks j ih =>
    rw [List.map_append, List.map_singleton, ← List.append_assoc]
    by_cases hj : j = k
    · subst hj
      rw [since_deleted, if_pos (List.mem_append_right ks List.mem_cons_self)]
    · have hmem : k ∈ ks ++ [j] ↔ k ∈ ks := by simp [Ne.symm hj]
      rw [since_deleted_of_ne hj, ih]
      simp only [hmem]

/-- A member of a list is its last one, or lies before it. -/
theorem concat_eq_append_cons_iff {α : Type u} {log before after : List α} {last entry : α} :
    log ++ [last] = before ++ entry :: after ↔
      (after = [] ∧ log = before ∧ last = entry) ∨
        ∃ after', after = after' ++ [last] ∧ log = before ++ entry :: after' := by
  rcases List.eq_nil_or_concat after with rfl | ⟨after', last', rfl⟩
  · simp
  · rw [List.concat_eq_append, ← List.cons_append, ← List.append_assoc]
    constructor
    · intro h
      obtain ⟨hlog, hlast⟩ := List.append_inj' h rfl
      exact Or.inr ⟨after', by rw [List.singleton_inj.mp hlast], hlog⟩
    · rintro (⟨h, -⟩ | ⟨after'', h, hlog⟩)
      · exact absurd h (by simp)
      · obtain ⟨hafter, hlast⟩ := List.append_inj' h rfl
        rw [hlog, hafter, hlast]

/-- **A key is live** if and only if something was written under it since. -/
theorem since_ne_nil_iff {k : κ} {log : List (Entry κ β)} : since k log ≠ [] ↔ Live k log := by
  unfold Live
  -- induction from the end: only the last entry of the key decides
  induction log using List.reverseRecOn with
  | nil => simp
  | append_singleton log entry ih =>
    simp only [concat_eq_append_cons_iff]
    cases entry with
    | wrote j v =>
      by_cases hj : j = k
      · subst hj
        rw [since_wrote]
        exact ⟨fun _ => ⟨log, v, [], Or.inl ⟨rfl, rfl, rfl⟩, List.not_mem_nil⟩, fun _ => by simp⟩
      · rw [since_wrote_of_ne hj, ih]
        constructor
        · rintro ⟨before, w, after, rfl, hafter⟩
          exact ⟨before, w, _, Or.inr ⟨after, rfl, rfl⟩, by simp [hafter]⟩
        · rintro ⟨before, w, after, ⟨-, -, heq⟩ | ⟨after', rfl, hlog⟩, hafter⟩
          · cases heq
            exact absurd rfl hj
          · exact ⟨before, w, after', hlog, fun h => hafter (List.mem_append_left _ h)⟩
    | deleted j =>
      by_cases hj : j = k
      · subst hj
        rw [since_deleted]
        refine iff_of_false (fun h => h rfl) ?_
        rintro ⟨before, w, after, ⟨-, -, heq⟩ | ⟨after', rfl, -⟩, hafter⟩
        · cases heq
        · exact hafter (List.mem_append_right _ List.mem_cons_self)
      · rw [since_deleted_of_ne hj, ih]
        constructor
        · rintro ⟨before, w, after, rfl, hafter⟩
          refine ⟨before, w, _, Or.inr ⟨after, rfl, rfl⟩, fun h => ?_⟩
          rcases List.mem_append.mp h with h | h
          · exact hafter h
          · cases List.mem_singleton.mp h
            exact hj rfl
        · rintro ⟨before, w, after, ⟨-, -, heq⟩ | ⟨after', rfl, hlog⟩, hafter⟩
          · cases heq
          · exact ⟨before, w, after', hlog, fun h => hafter (List.mem_append_left _ h)⟩

end Machine
