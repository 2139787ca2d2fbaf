import Mathlib.Data.List.Basic

/-!
# Insertion-ordered dictionaries

A Python `dict` as the list of its items. Lookup takes the first item with the
key, `set` replaces it in place and appends a new key at the end, so both agree
with Python on every list whose keys are distinct, and the two read-over-write
laws (`get_set_self`, `get_set_of_ne`) hold for every list.
-/

namespace Python

universe u v

/-- The items of a dictionary, in insertion order. -/
abbrev Dict (κ : Type u) (β : Type v) := List (κ × β)

namespace Dict

variable {κ : Type u} {β : Type v} [DecidableEq κ]

/-- `d.get(k)`, without default. -/
def get : Dict κ β → κ → Option β
  | [], _ => none
  | (a, b) :: d, k => if a = k then some b else get d k

/-- `k in d`. -/
def contains (d : Dict κ β) (k : κ) : Bool := (get d k).isSome

/-- `d[k] = v`. -/
def set : Dict κ β → κ → β → Dict κ β
  | [], k, v => [(k, v)]
  | (a, b) :: d, k, v => if a = k then (a, v) :: d else (a, b) :: set d k v

/-- `del d[k]`, where a missing key is no error. -/
def erase (d : Dict κ β) (k : κ) : Dict κ β := d.filter fun p => p.1 ≠ k

/-- `d.update(e)`. -/
def update (d e : Dict κ β) : Dict κ β := e.foldl (fun d p => set d p.1 p.2) d

@[simp] theorem get_nil (k : κ) : get ([] : Dict κ β) k = none := rfl

/-- What a lookup finds is an item. -/
theorem mem_of_get {d : Dict κ β} {k : κ} {v : β} (h : get d k = some v) : (k, v) ∈ d := by
  induction d with
  | nil => cases h
  | cons p d ih =>
    obtain ⟨a, b⟩ := p
    by_cases ha : a = k
    · simp only [get, ha, if_true, Option.some.injEq] at h
      rw [ha, h]
      exact List.mem_cons_self
    · simp only [get, ha, if_false] at h
      exact List.mem_cons_of_mem _ (ih h)

@[simp] theorem get_set_self (d : Dict κ β) (k : κ) (v : β) : get (set d k v) k = some v := by
  induction d with
  | nil => simp [set, get]
  | cons p d ih =>
    obtain ⟨a, b⟩ := p
    by_cases ha : a = k
    · simp [set, get, ha]
    · simp [set, get, ha, ih]

@[simp] theorem get_set_of_ne (d : Dict κ β) {k j : κ} (v : β) (h : j ≠ k) :
    get (set d k v) j = get d j := by
  induction d with
  | nil => simp [set, get, h.symm]
  | cons p d ih =>
    obtain ⟨a, b⟩ := p
    by_cases ha : a = k
    · simp [set, get, ha, h.symm]
    · simp [set, get, ha, ih]

theorem set_set (d : Dict κ β) (k : κ) (v w : β) : set (set d k v) k w = set d k w := by
  induction d with
  | nil => simp [set]
  | cons p d ih =>
    obtain ⟨a, b⟩ := p
    by_cases ha : a = k
    · simp [set, ha]
    · simp [set, ha, ih]

/-- What a lookup finds, stored again. -/
theorem set_of_get {d : Dict κ β} {k : κ} {v : β} (h : get d k = some v) : set d k v = d := by
  induction d with
  | nil => cases h
  | cons p d ih =>
    obtain ⟨a, b⟩ := p
    by_cases ha : a = k
    · simp only [get, if_pos ha, Option.some.injEq] at h
      rw [set, if_pos ha, h]
    · rw [get, if_neg ha] at h
      rw [set, if_neg ha, ih h]

@[simp] theorem erase_erase (d : Dict κ β) (k : κ) : erase (erase d k) k = erase d k := by
  simp [erase, List.filter_filter]

@[simp] theorem erase_set (d : Dict κ β) (k : κ) (v : β) : erase (set d k v) k = erase d k := by
  induction d with
  | nil => simp [set, erase]
  | cons p d ih =>
    obtain ⟨a, b⟩ := p
    by_cases ha : a = k
    · simp [set, erase, ha]
    · simpa [set, erase, ha] using ih

/-- An entry that stays is set before or after the erasure of another one. -/
theorem erase_set_of_ne (d : Dict κ β) {k j : κ} (v : β) (h : k ≠ j) :
    erase (set d k v) j = set (erase d j) k v := by
  induction d with
  | nil => simp [set, erase, h]
  | cons p d ih =>
    obtain ⟨a, b⟩ := p
    by_cases ha : a = k
    · subst ha
      simp [set, erase, h]
    · by_cases hj : a = j
      · simpa [set, erase, ha, hj, h.symm] using ih
      · simpa [set, erase, ha, hj] using ih

theorem get_erase_of_ne (d : Dict κ β) {k j : κ} (h : k ≠ j) : get (erase d j) k = get d k := by
  induction d with
  | nil => rfl
  | cons p d ih =>
    obtain ⟨a, b⟩ := p
    by_cases ha : a = k
    · subst ha
      simp [get, erase, h]
    · by_cases hj : a = j
      · simpa [get, erase, ha, hj, h.symm] using ih
      · simpa [get, erase, ha, hj] using ih

/-- The items whose keys satisfy `p`. -/
theorem get_filter (d : Dict κ β) (p : κ → Bool) (k : κ) :
    get (d.filter fun q => p q.1) k = if p k then get d k else none := by
  induction d with
  | nil => simp
  | cons q d ih =>
    obtain ⟨a, b⟩ := q
    by_cases ha : a = k
    · subst ha
      cases hp : p a with
      | true => simp [hp, get]
      | false => simpa [hp] using ih
    · cases hp : p a with
      | true => simpa [hp, get, ha] using ih
      | false => simpa [hp, get, ha] using ih

theorem get_eq_none {d : Dict κ β} {k : κ} (h : k ∉ d.map Prod.fst) : get d k = none := by
  cases hget : get d k with
  | none => rfl
  | some v => exact absurd (List.mem_map_of_mem (mem_of_get hget)) h

@[simp] theorem get_erase_self (d : Dict κ β) (k : κ) : get (erase d k) k = none := by
  refine get_eq_none fun hk => ?_
  obtain ⟨p, hp, heq⟩ := List.mem_map.mp hk
  exact of_decide_eq_true (List.mem_filter.mp hp).2 heq

theorem nodup_keys_erase {d : Dict κ β} (h : (d.map Prod.fst).Nodup) (k : κ) :
    ((erase d k).map Prod.fst).Nodup :=
  h.sublist (List.filter_sublist.map Prod.fst)

/-- A key is contained if it is one of the keys. -/
theorem contains_iff {d : Dict κ β} {k : κ} : contains d k = true ↔ k ∈ d.map Prod.fst := by
  constructor
  · intro h
    obtain ⟨v, hv⟩ := Option.isSome_iff_exists.mp h
    exact List.mem_map_of_mem (mem_of_get hv)
  · intro h
    by_contra hnot
    induction d with
    | nil => cases h
    | cons p d ih =>
      obtain ⟨a, b⟩ := p
      by_cases ha : a = k
      · exact hnot (by simp [contains, get, ha])
      · refine ih ((List.mem_cons.mp h).resolve_left (Ne.symm ha)) fun hd => hnot ?_
        simpa [contains, get, ha] using hd

theorem set_eq_append {d : Dict κ β} {k : κ} (v : β) (h : k ∉ d.map Prod.fst) :
    set d k v = d ++ [(k, v)] := by
  induction d with
  | nil => rfl
  | cons p d ih =>
    obtain ⟨a, b⟩ := p
    obtain ⟨hne, hnotin⟩ := not_or.mp (List.mem_cons.not.mp h)
    rw [set, if_neg (Ne.symm hne), ih hnotin]
    rfl

theorem mem_of_mem_set {d : Dict κ β} {k : κ} {v : β} {p : κ × β} (h : p ∈ set d k v) :
    p ∈ d ∨ p = (k, v) := by
  induction d with
  | nil => exact .inr (List.mem_singleton.mp h)
  | cons q d ih =>
    obtain ⟨a, b⟩ := q
    by_cases ha : a = k
    · rw [set, if_pos ha] at h
      rcases List.mem_cons.mp h with rfl | h
      · exact .inr (by rw [ha])
      · exact .inl (List.mem_cons_of_mem _ h)
    · rw [set, if_neg ha] at h
      rcases List.mem_cons.mp h with rfl | h
      · exact .inl List.mem_cons_self
      · exact (ih h).imp_left (List.mem_cons_of_mem _)

/-- A new key comes last, and one that is there keeps its place. -/
theorem keys_set (d : Dict κ β) (k : κ) (v : β) :
    (set d k v).map Prod.fst =
      if k ∈ d.map Prod.fst then d.map Prod.fst else d.map Prod.fst ++ [k] := by
  induction d with
  | nil => simp [set]
  | cons p d ih =>
    obtain ⟨a, b⟩ := p
    by_cases ha : a = k
    · simp [set, ha]
    · simp only [set, if_neg ha, List.map_cons, ih, List.mem_cons, Ne.symm ha, false_or]
      split
      · rfl
      · rfl

theorem nodup_keys_set {d : Dict κ β} (h : (d.map Prod.fst).Nodup) (k : κ) (v : β) :
    ((set d k v).map Prod.fst).Nodup := by
  rw [keys_set]
  split
  · exact h
  · rename_i hk
    refine List.nodup_append.mpr ⟨h, by simp, fun a ha b hb hab => hk ?_⟩
    rw [← List.mem_singleton.mp hb, ← hab]
    exact ha

/-- An item is what a lookup finds, if no key is there twice. -/
theorem get_of_mem {d : Dict κ β} (h : (d.map Prod.fst).Nodup) {k : κ} {v : β} (hmem : (k, v) ∈ d) :
    get d k = some v := by
  induction d with
  | nil => cases hmem
  | cons p d ih =>
    obtain ⟨a, b⟩ := p
    rw [List.map_cons, List.nodup_cons] at h
    rcases List.mem_cons.mp hmem with heq | hmem
    · cases heq
      exact if_pos rfl
    · have hne : a ≠ k := by
        rintro rfl
        exact h.1 (List.mem_map.mpr ⟨_, hmem, rfl⟩)
      rw [get, if_neg hne]
      exact ih h.2 hmem

/-- The values are converted before or after one is stored. -/
theorem map_set {γ : Type v} (f : β → γ) (d : Dict κ β) (k : κ) (v : β) :
    (set d k v).map (fun p => (p.1, f p.2)) = set (d.map fun p => (p.1, f p.2)) k (f v) := by
  induction d with
  | nil => rfl
  | cons p d ih =>
    obtain ⟨a, b⟩ := p
    by_cases ha : a = k
    · simp [set, ha]
    · simpa [set, ha] using ih

/-- What is merged in goes before what was there. -/
theorem get_update (d : Dict κ β) {e : Dict κ β} (h : (e.map Prod.fst).Nodup) (k : κ) :
    get (update d e) k = (get e k).or (get d k) := by
  induction e generalizing d with
  | nil => rfl
  | cons p e ih =>
    obtain ⟨a, b⟩ := p
    obtain ⟨hnotin, hnodup⟩ := List.nodup_cons.mp h
    show get (update (set d a b) e) k = _
    rw [ih (set d a b) hnodup]
    by_cases ha : a = k
    · subst ha
      simp [get, get_eq_none hnotin]
    · simp [get, ha, get_set_of_ne d b (Ne.symm ha)]

/-- Storing a value keeps every key. -/
theorem contains_set (d : Dict κ β) (k j : κ) (v : β) :
    contains (set d k v) j = (decide (j = k) || contains d j) := by
  by_cases h : j = k
  · subst h
    simp [contains]
  · simp [contains, h]

end Dict

end Python
