import WellboreDdms.Records.Record
import Mathlib.Logic.Function.Basic

/-!
# The record storage

The storage service keeps every version of a record. The last one written is the
latest; a deleted record is not found until it is written again, a purged one has
lost its versions.

- `RecordStore`: the versions of every record, each stored under its own id.
- `find`, `add`, `delete`: what `get_record`, `create_or_update_records` and the
  deletions do to them.
- `numbered`: a version by its number, which only versions of that number change.
-/

namespace WellboreDdms

open Python

/-- The versions of each record, the latest first. -/
structure RecordStore where
  versions : String → List Record
  deleted : String → Bool
  keyed : ∀ k, ∀ r ∈ versions k, r.id = some k

/-- The id of a record, if it is not falsy. -/
def Record.ownId (r : Record) : Option String := r.id.filter fun k => k ≠ ""

/-- The id a record is stored under: its own, or the new one if it has none. -/
def Record.storedId (r : Record) (newId : String) : String := r.ownId.getD newId

theorem Record.ownId_of_id {r : Record} {k : String} (h : r.id = some k) (hne : k ≠ "") :
    r.ownId = some k := by
  rw [ownId, h, Option.filter_some]
  exact if_pos (decide_eq_true hne)

/-- A record with an id of its own is stored under it. -/
theorem Record.storedId_of_id {r : Record} {k : String} (h : r.id = some k) (hne : k ≠ "")
    (newId : String) : r.storedId newId = k := by
  rw [storedId, ownId_of_id h hne]
  rfl

/-- The version of `r` that the storage numbers `version`. -/
def Record.stored (r : Record) (newId : String) (version : Int) : Record :=
  { r with id := some (r.storedId newId), version := some version }

namespace RecordStore

/-- No record at all. -/
def empty : RecordStore where
  versions := fun _ => []
  deleted := fun _ => false
  keyed := nofun

/-- `get_record`, or `get_record_version` for a version other than 0. -/
def find (s : RecordStore) (k : String) (version : Option Int) : Option Record :=
  if s.deleted k then none
  else
    match version with
    | some v =>
      if v = 0 then (s.versions k).head? else (s.versions k).find? fun r => r.version = some v
    | none => (s.versions k).head?

/-- A new version of a record, which is live again. -/
def add (s : RecordStore) (newId : String) (version : Int) (r : Record) : RecordStore where
  versions := Function.update s.versions (r.storedId newId)
    (r.stored newId version :: s.versions (r.storedId newId))
  deleted := Function.update s.deleted (r.storedId newId) false
  keyed := by
    intro k t ht
    by_cases hk : k = r.storedId newId
    · subst hk
      rw [Function.update_self] at ht
      rcases List.mem_cons.mp ht with rfl | ht
      · rfl
      · exact s.keyed _ t ht
    · rw [Function.update_of_ne hk] at ht
      exact s.keyed k t ht

/-- A record is marked as deleted; a purge removes its versions. -/
def delete (s : RecordStore) (k : String) (purge : Bool) : RecordStore where
  versions := if purge then Function.update s.versions k [] else s.versions
  deleted := Function.update s.deleted k true
  keyed := by
    intro j t ht
    cases purge with
    | false => exact s.keyed j t ht
    | true =>
      by_cases hj : j = k
      · simp [hj] at ht
      · simp only [if_true, Function.update_of_ne hj] at ht
        exact s.keyed j t ht

theorem add_versions_self (s : RecordStore) (newId : String) (version : Int) (r : Record) :
    (s.add newId version r).versions (r.storedId newId) =
      r.stored newId version :: s.versions (r.storedId newId) := Function.update_self ..

theorem add_versions_of_ne (s : RecordStore) (newId : String) (version : Int) (r : Record)
    {k : String} (h : k ≠ r.storedId newId) :
    (s.add newId version r).versions k = s.versions k := Function.update_of_ne h ..

/-- What was written last is the latest version. -/
theorem find_add_self (s : RecordStore) (newId : String) (version : Int) (r : Record) :
    (s.add newId version r).find (r.storedId newId) none = some (r.stored newId version) := by
  have hdeleted : (s.add newId version r).deleted (r.storedId newId) = false :=
    Function.update_self ..
  rw [find, hdeleted, add_versions_self]
  rfl

theorem find_add_of_ne (s : RecordStore) (newId : String) (version : Int) (r : Record)
    {k : String} (h : k ≠ r.storedId newId) :
    (s.add newId version r).find k none = s.find k none := by
  have hdeleted : (s.add newId version r).deleted k = s.deleted k := Function.update_of_ne h ..
  rw [find, hdeleted, add_versions_of_ne s newId version r h]
  rfl

/-- A record that is found is a version there is. -/
theorem mem_of_find {s : RecordStore} {k : String} {version : Option Int} {r : Record}
    (h : s.find k version = some r) : r ∈ s.versions k := by
  unfold find at h
  split at h
  · cases h
  · split at h
    · split at h
      · exact List.mem_of_head? h
      · exact List.mem_of_find?_eq_some h
    · exact List.mem_of_head? h

/-- A record that was found is stored again under the same id. -/
theorem storedId_of_find {s : RecordStore} {k : String} {version : Option Int} {r : Record}
    (h : s.find k version = some r) : r.id = some k :=
  s.keyed k r (mem_of_find h)

/-! ## Versions by number -/

/-- The version of a record with the number `v`; a deleted record keeps it. -/
def numbered (s : RecordStore) (k : String) (v : Int) : Option Record :=
  (s.versions k).find? fun r => r.version = some v

/-- A version is found by its number unless the record is deleted. -/
theorem find_eq_numbered {v : Int} (hv : v ≠ 0) (s : RecordStore) (k : String) :
    s.find k (some v) = if s.deleted k then none else s.numbered k v := by
  simp only [find, numbered, if_neg hv]

/-- A new version leaves those of other numbers. -/
theorem numbered_add_of_ne {v version : Int} (h : version ≠ v) (s : RecordStore) (newId : String)
    (r : Record) (k : String) : (s.add newId version r).numbered k v = s.numbered k v := by
  by_cases hk : k = r.storedId newId
  · subst hk
    have hne : ¬ (r.stored newId version).version = some v := fun heq => h (Option.some.inj heq)
    rw [numbered, add_versions_self, List.find?_cons_of_neg (by simpa using hne)]
    rfl
  · rw [numbered, add_versions_of_ne s newId version r hk]
    rfl

/-- What is left after a deletion was there before it. -/
theorem numbered_of_delete {s : RecordStore} {j k : String} {purge : Bool} {v : Int} {r : Record}
    (h : (s.delete j purge).numbered k v = some r) : s.numbered k v = some r := by
  cases purge with
  | false => exact h
  | true =>
    by_cases hk : k = j
    · subst hk
      have hnil : (s.delete k true).versions k = [] := Function.update_self ..
      rw [numbered, hnil] at h
      cases h
    · have hsame : (s.delete j true).versions k = s.versions k := Function.update_of_ne hk ..
      rw [numbered, hsame] at h
      exact h

/-- The latest version is found under its number. -/
theorem find_version_of_latest {s : RecordStore} {k : String} {latest : Record} {v : Int}
    (h : s.find k none = some latest) (hv : latest.version = some v) :
    s.find k (some v) = some latest := by
  unfold find at h ⊢
  cases hdeleted : s.deleted k with
  | true =>
    rw [hdeleted] at h
    cases h
  | false =>
    rw [hdeleted] at h
    have hhead : (s.versions k).head? = some latest := h
    obtain ⟨rest, hrest⟩ := List.head?_eq_some_iff.mp hhead
    show (if v = 0 then (s.versions k).head? else (s.versions k).find? _) = some latest
    split
    · exact hhead
    · rw [hrest]
      exact List.find?_cons_of_pos (decide_eq_true hv)

end RecordStore

end WellboreDdms
