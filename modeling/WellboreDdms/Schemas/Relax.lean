import WellboreDdms.Python.Document
import WellboreDdms.Python.Operations
import WellboreDdms.Schemas.Manager

/-!
# The relaxed GeoJSON constraint

The feature collections of a schema ask for properties and a geometry in every feature; the
service takes both names out of the lists of required ones before it uses the schema.

- `GeojsonDocument`: each of the three definitions is absent, or describes its features.
- `Relaxes`: the call returns, the names are gone, the rest of the document is as it was, and
  a second call changes nothing.
- `relaxes_iff`: when that is so. A list that is absent is an exception, and of a name that is
  there twice one is left.
-/

namespace WellboreDdms

open Python

open Value (getIn mapIn eqText_iff getIn_cons getIn_append getIn_mapIn_self getIn_mapIn_of_ne
  mapIn_dict mapIn_eq_self mapIn_congr foldl_mapIn_cons foldl_mapIn_eq_self)

/-- The description of the features in a collection, below the definitions and in the document. -/
def itemsIn (name : String) : List String := [name, "properties", "features", "items"]

/-- Where the items of a collection are. -/
def itemsPath (name : String) : List String := "definitions" :: itemsIn name

/-- The list of its required names. -/
def requiredIn (name : String) : List String := itemsIn name ++ ["required"]

/-- Where their required names are. -/
def requiredPath (name : String) : List String := "definitions" :: requiredIn name

/-- Each of the three definitions is absent, or describes its features as an object. -/
structure GeojsonDocument (schema : Schema) : Prop where
  definitions : ∀ v, Dict.get schema "definitions" = some v → ∃ items, v = .dict items
  features : ∀ name ∈ collectionsToUpdate, getIn ["definitions", name] (.dict schema) = none ∨
    ∃ items, getIn (itemsPath name) (.dict schema) = some (.dict items) ∧
      ∀ r, Dict.get items "required" = some r → ∃ xs, r = .list xs

/-- A list without the two names. -/
def dropNames : Value → Value
  | .list xs => .list (xs.filter fun x => !x.eqText "properties" && !x.eqText "geometry")
  | v => v

/-- The document without the constraint; nothing else is changed. -/
def withoutConstraint (document : Value) : Value :=
  collectionsToUpdate.foldl (fun v name => mapIn dropNames (requiredPath name) v) document

/-- What the call is for. -/
structure Relaxes (schema relaxed : Schema) : Prop where
  returns : relaxGeojsonConstraint schema = .ok relaxed
  relaxed_eq : Value.dict relaxed = withoutConstraint (.dict schema)
  again : relaxGeojsonConstraint relaxed = .ok relaxed

/-- Each collection that is defined has a list of required names, with neither of the two
more than once. -/
def NamedOnce (schema : Schema) : Prop :=
  ∀ name ∈ collectionsToUpdate, getIn ["definitions", name] (.dict schema) ≠ none →
    ∃ xs, getIn (requiredPath name) (.dict schema) = some (.list xs) ∧
      xs.countP (fun x => x.eqText "properties") ≤ 1 ∧
      xs.countP (fun x => x.eqText "geometry") ≤ 1

/-! ## Names in a list -/

theorem removeItem_eq (s : String) (xs : List Value) :
    removeItem s xs = xs.eraseP fun x => x.eqText s := by
  unfold removeItem
  congr 1
  funext v
  cases v <;> rfl

section

variable {α : Type} {p q : α → Bool}

theorem countP_eraseP_self (xs : List α) : (xs.eraseP p).countP p = xs.countP p - 1 := by
  induction xs with
  | nil => rfl
  | cons x xs ih =>
    cases hx : p x with
    | true => simp [hx]
    | false => simp [hx, ih]

theorem countP_eraseP_of_disjoint (h : ∀ x, p x = true → q x = false) (xs : List α) :
    (xs.eraseP p).countP q = xs.countP q := by
  induction xs with
  | nil => rfl
  | cons x xs ih =>
    cases hx : p x with
    | true => simp [hx, h x hx]
    | false => simp [hx, List.countP_cons, ih]

/-- Removing the first occurrence removes all of them, if there is one at most. -/
theorem eraseP_eq_filter {xs : List α} (h : xs.countP p ≤ 1) :
    xs.eraseP p = xs.filter fun x => !p x := by
  induction xs with
  | nil => rfl
  | cons x xs ih =>
    cases hx : p x with
    | true =>
      rw [List.countP_cons_of_pos hx] at h
      have hnone : xs.countP p = 0 := by omega
      have hkeep : xs.filter (fun x => !p x) = xs := by
        rw [List.filter_eq_self]
        intro y hy
        simpa using List.countP_eq_zero.mp hnone y hy
      simp [hx, hkeep]
    | false =>
      rw [List.countP_cons_of_neg (by simp [hx])] at h
      simp [hx, ih h]

/-- Both names are removed wherever they occur if and only if each occurs once at most. -/
theorem eraseP_eraseP_eq_filter_iff (h : ∀ x, p x = true → q x = false) {xs : List α} :
    (xs.eraseP p).eraseP q = xs.filter (fun x => !p x && !q x) ↔
      xs.countP p ≤ 1 ∧ xs.countP q ≤ 1 := by
  have hsymm : ∀ x, q x = true → p x = false := by
    intro x hx
    by_contra hp
    rw [h x (by simpa using hp)] at hx
    cases hx
  constructor
  · intro heq
    -- after one erasure each, none is left if and only if there was one at most
    have hp : ((xs.eraseP p).eraseP q).countP p = 0 := by
      rw [heq, List.countP_eq_zero]
      intro x hx
      have hx' := (List.mem_filter.mp hx).2
      simp only [Bool.and_eq_true, Bool.not_eq_true'] at hx'
      simp [hx'.1]
    have hq : ((xs.eraseP p).eraseP q).countP q = 0 := by
      rw [heq, List.countP_eq_zero]
      intro x hx
      have hx' := (List.mem_filter.mp hx).2
      simp only [Bool.and_eq_true, Bool.not_eq_true'] at hx'
      simp [hx'.2]
    rw [countP_eraseP_of_disjoint hsymm, countP_eraseP_self] at hp
    rw [countP_eraseP_self, countP_eraseP_of_disjoint h] at hq
    omega
  · rintro ⟨hp, hq⟩
    rw [eraseP_eq_filter hp]
    have hcount : (xs.filter fun x => !p x).countP q ≤ 1 := List.filter_sublist.countP_le.trans hq
    rw [eraseP_eq_filter hcount, List.filter_filter]
    exact List.filter_congr fun x _ => Bool.and_comm _ _

end

/-- A list with the first occurrences of both names removed. -/
def eraseNames : Value → Value
  | .list xs => .list (removeItem "geometry" (removeItem "properties" xs))
  | v => v

/-- Removing the first occurrences removes all if there is one of each at most. -/
theorem eraseNames_eq_dropNames_iff {xs : List Value} :
    eraseNames (.list xs) = dropNames (.list xs) ↔
      xs.countP (fun x => x.eqText "properties") ≤ 1 ∧
        xs.countP (fun x => x.eqText "geometry") ≤ 1 := by
  have hdisjoint : ∀ x : Value, x.eqText "properties" = true → x.eqText "geometry" = false := by
    intro x hx
    rw [eqText_iff.mp hx]
    decide
  rw [← eraseP_eraseP_eq_filter_iff hdisjoint, eraseNames, dropNames, removeItem_eq, removeItem_eq,
    Value.list.injEq]

/-- Once all are removed, there is nothing left to remove. -/
theorem eraseNames_dropNames (xs : List Value) :
    eraseNames (dropNames (.list xs)) = dropNames (.list xs) := by
  have hnone : ∀ s, s = "properties" ∨ s = "geometry" →
      (xs.filter fun x => !x.eqText "properties" && !x.eqText "geometry").eraseP
        (fun x => x.eqText s) =
      xs.filter fun x => !x.eqText "properties" && !x.eqText "geometry" := by
    intro s hs
    rw [List.eraseP_eq_self_iff]
    intro x hx
    have hx' := (List.mem_filter.mp hx).2
    simp only [Bool.and_eq_true, Bool.not_eq_true'] at hx'
    rcases hs with rfl | rfl
    · simp [hx'.1]
    · simp [hx'.2]
  rw [dropNames, eraseNames, removeItem_eq, removeItem_eq, hnone _ (Or.inl rfl),
    hnone _ (Or.inr rfl)]

/-! ## One collection -/

section

variable {f : Value → Except Raised Value} {g : Value → Value}

/-- A change in place, where the place is there. -/
theorem updateIn_of_getIn {p : List String} {v w : Value} (hget : getIn p v = some w)
    (hf : f w = .ok (g w)) : updateIn f p v = .ok (mapIn g p v) := by
  induction p generalizing v with
  | nil =>
    cases hget
    exact hf
  | cons key p ih =>
    cases v with
    | dict items =>
      cases hitem : Dict.get items key with
      | some x =>
        rw [getIn_cons, hitem] at hget
        simp only [updateIn, mapIn, hitem, Option.getD_some, ih hget, bind, Except.bind]
        rfl
      | none =>
        rw [getIn_cons, hitem] at hget
        cases hget
    | _ => cases hget

/-- A change of a key that is not there. -/
theorem updateIn_of_absent {p : List String} {key : String} {v : Value}
    {items : Dict String Value} {e : Raised} (hget : getIn p v = some (.dict items))
    (habsent : Dict.get items key = none) (hf : f .none = .error e) :
    updateIn f (p ++ [key]) v = .error e := by
  induction p generalizing v with
  | nil =>
    cases hget
    simp [updateIn, habsent, hf, bind, Except.bind]
  | cons k p ih =>
    cases v with
    | dict items' =>
      cases hitem : Dict.get items' k with
      | some x =>
        rw [getIn_cons, hitem] at hget
        simp only [List.cons_append, updateIn, hitem, Option.getD_some, ih hget, bind, Except.bind]
      | none =>
        rw [getIn_cons, hitem] at hget
        cases hget
    | _ => cases hget

end

/-- The collection is absent or describes its features. -/
def Described (definitions : Value) (name : String) : Prop :=
  getIn [name] definitions = none ∨
    ∃ items, getIn (itemsIn name) definitions = some (.dict items) ∧
      ∀ r, Dict.get items "required" = some r → ∃ xs, r = .list xs

/-- The collection is absent or has a list of required names. -/
def Listed (definitions : Value) (name : String) : Prop :=
  getIn [name] definitions = none ∨
    ∃ xs, getIn (requiredIn name) definitions = some (.list xs)

section

variable {name other : String} {d : Dict String Value}

theorem getIn_of_absent {v : Value} (h : getIn [name] v = none) (keys : List String) :
    getIn (name :: keys) v = none := by
  have hsplit := getIn_append [name] keys v
  rw [h] at hsplit
  exact hsplit

/-- A change in one collection is none in another. -/
theorem getIn_mapIn_other (g : Value → Value) (h : other ≠ name) (keys : List String) (v : Value) :
    getIn (other :: keys) (mapIn g (requiredIn name) v) = getIn (other :: keys) v :=
  getIn_mapIn_of_ne g h [] keys _ v

/-- Another collection is described as before. -/
theorem described_mapIn (g : Value → Value) (h : other ≠ name) {v : Value} :
    Described (mapIn g (requiredIn name) v) other ↔ Described v other := by
  rw [Described, Described, itemsIn, getIn_mapIn_other g h, getIn_mapIn_other g h]

theorem listed_mapIn (g : Value → Value) (h : other ≠ name) {v : Value} :
    Listed (mapIn g (requiredIn name) v) other ↔ Listed v other := by
  have hrequired : getIn (requiredIn other) (mapIn g (requiredIn name) v) =
      getIn (requiredIn other) v :=
    getIn_mapIn_other g h ["properties", "features", "items", "required"] v
  rw [Listed, Listed, hrequired, getIn_mapIn_other g h]

/-- A collection with a list is not falsy. -/
theorem truthy_of_getIn {key : String} {keys : List String} {w x : Value}
    (h : getIn (key :: keys) w = some x) : w.truthy = true := by
  cases w with
  | dict items =>
    cases items with
    | nil => cases h
    | cons p items => rfl
  | _ => cases h

/-- The changes the loop makes to one collection. -/
theorem relaxCollection_of_listed (h : Listed (.dict d) name) :
    relaxCollection (.dict d) name = .ok (mapIn eraseNames (requiredIn name) (.dict d)) := by
  rcases h with habsent | ⟨xs, hxs⟩
  · have hget : Dict.get d name = none := by
      cases hget : Dict.get d name with
      | none => rfl
      | some w =>
        rw [getIn_cons, hget] at habsent
        cases habsent
    have hkeep : mapIn eraseNames (requiredIn name) (.dict d) = .dict d := by
      refine mapIn_eq_self fun w hw => ?_
      rw [requiredIn, itemsIn, List.cons_append, getIn_of_absent habsent] at hw
      cases hw
    rw [hkeep]
    simp [relaxCollection, getKey, hget, truthyValue, bind, Except.bind, pure, Except.pure]
  · obtain ⟨w, hw, hrest⟩ := Option.bind_eq_some_iff.mp hxs
    have htruthy : truthyValue (some w) = some w := by
      rw [truthyValue, Option.filter_some, if_pos (truthy_of_getIn hrest)]
    have hrequired : relaxRequiredList (.list xs) = .ok (eraseNames (.list xs)) := rfl
    have hupdate := updateIn_of_getIn (p := requiredIn name) hxs hrequired
    simp only [relaxCollection, getKey, hw, htruthy, bind, Except.bind]
    exact hupdate

/-- Without a list the call raises. -/
theorem listed_of_relaxCollection (hd : Described (.dict d) name) {v : Value}
    (h : relaxCollection (.dict d) name = .ok v) : Listed (.dict d) name := by
  rcases hd with habsent | ⟨items, hitems, hlist⟩
  · exact Or.inl habsent
  · cases hrequired : Dict.get items "required" with
    | some r =>
      obtain ⟨xs, rfl⟩ := hlist r hrequired
      refine Or.inr ⟨xs, ?_⟩
      rw [requiredIn, getIn_append, hitems, Option.bind_some, getIn_cons, hrequired]
      rfl
    | none =>
      obtain ⟨w, hw, hrest⟩ := Option.bind_eq_some_iff.mp hitems
      have htruthy : truthyValue (some w) = some w := by
        rw [truthyValue, Option.filter_some, if_pos (truthy_of_getIn hrest)]
      have hraise := updateIn_of_absent (f := relaxRequiredList) hitems hrequired rfl
      simp only [relaxCollection, getKey, hw, htruthy, bind, Except.bind] at h
      have hsame : updateIn relaxRequiredList [name, "properties", "features", "items", "required"]
          (.dict d) = .error .typeError := hraise
      rw [hsame] at h
      cases h

end

/-! ## All collections -/

/-- The changes the loop makes to the collections of a list. -/
theorem foldlM_relaxCollection {names : List String} (hnodup : names.Nodup) {d : Dict String Value}
    (h : ∀ name ∈ names, Listed (.dict d) name) :
    names.foldlM relaxCollection (.dict d) =
      .ok (names.foldl (fun v name => mapIn eraseNames (requiredIn name) v) (.dict d)) := by
  induction names generalizing d with
  | nil => rfl
  | cons name names ih =>
    obtain ⟨hname, hnames⟩ := List.forall_mem_cons.mp h
    obtain ⟨hnotin, hnodup⟩ := List.nodup_cons.mp hnodup
    obtain ⟨d', hd'⟩ := mapIn_dict eraseNames name ["properties", "features", "items", "required"] d
    have hstep : mapIn eraseNames (requiredIn name) (.dict d) = .dict d' := hd'
    have hrest : ∀ other ∈ names, Listed (.dict d') other := by
      intro other hother
      rw [← hstep, listed_mapIn _ (ne_of_mem_of_not_mem hother hnotin)]
      exact hnames other hother
    rw [List.foldlM_cons, relaxCollection_of_listed hname, List.foldl_cons, hstep]
    exact ih hnodup hrest

/-- Where the loop returns, every collection has been absent or listed. -/
theorem listed_of_foldlM {names : List String} (hnodup : names.Nodup) {d : Dict String Value}
    (hd : ∀ name ∈ names, Described (.dict d) name) {v : Value}
    (h : names.foldlM relaxCollection (.dict d) = .ok v) :
    ∀ name ∈ names, Listed (.dict d) name := by
  induction names generalizing d with
  | nil => exact nofun
  | cons name names ih =>
    obtain ⟨hname, hnames⟩ := List.forall_mem_cons.mp hd
    obtain ⟨hnotin, hnodup⟩ := List.nodup_cons.mp hnodup
    rw [List.foldlM_cons] at h
    obtain ⟨w, hw, h⟩ := Machine.bind_eq_ok.mp h
    have hlisted := listed_of_relaxCollection hname hw
    obtain ⟨d', hd'⟩ := mapIn_dict eraseNames name ["properties", "features", "items", "required"] d
    have hstep : mapIn eraseNames (requiredIn name) (.dict d) = .dict d' := hd'
    rw [relaxCollection_of_listed hlisted, hstep] at hw
    cases hw
    have hrest := ih hnodup (d := d') ?_ h
    · refine List.forall_mem_cons.mpr ⟨hlisted, fun other hother => ?_⟩
      have hother' := hrest other hother
      rwa [← hstep, listed_mapIn _ (ne_of_mem_of_not_mem hother hnotin)] at hother'
    · intro other hother
      rw [← hstep, described_mapIn _ (ne_of_mem_of_not_mem hother hnotin)]
      exact hnames other hother

theorem nodup_collectionsToUpdate : collectionsToUpdate.Nodup := by decide

section

variable {schema : Schema} {d : Dict String Value}

/-- The paths are those within the definitions. -/
theorem getIn_definitions (h : Dict.get schema "definitions" = some (.dict d))
    (keys : List String) : getIn ("definitions" :: keys) (.dict schema) = getIn keys (.dict d) := by
  rw [getIn_cons, h, Option.bind_some]

/-- With definitions, the call is the loop over them. -/
theorem relaxGeojsonConstraint_eq (h : Dict.get schema "definitions" = some (.dict d))
    (relaxed : Schema) :
    relaxGeojsonConstraint schema = .ok relaxed ↔
      ∃ v, collectionsToUpdate.foldlM relaxCollection (.dict d) = .ok v ∧
        relaxed = Dict.set schema "definitions" v := by
  rw [relaxGeojsonConstraint, h]
  simp only [Machine.bind_eq_ok, pure, Except.pure, Except.ok.injEq]
  exact exists_congr fun v => and_congr_right fun _ => eq_comm

/-- Changes of the document at the places of the lists. -/
theorem foldl_requiredPath (g : Value → Value)
    (h : Dict.get schema "definitions" = some (.dict d)) :
    collectionsToUpdate.foldl (fun v name => mapIn g (requiredPath name) v) (.dict schema) =
      .dict (Dict.set schema "definitions"
        (collectionsToUpdate.foldl (fun v name => mapIn g (requiredIn name) v) (.dict d))) :=
  foldl_mapIn_cons g "definitions" requiredIn collectionsToUpdate h

/-- A change at the places of some lists is seen there. -/
theorem getIn_foldl_requiredIn (g : Value → Value) {names : List String} (hnodup : names.Nodup)
    (v : Value) (name : String) :
    getIn (requiredIn name) (names.foldl (fun v name => mapIn g (requiredIn name) v) v) =
      if name ∈ names then (getIn (requiredIn name) v).map g else getIn (requiredIn name) v := by
  induction names generalizing v with
  | nil => rfl
  | cons n names ih =>
    obtain ⟨hnotin, hnodup⟩ := List.nodup_cons.mp hnodup
    rw [List.foldl_cons, ih hnodup]
    by_cases hn : name = n
    · subst hn
      rw [if_neg hnotin, if_pos List.mem_cons_self, getIn_mapIn_self]
    · have hother : getIn (requiredIn name) (mapIn g (requiredIn n) v) =
          getIn (requiredIn name) v :=
        getIn_mapIn_other g hn ["properties", "features", "items", "required"] v
      rw [hother]
      exact if_congr (by simp [hn]) rfl rfl

/-- The changes agree if and only if they do at every list. -/
theorem foldl_requiredIn_congr {g g' : Value → Value} {names : List String} (hnodup : names.Nodup)
    {v : Value} (h : ∀ name ∈ names, ∀ w, getIn (requiredIn name) v = some w → g w = g' w) :
    names.foldl (fun v name => mapIn g (requiredIn name) v) v =
      names.foldl (fun v name => mapIn g' (requiredIn name) v) v := by
  induction names generalizing v with
  | nil => rfl
  | cons n names ih =>
    obtain ⟨hnotin, hnodup⟩ := List.nodup_cons.mp hnodup
    obtain ⟨hn, hnames⟩ := List.forall_mem_cons.mp h
    rw [List.foldl_cons, List.foldl_cons, mapIn_congr hn]
    refine ih hnodup fun name hname w hw => hnames name hname w ?_
    have hother : getIn (requiredIn name) (mapIn g' (requiredIn n) v) = getIn (requiredIn name) v :=
      getIn_mapIn_other g' (ne_of_mem_of_not_mem hname hnotin)
        ["properties", "features", "items", "required"] v
    rwa [hother] at hw

/-- A document without definitions is as relaxed as it can be. -/
theorem relaxes_of_absent (h : Dict.get schema "definitions" = none) : Relaxes schema schema := by
  have hreturns : relaxGeojsonConstraint schema = .ok schema := by rw [relaxGeojsonConstraint, h]
  refine ⟨hreturns, ?_, hreturns⟩
  rw [withoutConstraint, foldl_mapIn_eq_self]
  intro name _ w hw
  rw [requiredPath, getIn_cons, h] at hw
  cases hw

/-! ### A second call -/

theorem listed_mapIn_self {name : String} {v : Value} (h : Listed v name) :
    Listed (mapIn dropNames (requiredIn name) v) name := by
  rcases h with habsent | ⟨xs, hxs⟩
  · have hkeep : mapIn dropNames (requiredIn name) v = v := by
      refine mapIn_eq_self fun w hw => ?_
      rw [requiredIn, itemsIn, List.cons_append, getIn_of_absent habsent] at hw
      cases hw
    rw [hkeep]
    exact Or.inl habsent
  · obtain ⟨ys, hys⟩ : ∃ ys, dropNames (.list xs) = .list ys := ⟨_, rfl⟩
    refine Or.inr ⟨ys, ?_⟩
    rw [getIn_mapIn_self, hxs, Option.map_some, hys]

theorem listed_foldl {names : List String} {v : Value} {name : String} (h : Listed v name) :
    Listed (names.foldl (fun v name => mapIn dropNames (requiredIn name) v) v) name := by
  induction names generalizing v with
  | nil => exact h
  | cons n names ih =>
    rw [List.foldl_cons]
    refine ih ?_
    by_cases hn : name = n
    · subst hn
      exact listed_mapIn_self h
    · exact (listed_mapIn _ hn).mpr h

theorem foldl_requiredIn_dict (g : Value → Value) (names : List String) (d : Dict String Value) :
    ∃ d', names.foldl (fun v name => mapIn g (requiredIn name) v) (.dict d) = .dict d' := by
  induction names generalizing d with
  | nil => exact ⟨d, rfl⟩
  | cons n names ih =>
    obtain ⟨d', hd'⟩ := mapIn_dict g n ["properties", "features", "items", "required"] d
    have hstep : mapIn g (requiredIn n) (.dict d) = .dict d' := hd'
    rw [List.foldl_cons, hstep]
    exact ih d'

/-- Definitions without the names are left as they are. -/
theorem foldlM_dropped (h : ∀ name ∈ collectionsToUpdate, Listed (.dict d) name) :
    ∃ d', collectionsToUpdate.foldl (fun v name => mapIn dropNames (requiredIn name) v) (.dict d) =
        .dict d' ∧
      collectionsToUpdate.foldlM relaxCollection (.dict d') = .ok (.dict d') := by
  obtain ⟨d', hd'⟩ := foldl_requiredIn_dict dropNames collectionsToUpdate d
  refine ⟨d', hd', ?_⟩
  have hlisted : ∀ name ∈ collectionsToUpdate, Listed (.dict d') name := by
    intro name hname
    rw [← hd']
    exact listed_foldl (h name hname)
  rw [foldlM_relaxCollection nodup_collectionsToUpdate hlisted, foldl_mapIn_eq_self]
  intro name hname w hw
  rw [← hd', getIn_foldl_requiredIn dropNames nodup_collectionsToUpdate, if_pos hname] at hw
  obtain ⟨x, hx, rfl⟩ := Option.map_eq_some_iff.mp hw
  rcases h name hname with habsent | ⟨xs, hxs⟩
  · rw [requiredIn, itemsIn, List.cons_append, getIn_of_absent habsent] at hx
    cases hx
  · rw [hxs] at hx
    cases hx
    exact eraseNames_dropNames xs

/-! ### The call -/

/-- Where the call is right, each list has each name once at most. -/
theorem Relaxes.namedOnce {relaxed : Schema} (h : Relaxes schema relaxed)
    (hdoc : GeojsonDocument schema) : NamedOnce schema := by
  intro name hname hpresent
  cases hdefs : Dict.get schema "definitions" with
  | none =>
    rw [getIn_cons, hdefs] at hpresent
    exact absurd rfl hpresent
  | some v =>
    obtain ⟨d, rfl⟩ := hdoc.definitions v hdefs
    have hdescribed : ∀ n ∈ collectionsToUpdate, Described (.dict d) n := by
      intro n hn
      have hfeatures := hdoc.features n hn
      rwa [itemsPath, getIn_definitions hdefs, getIn_definitions hdefs] at hfeatures
    obtain ⟨w, hw, rfl⟩ := (relaxGeojsonConstraint_eq hdefs relaxed).mp h.returns
    have hlisted := listed_of_foldlM nodup_collectionsToUpdate hdescribed hw
    rw [getIn_definitions hdefs] at hpresent
    obtain ⟨xs, hxs⟩ := (hlisted name hname).resolve_left hpresent
    refine ⟨xs, ?_, ?_⟩
    · rw [requiredPath, getIn_definitions hdefs]
      exact hxs
    · -- both sides of the equation at the place of this list
      rw [foldlM_relaxCollection nodup_collectionsToUpdate hlisted] at hw
      have hequal := h.relaxed_eq
      rw [withoutConstraint, foldl_requiredPath dropNames hdefs] at hequal
      have hdefinitions := congrArg (getIn ["definitions"]) hequal
      simp only [Dict.get_set_self, Option.bind_some, getIn, Option.some.injEq] at hdefinitions
      rw [← Except.ok.inj hw] at hdefinitions
      have hhere := congrArg (getIn (requiredIn name)) hdefinitions
      rw [getIn_foldl_requiredIn _ nodup_collectionsToUpdate,
        getIn_foldl_requiredIn _ nodup_collectionsToUpdate, if_pos hname, if_pos hname,
          hxs] at hhere
      exact eraseNames_eq_dropNames_iff.mp (Option.some.inj hhere)

/-- **A schema that names both once** is relaxed. -/
theorem NamedOnce.relaxes (h : NamedOnce schema) (hdoc : GeojsonDocument schema) :
    ∃ relaxed, Relaxes schema relaxed := by
  cases hdefs : Dict.get schema "definitions" with
  | none => exact ⟨schema, relaxes_of_absent hdefs⟩
  | some v =>
    obtain ⟨d, rfl⟩ := hdoc.definitions v hdefs
    -- each collection is missing, or lists its names once
    have hlists : ∀ name ∈ collectionsToUpdate, getIn [name] (.dict d) = none ∨
        ∃ xs, getIn (requiredIn name) (.dict d) = some (.list xs) ∧
          eraseNames (.list xs) = dropNames (.list xs) := by
      intro name hname
      refine or_iff_not_imp_left.mpr fun hpresent => ?_
      rw [← getIn_definitions hdefs] at hpresent
      obtain ⟨xs, hxs, hcount⟩ := h name hname hpresent
      rw [requiredPath, getIn_definitions hdefs] at hxs
      exact ⟨xs, hxs, eraseNames_eq_dropNames_iff.mpr hcount⟩
    have hlisted : ∀ name ∈ collectionsToUpdate, Listed (.dict d) name := fun name hname =>
      (hlists name hname).imp_right fun ⟨xs, hxs, _⟩ => ⟨xs, hxs⟩
    -- so that removing the first occurrences is removing all
    have hsame : ∀ name ∈ collectionsToUpdate, ∀ w, getIn (requiredIn name) (.dict d) = some w →
        eraseNames w = dropNames w := by
      intro name hname w hw
      rcases hlists name hname with habsent | ⟨xs, hxs, heq⟩
      · rw [requiredIn, itemsIn, List.cons_append, getIn_of_absent habsent] at hw
        cases hw
      · rw [hxs] at hw
        cases hw
        exact heq
    -- the loop removes first occurrences; its collections differ
    have hloop := foldlM_relaxCollection nodup_collectionsToUpdate hlisted
    obtain ⟨d', hd', hagain⟩ := foldlM_dropped hlisted
    rw [foldl_requiredIn_congr nodup_collectionsToUpdate hsame, hd'] at hloop
    refine ⟨Dict.set schema "definitions" (.dict d'), ?_, ?_, ?_⟩
    · exact (relaxGeojsonConstraint_eq hdefs _).mpr ⟨_, hloop, rfl⟩
    · rw [withoutConstraint, foldl_requiredPath dropNames hdefs, hd']
    · refine (relaxGeojsonConstraint_eq (Dict.get_set_self _ _ _) _).mpr ⟨_, hagain, ?_⟩
      rw [Dict.set_set]

/-- **When the constraint is relaxed**: each of the collections that are defined has a list
of required names, in which neither name is there twice. -/
theorem relaxes_iff (hdoc : GeojsonDocument schema) :
    (∃ relaxed, Relaxes schema relaxed) ↔ NamedOnce schema :=
  ⟨fun ⟨_, h⟩ => h.namedOnce hdoc, fun h => h.relaxes hdoc⟩

end

/-! ## Two schemas -/

/-- A schema with one of the collections. -/
def collectionSchema (items : Dict String Value) : Schema :=
  [("definitions", .dict [("osdu:wks:AbstractFeatureCollection:1.0.0",
    .dict [("properties", .dict [("features", .dict [("items", .dict items)])])])])]

theorem geojsonDocument_collectionSchema {items : Dict String Value}
    (h : ∀ r, Dict.get items "required" = some r → ∃ xs, r = .list xs) :
    GeojsonDocument (collectionSchema items) where
  definitions := by
    rintro v hv
    cases hv
    exact ⟨_, rfl⟩
  features := by
    intro name hname
    simp only [collectionsToUpdate, List.mem_cons, List.not_mem_nil, or_false] at hname
    rcases hname with rfl | rfl | rfl
    · exact Or.inr ⟨items, rfl, h⟩
    · exact Or.inl rfl
    · exact Or.inl rfl

/-- **No list of required names**: the call raises. -/
theorem absent_list_raises :
    ¬ ∀ schema, GeojsonDocument schema → ∃ relaxed, Relaxes schema relaxed := by
  intro h
  obtain ⟨relaxed, hrelaxes⟩ := h (collectionSchema [("type", .str "object")])
    (geojsonDocument_collectionSchema nofun)
  have hraises : relaxGeojsonConstraint (collectionSchema [("type", .str "object")]) =
      .error .typeError := by rfl
  have hreturns := hrelaxes.returns
  rw [hraises] at hreturns
  cases hreturns

/-- A list of three names is relaxed. -/
theorem relaxes_required :
    ∃ relaxed, Relaxes (collectionSchema
      [("required", .list [.str "type", .str "properties", .str "geometry"])]) relaxed := by
  refine (relaxes_iff (geojsonDocument_collectionSchema ?_)).mpr ?_
  · rintro r hr
    cases hr
    exact ⟨_, rfl⟩
  · intro name hname hpresent
    simp only [collectionsToUpdate, List.mem_cons, List.not_mem_nil, or_false] at hname
    rcases hname with rfl | rfl | rfl
    · exact ⟨_, rfl, by decide, by decide⟩
    · exact absurd rfl hpresent
    · exact absurd rfl hpresent

end WellboreDdms
