import WellboreDdms.Consistency.Accepts

/-!
# What the check of a trajectory accepts

The curves of a trajectory are the names of its stations, and its reference is the first
station of measured depths. The names are collected by a loop that stops at the first one
that repeats another.

- `beforeRepeat`: a list up to its first repetition; `uniqueDictAttrValuesFrom_objects`: the
  loop collects it.
- `referenceOfStations_cases`: the loop over the types of the stations.
- `accepts_stations_iff`: the check accepts the consistent bulks and no others exactly where
  no curve of the bulk is named only after the first repetition or by the empty name, and
  the values it reads have the type they need.
-/

namespace WellboreDdms

open Python Machine

/-! ## The names -/

/-- What comes before the first element that is the same as one before it or as one seen. -/
def beforeRepeat {α : Type} (same : α → α → Bool) : List α → List α → List α
  | _, [] => []
  | seen, a :: as => if seen.any (same a) then [] else a :: beforeRepeat same (seen ++ [a]) as

/-- The names of the stations that have one. -/
def stationNames (stations : List (Dict String Value)) : List Value :=
  (stations.map fun o => field o "Name").filter Value.truthy

/-- The names that the loop collects. -/
def collectedNames (stations : List (Dict String Value)) : List Value :=
  beforeRepeat Value.sameKey [] (stationNames stations)

theorem sameKey_eq_false {v : Value} (h : v.hashable = false) (w : Value) :
    v.sameKey w = false := by
  cases v with
  | list | dict => cases w <;> rfl
  | none | bool | int | float | str | uuid | datetime => cases h

/-- The loop collects the names before the first repetition, if they may be keys. -/
theorem uniqueDictAttrValuesFrom_objects (stations : List (Dict String Value))
    (values : List Value) :
    let names := beforeRepeat Value.sameKey values (stationNames stations)
    ((∀ v ∈ names, v.hashable = true) → ∃ repeated,
      uniqueDictAttrValuesFrom "Name" (objects stations) values = .ok (values ++ names, repeated)) ∧
    ((¬ ∀ v ∈ names, v.hashable = true) →
      uniqueDictAttrValuesFrom "Name" (objects stations) values = .error .typeError) := by
  induction stations generalizing values with
  | nil => exact ⟨fun _ => ⟨false, by simp [stationNames, beforeRepeat, uniqueDictAttrValuesFrom]⟩,
      fun h => absurd nofun h⟩
  | cons o os ih =>
    have hstep : uniqueDictAttrValuesFrom "Name" (objects (o :: os)) values =
        if !(field o "Name").truthy then uniqueDictAttrValuesFrom "Name" (objects os) values
        else if !(field o "Name").hashable then .error .typeError
        else if values.any (field o "Name").sameKey then .ok (values, true)
        else uniqueDictAttrValuesFrom "Name" (objects os) (values ++ [field o "Name"]) := rfl
    rw [hstep]
    cases htruthy : (field o "Name").truthy with
    | false =>
      have hnames : stationNames (o :: os) = stationNames os := by simp [stationNames, htruthy]
      rw [hnames]
      exact ih values
    | true =>
      have hnames : stationNames (o :: os) = field o "Name" :: stationNames os := by
        simp [stationNames, htruthy]
      rw [hnames, beforeRepeat]
      cases hhash : (field o "Name").hashable with
      | false =>
        -- a value that cannot be a key is among the names, and raises
        have hnew : values.any (field o "Name").sameKey = false :=
          List.any_eq_false.mpr fun w _ => by simp [sameKey_eq_false hhash w]
        rw [hnew]
        refine ⟨fun h => ?_, fun _ => rfl⟩
        have hhead := h (field o "Name") List.mem_cons_self
        rw [hhash] at hhead
        cases hhead
      | true =>
        cases hrepeat : values.any (field o "Name").sameKey with
        | true => exact ⟨fun _ => ⟨true, by simp⟩, fun h => absurd nofun h⟩
        | false =>
          -- the rest is searched for repetitions of this name as well
          obtain ⟨hok, herror⟩ := ih (values ++ [field o "Name"])
          constructor
          · intro h
            obtain ⟨repeated, hrun⟩ := hok fun v hv => h v (List.mem_cons_of_mem _ hv)
            exact ⟨repeated, by simpa using hrun⟩
          · intro h
            refine herror fun hall => h fun v hv => ?_
            rcases List.mem_cons.mp hv with rfl | hv
            · exact hhash
            · exact hall v hv

/-- What comes before the first repetition is in the list. -/
theorem mem_of_mem_beforeRepeat {α : Type} {same : α → α → Bool} {seen as : List α} {a : α}
    (h : a ∈ beforeRepeat same seen as) : a ∈ as := by
  induction as generalizing seen with
  | nil => cases h
  | cons b as ih =>
    rw [beforeRepeat] at h
    split at h
    · cases h
    · rcases List.mem_cons.mp h with rfl | h
      · exact List.mem_cons_self
      · exact List.mem_cons_of_mem _ (ih h)

/-- A name that was collected is that of a station. -/
theorem exists_of_mem_collectedNames {stations : List (Dict String Value)} {v : Value}
    (h : v ∈ collectedNames stations) : ∃ o ∈ stations, field o "Name" = v := by
  have hmem := List.mem_of_mem_filter (mem_of_mem_beforeRepeat h)
  obtain ⟨o, ho, hname⟩ := List.mem_map.mp hmem
  exact ⟨o, ho, hname⟩

/-! ## The reference -/

namespace Trajectory

/-- The types of a station may be searched for one. -/
def TypeReadable (station : Dict String Value) : Prop :=
  (field station stationPropertyTypeId).truthy = true →
    ∃ b, (field station stationPropertyTypeId).containsText measuredDepthTypeId = .ok b

/-- The station is one of measured depths, and has a name. -/
def isReference (station : Dict String Value) : Bool :=
  (field station stationPropertyTypeId).truthy &&
    decide ((field station stationPropertyTypeId).containsText measuredDepthTypeId = .ok true) &&
    (field station "Name").truthy

/-- The name a station gives, if it has one. -/
theorem nameOfStation (o : Dict String Value) :
    (do
      if ← (Value.dict o).containsText "Name" then
        let name ← (Value.dict o).item "Name"
        return if name.truthy then some name else none
      else return none : Except PyError (Option Value)) =
      .ok (if (field o "Name").truthy then some (field o "Name") else none) := by
  cases hname : Dict.get o "Name" with
  | none =>
    simp only [Value.containsText, Dict.contains, field, hname]
    rfl
  | some name =>
    simp only [Value.containsText, Value.item, Dict.contains, field, hname]
    rfl

/-- The type of a station is read, or it raises. -/
theorem referenceOfStation_dict (o : Dict String Value) :
    (TypeReadable o → referenceOfStation (.dict o) =
      .ok (if isReference o then some (field o "Name") else none)) ∧
    (¬ TypeReadable o → ∃ e, referenceOfStation (.dict o) = .error e) := by
  -- a station without a type is no reference
  cases hget : Dict.get o stationPropertyTypeId with
  | none =>
    have htype : field o stationPropertyTypeId = .none := by simp [field, hget]
    have hreadable : TypeReadable o := fun h => by rw [htype] at h; cases h
    have hrun : referenceOfStation (.dict o) = .ok none := by
      cases o with
      | nil => rfl
      | cons p o =>
        simp [referenceOfStation, Value.truthy, Value.containsText, Dict.contains, hget]
        rfl
    refine ⟨fun _ => ?_, fun h => absurd hreadable h⟩
    rw [hrun]
    simp [isReference, htype, Value.truthy]
  | some v =>
    have htype : field o stationPropertyTypeId = v := by simp [field, hget]
    -- a type of the station is asked for its text only if it is there
    have hne : o ≠ [] := fun h => by rw [h] at hget; cases hget
    have hrun : referenceOfStation (.dict o) =
        if !v.truthy then .ok none
        else v.containsText measuredDepthTypeId >>= fun b =>
          if b then .ok (if (field o "Name").truthy then some (field o "Name") else none)
          else .ok none := by
      rw [← nameOfStation o]
      simp [referenceOfStation, Value.truthy, Value.containsText, Value.item, Dict.contains, hget,
        hne]
      rfl
    unfold TypeReadable isReference
    rw [hrun, htype]
    cases v.truthy with
    | false =>
      have hany : false = true → ∃ b, v.containsText measuredDepthTypeId = .ok b := fun h =>
        absurd h Bool.false_ne_true
      exact ⟨fun _ => by simp, fun h => absurd hany h⟩
    | true =>
      -- `in` raises for a type that is no container
      cases htext : v.containsText measuredDepthTypeId with
      | error e =>
        refine ⟨fun h => ?_, fun _ => ⟨e, rfl⟩⟩
        obtain ⟨b, hb⟩ := h rfl
        cases hb
      | ok b =>
        refine ⟨fun _ => ?_, fun h => absurd (fun _ => ⟨b, rfl⟩) h⟩
        cases b <;> simp <;> rfl

theorem typeReadable_of_isReference {o : Dict String Value} (h : isReference o = true) :
    TypeReadable o := by
  simp only [isReference, Bool.and_eq_true, decide_eq_true_eq] at h
  exact fun _ => ⟨true, h.1.2⟩

/-- The types of the stations before the reference, which the loop looks at. -/
def TypesReadable (stations : List (Dict String Value)) : Prop :=
  ∀ o ∈ stations.takeWhile fun o => !isReference o, TypeReadable o

/-- The name of the first station that is a reference. -/
def referenceName (stations : List (Dict String Value)) : Value :=
  ((stations.find? isReference).map fun o => field o "Name").getD .none

/-- **The reference of the stations** is the first measured depth, where the types are read. -/
theorem referenceOfStations_objects (stations : List (Dict String Value)) :
    (TypesReadable stations →
      referenceOfStations (objects stations) = .ok (referenceName stations)) ∧
    (¬ TypesReadable stations → ∃ e, referenceOfStations (objects stations) = .error e) := by
  induction stations with
  | nil => exact ⟨fun _ => rfl, fun h => absurd nofun h⟩
  | cons o os ih =>
    obtain ⟨hok, herror⟩ := referenceOfStation_dict o
    unfold TypesReadable referenceName at ih ⊢
    rw [objects_cons, referenceOfStations, List.takeWhile_cons, List.find?_cons]
    cases hreference : isReference o with
    | true =>
      rw [hok (typeReadable_of_isReference hreference), hreference]
      exact ⟨fun _ => rfl, fun h => absurd nofun h⟩
    | false =>
      simp only [Bool.not_false, if_true, List.forall_mem_cons]
      by_cases hreadable : TypeReadable o
      · rw [hok hreadable, hreference]
        exact ⟨fun h => ih.1 h.2, fun h => ih.2 fun hrest => h ⟨hreadable, hrest⟩⟩
      · obtain ⟨e, he⟩ := herror hreadable
        rw [he]
        exact ⟨fun h => absurd h.1 hreadable, fun _ => ⟨e, rfl⟩⟩

end Trajectory

/-! ## The accepted bulks -/

/-- The stations of a record. -/
structure StationList (data : Dict String Value) where
  stations : List (Dict String Value)
  get : Dict.get data Trajectory.stationProperties = some (.list (objects stations))

namespace Trajectory

section

variable {φ : Type} (fa : FloatArithmetic φ) (id : Option String) {data : Dict String Value}
  (list : StationList data) (curveSizes : Dict String Int) (column? : Option NumericColumn)

/-- Every curve of the bulk is the name of a station. -/
def CurvesNamed : Prop :=
  ∀ name ∈ curveSizes.map Prod.fst, ∃ o ∈ list.stations, field o "Name" = .str name

/-- Every curve with a name is one of the names that the loop collects. -/
def CurvesCollected : Prop :=
  ∀ name ∈ curveSizes.map Prod.fst, name ≠ "" → .str name ∈ collectedNames list.stations

/-- The reference of the trajectory fits the record. -/
def ReferenceFits : Prop :=
  ∀ column ∈ column?, referenceName list.stations = .str column.name →
    Fits fa data .topDepthMeasuredDepth .baseDepthMeasuredDepth column

/-- The description of the reference fits the record. -/
def DescribedFits : Prop :=
  ∀ column ∈ column?, referenceName list.stations = .str column.name →
    DescriptionFits fa data .topDepthMeasuredDepth .baseDepthMeasuredDepth column

/-- Whichever ends of the reference are compared, they meet the bounds or do not. -/
def ReferenceAgrees : Prop :=
  ∀ column ∈ column?, referenceName list.stations = .str column.name →
    EndsAgree fa data .topDepthMeasuredDepth .baseDepthMeasuredDepth column

/-- The bulks that are consistent with the record. -/
structure Consistent : Prop where
  named : CurvesNamed list curveSizes
  reference : ReferenceFits fa list column?

/-- The values that the check of the reference reads have the type it needs. -/
structure ReferenceTyped : Prop where
  types : TypesReadable list.stations
  comparable : ∀ column ∈ column?, referenceName list.stations = .str column.name →
    BoundsComparable fa data .topDepthMeasuredDepth .baseDepthMeasuredDepth column

/-- The names are collected station by station. -/
theorem uniqueNames_eq :
    getUniqueDictAttrValues (.list (objects list.stations)) "Name" =
      uniqueDictAttrValuesFrom "Name" (objects list.stations) [] := by
  cases list.stations <;> rfl

theorem checkColumnsConsistency_eq :
    checkColumnsConsistency data curveSizes =
      (python (uniqueDictAttrValuesFrom "Name" (objects list.stations) []) >>= fun collected =>
        let names := (curveSizes.map Prod.fst).filter fun name => !collected.1.any (·.eqText name)
        if anyName names then .error (.consistency (.notMatchingStations names)) else .ok ()) := by
  have hcontains : Dict.contains data stationProperties = true := by simp [Dict.contains, list.get]
  rw [checkColumnsConsistency, hcontains, Bool.not_true, Bool.and_false, Value.item, list.get]
  show (python (getUniqueDictAttrValues (.list (objects list.stations)) "Name") >>= _) = _
  rw [uniqueNames_eq]
  rfl

/-- The check of the columns: where it raises nothing but consistency exceptions, and when it
passes. -/
theorem checkColumnsConsistency_stations :
    (Clean (checkColumnsConsistency data curveSizes) ↔
      ∀ v ∈ collectedNames list.stations, v.hashable = true) ∧
    ((∀ v ∈ collectedNames list.stations, v.hashable = true) →
      (checkColumnsConsistency data curveSizes = .ok () ↔ CurvesCollected list curveSizes)) := by
  obtain ⟨hok, herror⟩ := uniqueDictAttrValuesFrom_objects list.stations []
  rw [checkColumnsConsistency_eq list curveSizes]
  by_cases hhash : ∀ v ∈ collectedNames list.stations, v.hashable = true
  · obtain ⟨repeated, hrun⟩ := hok hhash
    rw [hrun]
    refine ⟨iff_of_true clean_refused hhash, fun _ => refused_eq_ok.trans ?_⟩
    have hcollected : ∀ name, (collectedNames list.stations).any (·.eqText name) = true ↔
        .str name ∈ collectedNames list.stations := by
      simp [Value.eqText_iff]
    rw [anyName_eq_false]
    constructor
    · intro h name hname hne
      by_contra hnot
      refine hne (h name (List.mem_filter.mpr ⟨hname, ?_⟩))
      exact Bool.not_eq_true' _ ▸ Bool.eq_false_iff.mpr fun hany => hnot ((hcollected name).mp hany)
    · intro h name hname
      obtain ⟨hmem, hnot⟩ := List.mem_filter.mp hname
      by_contra hne
      have hany := (hcollected name).mpr (h name hmem hne)
      simp only [List.nil_append, Bool.not_eq_true'] at hnot
      exact Bool.false_ne_true (hnot.symm.trans hany)
  · rw [herror hhash]
    exact ⟨iff_of_false (fun h => h _ rfl) hhash, fun h => absurd h hhash⟩

theorem truthy_referenceName {stations : List (Dict String Value)} {name : String}
    (h : referenceName stations = .str name) : (Value.str name).truthy = true := by
  unfold referenceName at h
  cases hfind : stations.find? isReference with
  | none => rw [hfind] at h; cases h
  | some o =>
    have hreference := List.find?_some hfind
    simp only [isReference, Bool.and_eq_true] at hreference
    rw [hfind] at h
    rw [← h]
    exact hreference.2

/-- The reference of the data is that of the stations. -/
theorem referenceOfData_stations :
    referenceOfData data = referenceOfStations (objects list.stations) := by
  simp only [referenceOfData, field, list.get]
  rfl

/-- The check of the reference, of a record with stations. -/
theorem checksReference (bulkInfo : BulkInfoForConsistency) (htypes : TypesReadable list.stations) :
    ChecksReference fa data .topDepthMeasuredDepth .baseDepthMeasuredDepth bulkInfo.reference
      (fun name => referenceName list.stations = .str name)
      (checkReferenceOfBulk fa data bulkInfo) := by
  have hrun : checkReferenceOfBulk fa data bulkInfo =
      if (referenceName list.stations).truthy then
        bulkInfo.reference.elim (.ok ()) fun reference =>
          if (referenceName list.stations).eqText reference.name then
            checkReference fa data .topDepthMeasuredDepth .baseDepthMeasuredDepth reference
          else .ok ()
      else .ok () := by
    rw [checkReferenceOfBulk, referenceOfData_stations list,
      (referenceOfStations_objects list.stations).1 htypes]
    cases bulkInfo.reference <;> rfl
  rw [hrun]
  cases bulkInfo.reference with
  | none => exact .inl ⟨ite_self _, by rintro _ ⟨⟩⟩
  | some reference =>
    by_cases hname : referenceName list.stations = .str reference.name
    · refine .inr ⟨reference, rfl, hname, ?_⟩
      rw [hname, if_pos (truthy_referenceName hname)]
      exact if_pos (Value.eqText_iff.mpr rfl)
    · refine .inl ⟨?_, by rintro _ ⟨⟩; exact hname⟩
      refine (congrArg (ite _ · _) (if_neg fun h => ?_)).trans (ite_self _)
      exact hname (Value.eqText_iff.mp h)

/-- **The check of the reference**, where its type is read. -/
theorem checkReferenceOfBulk_numericBulk :
    (Clean (checkReferenceOfBulk fa data (numericBulk curveSizes column?)) ↔
      ReferenceTyped fa list column?) ∧
    (ReferenceTyped fa list column? →
      (checkReferenceOfBulk fa data (numericBulk curveSizes column?) = .ok () ↔
        DescribedFits fa list column?)) := by
  by_cases htypes : TypesReadable list.stations
  · have hcheck := checksReference fa list (numericBulk curveSizes column?) htypes
    constructor
    · rw [hcheck.iff (clean_ok ()), forall_described]
      simp only [clean_checkReference_describe]
      exact ⟨fun h => ⟨htypes, h⟩, fun h => h.comparable⟩
    · intro _
      rw [hcheck.iff (p := fun check => check = .ok ()) rfl, forall_described]
      simp only [checkReference_describe]
      exact Iff.rfl
  · obtain ⟨e, he⟩ := (referenceOfStations_objects list.stations).2 htypes
    have hrun : checkReferenceOfBulk fa data (numericBulk curveSizes column?) =
        .error (.python e) := by
      rw [checkReferenceOfBulk, referenceOfData_stations list, he]
      rfl
    rw [hrun]
    exact ⟨iff_of_false (fun h => h e rfl) fun h => htypes h.types, fun h => absurd h.types htypes⟩

/-- What is described of the reference decides as the reference does, where they agree. -/
theorem describedFits_iff :
    (DescribedFits fa list column? ↔ ReferenceFits fa list column?) ↔
      ReferenceAgrees fa list column? := by
  have hcolumns := forall_column_iff column?
    (p := fun column => referenceName list.stations = .str column.name →
      DescriptionFits fa data .topDepthMeasuredDepth .baseDepthMeasuredDepth column)
    (q := fun column => referenceName list.stations = .str column.name →
      Fits fa data .topDepthMeasuredDepth .baseDepthMeasuredDepth column)
  unfold DescribedFits ReferenceFits ReferenceAgrees
  rw [hcolumns]
  simp only [imp_congr_right_iff, descriptionFits_iff]

/-- Curves that are collected are named, except for the empty name. -/
theorem curvesNamed_iff (h : CurvesCollected list curveSizes) :
    CurvesNamed list curveSizes ↔
      ("" ∈ curveSizes.map Prod.fst → ∃ o ∈ list.stations, field o "Name" = .str "") := by
  constructor
  · exact fun hnamed => hnamed ""
  · intro hempty name hname
    by_cases hne : name = ""
    · subst hne
      exact hempty hname
    · exact exists_of_mem_collectedNames (h name hname hne)

/-- **The check of a trajectory accepts exactly the consistent bulks** unless it stops at a value
that is of the wrong type; or there is a curve that only a station after the first repeated name
has, or one of the empty name that no station has, and the reference is no reason to reject; or
the reference is named like the index, and the ends of the index, which are compared, meet the
bounds where its own do not. -/
theorem accepts_stations_iff :
    AcceptsExactly
        (Checker.trajectory.checkBulkConsistency fa ⟨id, some data⟩
          (numericBulk curveSizes column?))
        (Consistent fa list curveSizes column?) ↔
      (∀ v ∈ collectedNames list.stations, v.hashable = true) ∧
      (CurvesCollected list curveSizes → ReferenceTyped fa list column?) ∧
      (ReferenceFits fa list column? → CurvesNamed list curveSizes →
        CurvesCollected list curveSizes) ∧
      (CurvesCollected list curveSizes → DescribedFits fa list column? →
        "" ∈ curveSizes.map Prod.fst → ∃ o ∈ list.stations, field o "Name" = .str "") ∧
      (CurvesCollected list curveSizes →
        ("" ∈ curveSizes.map Prod.fst → ∃ o ∈ list.stations, field o "Name" = .str "") →
        ReferenceAgrees fa list column?) := by
  obtain ⟨hclean, hpass⟩ := checkColumnsConsistency_stations list curveSizes
  obtain ⟨hcleanRef, hpassRef⟩ := checkReferenceOfBulk_numericBulk fa list curveSizes column?
  have hrun : Checker.trajectory.checkBulkConsistency fa ⟨id, some data⟩
      (numericBulk curveSizes column?) = (checkColumnsConsistency data curveSizes >>=
        fun _ => checkReferenceOfBulk fa data (numericBulk curveSizes column?)) :=
    Checker.checkBulkConsistency_of_get list.get id _
  have hconsistent : Consistent fa list curveSizes column? ↔
      CurvesNamed list curveSizes ∧ ReferenceFits fa list column? :=
    ⟨fun h => ⟨h.named, h.reference⟩, fun ⟨hnamed, hfits⟩ => ⟨hnamed, hfits⟩⟩
  rw [acceptsExactly_iff, hrun, then_eq_ok, clean_then, hclean, hcleanRef, hconsistent,
    ← describedFits_iff, and_assoc]
  refine and_congr_right fun hhash => ?_
  rw [hpass hhash]
  refine and_congr_right fun htyped => ?_
  by_cases hcollected : CurvesCollected list curveSizes
  · -- the columns pass, so the description of the reference decides
    rw [hpassRef (htyped hcollected), ← curvesNamed_iff list curveSizes hcollected]
    simp only [hcollected, true_and, imp_true_iff, true_imp_iff]
    tauto
  · -- the columns are rejected
    simp only [hcollected, false_and, false_iff, false_imp_iff, and_true]
    tauto

end

/-- The data of a trajectory with stations of the names. -/
def trajectoryOf (names : List String) : Dict String Value :=
  [("AvailableTrajectoryStationProperties",
    .list (names.map fun name => .dict [("Name", .str name)]))]

/-- The stations of these names. -/
def stationsOf (names : List String) : StationList (trajectoryOf names) where
  stations := names.map fun name => [("Name", .str name)]
  get := by simp [trajectoryOf, Dict.get, stationProperties, objects]

/-- The name of the third station is not collected, as the second repeats the first. -/
theorem named_curve_rejected :
    ¬ AcceptsExactly
      (Checker.trajectory.checkBulkConsistency .exact
        ⟨some "p:t:1", some (trajectoryOf ["MD", "MD", "TVD"])⟩
        (numericBulk [("TVD", 1)] (some depthColumn)))
      (Consistent .exact (stationsOf ["MD", "MD", "TVD"]) [("TVD", 1)] (some depthColumn)) := by
  intro h
  have hnamed : CurvesNamed (stationsOf ["MD", "MD", "TVD"]) [("TVD", 1)] := by
    simp [CurvesNamed, stationsOf, field, Dict.get]
  have hfits : ReferenceFits .exact (stationsOf ["MD", "MD", "TVD"]) (some depthColumn) := by
    intro column _ hname
    cases hname
  cases h.accepts.mpr ⟨hnamed, hfits⟩

end Trajectory

end WellboreDdms
