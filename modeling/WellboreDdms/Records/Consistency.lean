import WellboreDdms.Bulk.Provenance
import WellboreDdms.Consistency.Checks

/-!
# Records that are consistent in themselves

Before a route stores the records of an entity with bulks, it checks each of them: the ids of
its curves are unique, and its reference is one of them. The versions that the bulk writes add
are not checked again.

- `checkWelllogConsistency` and its three siblings; `checkConsistency`, what the routes make of
  them.
- `Entity.Meets`: what a check asks, in the terms of the record (`check_ok_iff`).
- `Everywhere`: a property of every version of every record. `everywhere_step`: one request
  keeps it, if the route ensures it of what is posted and no bulk write can break it.
- `stored_records_consistent`: in every run every stored version of a kind with a check is
  consistent.
-/

namespace WellboreDdms

open Python Machine

/-! ## The checks -/

/-- The consistency exceptions of a record. -/
inductive RecordInconsistency where
  | duplicatedCurveId
  | referenceCurveIdNotFound
  | duplicatedStationProperties
  | primaryReferenceCurveIdNotFound
  | contextTypeIdMissing
  | referenceWellTrajectoryIdMissing
  deriving DecidableEq

/-- What the check of a record raises; an inconsistency comes with its message. -/
inductive RecordCheckError where
  | inconsistency (e : RecordInconsistency) (message : String)
  | python (e : PyError)

/-- The values of the attribute, which have to be unique. -/
def uniqueValues (objectList : Value) (attrName : String) (e : RecordCheckError) :
    Except RecordCheckError (List Value) := do
  let (values, duplicated) ← (getUniqueDictAttrValues objectList attrName).mapError .python
  if duplicated then throw e else return values

/-- `if reference and reference not in ids: raise ..`, where `ids` is a set. -/
def raiseIfReferenceNotFound (reference : Value) (ids : List Value) (e : RecordCheckError) :
    Except RecordCheckError Unit :=
  if !reference.truthy then .ok ()
  else if !reference.hashable then .error (.python .typeError)
  else if ids.any reference.sameKey then .ok ()
  else .error e

/-- `check_welllog_consistency`. -/
def checkWelllogConsistency (wl : Record) : Except RecordCheckError Unit :=
  if wl.data.isEmpty then .ok ()
  else do
    let curveIds ← uniqueValues (field wl.data "Curves") "CurveID"
      (.inconsistency .duplicatedCurveId "")
    raiseIfReferenceNotFound (field wl.data "ReferenceCurveID") curveIds
      (.inconsistency .referenceCurveIdNotFound "")

/-- `check_trajectory_consistency`. -/
def checkTrajectoryConsistency (trajectory : Record) : Except RecordCheckError Unit :=
  if trajectory.data.isEmpty then .ok ()
  else
    match Dict.get trajectory.data Trajectory.stationProperties with
    | none => .ok ()
    | some stations => do
      let _ ← uniqueValues stations "Name" (.inconsistency .duplicatedStationProperties "")

/-- `if not data.get(key): raise ..` -/
def raiseIfFalsy (value : Value) (e : RecordCheckError) : Except RecordCheckError Unit :=
  if value.truthy then .ok () else .error e

/-- `check_ppfgdataset_consistency`. -/
def checkPpfgdatasetConsistency (ppfgdata : Record) : Except RecordCheckError Unit :=
  if ppfgdata.data.isEmpty then .ok ()
  else do
    raiseIfFalsy (field ppfgdata.data "ContextTypeID") (.inconsistency .contextTypeIdMissing "")
    raiseIfFalsy (field ppfgdata.data "ReferenceWellTrajectoryID")
      (.inconsistency .referenceWellTrajectoryIdMissing "")
    let curveIds ← uniqueValues (field ppfgdata.data "Curves") "CurveID"
      (.inconsistency .duplicatedCurveId "")
    raiseIfReferenceNotFound (field ppfgdata.data "PrimaryReferenceCurveID") curveIds
      (.inconsistency .primaryReferenceCurveIdNotFound "")

/-- `check_well_pressure_test_raw_measurement_consistency`. -/
def checkWellPressureTestRawMeasurementConsistency (measurement : Record) :
    Except RecordCheckError Unit :=
  if measurement.data.isEmpty then .ok ()
  else do
    let _ ← uniqueValues (field measurement.data "Curves") "CurveID"
      (.inconsistency .duplicatedCurveId "All CurveIDs in the metadata must be unique.")

/-- An exception of Python on its way out of a route. -/
def pyErrorAsRaised : PyError → Raised
  | .typeError | .attributeError => .typeError
  | .keyError key => .keyError key
  | .valueError => .valueError ""
  | .overflowError => .other "OverflowError"

/-- What `post_welllog_osdu` makes of the exceptions of the `i`-th record; `text` is `str`. -/
def welllogCheckError (text : Value → String) (i : Nat) (wl : Record) :
    RecordCheckError → Raised
  | .inconsistency .duplicatedCurveId _ =>
    .httpException 400 ("All CurveID in WellLog[" ++ toString i ++ "] should be unique")
  | .inconsistency .referenceCurveIdNotFound _ =>
    .httpException 400 ("WellLog[" ++ toString i ++ "] should have a curve with a curveID value" ++
      " equal to the ReferenceCurveID value: '" ++ text (field wl.data "ReferenceCurveID") ++ "'")
  | .inconsistency _ _ => .other "ConsistencyException"
  | .python e => pyErrorAsRaised e

/-- What `post_wellboretrajectory_osdu` makes of them. -/
def trajectoryCheckError (i : Nat) : RecordCheckError → Raised
  | .inconsistency .duplicatedStationProperties _ =>
    .httpException 400 ("All station properties in WellboreTrajectory[" ++ toString i ++
      "] should be unique")
  | .inconsistency _ _ => .other "ConsistencyException"
  | .python e => pyErrorAsRaised e

/-- What `create_or_update_osdu_record` makes of them. -/
def osduCheckError : RecordCheckError → Raised
  | .inconsistency _ message => .httpException 400 message
  | .python e => pyErrorAsRaised e

/-- The check of an entity; the others have none. -/
def Entity.check : Entity → Record → Except RecordCheckError Unit
  | .wellLog => checkWelllogConsistency
  | .trajectory => checkTrajectoryConsistency
  | .ppfgDataset => checkPpfgdatasetConsistency
  | .wellPressureTestRawMeasurement => checkWellPressureTestRawMeasurementConsistency
  | _ => fun _ => .ok ()

/-- The check of the `i`-th record on the route of an entity. -/
def checkConsistency (text : Value → String) (e : Entity) (i : Nat) (record : Record) :
    Except Raised Unit :=
  (e.check record).mapError fun error =>
    match e with
    | .wellLog => welllogCheckError text i record error
    | .trajectory => trajectoryCheckError i error
    | _ => osduCheckError error

/-! ## What the checks ask -/

/-- The values of the attribute that are not falsy. -/
def attrValues (attrName : String) (objs : List Value) : List Value :=
  objs.filterMap fun obj =>
    match obj with
    | .dict items => (Dict.get items attrName).filter Value.truthy
    | _ => none

/-- The values may be keys, and no two of them are one key. -/
def Unique (values : List Value) : Prop :=
  (∀ v ∈ values, v.hashable = true) ∧ values.Pairwise fun v w => w.sameKey v = false

/-- The objects of a list are identified by an attribute, with these values. -/
def Identified (objectList : Value) (attrName : String) (values : List Value) : Prop :=
  if objectList.truthy then ∃ objs, objectList.iterate = .ok objs ∧
    (∀ obj ∈ objs, ∃ items, obj = .dict items) ∧ values = attrValues attrName objs ∧ Unique values
  else values = []

/-- A reference, if there is one, is one of the ids. -/
def RefersTo (reference : Value) (ids : List Value) : Prop :=
  reference.truthy = true → reference.hashable = true ∧ ∃ id ∈ ids, reference.sameKey id = true

/-- What the check of an entity asks of the data of a record. -/
def Entity.Meets (data : Dict String Value) : Entity → Prop
  | .wellLog => ∃ ids, Identified (field data "Curves") "CurveID" ids ∧
    RefersTo (field data "ReferenceCurveID") ids
  | .trajectory => ∃ names, Identified (field data Trajectory.stationProperties) "Name" names
  | .ppfgDataset => (field data "ContextTypeID").truthy = true ∧
    (field data "ReferenceWellTrajectoryID").truthy = true ∧
    ∃ ids, Identified (field data "Curves") "CurveID" ids ∧
      RefersTo (field data "PrimaryReferenceCurveID") ids
  | .wellPressureTestRawMeasurement => ∃ ids, Identified (field data "Curves") "CurveID" ids
  | _ => True

/-- An attribute that is missing or empty is left out. -/
theorem attrValues_cons_of_falsy {attrName : String} {items : Dict String Value}
    {objs : List Value} (h : (field items attrName).truthy = false) :
    attrValues attrName (.dict items :: objs) = attrValues attrName objs := by
  refine List.filterMap_cons_none ?_
  show (Dict.get items attrName).filter Value.truthy = none
  rw [field] at h
  cases hget : Dict.get items attrName with
  | none => rfl
  | some v =>
    rw [hget] at h
    exact if_neg (by simpa using h)

theorem attrValues_cons_of_truthy {attrName : String} {items : Dict String Value}
    {objs : List Value} (h : (field items attrName).truthy = true) :
    attrValues attrName (.dict items :: objs) =
      field items attrName :: attrValues attrName objs := by
  refine List.filterMap_cons_some ?_
  show (Dict.get items attrName).filter Value.truthy = some _
  rw [field] at h ⊢
  cases hget : Dict.get items attrName with
  | none =>
    rw [hget] at h
    cases h
  | some v =>
    rw [hget] at h
    exact if_pos h

/-- The next object, when the values before it are known. -/
theorem uniqueDictAttrValuesFrom_dict (attrName : String) (items : Dict String Value)
    (objs before : List Value) :
    uniqueDictAttrValuesFrom attrName (.dict items :: objs) before =
      if !(field items attrName).truthy then uniqueDictAttrValuesFrom attrName objs before
      else if !(field items attrName).hashable then .error .typeError
      else if before.any (field items attrName).sameKey then .ok (before, true)
      else uniqueDictAttrValuesFrom attrName objs (before ++ [field items attrName]) := rfl

/-- The loop ends without a repetition, by induction on the objects, with the values `before`
already seen. -/
theorem uniqueDictAttrValuesFrom_ok_iff {attrName : String} {objs before all : List Value} :
    uniqueDictAttrValuesFrom attrName objs before = .ok (all, false) ↔
      (∀ obj ∈ objs, ∃ items, obj = .dict items) ∧ all = before ++ attrValues attrName objs ∧
      Unique (attrValues attrName objs) ∧
      ∀ w ∈ attrValues attrName objs, ∀ v ∈ before, w.sameKey v = false := by
  -- induction on the objects that are left; `before` grows by the values collected
  induction objs generalizing before with
  | nil =>
    constructor
    · intro h
      cases h
      exact ⟨by simp, (List.append_nil _).symm, ⟨by simp [attrValues], .nil⟩, by simp [attrValues]⟩
    · rintro ⟨-, rfl, -, -⟩
      rw [show attrValues attrName [] = [] from rfl, List.append_nil]
      rfl
  | cons obj objs ih =>
    cases obj with
    | dict items =>
      have hdicts : (∀ obj ∈ Value.dict items :: objs, ∃ items, obj = .dict items) ↔
          ∀ obj ∈ objs, ∃ items, obj = .dict items := by
        simp
      rw [uniqueDictAttrValuesFrom_dict, hdicts]
      -- an empty value is skipped, any other one is compared with those before it
      cases htruthy : (field items attrName).truthy with
      | false =>
        rw [attrValues_cons_of_falsy htruthy]
        exact ih
      | true =>
        rw [attrValues_cons_of_truthy htruthy]
        generalize field items attrName = value
        cases hhash : value.hashable with
        | false => simp [hhash, Unique]
        | true =>
          cases hany : before.any value.sameKey with
          | true =>
            -- a repetition ends the loop, which says so
            obtain ⟨v, hv, hsame⟩ := List.any_eq_true.mp hany
            constructor
            · intro h
              cases h
            · rintro ⟨-, -, -, hnew⟩
              rw [hnew value List.mem_cons_self v hv] at hsame
              cases hsame
          | false =>
            have hfresh : ∀ v ∈ before, value.sameKey v = false := by
              simpa using List.any_eq_false.mp hany
            show uniqueDictAttrValuesFrom attrName objs (before ++ [value]) = _ ↔ _
            rw [ih]
            constructor
            -- the new value joins `before`, so that it stays apart from all that follow
            · rintro ⟨hobjs, hall, ⟨hkeys, hpairs⟩, hnew⟩
              refine ⟨hobjs, by simpa using hall, ⟨?_, ?_⟩, ?_⟩
              · exact List.forall_mem_cons.mpr ⟨hhash, hkeys⟩
              · refine List.pairwise_cons.mpr ⟨fun w hw => ?_, hpairs⟩
                exact hnew w hw value (by simp)
              · refine List.forall_mem_cons.mpr ⟨hfresh, fun w hw v hv => ?_⟩
                exact hnew w hw v (List.mem_append_left _ hv)
            · rintro ⟨hobjs, hall, ⟨hkeys, hpairs⟩, hnew⟩
              obtain ⟨hhead, hpairs⟩ := List.pairwise_cons.mp hpairs
              refine ⟨hobjs, by simpa using hall, ⟨(List.forall_mem_cons.mp hkeys).2, hpairs⟩, ?_⟩
              intro w hw v hv
              rcases List.mem_append.mp hv with hv | hv
              · exact hnew w (List.mem_cons_of_mem _ hw) v hv
              · rw [List.mem_singleton.mp hv]
                exact hhead w hw
    | none | bool | int | float | str | list | uuid | datetime =>
      constructor
      · intro h
        cases h
      · rintro ⟨hdicts, -⟩
        obtain ⟨items, hitems⟩ := hdicts _ List.mem_cons_self
        cases hitems

/-- The attribute identifies the objects if there is a value for each, and no two are equal. -/
theorem getUniqueDictAttrValues_ok_iff {objectList : Value} {attrName : String}
    {values : List Value} :
    getUniqueDictAttrValues objectList attrName = .ok (values, false) ↔
      Identified objectList attrName values := by
  unfold getUniqueDictAttrValues Identified
  cases objectList.truthy with
  | false => simp [eq_comm]
  | true =>
    show (objectList.iterate >>= fun objs => uniqueDictAttrValuesFrom attrName objs []) = _ ↔ _
    rw [bind_eq_ok]
    refine exists_congr fun objs => and_congr_right fun _ => ?_
    rw [uniqueDictAttrValuesFrom_ok_iff]
    constructor
    · rintro ⟨hdicts, rfl, hunique, -⟩
      exact ⟨hdicts, rfl, hunique⟩
    · rintro ⟨hdicts, rfl, hunique⟩
      exact ⟨hdicts, rfl, hunique, by simp⟩

/-- The same, with the exceptions of the check. -/
theorem uniqueValues_ok_iff {objectList : Value} {attrName : String} {e : RecordCheckError}
    {values : List Value} :
    uniqueValues objectList attrName e = .ok values ↔ Identified objectList attrName values := by
  rw [← getUniqueDictAttrValues_ok_iff, uniqueValues]
  cases getUniqueDictAttrValues objectList attrName with
  | error error => exact iff_of_false nofun nofun
  | ok found =>
    obtain ⟨all, duplicated⟩ := found
    cases duplicated with
    | true => exact iff_of_false nofun nofun
    | false =>
      show Except.ok all = Except.ok values ↔ _
      simp

/-- A reference is found if it is one of the ids. -/
theorem raiseIfReferenceNotFound_ok_iff {reference : Value} {ids : List Value}
    {e : RecordCheckError} :
    raiseIfReferenceNotFound reference ids e = .ok () ↔ RefersTo reference ids := by
  unfold raiseIfReferenceNotFound RefersTo
  cases reference.truthy with
  | false => simp
  | true =>
    cases reference.hashable with
    | false => simp
    | true => simp

theorem raiseIfFalsy_ok_iff {value : Value} {e : RecordCheckError} :
    raiseIfFalsy value e = .ok () ↔ value.truthy = true := by
  unfold raiseIfFalsy
  split <;> simp_all

theorem andThen_ok_iff {x y : Except RecordCheckError Unit} :
    (x >>= fun _ => y) = .ok () ↔ x = .ok () ∧ y = .ok () := by
  rw [bind_eq_ok]
  exact ⟨fun ⟨_, h⟩ => h, fun h => ⟨(), h⟩⟩

/-- The check of the curves and of their reference. -/
theorem checkCurves_ok_iff {curves reference : Value} {e e' : RecordCheckError} :
    (do
      let ids ← uniqueValues curves "CurveID" e
      raiseIfReferenceNotFound reference ids e') = .ok () ↔
      ∃ ids, Identified curves "CurveID" ids ∧ RefersTo reference ids := by
  rw [bind_eq_ok]
  exact exists_congr fun ids =>
    and_congr uniqueValues_ok_iff raiseIfReferenceNotFound_ok_iff

/-- The check of the values alone. -/
theorem checkUnique_ok_iff {objectList : Value} {attrName : String} {e : RecordCheckError} :
    (do let _ ← uniqueValues objectList attrName e) = .ok () ↔
      ∃ values, Identified objectList attrName values := by
  rw [bind_eq_ok]
  exact exists_congr fun values => (and_iff_left rfl).trans uniqueValues_ok_iff

/-- A check passes the records without data, and those that meet what it asks. -/
theorem check_ok_iff (e : Entity) (record : Record) :
    e.check record = .ok () ↔ record.data = [] ∨ e.Meets record.data := by
  cases hempty : record.data.isEmpty with
  | true =>
    refine iff_of_true ?_ (.inl (List.isEmpty_iff.mp hempty))
    cases e <;>
      simp [Entity.check, checkWelllogConsistency, checkTrajectoryConsistency,
        checkPpfgdatasetConsistency, checkWellPressureTestRawMeasurementConsistency, hempty]
  | false =>
    have hne : record.data ≠ [] := by
      intro h
      rw [h] at hempty
      cases hempty
    rw [or_iff_right hne]
    cases e with
    | wellLog =>
      rw [Entity.check, checkWelllogConsistency, hempty]
      exact checkCurves_ok_iff
    | trajectory =>
      rw [Entity.check, checkTrajectoryConsistency, hempty, Entity.Meets, field]
      cases Dict.get record.data Trajectory.stationProperties with
      | none => exact iff_of_true rfl ⟨[], rfl⟩
      | some stations => exact checkUnique_ok_iff
    | ppfgDataset =>
      rw [Entity.check, checkPpfgdatasetConsistency, hempty]
      refine andThen_ok_iff.trans (and_congr raiseIfFalsy_ok_iff ?_)
      refine andThen_ok_iff.trans (and_congr raiseIfFalsy_ok_iff ?_)
      exact checkCurves_ok_iff
    | wellPressureTestRawMeasurement =>
      rw [Entity.check, checkWellPressureTestRawMeasurementConsistency, hempty]
      exact checkUnique_ok_iff
    | _ => exact iff_of_true rfl trivial

/-! ## A property of every version -/

/-- Every version of every record has the property. -/
def Everywhere (P : Record → Prop) (s : RecordStore) : Prop :=
  ∀ k, ∀ record ∈ s.versions k, P record

/-- The fields of the data that the service writes by itself. -/
def serviceFields : List String := ["ExtensionProperties", "DDMSDatasets", "IsExtendedLoad"]

/-- The records have one kind, and the same data but for what the service writes. -/
structure AlikeData (r r' : Record) : Prop where
  kind : r'.kind = r.kind
  data : ∀ key, key ∉ serviceFields → Dict.get r'.data key = Dict.get r.data key

theorem AlikeData.trans {r r' r'' : Record} (h : AlikeData r r') (h' : AlikeData r' r'') :
    AlikeData r r'' where
  kind := h'.kind.trans h.kind
  data := fun key hkey => (h'.data key hkey).trans (h.data key hkey)

theorem alikeData_stored (r : Record) (newId : String) (version : Int) :
    AlikeData r (r.stored newId version) := ⟨rfl, fun _ _ => rfl⟩

/-- Setting the bulk URI leaves its data alike. -/
theorem alikeData_setBulkUri {pk : Packaging} {record r : Record} {bulkId : Value}
    (h : OsduBulkIdAccess.setBulkUri pk record bulkId = .ok r) : AlikeData record r := by
  obtain ⟨-, hkind, -, -, hdata⟩ := OsduBulkIdAccess.setBulkUri_frame h
  refine ⟨hkind, fun key hkey => hdata key ?_ ?_⟩
  · rintro rfl
    exact hkey (by decide)
  · rintro rfl
    exact hkey (by decide)

theorem EditedBy.alikeData {session : Session} {base sent : Record}
    (h : EditedBy session base sent) : AlikeData base sent := by
  by_cases hload : Dict.contains base.data "IsExtendedLoad" = true ∧ LoadCompleted session
  · rw [h.1 hload]
    refine ⟨rfl, fun key hkey => Dict.get_set_of_ne _ _ ?_⟩
    rintro rfl
    exact hkey (by decide)
  · rw [h.2 hload]
    exact ⟨rfl, fun _ _ => rfl⟩

namespace Everywhere

variable {P : Record → Prop} {s t : RecordStore}

/-- A record that is added must have the property. -/
theorem add (h : Everywhere P s) {newId : String} {version : Int} {r : Record}
    (hr : P (r.stored newId version)) : Everywhere P (s.add newId version r) := by
  intro k record hrecord
  by_cases hk : k = r.storedId newId
  · subst hk
    rw [RecordStore.add_versions_self] at hrecord
    rcases List.mem_cons.mp hrecord with rfl | hrecord
    · exact hr
    · exact h _ record hrecord
  · rw [RecordStore.add_versions_of_ne s newId version r hk] at hrecord
    exact h k record hrecord

theorem addAll {assign : Nat → Assigned} {records : List Record} {i : Nat} (h : Everywhere P s)
    (hposted : ∀ record ∈ records, ∀ newId version, P (record.stored newId version)) :
    Everywhere P (s.addAll assign i records) := by
  induction records generalizing s i with
  | nil => exact h
  | cons record records ih =>
    obtain ⟨hhead, htail⟩ := List.forall_mem_cons.mp hposted
    exact ih (h.add (hhead _ _)) htail

theorem delete (h : Everywhere P s) (recordId : String) (purge : Bool) :
    Everywhere P (s.delete recordId purge) := by
  intro k record hrecord
  refine h k record ?_
  cases purge with
  | false => exact hrecord
  | true =>
    by_cases hk : k = recordId
    · subst hk
      have hnil : (s.delete k true).versions k = [] := Function.update_self ..
      rw [hnil] at hrecord
      cases hrecord
    · have hsame : (s.delete recordId true).versions k = s.versions k := Function.update_of_ne hk ..
      exact hsame ▸ hrecord

end Everywhere

/-- A bulk write publishes a version that is alike one there is. -/
theorem Everywhere.publishes {α δ : Type} {P : Record → Prop} {pk : Packaging}
    {checks : DataConsistencyChecks δ} {o : Outside} {edited : Record → Record → Prop}
    {previous : Record → Value → Prop} {tells : α → Nat → Prop} {out : Except Raised α}
    {s t : Server} {recordId : String} {v : Option Int} (h : Everywhere P s.records)
    (hstable : ∀ r r', AlikeData r r' → P r → P r')
    (hedited : ∀ base sent, edited base sent → AlikeData base sent)
    (hp : Publishes pk checks o (s.records.find recordId v) edited previous tells s t out) :
    Everywhere P t.records := by
  cases out with
  | error e =>
    rw [hp.failed e rfl]
    exact h
  | ok a =>
    obtain ⟨base, version, hfind, hpublished, -⟩ := hp.ended a rfl
    obtain ⟨bulkId, sent, record, assign, -, -, hsent, hset, -, -, hrecords⟩ := hpublished
    rw [hrecords]
    refine h.add (hstable base _ ?_ (h recordId base (RecordStore.mem_of_find hfind)))
    exact ((hedited base sent hsent).trans (alikeData_setBulkUri hset)).trans
      (alikeData_stored record _ _)

/-! ## What a route accepts -/

/-- Every record of a request passes the gate. -/
theorem gate_of_mem {records : List Record} {state : RequestState}
    (h : raiseIfNotOsduRightEntitiesKind records state = .ok ()) {record : Record}
    (hmem : record ∈ records) : raiseIfNotOsduRightEntityKind record state 422 = .ok () := by
  induction records with
  | nil => cases hmem
  | cons r records ih =>
    have hboth : (raiseIfNotOsduRightEntityKind r state 422 >>= fun _ =>
        raiseIfNotOsduRightEntitiesKind records state) = .ok () := h
    obtain ⟨_, hhead, htail⟩ := bind_eq_ok.mp hboth
    rcases List.mem_cons.mp hmem with rfl | hmem
    · exact hhead
    · exact ih htail hmem

/-- Every record of a request passes its check. -/
theorem checkEach_of_mem {check : Nat → Record → Except Raised Unit} {records : List Record}
    {i : Nat} (h : checkEach check i records = .ok ()) {record : Record}
    (hmem : record ∈ records) : ∃ j, check j record = .ok () := by
  induction records generalizing i with
  | nil => cases hmem
  | cons r records ih =>
    obtain ⟨_, hhead, htail⟩ := bind_eq_ok.mp h
    rcases List.mem_cons.mp hmem with rfl | hmem
    · exact ⟨i, hhead⟩
    · exact ih htail hmem

/-- The kind of a record is one of an entity. -/
def OfKind (e : Entity) (record : Record) : Prop :=
  ∃ m, getKindMeta record.kind = .ok m ∧ e.osduType = some m.entityType

/-- The gate of an entity in the table lets only its own kinds through. -/
theorem ofKind_of_gate {e : Entity} {record : Record} {name : String} {statusCode : Nat}
    (hname : Dict.get entityNames e.value = some name)
    (h : raiseIfNotOsduRightEntityKind record (v3State e) statusCode = .ok ()) :
    OfKind e record := by
  have htype : e.osduType = some name := by
    cases e with
    | wellLogAcquisition | dip | dipSet | ppfgDataset => cases hname
    | _ =>
      rw [← hname]
      rfl
  simp only [raiseIfNotOsduRightEntityKind, v3State, if_true, hname] at h
  obtain ⟨m, hm, h⟩ := bind_eq_ok.mp h
  split at h
  · rename_i hsame
    exact ⟨m, hm, htype.trans (congrArg some hsame)⟩
  · cases h

/-- No kind is one of two entities. -/
theorem OfKind.unique {e e' : Entity} {record : Record} (h : OfKind e record)
    (h' : OfKind e' record) : e = e' := by
  obtain ⟨m, hm, he⟩ := h
  obtain ⟨m', hm', he'⟩ := h'
  obtain rfl := Except.ok.inj (hm.symm.trans hm')
  have htype : e.osduType = e'.osduType := he.trans he'.symm
  have hne : e.osduType ≠ none := by
    rw [he]
    exact Option.some_ne_none _
  revert htype hne
  cases e <;> cases e' <;> decide

/-! ## Consistent records -/

/-- The data of a record meet the check of the entity, or there are none but those the service
has written: a record without data is not checked, and gets some with its first bulk. -/
def Entity.Consistent (e : Entity) (data : Dict String Value) : Prop :=
  (∀ key, key ∉ serviceFields → Dict.get data key = none) ∨ e.Meets data

/-- **The check of an entity** lets only consistent records pass. -/
theorem consistent_of_check {e : Entity} {record : Record} (h : e.check record = .ok ()) :
    e.Consistent record.data := by
  rcases (check_ok_iff e record).mp h with hempty | hmeets
  · refine .inl fun key _ => ?_
    rw [hempty]
    rfl
  · exact .inr hmeets

/-- Alike records have the same fields, but for those of the service. -/
theorem AlikeData.field {r r' : Record} (h : AlikeData r r') {key : String}
    (hkey : key ∉ serviceFields) :
    WellboreDdms.field r'.data key = WellboreDdms.field r.data key := by
  rw [WellboreDdms.field, WellboreDdms.field, h.data key hkey]

/-- What the service writes does not matter to the checks. -/
theorem AlikeData.consistent {r r' : Record} (h : AlikeData r r') {e : Entity}
    (hconsistent : e.Consistent r.data) : e.Consistent r'.data := by
  rcases hconsistent with hblank | hmeets
  · exact .inl fun key hkey => (h.data key hkey).trans (hblank key hkey)
  · refine .inr ?_
    cases e with
    | wellLog =>
      rw [Entity.Meets, h.field (by decide), h.field (by decide)]
      exact hmeets
    | trajectory =>
      rw [Entity.Meets, h.field (by decide)]
      exact hmeets
    | ppfgDataset =>
      rw [Entity.Meets, h.field (by decide), h.field (by decide), h.field (by decide),
        h.field (by decide)]
      exact hmeets
    | wellPressureTestRawMeasurement =>
      rw [Entity.Meets, h.field (by decide)]
      exact hmeets
    | _ => trivial

/-- The routes whose entity is not in the table of the gate are given no record of a kind of
`e`, but for the route of `e` itself. -/
def RecordEvent.LeavesKind {τ : Type} (e : Entity) : RecordEvent τ → Prop
  | .post e' records _ => e' ≠ e → Dict.get entityNames e'.value = none →
    ∀ record ∈ records, ¬ OfKind e record
  | _ => True

namespace Server

variable {τ δ : Type}

/-- One request keeps a property of every version that is ensured of all that is accepted and
that no bulk write can break. -/
theorem everywhere_step {d : Deployment τ δ} {P : Record → Prop} {s t : Server}
    {event : RecordEvent τ} (h : Everywhere P s.records)
    (hstable : ∀ r r', AlikeData r r' → P r → P r')
    (hposted : ∀ e records o, event = .post e records o → PassedChecks d.recordChecks e records s →
      ∀ record ∈ records, P record)
    (hstep : step d s event = some t) : Everywhere P t.records := by
  cases event with
  | post e records o =>
    obtain ⟨-, hstep⟩ := Option.ite_none_right_eq_some.mp hstep
    have hspec := postRecords_written d.recordChecks o records s e
    rw [Effect.Post, Option.some.inj hstep] at hspec
    rcases hspec with rfl | ⟨⟨assign, -, rfl⟩, haccepted⟩
    · exact h
    -- what is stored is like what was posted, and that has passed the checks
    · refine h.addAll fun record hrecord newId version => ?_
      exact hstable record _ (alikeData_stored record newId version)
        (hposted e records o rfl haccepted record hrecord)
  | postData e recordId o =>
    cases hstep
    refine h.publishes hstable ?_
      (postData_spec d.pk (d.dataChecks e) (v3State e) o recordId)
    -- a bulk write sends the record that it fetched
    rintro base sent rfl
    exact ⟨rfl, fun _ _ => rfl⟩
  | complete e recordId sessionId clock update session o =>
    cases hstep
    rcases completeSession_server d.pk (d.dataChecks e)
      (v3State e) o d.py d.isWord recordId sessionId
      -- without its body, a completion stores nothing
      clock update session with hsame | ⟨guard, hbody⟩
    · rw [hsame]
      exact h
    · rw [hbody]
      exact h.publishes hstable (fun _ _ hedited => hedited.alikeData)
        (commitBody_spec d.pk (d.dataChecks e) (v3State e) o recordId guard)
  | delete recordId purge =>
    cases hstep
    exact h.delete recordId purge

/-- **Stored records are consistent.** In every run of posts, bulk writes, commits and deletes,
every version that is stored of a kind of `e` has data that meet the check of `e`, or none of its
own, as long as the two routes that let every kind through are given no record of a kind of `e`.
The versions that bulk writes add, which nobody checks, are no exception. -/
theorem stored_records_consistent {d : Deployment τ δ} {text : Value → String} {e : Entity}
    (he : e.checksBulkUri = true)
    (hchecks : d.recordChecks.checkConsistency = checkConsistency text)
    {s t : Server} {es : List (RecordEvent τ)}
    (hinit : ∀ k, ∀ record ∈ s.records.versions k, OfKind e record → e.Consistent record.data)
    (hleaves : ∀ event ∈ es, event.LeavesKind e) (hrun : run (step d) s es = some t) :
    ∀ k, ∀ record ∈ t.records.versions k, OfKind e record → e.Consistent record.data := by
  let P : Record → Prop := fun record => OfKind e record → e.Consistent record.data
  have hstable : ∀ r r', AlikeData r r' → P r → P r' := by
    rintro r r' halike hr ⟨m, hm, htype⟩
    refine halike.consistent (hr ⟨m, ?_, htype⟩)
    rwa [← halike.kind]
  let Inv : Server → Prop := fun s => Everywhere P s.records
  suffices hall : Inv t from hall
  refine run_invariant ?_ hinit (guarded_of_labels hleaves) hrun
  intro s' event t' hs hleavesKind hstep
  refine everywhere_step hs hstable ?_ hstep
  rintro e' records o rfl ⟨hgate, -, hcheck⟩ record hrecord hkind
  by_cases hsame : e' = e
  · subst hsame
    obtain ⟨j, hj⟩ := checkEach_of_mem (hcheck he) hrecord
    rw [hchecks, checkConsistency] at hj
    cases hok : e'.check record with
    | ok u => exact consistent_of_check hok
    | error error =>
      rw [hok] at hj
      cases hj
  · -- another route either keeps the kind out by its gate, or is given no such record
    cases hname : Dict.get entityNames e'.value with
    | none => exact absurd hkind (hleavesKind hsame hname record hrecord)
    | some name =>
      exact absurd ((ofKind_of_gate hname (gate_of_mem hgate hrecord)).unique hkind) hsame

/-- The checks of the records are on. -/
noncomputable def checkingDeployment : Deployment Value Unit :=
  { sampleDeployment with
    recordChecks :=
      { validateRecords := fun _ => .ok (), checkConsistency := checkConsistency fun _ => "" } }

/-- A well log with two curves, one of which is the reference. -/
def recordWithCurves : Record :=
  { sampleRecord with data := [("ReferenceCurveID", .str "MD"),
      ("Curves", .list [.dict [("CurveID", .str "MD")], .dict [("CurveID", .str "GR")]])] }

/-- A well log is posted and gets a bulk: both versions are consistent. -/
theorem stored_records_consistent_posted :
    ∃ t, run (step checkingDeployment) empty
        [.post .wellLog [recordWithCurves] postedOnly,
          .postData .wellLog sampleSession.session.recordId sampleOutside] = some t ∧
      (t.records.versions sampleSession.session.recordId).length = 2 ∧
      ∀ k, ∀ record ∈ t.records.versions k, OfKind .wellLog record →
        Entity.wellLog.Consistent record.data := by
  have hrun : (run (step checkingDeployment) empty
      [.post .wellLog [recordWithCurves] postedOnly,
        .postData .wellLog sampleSession.session.recordId sampleOutside]).map (fun t =>
          (t.records.versions sampleSession.session.recordId).length) = some 2 := by decide
  obtain ⟨t, ht, hlength⟩ := Option.map_eq_some_iff.mp hrun
  refine ⟨t, ht, hlength, stored_records_consistent (d := checkingDeployment) rfl rfl ?_ ?_ ht⟩
  · intro k record hrecord
    cases hrecord
  · intro event hevent
    simp only [List.mem_cons, List.not_mem_nil, or_false] at hevent
    rcases hevent with rfl | rfl
    · intro hne
      exact absurd rfl hne
    · trivial

end Server

end WellboreDdms
