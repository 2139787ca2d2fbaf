import WellboreDdms.Bulk.Services
import WellboreDdms.Consistency.Columns
import WellboreDdms.Consistency.Describe

/-!
# The checks of a bulk against its record

Each entity with bulks has a class of checks (`DataConsistencyChecks`). The columns of the
bulk must be those its record lists; for well logs and trajectories the reference must fit
the record too.

- `curvesMissingId`, `curveSizesFromMeta`, `uniqueDictAttrValues`: the loops over the items
  of the record.
- `WellLog`, `PPFGDataset`, `WellPressureTestRawMeasurement`, `Trajectory`: the classes, a
  namespace for each.
- `Checker`: the four together, and `Checker.dataConsistencyChecks`, what the handlers of bulks
  take them for.
-/

namespace WellboreDdms

open Python Machine

/-- What the checks read of a record; its data may be null. -/
structure CheckedRecord where
  id : Option String
  data : Option (Dict String Value)

/-- A record as the checkers read it. -/
def Record.checked (record : Record) : CheckedRecord := ⟨record.id, some record.data⟩

/-- The data of a record, unless `not record.data`. -/
def CheckedRecord.items (record : CheckedRecord) : Option (Dict String Value) :=
  record.data.filter fun data => !data.isEmpty

/-- `get_data_partition_from_record_id`. -/
def getDataPartitionFromRecordId (record : CheckedRecord) : Except PyError String :=
  match record.id with
  | some id => .ok ((split id).headD "")
  | none => .error .attributeError

/-- `data.get(key)`. -/
def field (data : Dict String Value) (key : String) : Value := (Dict.get data key).getD .none

/-! ## The columns -/

/-- `if not curves and len(curve_sizes) > 0`. -/
def raiseIfNoCurves (e : CurveEntity) (curves : Value) (curveSizes : Dict String Int) :
    Except CheckError Unit :=
  if !curves.truthy && !curveSizes.isEmpty then .error (.consistency (.noCurves e)) else .ok ()

/-- The indices of the curves that have no `CurveID`. -/
def curvesMissingId : Nat → List Value → Except PyError (List Nat)
  | _, [] => .ok []
  | index, c :: cs => do
    let curveId ← c.lookup "CurveID"
    let indices ← curvesMissingId (index + 1) cs
    return if (curveId.getD .none).truthy then indices else index :: indices

/-- `raise_if_missing_id`. -/
def raiseIfMissingId (curves : List Value) : Except CheckError Unit := do
  let indices ← python (curvesMissingId 0 curves)
  if indices.isEmpty then return () else throw (.consistency (.curvesMissingId indices))

/-- `c.get("NumberOfColumns", 1)`. -/
def numberOfColumns (c : Value) : Except PyError Value := do
  let size ← c.lookup "NumberOfColumns"
  return size.getD (.int 1)

/-- `DEFAULT_NUMBER_OF_COLUMNS`. -/
def defaultNumberOfColumns (_ : Value) : Except PyError Value := .ok (.int 1)

/-- `{c["CurveID"]: size(c) for c in curves}`, without the keys that are no text: no curve
of a bulk is one of them. -/
def curveSizesFromMeta (size : Value → Except PyError Value) :
    List Value → Dict String Value → Except PyError (Dict String Value)
  | [], sizesFromMeta => .ok sizesFromMeta
  | c :: cs, sizesFromMeta => do
    let curveId ← c.item "CurveID"
    let n ← size c
    match curveId with
    | .str name => curveSizesFromMeta size cs (Dict.set sizesFromMeta name n)
    | v => if v.hashable then curveSizesFromMeta size cs sizesFromMeta else .error .typeError

/-- `curve_sizes.keys() - curve_sizes_from_meta.keys()`. -/
def notMatchingColName (curveSizes : Dict String Int) (sizesFromMeta : Dict String Value) :
    List String :=
  (curveSizes.map Prod.fst).filter fun name => !Dict.contains sizesFromMeta name

/-- `any(names)` asks whether one of the names is not empty. -/
def anyName (names : List String) : Bool := names.any fun name => name ≠ ""

/-- `raise_if_not_matching_columns`; the empty name does not count. -/
def raiseIfNotMatchingColumns (e : CurveEntity) (curveSizes : Dict String Int)
    (sizesFromMeta : Dict String Value) : Except CheckError Unit :=
  let names := notMatchingColName curveSizes sizesFromMeta
  if anyName names then .error (.consistency (.notMatchingColumns e names)) else .ok ()

/-- `not_matching_nb_col_per_name`. -/
def notMatchingNbColPerName (curveSizes : Dict String Int) (sizesFromMeta : Dict String Value) :
    Dict String Value :=
  sizesFromMeta.filter fun p => (Dict.get curveSizes p.1).any fun n => !p.2.eqInt n

/-- `raise_if_not_matching_totals`; nor does it here. -/
def raiseIfNotMatchingTotals (e : CurveEntity) (curveSizes : Dict String Int)
    (sizesFromMeta : Dict String Value) : Except CheckError Unit :=
  let notMatching := notMatchingNbColPerName curveSizes sizesFromMeta
  if anyName (notMatching.map Prod.fst) then
    .error (.consistency (.notMatchingTotals e
      (notMatching.filterMap fun p => (Dict.get curveSizes p.1).map (p.1, ·)) notMatching))
  else .ok ()

/-- The curves of the bulk against those of the record, by name and by number of columns. -/
def compareCurves (e : CurveEntity) (curves : List Value) (curveSizes : Dict String Int) :
    Except CheckError Unit := do
  let sizesFromMeta ← python (curveSizesFromMeta numberOfColumns curves [])
  raiseIfNotMatchingColumns e curveSizes sizesFromMeta
  raiseIfNotMatchingTotals e curveSizes sizesFromMeta

/-! ## The classes -/

namespace WellLog

/-- The reference named in the record. -/
def getReferenceCurve (record : CheckedRecord) : Value :=
  match record.items with
  | some data => field data "ReferenceCurveID"
  | none => .none

/-- The columns against the curves of the record. -/
def checkColumnsConsistency (wlData : Dict String Value) (curveSizes : Dict String Int) :
    Except CheckError Unit := do
  raiseIfNoCurves .wellLog (field wlData "Curves") curveSizes
  let curves ← python (field wlData "Curves").iterate
  raiseIfMissingId curves
  compareCurves .wellLog curves curveSizes

/-- The loop of `_is_curve_reference_family_measured_depth`. -/
def anyOfFamily (logCurveFamilyIdExpected reference : String) : List Value → Except PyError Bool
  | [] => .ok false
  | curve :: curves => do
    if (← curve.item "CurveID").eqText reference then
      let family ← curve.lookup "LogCurveFamilyID"
      if (family.getD .none).eqText logCurveFamilyIdExpected then return true
      else anyOfFamily logCurveFamilyIdExpected reference curves
    else anyOfFamily logCurveFamilyIdExpected reference curves

/-- The family of measured depths in a partition. -/
def measuredDepthFamily (dataPartition : String) : String :=
  dataPartition ++ ":reference-data--LogCurveFamily:Measured%20Depth:"

/-- `_is_curve_reference_family_measured_depth`, where the reference is a text. -/
def isCurveReferenceFamilyMeasuredDepth (data : Dict String Value) (reference : String)
    (dataPartition : String) : Except PyError Bool := do
  let curves ← (Value.dict data).item "Curves"
  anyOfFamily (measuredDepthFamily dataPartition) reference (← curves.iterate)

/-- The name of the reference, if it is a curve of the bulk; only texts are. -/
def referenceInBulk (data : Dict String Value) (curveSizes : Dict String Int) :
    Except PyError (Option String) :=
  match field data "ReferenceCurveID" with
  | .str name => .ok (if Dict.contains curveSizes name then some name else none)
  | v => if v.hashable then .ok none else .error .typeError

section

variable {φ : Type} (fa : FloatArithmetic φ)

/-- The checks after those of the columns. -/
def checkReferenceInBulk (record : CheckedRecord) (data : Dict String Value)
    (bulkInfo : BulkInfoForConsistency) : Except CheckError Unit := do
  match ← python (referenceInBulk data bulkInfo.curves) with
  | none => return ()
  | some referenceName =>
    let dataPartition ← python (getDataPartitionFromRecordId record)
    if ← python (isCurveReferenceFamilyMeasuredDepth data referenceName dataPartition) then
      match bulkInfo.reference with
      | some reference =>
        if referenceName = reference.name then
          checkReference fa data .samplingStart .samplingStop reference
        else return ()
      | none => return ()
    else return ()

/-- A record without data passes. -/
def checkBulkConsistency (record : CheckedRecord) (bulkInfo : BulkInfoForConsistency) :
    Except CheckError Unit :=
  match record.items with
  | none => .ok ()
  | some data => do
    checkColumnsConsistency data bulkInfo.curves
    checkReferenceInBulk fa record data bulkInfo

end

end WellLog

namespace PPFGDataset

/-- The reference named in the record. -/
def getReferenceCurve (record : CheckedRecord) : Value :=
  match record.items with
  | some data => field data "PrimaryReferenceCurveID"
  | none => .none

/-- The columns against the curves of the record. -/
def checkColumnsConsistency (ppfgData : Dict String Value) (curveSizes : Dict String Int) :
    Except CheckError Unit := do
  raiseIfNoCurves .ppfgDataset (field ppfgData "Curves") curveSizes
  let curves ← python (field ppfgData "Curves").iterate
  let sizesFromMeta ← python (curveSizesFromMeta defaultNumberOfColumns curves [])
  raiseIfNotMatchingColumns .ppfgDataset curveSizes sizesFromMeta

/-- The reference is not checked. -/
def checkBulkConsistency (record : CheckedRecord) (bulkInfo : BulkInfoForConsistency) :
    Except CheckError Unit :=
  match record.items with
  | none => .ok ()
  | some data => checkColumnsConsistency data bulkInfo.curves

end PPFGDataset

namespace WellPressureTestRawMeasurement

/-- There is none. -/
def getReferenceCurve (_ : CheckedRecord) : Value := .none

/-- The columns against the curves of the record. -/
def checkColumnsConsistency (data : Dict String Value) (curveSizes : Dict String Int) :
    Except CheckError Unit := do
  raiseIfNoCurves .wellPressureTestRawMeasurement (field data "Curves") curveSizes
  let curves ← python (field data "Curves").iterate
  compareCurves .wellPressureTestRawMeasurement curves curveSizes

/-- The columns are all that is checked. -/
def checkBulkConsistency (record : CheckedRecord) (bulkInfo : BulkInfoForConsistency) :
    Except CheckError Unit :=
  match record.items with
  | none => .ok ()
  | some data => checkColumnsConsistency data bulkInfo.curves

end WellPressureTestRawMeasurement

/-! ## Trajectories -/

/-- The loop of `get_unique_dict_attr_values`: the values before the first repeated one, and
whether there is a repeated one. -/
def uniqueDictAttrValuesFrom (attrName : String) :
    List Value → List Value → Except PyError (List Value × Bool)
  | [], values => .ok (values, false)
  | obj :: objs, values => do
    let value := (← obj.lookup attrName).getD .none
    if !value.truthy then uniqueDictAttrValuesFrom attrName objs values
    else if !value.hashable then throw .typeError
    else if values.any value.sameKey then return (values, true)
    else uniqueDictAttrValuesFrom attrName objs (values ++ [value])

/-- `get_unique_dict_attr_values`. -/
def getUniqueDictAttrValues (objectList : Value) (attrName : String) :
    Except PyError (List Value × Bool) :=
  if objectList.truthy then do uniqueDictAttrValuesFrom attrName (← objectList.iterate) []
  else .ok ([], false)

namespace Trajectory

/-- The list of stations. -/
def stationProperties : String := "AvailableTrajectoryStationProperties"

/-- The type of a station. -/
def stationPropertyTypeId : String := "TrajectoryStationPropertyTypeID"

/-- The type of measured depths. -/
def measuredDepthTypeId : String := ":reference-data--TrajectoryStationPropertyType:MD:"

/-- The name of a station whose type is the measured depth. -/
def referenceOfStation (station : Value) : Except PyError (Option Value) := do
  if !station.truthy then return none
  else if ← station.containsText stationPropertyTypeId then
    let typeId ← station.item stationPropertyTypeId
    if !typeId.truthy then return none
    else if ← typeId.containsText measuredDepthTypeId then
      if ← station.containsText "Name" then
        let name ← station.item "Name"
        return if name.truthy then some name else none
      else return none
    else return none
  else return none

/-- The loop of `get_reference_curve`. -/
def referenceOfStations : List Value → Except PyError Value
  | [] => .ok .none
  | station :: stations => do
    match ← referenceOfStation station with
    | some name => return name
    | none => referenceOfStations stations

/-- `get_reference_curve`, of a record with data. -/
def referenceOfData (recordData : Dict String Value) : Except PyError Value :=
  match field recordData stationProperties with
  | .none => .ok .none
  | stations => do referenceOfStations (← stations.iterate)

/-- The reference among the stations. -/
def getReferenceCurve (record : CheckedRecord) : Except PyError Value :=
  match record.data with
  | some recordData => referenceOfData recordData
  | none => .ok .none

/-- The columns against the stations of the record. -/
def checkColumnsConsistency (recordData : Dict String Value) (curveSizes : Dict String Int) :
    Except CheckError Unit := do
  if !curveSizes.isEmpty && !Dict.contains recordData stationProperties then
    throw (.consistency .missingTrajectoryStationProperty)
  let stations ← python ((Value.dict recordData).item stationProperties)
  let (curveIds, _) ← python (getUniqueDictAttrValues stations "Name")
  let names := (curveSizes.map Prod.fst).filter fun name => !curveIds.any (·.eqText name)
  if anyName names then throw (.consistency (.notMatchingStations names))

section

variable {φ : Type} (fa : FloatArithmetic φ)

/-- The checks after those of the columns. -/
def checkReferenceOfBulk (data : Dict String Value) (bulkInfo : BulkInfoForConsistency) :
    Except CheckError Unit := do
  let referenceName ← python (referenceOfData data)
  if referenceName.truthy then
    match bulkInfo.reference with
    | some reference =>
      if referenceName.eqText reference.name then
        checkReference fa data .topDepthMeasuredDepth .baseDepthMeasuredDepth reference
      else return ()
    | none => return ()
  else return ()

/-- A record without data passes. -/
def checkBulkConsistency (record : CheckedRecord) (bulkInfo : BulkInfoForConsistency) :
    Except CheckError Unit :=
  match record.items with
  | none => .ok ()
  | some data => do
    checkColumnsConsistency data bulkInfo.curves
    checkReferenceOfBulk fa data bulkInfo

end

end Trajectory

/-! ## The four classes -/

/-- The four checkers. -/
inductive Checker where
  | wellLog
  | trajectory
  | ppfgDataset
  | wellPressureTestRawMeasurement
  deriving DecidableEq

namespace Checker

/-- The reference that a checker looks for. -/
def getReferenceCurve : Checker → CheckedRecord → Except PyError Value
  | .wellLog, record => .ok (WellLog.getReferenceCurve record)
  | .trajectory, record => Trajectory.getReferenceCurve record
  | .ppfgDataset, record => .ok (PPFGDataset.getReferenceCurve record)
  | .wellPressureTestRawMeasurement, record =>
    .ok (WellPressureTestRawMeasurement.getReferenceCurve record)

/-- The check of an entity. -/
def checkBulkConsistency {φ : Type} (fa : FloatArithmetic φ) :
    Checker → CheckedRecord → BulkInfoForConsistency → Except CheckError Unit
  | .wellLog => WellLog.checkBulkConsistency fa
  | .trajectory => Trajectory.checkBulkConsistency fa
  | .ppfgDataset => PPFGDataset.checkBulkConsistency
  | .wellPressureTestRawMeasurement => WellPressureTestRawMeasurement.checkBulkConsistency

/-- The check of a record that has data. -/
def checkData {φ : Type} (fa : FloatArithmetic φ) (record : CheckedRecord)
    (data : Dict String Value) (bulkInfo : BulkInfoForConsistency) :
    Checker → Except CheckError Unit
  | .wellLog => do
    WellLog.checkColumnsConsistency data bulkInfo.curves
    WellLog.checkReferenceInBulk fa record data bulkInfo
  | .trajectory => do
    Trajectory.checkColumnsConsistency data bulkInfo.curves
    Trajectory.checkReferenceOfBulk fa data bulkInfo
  | .ppfgDataset => PPFGDataset.checkColumnsConsistency data bulkInfo.curves
  | .wellPressureTestRawMeasurement =>
    WellPressureTestRawMeasurement.checkColumnsConsistency data bulkInfo.curves

/-- Each class passes over a record without data. -/
theorem checkBulkConsistency_eq {φ : Type} (fa : FloatArithmetic φ) (c : Checker)
    (record : CheckedRecord) (bulkInfo : BulkInfoForConsistency) :
    c.checkBulkConsistency fa record bulkInfo =
      match record.items with
      | none => .ok ()
      | some data => c.checkData fa record data bulkInfo := by
  cases c <;> rfl

end Checker

/-! ## As the handlers call them -/

/-- An exception of a check, where a handler meets it. -/
def CheckError.raised (str : Value → String) (strCell : Cell → String) : CheckError → Raised
  | .consistency e => .bulkError 400 (e.message str strCell)
  | .python .typeError | .python .attributeError => .typeError
  | .python (.keyError key) => .keyError key
  | .python .valueError => .other "ValueError"
  | .python .overflowError => .other "OverflowError"

/-- The class as the handlers have it; `read` is the validation of a description. -/
def Checker.dataConsistencyChecks {φ : Type} (fa : FloatArithmetic φ)
    (read : Value → Except Raised BulkInfoForConsistency) (str : Value → String)
    (strCell : Cell → String) (c : Checker) : DataConsistencyChecks BulkInfoForConsistency where
  bulkInfo := read
  getReferenceCurve := fun record =>
    (python (c.getReferenceCurve record.checked)).mapError (CheckError.raised str strCell)
  checkBulkConsistency := fun record bulkInfo =>
    (c.checkBulkConsistency fa record.checked bulkInfo).mapError (CheckError.raised str strCell)

end WellboreDdms
