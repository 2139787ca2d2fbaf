import WellboreDdms.Consistency.Errors

/-!
# The two ways to a check

A dataframe that is posted whole is checked from its columns; a description of one, as the
worker builds it, is checked later. The two name the curves and choose the reference in
different ways.

- `DataFrame`, `fromColumn`, `fromDataframe`: the dataframe and its description.
- `Checker.checkBulkConsistencyOnPostBulk`, `Checker.checkDescribed`: the two ways.
- `Agree`: checks that end alike; `agree_curves`: the two counts of the curves do not matter.
- `Checker.checkData_of_compares`, `Checker.checkData_of_not_compares`: when the reference does.
-/

namespace WellboreDdms

open Python Machine

/-- The ends and the order of a column or of the index. -/
structure Series where
  firstValue : Cell
  lastValue : Cell
  monotonicity : Option Monotonicity
  hasDuplicate : Bool
  hasNan : Bool

/-- A dataframe with labels that are texts, as far as the checks read it. -/
structure DataFrame where
  rowCount : Nat
  index : Series
  columns : List (String × Series)

/-- `name`, with the order of `series` and the ends of `ends`. -/
def ColumnDescribe.ofSeries (name : String) (series ends : Series) : ColumnDescribe :=
  ⟨name, ends.firstValue, ends.lastValue, series.monotonicity, series.hasDuplicate, series.hasNan⟩

/-- The description of a dataframe without rows or columns. -/
def ColumnDescribe.empty : ColumnDescribe :=
  ⟨wdmsIndexName, .value .none, .value .none, some .increasing, false, false⟩

namespace DataFrame

/-- The labels of the columns. -/
def labels (df : DataFrame) : List String := df.columns.map Prod.fst

/-- `df.empty`. -/
def empty (df : DataFrame) : Bool := df.rowCount = 0 || df.columns.isEmpty

/-- The label that a value is: `v in df`, which hashes it. -/
def label (df : DataFrame) (v : Value) : Except PyError (Option String) :=
  match v with
  | .str s => .ok (if s ∈ df.labels then some s else none)
  | v => if v.hashable then .ok none else .error .typeError

/-- The description of a column or of the index; a label may be there more than once, and then
it gives a dataframe, which has no order. The ends of a column named like the index are those of
the index. -/
def describe (df : DataFrame) (name : String) : Except PyError ColumnDescribe :=
  match df.columns.filter fun p => p.1 = name with
  | [] => .ok (.ofSeries name df.index df.index)
  | [p] => .ok (.ofSeries name p.2 (if name = wdmsIndexName then df.index else p.2))
  | _ => .error .attributeError

/-- `ColumnDescribe.from_column`. -/
def fromColumn (df : DataFrame) (referenceName : Value) : Except PyError ColumnDescribe :=
  if df.empty then .ok .empty
  else if !referenceName.truthy then df.describe wdmsIndexName
  else do
    let label ← df.label referenceName
    df.describe (label.getD wdmsIndexName)

/-- `BulkInfoForConsistency.from_dataframe`. -/
def fromDataframe (df : DataFrame) (referenceCurve : Value) :
    Except PyError BulkInfoForConsistency := do
  let reference ← df.fromColumn referenceCurve
  return ⟨describedCurves df.labels, some reference⟩

/-- The description that is built where a dataframe is posted. -/
def postedBulk (df : DataFrame) (referenceName : Value) :
    Except PyError BulkInfoForConsistency := do
  match ← df.label referenceName with
  | some name =>
    if name ≠ "" then
      let reference ← df.fromColumn (.str name)
      return ⟨postedCurves df.labels, some reference⟩
    else return ⟨postedCurves df.labels, none⟩
  | none => return ⟨postedCurves df.labels, none⟩

end DataFrame

/-- A column of numbers in a dataframe. -/
def NumericColumn.series (column : NumericColumn) : Series where
  firstValue := column.first
  lastValue := column.last
  monotonicity := column.describe.monotonicity
  hasDuplicate := column.describe.hasDuplicate
  hasNan := column.describe.hasNan

/-- The dataframe has the column once, and its index. -/
structure DataFrame.Has (df : DataFrame) (column : NumericColumn) : Prop where
  nonempty : df.empty = false
  once : (df.columns.filter fun p => p.1 = column.name) = [(column.name, column.series)]
  first : df.index.firstValue = column.index.head column.index_ne_nil
  last : df.index.lastValue = column.index.getLast column.index_ne_nil

/-- **The description of a column of numbers** is what `from_column` makes of it in a dataframe. -/
theorem DataFrame.fromColumn_numeric {df : DataFrame} {column : NumericColumn} (h : df.Has column)
    (hname : column.name ≠ "") : df.fromColumn (.str column.name) = .ok column.describe := by
  have htruthy : (Value.str column.name).truthy = true := by simpa [Value.truthy] using hname
  have hlabel : df.label (.str column.name) = .ok (some column.name) := by
    have hmem : (column.name, column.series) ∈ df.columns.filter fun p => p.1 = column.name :=
      h.once ▸ List.mem_singleton_self _
    exact congrArg Except.ok (if_pos (List.mem_map_of_mem (List.mem_of_mem_filter hmem)))
  rw [fromColumn, h.nonempty, htruthy, hlabel]
  show df.describe column.name = _
  rw [DataFrame.describe, h.once]
  refine congrArg Except.ok ?_
  -- the ends are those of the index for a column that is named like it
  rw [NumericColumn.describe, ColumnDescribe.ofSeries, NumericColumn.start, NumericColumn.stop]
  by_cases hindex : column.name = wdmsIndexName
  · simp only [if_pos hindex, h.first, h.last]
    rfl
  · simp only [if_neg hindex]
    rfl

section

variable {φ : Type} (fa : FloatArithmetic φ) (record : CheckedRecord) (df : DataFrame)

/-- `check_bulk_consistency_on_post_bulk`, of a class that reads a reference. -/
def onPostBulk (check : CheckedRecord → BulkInfoForConsistency → Except CheckError Unit)
    (reference : Dict String Value → Except PyError Value) : Except CheckError Unit :=
  match record.items with
  | none => .ok ()
  | some data => do
    let referenceName ← python (reference data)
    let bulkInfo ← python (df.postedBulk referenceName)
    check record bulkInfo

/-- The well logs' check of a posted bulk. -/
def WellLog.checkBulkConsistencyOnPostBulk : Except CheckError Unit :=
  onPostBulk record df (WellLog.checkBulkConsistency fa) fun data =>
    .ok (field data "ReferenceCurveID")

/-- The trajectories' check of a posted bulk. -/
def Trajectory.checkBulkConsistencyOnPostBulk : Except CheckError Unit :=
  onPostBulk record df (Trajectory.checkBulkConsistency fa) fun _ =>
    Trajectory.getReferenceCurve record

/-- The PPFG datasets' check of a posted bulk. -/
def PPFGDataset.checkBulkConsistencyOnPostBulk : Except CheckError Unit :=
  onPostBulk record df PPFGDataset.checkBulkConsistency fun data =>
    .ok (field data "PrimaryReferenceCurveID")

/-- The raw measurements' check of a posted bulk, which needs no reference. -/
def WellPressureTestRawMeasurement.checkBulkConsistencyOnPostBulk : Except CheckError Unit :=
  match record.items with
  | none => .ok ()
  | some _ =>
    WellPressureTestRawMeasurement.checkBulkConsistency record ⟨postedCurves df.labels, none⟩

namespace Checker

/-- The check of an entity. -/
def checkBulkConsistencyOnPostBulk : Checker → Except CheckError Unit
  | .wellLog => WellLog.checkBulkConsistencyOnPostBulk fa record df
  | .trajectory => Trajectory.checkBulkConsistencyOnPostBulk fa record df
  | .ppfgDataset => PPFGDataset.checkBulkConsistencyOnPostBulk record df
  | .wellPressureTestRawMeasurement =>
    WellPressureTestRawMeasurement.checkBulkConsistencyOnPostBulk record df

/-- The check of the description of the dataframe. -/
def checkDescribed (c : Checker) : Except CheckError Unit := do
  let referenceName ← python (c.getReferenceCurve record)
  let bulkInfo ← python (df.fromDataframe referenceName)
  c.checkBulkConsistency fa record bulkInfo

end Checker

end

/-! ## Checks that end alike -/

/-- Both pass, or both raise exceptions of one class. -/
def Agree : Except CheckError Unit → Except CheckError Unit → Prop
  | .ok _, .ok _ => True
  | .error e, .error e' => e.SameClass e'
  | _, _ => False

theorem CheckError.SameClass.refl (e : CheckError) : e.SameClass e := by
  cases e with
  | consistency e => rfl
  | python e => cases e <;> first | rfl | trivial

theorem Agree.refl (x : Except CheckError Unit) : Agree x x := by
  cases x with
  | ok => trivial
  | error e => exact CheckError.SameClass.refl e

theorem Agree.eq_ok_iff {x y : Except CheckError Unit} (h : Agree x y) :
    x = .ok () ↔ y = .ok () := by
  cases x with
  | ok =>
    cases y with
    | ok => exact iff_of_true rfl rfl
    | error => exact h.elim
  | error =>
    cases y with
    | ok => exact h.elim
    | error => exact iff_of_false nofun nofun

/-- What follows two checks that end alike is reached after both or after neither. -/
theorem Agree.then {x y f g : Except CheckError Unit} (h : Agree x y)
    (hfg : x = .ok () → y = .ok () → Agree f g) : Agree (x >>= fun _ => f) (y >>= fun _ => g) := by
  cases x with
  | ok =>
    cases y with
    | ok => exact hfg rfl rfl
    | error => exact h.elim
  | error =>
    cases y with
    | ok => exact h.elim
    | error => exact h

theorem agree_bind {α : Type} {x : Except CheckError α} {f g : α → Except CheckError Unit}
    (h : ∀ a, x = .ok a → Agree (f a) (g a)) : Agree (x >>= f) (x >>= g) := by
  cases x with
  | ok a => exact h a rfl
  | error e => exact CheckError.SameClass.refl e

theorem agree_refused {b b' : Bool} {ex ex' : ConsistencyException} (hb : b = b')
    (hex : ex.type = ex'.type) :
    Agree (if b then .error (.consistency ex) else .ok ())
      (if b' then .error (.consistency ex') else .ok ()) := by
  subst hb
  cases b with
  | true => exact hex
  | false => trivial

/-! ## The curves of the two ways -/

section

variable {posted described : Dict String Int} {e : CurveEntity}

/-- The counts differ in the empty name alone. -/
def SameButEmpty (posted described : Dict String Int) : Prop := Dict.erase described "" = posted

/-- The curves differ in the empty name only. -/
theorem SameButEmpty.get_eq (h : SameButEmpty posted described) {name : String} (hne : name ≠ "") :
    Dict.get posted name = Dict.get described name := by
  rw [← h, Dict.get_erase_of_ne _ hne]

theorem SameButEmpty.empty_not_mem (h : SameButEmpty posted described) :
    Dict.contains posted "" = false := by
  rw [← h]
  refine Bool.eq_false_iff.mpr fun hmem => ?_
  obtain ⟨p, hp, hname⟩ := List.mem_map.mp (Dict.contains_iff.mp hmem)
  simp [Dict.erase, hname] at hp

theorem SameButEmpty.anyName_filter (h : SameButEmpty posted described) (p : String → Bool) :
    anyName ((posted.map Prod.fst).filter p) = anyName ((described.map Prod.fst).filter p) := by
  rw [← h]
  simp only [anyName, Dict.erase, List.any_filter, List.any_map]
  congr 1
  funext q
  by_cases hq : q.1 = "" <;> simp [hq]

theorem SameButEmpty.raiseIfNoCurves {curves : Value}
    (hsome : curves.truthy = false → (posted = [] ↔ described = [])) :
    Agree (raiseIfNoCurves e curves posted) (raiseIfNoCurves e curves described) := by
  refine agree_refused ?_ rfl
  cases htruthy : curves.truthy with
  | true => rfl
  | false =>
    have hempty : posted.isEmpty = described.isEmpty := by
      rw [Bool.eq_iff_iff, List.isEmpty_iff, List.isEmpty_iff]
      exact hsome htruthy
    rw [hempty]

theorem SameButEmpty.raiseIfNotMatchingColumns (h : SameButEmpty posted described)
    (sizesFromMeta : Dict String Value) :
    Agree (raiseIfNotMatchingColumns e posted sizesFromMeta)
      (raiseIfNotMatchingColumns e described sizesFromMeta) :=
  agree_refused (h.anyName_filter _) rfl

theorem SameButEmpty.raiseIfNotMatchingTotals (h : SameButEmpty posted described)
    (sizesFromMeta : Dict String Value) :
    Agree (raiseIfNotMatchingTotals e posted sizesFromMeta)
      (raiseIfNotMatchingTotals e described sizesFromMeta) := by
  refine agree_refused ?_ rfl
  simp only [anyName, notMatchingNbColPerName, List.any_map, List.any_filter]
  congr 1
  funext p
  by_cases hp : p.1 = ""
  · simp [hp]
  · simp [h.get_eq hp]

/-- **The comparison of the curves** agrees. -/
theorem SameButEmpty.compareCurves (h : SameButEmpty posted described) (curves : List Value) :
    Agree (compareCurves e curves posted) (compareCurves e curves described) :=
  agree_bind fun sizesFromMeta _ =>
    (h.raiseIfNotMatchingColumns sizesFromMeta).then fun _ _ =>
      h.raiseIfNotMatchingTotals sizesFromMeta

/-- The record lists no curves: there is nothing the columns could match. -/
def Checker.ListsNone (data : Dict String Value) : Checker → Prop
  | .trajectory => Dict.contains data Trajectory.stationProperties = false
  | _ => (field data "Curves").truthy = false

variable {data : Dict String Value} {record : CheckedRecord}

theorem WellLog.agree_columns (h : SameButEmpty posted described)
    (hsome : Checker.wellLog.ListsNone data → (posted = [] ↔ described = [])) :
    Agree (checkColumnsConsistency data posted) (checkColumnsConsistency data described) :=
  (SameButEmpty.raiseIfNoCurves hsome).then fun _ _ =>
    agree_bind fun _ _ => agree_bind fun _ _ => h.compareCurves _

theorem PPFGDataset.agree_columns (h : SameButEmpty posted described)
    (hsome : Checker.ppfgDataset.ListsNone data → (posted = [] ↔ described = [])) :
    Agree (checkColumnsConsistency data posted) (checkColumnsConsistency data described) :=
  (SameButEmpty.raiseIfNoCurves hsome).then fun _ _ =>
    agree_bind fun _ _ => agree_bind fun sizesFromMeta _ =>
      h.raiseIfNotMatchingColumns sizesFromMeta

theorem WellPressureTestRawMeasurement.agree_columns (h : SameButEmpty posted described)
    (hsome : Checker.wellPressureTestRawMeasurement.ListsNone data →
      (posted = [] ↔ described = [])) :
    Agree (checkColumnsConsistency data posted) (checkColumnsConsistency data described) :=
  (SameButEmpty.raiseIfNoCurves hsome).then fun _ _ => agree_bind fun _ _ => h.compareCurves _

theorem Trajectory.agree_columns (h : SameButEmpty posted described)
    (hsome : Checker.trajectory.ListsNone data → (posted = [] ↔ described = [])) :
    Agree (checkColumnsConsistency data posted) (checkColumnsConsistency data described) := by
  have hrest : Agree
      (python ((Value.dict data).item stationProperties) >>= fun stations =>
        python (getUniqueDictAttrValues stations "Name") >>= fun collected =>
          let names := (posted.map Prod.fst).filter fun name => !collected.1.any (·.eqText name)
          if anyName names then .error (.consistency (.notMatchingStations names)) else .ok ())
      (python ((Value.dict data).item stationProperties) >>= fun stations =>
        python (getUniqueDictAttrValues stations "Name") >>= fun collected =>
          let names := (described.map Prod.fst).filter fun name => !collected.1.any (·.eqText name)
          if anyName names then .error (.consistency (.notMatchingStations names)) else .ok ()) :=
    agree_bind fun _ _ => agree_bind fun _ _ => agree_refused (h.anyName_filter _) rfl
  unfold checkColumnsConsistency
  cases hcontains : Dict.contains data stationProperties with
  | true =>
    rw [Bool.not_true, Bool.and_false, Bool.and_false]
    exact hrest
  | false =>
    have hempty := hsome hcontains
    cases posted with
    | nil =>
      rw [hempty.mp rfl] at hrest ⊢
      exact Agree.refl _
    | cons p ps =>
      cases described with
      | nil => cases hempty.mpr rfl
      | cons q qs => exact Agree.refl (.error (.consistency .missingTrajectoryStationProperty))

/-- Where every curve has an identifier, no curve has the empty one. -/
theorem WellLog.anyOfFamily_empty {curves : List Value} {index : Nat} (expected : String)
    (h : curvesMissingId index curves = .ok []) : anyOfFamily expected "" curves = .ok false := by
  induction curves generalizing index with
  | nil => rfl
  | cons c cs ih =>
    simp only [curvesMissingId, bind_eq_ok] at h
    obtain ⟨curveId, hlookup, indices, hrest, hreturn⟩ := h
    -- a curve without an id is on the list, which is empty
    cases htruthy : (curveId.getD .none).truthy with
    | false =>
      rw [htruthy] at hreturn
      cases hreturn
    | true =>
      rw [htruthy] at hreturn
      cases hreturn
      cases c with
      | dict items =>
        cases hget : Dict.get items "CurveID" with
        | none =>
          rw [Value.lookup, hget] at hlookup
          cases hlookup
          cases htruthy
        | some v =>
          rw [Value.lookup, hget] at hlookup
          cases hlookup
          -- so no curve has the empty id
          have hne : v.eqText "" = false := by
            refine Bool.eq_false_iff.mpr fun heq => ?_
            rw [Value.eqText_iff.mp heq] at htruthy
            cases htruthy
          rw [anyOfFamily, Value.item, hget]
          show (if v.eqText "" = true then _ else _) = _
          rw [hne]
          exact ih hrest
      | none | bool | int | float | str | list | uuid | datetime => cases hlookup

/-- The curves of a well log whose columns pass have identifiers. -/
theorem WellLog.curves_of_pass {curveSizes : Dict String Int}
    (h : checkColumnsConsistency data curveSizes = .ok ()) :
    ∃ curves, (field data "Curves").iterate = .ok curves ∧ curvesMissingId 0 curves = .ok [] := by
  simp only [checkColumnsConsistency, bind_eq_ok, python_eq_ok, raiseIfMissingId] at h
  obtain ⟨_, -, curves, hcurves, _, ⟨indices, hindices, hpass⟩, -⟩ := h
  cases indices with
  | nil => exact ⟨curves, hcurves, hindices⟩
  | cons => cases hpass

theorem item_of_iterate {key : String} {xs : List Value} (h : (field data key).iterate = .ok xs) :
    (Value.dict data).item key = .ok (field data key) := by
  unfold field at h ⊢
  rw [Value.item]
  cases hget : Dict.get data key with
  | none =>
    rw [hget] at h
    cases h
  | some v => rfl

section

variable {φ : Type} {fa : FloatArithmetic φ}

/-- The check of the reference, after columns that pass, does not tell the counts apart. -/
theorem WellLog.agree_reference (h : SameButEmpty posted described)
    (hpass : checkColumnsConsistency data described = .ok ())
    (hid : field data "ReferenceCurveID" = .str "" → Dict.contains described "" = true →
      record.id ≠ none) (reference : Option ColumnDescribe) :
    checkReferenceInBulk fa record data ⟨posted, reference⟩ =
      checkReferenceInBulk fa record data ⟨described, reference⟩ := by
  by_cases hsame : referenceInBulk data posted = referenceInBulk data described
  · simp only [checkReferenceInBulk, hsame]
  · -- the two counts differ in the empty name only
    have hempty : field data "ReferenceCurveID" = .str "" ∧ Dict.contains described "" = true := by
      unfold referenceInBulk at hsame
      cases hfield : field data "ReferenceCurveID" with
      | str name =>
        rw [hfield] at hsame
        have hne : Dict.contains posted name ≠ Dict.contains described name := fun heq =>
          hsame (by simp only [heq])
        obtain rfl : name = "" := by
          by_contra hname
          exact hne (by simp only [Dict.contains, h.get_eq hname])
        rw [h.empty_not_mem] at hne
        exact ⟨rfl, by simpa using hne⟩
      | none | bool | int | float | list | dict | uuid | datetime =>
        rw [hfield] at hsame
        exact absurd rfl hsame
    obtain ⟨hfield, hcontains⟩ := hempty
    obtain ⟨id, hrecord⟩ := Option.ne_none_iff_exists'.mp (hid hfield hcontains)
    -- which no curve has that has passed, so that nothing is compared
    obtain ⟨curves, hcurves, hmissing⟩ := curves_of_pass hpass
    have hfamily :
      isCurveReferenceFamilyMeasuredDepth data "" ((split id).headD "") = .ok false := by
      rw [isCurveReferenceFamilyMeasuredDepth, item_of_iterate hcurves]
      show ((field data "Curves").iterate >>= _) = _
      rw [hcurves]
      exact anyOfFamily_empty _ hmissing
    have hposted : referenceInBulk data posted = .ok none := by
      simp only [referenceInBulk, hfield, h.empty_not_mem, Bool.false_eq_true, if_false]
    have hdescribed : referenceInBulk data described = .ok (some "") := by
      simp only [referenceInBulk, hfield, hcontains, if_true]
    simp only [checkReferenceInBulk, hposted, hdescribed, getDataPartitionFromRecordId, hrecord]
    show _ = (python (isCurveReferenceFamilyMeasuredDepth data "" _) >>= _)
    rw [hfamily]
    rfl

/-- **The two counts of the curves** lead to the same end, if they are empty together wherever
the record lists no curves. -/
theorem agree_curves (c : Checker) (h : SameButEmpty posted described)
    (hsome : c.ListsNone data → (posted = [] ↔ described = []))
    (hid : c = .wellLog → field data "ReferenceCurveID" = .str "" →
      Dict.contains described "" = true → record.id ≠ none) (reference : Option ColumnDescribe) :
    Agree (c.checkData fa record data ⟨posted, reference⟩)
      (c.checkData fa record data ⟨described, reference⟩) := by
  cases c with
  | wellLog =>
    refine (WellLog.agree_columns h hsome).then fun _ hpass => ?_
    rw [WellLog.agree_reference h hpass (hid rfl)]
    exact Agree.refl _
  | trajectory => exact (Trajectory.agree_columns h hsome).then fun _ _ => Agree.refl _
  | ppfgDataset => exact PPFGDataset.agree_columns h hsome
  | wellPressureTestRawMeasurement => exact WellPressureTestRawMeasurement.agree_columns h hsome

end

end

/-! ## The references of the two ways -/

section

variable {φ : Type} (fa : FloatArithmetic φ) (record : CheckedRecord) (data : Dict String Value)
  (curveSizes : Dict String Int)

/-- The check gets to the comparison of a column of the name, if there is one. -/
def Checker.Compares (name : String) : Checker → Prop
  | .wellLog => WellLog.checkColumnsConsistency data curveSizes = .ok () ∧
    WellLog.referenceInBulk data curveSizes = .ok (some name) ∧
      ∃ dataPartition, getDataPartitionFromRecordId record = .ok dataPartition ∧
        WellLog.isCurveReferenceFamilyMeasuredDepth data name dataPartition = .ok true
  | .trajectory => Trajectory.checkColumnsConsistency data curveSizes = .ok () ∧
    Trajectory.referenceOfData data = .ok (.str name) ∧ name ≠ ""
  | .ppfgDataset | .wellPressureTestRawMeasurement => False

/-- The comparison of the column. -/
def Checker.compare (reference : ColumnDescribe) : Checker → Except CheckError Unit
  | .wellLog => checkReference fa data .samplingStart .samplingStop reference
  | .trajectory => checkReference fa data .topDepthMeasuredDepth .baseDepthMeasuredDepth reference
  | .ppfgDataset | .wellPressureTestRawMeasurement => .ok ()

variable {fa record data curveSizes}

/-- Where the check gets to the comparison, it is the comparison. -/
theorem Checker.checkData_of_compares (fa : FloatArithmetic φ) {c : Checker} {name : String}
    (h : c.Compares record data curveSizes name) :
    c.checkData fa record data ⟨curveSizes, none⟩ = .ok () ∧
      ∀ reference : ColumnDescribe, reference.name = name →
        c.checkData fa record data ⟨curveSizes, some reference⟩ = c.compare fa data reference := by
  cases c with
  | wellLog =>
    obtain ⟨hpass, hreference, dataPartition, hpartition, hfamily⟩ := h
    simp only [checkData, hpass, WellLog.checkReferenceInBulk, hreference]
    show (python (getDataPartitionFromRecordId record) >>= _) = _ ∧
      ∀ reference : ColumnDescribe, reference.name = name →
        (python (getDataPartitionFromRecordId record) >>= _) = _
    rw [hpartition]
    show (python (WellLog.isCurveReferenceFamilyMeasuredDepth data name dataPartition) >>= _) = _ ∧
      ∀ reference : ColumnDescribe, reference.name = name →
        (python (WellLog.isCurveReferenceFamilyMeasuredDepth data name dataPartition) >>= _) = _
    rw [hfamily]
    exact ⟨rfl, fun reference hname => if_pos hname.symm⟩
  | trajectory =>
    obtain ⟨hpass, hreference, hne⟩ := h
    have htruthy : (Value.str name).truthy = true := by simpa [Value.truthy] using hne
    simp only [checkData, hpass, Trajectory.checkReferenceOfBulk, hreference]
    constructor
    · exact if_pos htruthy
    · intro reference hname
      exact (if_pos htruthy).trans (if_pos (Value.eqText_iff.mpr (congrArg _ hname.symm)))
  | ppfgDataset => exact h.elim
  | wellPressureTestRawMeasurement => exact h.elim

/-- Where the check does not get to the comparison, the column does not matter. -/
theorem Checker.checkData_of_not_compares {c : Checker} {reference : ColumnDescribe}
    (h : ¬ c.Compares record data curveSizes reference.name) (hne : reference.name ≠ "") :
    c.checkData fa record data ⟨curveSizes, some reference⟩ =
      c.checkData fa record data ⟨curveSizes, none⟩ := by
  cases c with
  | wellLog =>
    simp only [checkData, WellLog.checkReferenceInBulk]
    cases hpass : WellLog.checkColumnsConsistency data curveSizes with
    | error e => rfl
    | ok =>
      cases hreference : WellLog.referenceInBulk data curveSizes with
      | error e => rfl
      | ok name? =>
        cases name? with
        | none => rfl
        | some name =>
          cases hpartition : getDataPartitionFromRecordId record with
          | error e => rfl
          | ok dataPartition =>
            cases hfamily : WellLog.isCurveReferenceFamilyMeasuredDepth data name dataPartition with
            | error e =>
              show (python (WellLog.isCurveReferenceFamilyMeasuredDepth data name _) >>= _) =
                (python (WellLog.isCurveReferenceFamilyMeasuredDepth data name _) >>= _)
              rw [hfamily]
              rfl
            | ok b =>
              show (python (WellLog.isCurveReferenceFamilyMeasuredDepth data name _) >>= _) =
                (python (WellLog.isCurveReferenceFamilyMeasuredDepth data name _) >>= _)
              rw [hfamily]
              cases b with
              | false => rfl
              | true =>
                -- here the column is looked at for the first time
                refine if_neg fun heq => h ⟨hpass, ?_, dataPartition, hpartition, ?_⟩
                · rw [← heq]; exact hreference
                · rw [← heq]; exact hfamily
  | trajectory =>
    simp only [checkData, Trajectory.checkReferenceOfBulk]
    cases hpass : Trajectory.checkColumnsConsistency data curveSizes with
    | error e => rfl
    | ok =>
      cases hreference : Trajectory.referenceOfData data with
      | error e => rfl
      | ok v =>
        show (if v.truthy = true then _ else _) = if v.truthy = true then _ else _
        refine if_congr Iff.rfl (if_neg fun heq => h ⟨hpass, ?_, hne⟩) rfl
        rw [hreference, Value.eqText_iff.mp heq]
  | ppfgDataset => rfl
  | wellPressureTestRawMeasurement => rfl

end

/-! ## The dataframe -/

namespace DataFrame

/-- The value is the label of a column that is taken for the reference. -/
def IsReference (df : DataFrame) (v : Value) : Prop := ∃ s, v = .str s ∧ s ≠ "" ∧ s ∈ df.labels

/-- The label `_wdms_index_` is not there twice, unless there is nothing to describe. -/
def IndexUnambiguous (df : DataFrame) : Prop :=
  df.empty = true ∨ (df.columns.filter fun p => p.1 = wdmsIndexName).length ≤ 1

/-- The column named like the index, if there is one, or the index. -/
def indexSeries (df : DataFrame) : Series :=
  match df.columns.filter fun p => p.1 = wdmsIndexName with
  | [p] => p.2
  | _ => df.index

/-- The description of the index. -/
def describeIndex (df : DataFrame) : ColumnDescribe :=
  if df.empty then .empty else .ofSeries wdmsIndexName df.indexSeries df.index

variable {df : DataFrame} {v : Value}

theorem describeIndex_name : df.describeIndex.name = wdmsIndexName := by
  unfold describeIndex
  split <;> rfl

/-- A reference is a text that is one of the labels. -/
theorem label_of_reference (h : df.IsReference v) :
    ∃ s, v = .str s ∧ s ≠ "" ∧ df.label v = .ok (some s) := by
  obtain ⟨s, rfl, hne, hmem⟩ := h
  exact ⟨s, rfl, hne, by rw [label, if_pos hmem]⟩

/-- A value that is no reference is no label, or it is the empty one. -/
theorem label_of_not_reference (h : ¬ df.IsReference v) (hhash : v.hashable = true) :
    df.label v = .ok none ∨ (v = .str "" ∧ df.label v = .ok (some "")) := by
  cases v with
  | str s =>
    by_cases hmem : s ∈ df.labels
    · have hempty : s = "" := by
        by_contra hne
        exact h ⟨s, rfl, hne, hmem⟩
      subst hempty
      exact .inr ⟨rfl, by rw [label, if_pos hmem]⟩
    · exact .inl (by rw [label, if_neg hmem])
  | list | dict => cases hhash
  | none | bool | int | float | uuid | datetime => exact .inl rfl

/-- A column labelled as the index is replaced by it. -/
theorem describe_index :
    df.describe wdmsIndexName =
      if (df.columns.filter fun p => p.1 = wdmsIndexName).length ≤ 1 then
        .ok (.ofSeries wdmsIndexName df.indexSeries df.index)
      else .error .attributeError := by
  unfold describe indexSeries
  generalize df.columns.filter (fun p => p.1 = wdmsIndexName) = found
  match found with
  | [] => rfl
  | [p] => simp
  | p :: q :: ps => simp

/-- Without a reference, the index is described. -/
theorem fromColumn_of_not_reference (h : ¬ df.IsReference v) (hhash : v.hashable = true) :
    df.fromColumn v =
      if df.empty then .ok .empty else df.describe wdmsIndexName := by
  unfold fromColumn
  cases df.empty with
  | true => rfl
  | false =>
    rcases label_of_not_reference h hhash with hlabel | ⟨rfl, -⟩
    · rw [hlabel]
      cases v.truthy <;> rfl
    · rfl

/-- Without a reference, the index is described. -/
theorem fromColumn_unambiguous (h : ¬ df.IsReference v) (hhash : v.hashable = true)
    (hindex : df.IndexUnambiguous) : df.fromColumn v = .ok df.describeIndex := by
  rw [fromColumn_of_not_reference h hhash, describe_index, describeIndex]
  cases hempty : df.empty with
  | true => rfl
  | false =>
    have hlength := hindex.resolve_left (by rw [hempty]; exact Bool.false_ne_true)
    rw [if_pos hlength]
    rfl

/-- And so it raises where its label is that of several columns. -/
theorem fromColumn_ambiguous (h : ¬ df.IsReference v) (hhash : v.hashable = true)
    (hindex : ¬ df.IndexUnambiguous) : df.fromColumn v = .error .attributeError := by
  obtain ⟨hempty, hlength⟩ := not_or.mp hindex
  rw [fromColumn_of_not_reference h hhash, describe_index, if_neg hempty, if_neg hlength]

theorem postedBulk_of_not_reference (h : ¬ df.IsReference v) (hhash : v.hashable = true) :
    df.postedBulk v = .ok ⟨postedCurves df.labels, none⟩ := by
  unfold postedBulk
  rcases label_of_not_reference h hhash with hlabel | ⟨-, hlabel⟩
  · rw [hlabel]; rfl
  · rw [hlabel]; rfl

theorem postedBulk_of_reference (h : df.IsReference v) :
    df.postedBulk v = df.fromColumn v >>= fun reference =>
      .ok ⟨postedCurves df.labels, some reference⟩ := by
  obtain ⟨s, rfl, hne, hlabel⟩ := label_of_reference h
  unfold postedBulk
  rw [hlabel]
  exact if_pos hne

/-- The index is unambiguous where no column has its label. -/
theorem indexUnambiguous_of_not_mem (h : wdmsIndexName ∉ df.labels) : df.IndexUnambiguous := by
  refine .inr ?_
  rw [List.filter_eq_nil_iff.mpr ?_]
  · exact Nat.zero_le 1
  · intro p hp
    simpa using fun heq : p.1 = wdmsIndexName => h (heq ▸ List.mem_map_of_mem hp)

end DataFrame

end WellboreDdms
