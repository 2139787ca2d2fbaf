import WellboreDdms.Machine.Effect
import WellboreDdms.Python.Operations
import Mathlib.Data.List.Nodup
import Mathlib.Data.List.ReduceOption

/-!
# The description of a bulk, and the checks of its reference

The checks of a bulk against its record read a description of the bulk: its curves, and
the ends and the order of the reference column.

- `ColumnDescribe`, `BulkInfoForConsistency`: the description.
- `ConsistencyException`: what the checks raise, `CheckError` with the exceptions Python
  raises on values of another type; `Clean` is a check without the latter.
- `checkReference`: the reference is strictly monotonic and its ends are the bounds of the
  record.
- `NumericColumn.describe`: the description of a column of numbers, with the ends of the index if
  the column is named like it; `checkReferenceIsStrictlyMonotonic_describe` says what the check
  means for it.
-/

namespace WellboreDdms

open Python Machine

/-- `WDMS_INDEX_NAME`. -/
def wdmsIndexName : String := "_wdms_index_"

/-- The ways in which a column can be monotonic. -/
inductive Monotonicity where
  | increasing
  | decreasing
  deriving DecidableEq

/-- What the checks read of `ColumnDescribe`. -/
structure ColumnDescribe where
  name : String
  startValue : Cell
  endValue : Cell
  monotonicity : Option Monotonicity := none
  hasDuplicate : Bool := false
  hasNan : Bool := false

namespace ColumnDescribe

/-- The column is said to increase. -/
def isMonotonicIncreasing (d : ColumnDescribe) : Bool := d.monotonicity = some .increasing

/-- The column is said to decrease. -/
def isMonotonicDecreasing (d : ColumnDescribe) : Bool := d.monotonicity = some .decreasing

end ColumnDescribe

/-- The number of columns of each curve, and the reference, if it is known. -/
structure BulkInfoForConsistency where
  curves : Dict String Int
  reference : Option ColumnDescribe := none

/-! ## Exceptions -/

/-- The entities whose records list curves. -/
inductive CurveEntity where
  | wellLog
  | ppfgDataset
  | wellPressureTestRawMeasurement
  deriving DecidableEq

/-- The entity in the texts of exceptions. -/
def CurveEntity.title : CurveEntity → String
  | .wellLog => "WellLog"
  | .ppfgDataset => "PPFGDataset"
  | .wellPressureTestRawMeasurement => "WellPressureTestRawMeasurement"

/-- The fields of a record that bound its reference. -/
inductive ReferenceBound where
  | samplingStart
  | samplingStop
  | topDepthMeasuredDepth
  | baseDepthMeasuredDepth
  deriving DecidableEq

/-- The attribute of a bound. -/
def ReferenceBound.attrName : ReferenceBound → String
  | .samplingStart => "SamplingStart"
  | .samplingStop => "SamplingStop"
  | .topDepthMeasuredDepth => "TopDepthMeasuredDepth"
  | .baseDepthMeasuredDepth => "BaseDepthMeasuredDepth"

/-- The `error_msg` of a bound, filled in. -/
def ReferenceBound.errorMsg (attrValue referenceValue : String) : ReferenceBound → String
  | .samplingStart => "Reference top value (" ++ referenceValue ++
      ") is different from SamplingStart value (" ++ attrValue ++ ") of the WellLog record."
  | .samplingStop => "Reference bottom value (" ++ referenceValue ++
      ") is different from SamplingStop value (" ++ attrValue ++ ") of the WellLog record."
  | .topDepthMeasuredDepth => "First value (" ++ referenceValue ++
      ") of the measured depth is different from TopDepthMeasuredDepth value (" ++ attrValue ++
      ") of the WellboreTrajectory record."
  | .baseDepthMeasuredDepth => "Last value (" ++ referenceValue ++
      ") of the measured depth is different from BaseDepthMeasuredDepth value (" ++ attrValue ++
      ") of the WellboreTrajectory record."

/-- The exceptions of the checks, with what their texts show. -/
inductive ConsistencyException where
  | noCurves (e : CurveEntity)
  | curvesMissingId (indices : List Nat)
  | notMatchingColumns (e : CurveEntity) (names : List String)
  | notMatchingTotals (e : CurveEntity) (columns : Dict String Int) (inRecord : Dict String Value)
  | missingTrajectoryStationProperty
  | notMatchingStations (names : List String)
  | repeatedValues
  | nanValues
  | notMonotonic
  | differentValue (bound : ReferenceBound) (attrValue : Value) (referenceValue : Cell)

/-- The subclasses of `ConsistencyException`; the entities have classes of one name. -/
inductive ConsistencyClass where
  | columnDoesNotMatchCurveIdException (e : CurveEntity)
  | totalOfColumnsDoesNotMatchFieldNumberOfColumnsException (e : CurveEntity)
  | missingTrajectoryStationPropertyException
  | columnDoesNotMatchTrajectoryStationException
  | referenceCurveException
  deriving DecidableEq

namespace ConsistencyException

/-- The class of an exception. -/
def type : ConsistencyException → ConsistencyClass
  | .noCurves e => .columnDoesNotMatchCurveIdException e
  | .curvesMissingId _ => .columnDoesNotMatchCurveIdException .wellLog
  | .notMatchingColumns e _ => .columnDoesNotMatchCurveIdException e
  | .notMatchingTotals e _ _ => .totalOfColumnsDoesNotMatchFieldNumberOfColumnsException e
  | .missingTrajectoryStationProperty => .missingTrajectoryStationPropertyException
  | .notMatchingStations _ => .columnDoesNotMatchTrajectoryStationException
  | .repeatedValues | .nanValues | .notMonotonic | .differentValue _ _ _ => .referenceCurveException

/-- The text of the exception; `str` prints a value, `strCell` a cell. Where the source
joins a set, the order is that of the bulk. -/
def message (str : Value → String) (strCell : Cell → String) : ConsistencyException → String
  | .noCurves e => "Column(s) do(es) not match any CurveID of the " ++ e.title ++ " record."
  | .curvesMissingId indices => "WellLog record has curve(s) at index " ++
      str (.list (indices.map fun i => .int i)) ++
      " without a 'CurveID' property, which is required to match the bulk data columns."
  | .notMatchingColumns e names => "Column(s) " ++ ", ".intercalate names ++
      " do(es) not match any CurveID of the " ++ e.title ++ " record."
  | .notMatchingTotals e columns inRecord => "The number of columns for curve(s): " ++
      str (.dict (columns.map fun p => (p.1, .int p.2))) ++
      " in the bulk data do(es) not match the 'NumberOfColumns' property value in the " ++
      (if e = .wellPressureTestRawMeasurement then "WellPressureTestRawMesaurement" else e.title) ++
      " record for CurveID: " ++ str (.dict inRecord) ++ " ."
  | .missingTrajectoryStationProperty => "Property 'AvailableTrajectoryStationProperties'" ++
      " is missing while curves are present in the bulk data"
  | .notMatchingStations names => "Column(s) " ++ ", ".intercalate names ++
      " do(es) not match any AvailableTrajectoryStationProperties name in the" ++
      " WellboreTrajectory record."
  | .repeatedValues => "Repeated values in a reference curve aren't allowed."
  | .nanValues => "Nan values in a reference curve are not allowed."
  | .notMonotonic => "Reference must be monotonically increasing or decreasing."
  | .differentValue bound attrValue referenceValue =>
      bound.errorMsg (str attrValue) (strCell referenceValue)

end ConsistencyException

/-- What a check raises. -/
inductive CheckError where
  | consistency (e : ConsistencyException)
  | python (e : PyError)

/-- Exceptions that a caller takes for the same. -/
def CheckError.SameClass : CheckError → CheckError → Prop
  | .consistency e, .consistency e' => e.type = e'.type
  | .python (.keyError _), .python (.keyError _) => True
  | .python e, .python e' => e = e'
  | _, _ => False

/-- An operation on values inside a check. -/
def python {α : Type} (x : Except PyError α) : Except CheckError α := x.mapError .python

/-- A check that raises nothing but consistency exceptions. -/
def Clean {α : Type} (x : Except CheckError α) : Prop :=
  ∀ e, x = .error (.python e) → False

section

variable {α β : Type}

theorem clean_ok (a : α) : Clean (.ok a) := nofun

/-- A check that raises a consistency exception is clean. -/
theorem clean_consistency (e : ConsistencyException) :
    Clean (.error (.consistency e) : Except _ α) :=
  nofun

/-- Python code is clean only if it returns. -/
theorem clean_python {x : Except PyError α} : Clean (python x) ↔ ∃ a, x = .ok a := by
  cases x with
  | ok a => exact ⟨fun _ => ⟨a, rfl⟩, fun _ => nofun⟩
  | error e => exact ⟨fun h => (h e rfl).elim, fun ⟨a, ha⟩ => by cases ha⟩

/-- A sequence is clean if its first part is, and its second part where it is reached. -/
theorem clean_bind {x : Except CheckError α} {f : α → Except CheckError β} :
    Clean (x >>= f) ↔ Clean x ∧ ∀ a, x = .ok a → Clean (f a) := by
  cases x with
  | ok a =>
    refine ⟨fun h => ⟨nofun, ?_⟩, fun h => h.2 a rfl⟩
    rintro _ ⟨⟩
    exact h
  | error e =>
    refine ⟨fun h => ⟨?_, nofun⟩, fun h => ?_⟩
    · intro p hp
      cases hp
      exact h p rfl
    · intro p hp
      cases hp
      exact h.1 p rfl

/-- One check after another. -/
theorem clean_then {x y : Except CheckError Unit} :
    Clean (x >>= fun _ => y) ↔ Clean x ∧ (x = .ok () → Clean y) := by
  rw [clean_bind]
  exact and_congr_right fun _ => ⟨fun h => h (), fun h _ => h⟩

theorem then_eq_ok {x y : Except CheckError Unit} :
    (x >>= fun _ => y) = .ok () ↔ x = .ok () ∧ y = .ok () := by
  rw [bind_eq_ok]
  exact ⟨fun ⟨_, h⟩ => h, fun h => ⟨(), h⟩⟩

theorem python_eq_ok {x : Except PyError α} {a : α} : python x = .ok a ↔ x = .ok a := by
  cases x <;> simp [python, Except.mapError]

end

/-! ## The reference -/

/-- `check_reference_is_strictly_monotonic`. -/
def checkReferenceIsStrictlyMonotonic (ref : ColumnDescribe) : Except CheckError Unit :=
  if ref.hasDuplicate then .error (.consistency .repeatedValues)
  else if !ref.isMonotonicIncreasing && !ref.isMonotonicDecreasing then
    if ref.hasNan then .error (.consistency .nanValues) else .error (.consistency .notMonotonic)
  else .ok ()

section

variable {φ : Type} (fa : FloatArithmetic φ) (recordData : Dict String Value)

/-- The bound is set: present and not null. -/
def boundValue (bound : ReferenceBound) : Option Value :=
  match Dict.get recordData bound.attrName with
  | some .none => none
  | v => v

/-- `raise_if_dict_value_is_different`: a bound that is not set is not compared. -/
def raiseIfDictValueIsDifferent (bound : ReferenceBound) (referenceValue : Cell) :
    Except CheckError Unit :=
  match boundValue recordData bound with
  | none => .ok ()
  | some attrValue => do
    let value ← python (fa.float attrValue)
    let reference ← python (fa.floatOfCell referenceValue)
    if fa.isclose value reference then return ()
    else throw (.consistency (.differentValue bound attrValue referenceValue))

/-- `_check_reference`, with the bounds of the first and of the last value. -/
def checkReference (top bottom : ReferenceBound) (ref : ColumnDescribe) :
    Except CheckError Unit := do
  checkReferenceIsStrictlyMonotonic ref
  raiseIfDictValueIsDifferent fa recordData top ref.startValue
  raiseIfDictValueIsDifferent fa recordData bottom ref.endValue

/-- The bound, if it is set, is a number close to the cell. -/
def BoundHolds (bound : ReferenceBound) (referenceValue : Cell) : Prop :=
  ∀ attrValue ∈ boundValue recordData bound, ∃ value reference, fa.float attrValue = .ok value ∧
    fa.floatOfCell referenceValue = .ok reference ∧ fa.isclose value reference = true

/-- The bound, if it is set, and the cell are numbers. -/
def Comparable (bound : ReferenceBound) (referenceValue : Cell) : Prop :=
  ∀ attrValue ∈ boundValue recordData bound, (∃ value, fa.float attrValue = .ok value) ∧
    ∃ reference, fa.floatOfCell referenceValue = .ok reference

end

section

variable {φ : Type} {fa : FloatArithmetic φ} {recordData : Dict String Value}

/-- A bound holds if it is not set or equals the value. -/
theorem raiseIfDictValueIsDifferent_eq_ok {bound : ReferenceBound} {referenceValue : Cell} :
    raiseIfDictValueIsDifferent fa recordData bound referenceValue = .ok () ↔
      BoundHolds fa recordData bound referenceValue := by
  unfold raiseIfDictValueIsDifferent BoundHolds
  cases boundValue recordData bound with
  | none => exact ⟨fun _ => nofun, fun _ => rfl⟩
  | some attrValue =>
    simp only [bind_eq_ok, python_eq_ok, Option.mem_def, Option.some.injEq, forall_eq']
    constructor
    · rintro ⟨value, hvalue, reference, hreference, h⟩
      split at h
      · exact ⟨value, reference, hvalue, hreference, ‹_›⟩
      · cases h
    · rintro ⟨value, reference, hvalue, hreference, hclose⟩
      exact ⟨value, hvalue, reference, hreference, by rw [if_pos hclose]; rfl⟩

/-- A bound can be compared if it is not set or a number. -/
theorem clean_raiseIfDictValueIsDifferent {bound : ReferenceBound} {referenceValue : Cell} :
    Clean (raiseIfDictValueIsDifferent fa recordData bound referenceValue) ↔
      Comparable fa recordData bound referenceValue := by
  unfold raiseIfDictValueIsDifferent Comparable
  cases boundValue recordData bound with
  | none => exact ⟨fun _ => nofun, fun _ => clean_ok ()⟩
  | some attrValue =>
    have hcompare : ∀ value reference, Clean (if fa.isclose value reference then pure ()
        else throw (.consistency (.differentValue bound attrValue referenceValue)) :
          Except CheckError Unit) := by
      intro value reference
      split
      · exact clean_ok ()
      · exact clean_consistency _
    simp only [clean_bind, clean_python, python_eq_ok, Option.mem_def, Option.some.injEq,
      forall_eq',
      hcompare, implies_true, and_true]
    constructor
    · rintro ⟨⟨value, hvalue⟩, hreference⟩
      exact ⟨⟨value, hvalue⟩, hreference value hvalue⟩
    · rintro ⟨hvalue, hreference⟩
      exact ⟨hvalue, fun _ _ => hreference⟩

theorem clean_checkReferenceIsStrictlyMonotonic (ref : ColumnDescribe) :
    Clean (checkReferenceIsStrictlyMonotonic ref) := by
  unfold checkReferenceIsStrictlyMonotonic
  split
  · exact clean_consistency _
  · split
    · split
      · exact clean_consistency _
      · exact clean_consistency _
    · exact clean_ok ()

/-- A column without duplicates passes if it increases or decreases. -/
theorem checkReferenceIsStrictlyMonotonic_eq_ok {ref : ColumnDescribe} :
    checkReferenceIsStrictlyMonotonic ref = .ok () ↔
      ref.hasDuplicate = false ∧ ref.monotonicity ≠ none := by
  obtain ⟨name, startValue, endValue, monotonicity, hasDuplicate, hasNan⟩ := ref
  unfold checkReferenceIsStrictlyMonotonic ColumnDescribe.isMonotonicIncreasing
    ColumnDescribe.isMonotonicDecreasing
  cases hasDuplicate with
  | true => simp
  | false =>
    match monotonicity with
    | some .increasing => simp
    | some .decreasing => simp
    | none => cases hasNan <;> simp

/-- **The check of a reference** is that of its values and its bounds. -/
theorem checkReference_eq_ok {top bottom : ReferenceBound} {ref : ColumnDescribe} :
    checkReference fa recordData top bottom ref = .ok () ↔
      checkReferenceIsStrictlyMonotonic ref = .ok () ∧
        BoundHolds fa recordData top ref.startValue ∧
        BoundHolds fa recordData bottom ref.endValue := by
  rw [checkReference, then_eq_ok, then_eq_ok, raiseIfDictValueIsDifferent_eq_ok,
    raiseIfDictValueIsDifferent_eq_ok]

/-- Where the reference is strictly monotonic, the bounds that are compared are numbers. -/
theorem clean_checkReference {top bottom : ReferenceBound} {ref : ColumnDescribe} :
    Clean (checkReference fa recordData top bottom ref) ↔
      (checkReferenceIsStrictlyMonotonic ref = .ok () →
        Comparable fa recordData top ref.startValue ∧
        (BoundHolds fa recordData top ref.startValue →
          Comparable fa recordData bottom ref.endValue)) := by
  rw [checkReference, clean_then, clean_then, clean_raiseIfDictValueIsDifferent,
    clean_raiseIfDictValueIsDifferent, raiseIfDictValueIsDifferent_eq_ok]
  exact and_iff_right (clean_checkReferenceIsStrictlyMonotonic ref)

end

/-! ## Columns of numbers -/

/-- The values of a column, in the order of the rows, and the labels of these. -/
structure NumericColumn where
  name : String
  values : List Number
  index : List Cell
  nonempty : values ≠ []
  aligned : index.length = values.length

theorem NumericColumn.index_ne_nil (column : NumericColumn) : column.index ≠ [] := by
  intro hnil
  have haligned := column.aligned
  rw [hnil] at haligned
  exact column.nonempty (List.length_eq_zero_iff.mp haligned.symm)

/-- The first and the last value. -/
def NumericColumn.first (column : NumericColumn) : Cell :=
  .number (column.values.head column.nonempty)

/-- The last value. -/
def NumericColumn.last (column : NumericColumn) : Cell :=
  .number (column.values.getLast column.nonempty)

/-- The ends that are described: `reduced_df[WDMS_INDEX_NAME] = reduced_df.index` puts the index in
the place of a column that is named like it. -/
def NumericColumn.start (column : NumericColumn) : Cell :=
  if column.name = wdmsIndexName then column.index.head column.index_ne_nil else column.first

/-- The end that is described: the last label of the index for a column of its name. -/
def NumericColumn.stop (column : NumericColumn) : Cell :=
  if column.name = wdmsIndexName then column.index.getLast column.index_ne_nil else column.last

/-- `is_monotonic_increasing`: NaN has no place in an order. -/
def Increasing (values : List Number) : Prop :=
  none ∉ values ∧ values.reduceOption.Pairwise (· ≤ ·)

/-- The values decrease, and none is missing. -/
def Decreasing (values : List Number) : Prop :=
  none ∉ values ∧ values.reduceOption.Pairwise (· ≥ ·)

instance (values : List Number) : Decidable (Increasing values) :=
  inferInstanceAs (Decidable (_ ∧ _))

instance (values : List Number) : Decidable (Decreasing values) :=
  inferInstanceAs (Decidable (_ ∧ _))

/-- `ColumnDescribe.from_column` of a column that is there. -/
def NumericColumn.describe (column : NumericColumn) : ColumnDescribe where
  name := column.name
  startValue := column.start
  endValue := column.stop
  -- these are of the column itself, whatever its name is
  monotonicity :=
    if Increasing column.values then some .increasing
    else if Decreasing column.values then some .decreasing
    else none
  hasDuplicate := !decide column.values.Nodup
  hasNan := decide (none ∈ column.values)

/-- The values strictly increase or strictly decrease, without NaN. -/
def StrictlyMonotonic (values : List Number) : Prop :=
  none ∉ values ∧
    (values.reduceOption.Pairwise (· < ·) ∨ values.reduceOption.Pairwise (· > ·))

theorem map_some_reduceOption {values : List Number} (h : none ∉ values) :
    values.reduceOption.map some = values := by
  induction values with
  | nil => rfl
  | cons value values ih =>
    obtain ⟨hvalue, hvalues⟩ := not_or.mp (List.mem_cons.not.mp h)
    cases value with
    | none => exact absurd rfl hvalue
    | some x => rw [List.reduceOption_cons_of_some, List.map_cons, ih hvalues]

/-- Strictly monotonic values are distinct and increase or decrease. -/
theorem strictlyMonotonic_iff {values : List Number} :
    StrictlyMonotonic values ↔ values.Nodup ∧ (Increasing values ∨ Decreasing values) := by
  unfold StrictlyMonotonic Increasing Decreasing
  rw [← and_or_left, and_left_comm]
  refine and_congr_right fun hnan => ?_
  have hnodup : values.Nodup ↔ values.reduceOption.Pairwise (· ≠ ·) := by
    conv_lhs => rw [← map_some_reduceOption hnan]
    exact List.nodup_map_iff (Option.some_injective _)
  have hlt : values.reduceOption.Pairwise (· < ·) ↔
      values.reduceOption.Pairwise (· ≠ ·) ∧ values.reduceOption.Pairwise (· ≤ ·) := by
    rw [← List.pairwise_and_iff]
    exact List.Pairwise.iff fun a b => by rw [lt_iff_le_and_ne, and_comm]
  have hgt : values.reduceOption.Pairwise (· > ·) ↔
      values.reduceOption.Pairwise (· ≠ ·) ∧ values.reduceOption.Pairwise (· ≥ ·) := by
    rw [← List.pairwise_and_iff]
    exact List.Pairwise.iff fun a b => by rw [gt_iff_lt, lt_iff_le_and_ne, and_comm, ne_comm]
  rw [hnodup, hlt, hgt, and_or_left]

/-- The description says if the column increases or decreases. -/
theorem describe_monotonicity (column : NumericColumn) :
    column.describe.monotonicity ≠ none ↔ Increasing column.values ∨ Decreasing column.values := by
  show (if Increasing column.values then some Monotonicity.increasing
    else if Decreasing column.values then some .decreasing else none) ≠ none ↔ _
  split
  · exact iff_of_true nofun (.inl ‹_›)
  · split
    · exact iff_of_true nofun (.inr ‹_›)
    · exact iff_of_false (fun h => h rfl) (not_or.mpr ⟨‹_›, ‹_›⟩)

/-- The flags of the description say what they are for. -/
theorem checkReferenceIsStrictlyMonotonic_describe (column : NumericColumn) :
    checkReferenceIsStrictlyMonotonic column.describe = .ok () ↔
      StrictlyMonotonic column.values := by
  have hduplicate : column.describe.hasDuplicate = false ↔ column.values.Nodup := by
    simp [NumericColumn.describe]
  rw [checkReferenceIsStrictlyMonotonic_eq_ok, strictlyMonotonic_iff, hduplicate,
    describe_monotonicity]

end WellboreDdms
