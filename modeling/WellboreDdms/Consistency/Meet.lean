import WellboreDdms.Consistency.Paths

/-!
# Where the two ways to a check end alike

- `PathsMeet`: the empty label, the label `_wdms_index_` and a reference that is no label play
  no part.
- `agree_of_pathsMeet`: then the two ways end alike, for every record and every dataframe.
- `pathsMeet_of_agree`: where the record has the shape the checks are for, they end alike only
  then.
-/

namespace WellboreDdms

open Python Machine

section

variable {φ : Type} {fa : FloatArithmetic φ} {c : Checker} {record : CheckedRecord} {df : DataFrame}

/-- What keeps the two ways together. -/
structure PathsMeet (fa : FloatArithmetic φ) (c : Checker) (record : CheckedRecord)
    (df : DataFrame) : Prop where
  hashable : ∀ v, c.getReferenceCurve record = .ok v → v.hashable = true
  index : ∀ v, c.getReferenceCurve record = .ok v → ¬ df.IsReference v → df.IndexUnambiguous
  curves : ∀ data, record.items = some data → c.ListsNone data → (∀ label ∈ df.labels, label = "") →
    df.labels = []
  indexReference : ∀ data, record.items = some data →
    c.Compares record data (postedCurves df.labels) wdmsIndexName → wdmsIndexName ∉ df.labels →
      c.compare fa data df.describeIndex = .ok ()
  unnamed : c = .wellLog → c.getReferenceCurve record = .ok (.str "") → "" ∈ df.labels →
    record.id ≠ none

/-- A record with items has them as its data. -/
theorem data_of_items {data : Dict String Value} (h : record.items = some data) :
    record.data = some data :=
  (Option.filter_eq_some_iff.mp h).1

theorem getReferenceCurve_of_no_items (h : record.items = none) :
    c.getReferenceCurve record = .ok .none := by
  cases c with
  | wellLog =>
    show Except.ok (WellLog.getReferenceCurve record) = _
    rw [WellLog.getReferenceCurve, h]
  | trajectory =>
    show Trajectory.getReferenceCurve record = _
    unfold Trajectory.getReferenceCurve
    cases hdata : record.data with
    | none => rfl
    | some data =>
      cases data with
      | nil => rfl
      | cons p ps =>
        rw [CheckedRecord.items, hdata] at h
        cases h
  | ppfgDataset =>
    show Except.ok (PPFGDataset.getReferenceCurve record) = _
    rw [PPFGDataset.getReferenceCurve, h]
  | wellPressureTestRawMeasurement => rfl

/-- The name that is compared is that of the reference of the record. -/
theorem getReferenceCurve_of_compares {data : Dict String Value} {curveSizes : Dict String Int}
    {name : String} (hitems : record.items = some data)
    (h : c.Compares record data curveSizes name) :
      c.getReferenceCurve record = .ok (.str name) := by
  cases c with
  | wellLog =>
    obtain ⟨-, hreference, -⟩ := h
    show Except.ok (WellLog.getReferenceCurve record) = _
    rw [WellLog.getReferenceCurve, hitems]
    show Except.ok (field data "ReferenceCurveID") = _
    unfold WellLog.referenceInBulk at hreference
    cases hfield : field data "ReferenceCurveID" with
    | str s =>
      rw [hfield] at hreference
      obtain ⟨-, hs⟩ := Option.ite_none_right_eq_some.mp (Except.ok.inj hreference)
      rw [Option.some.inj hs]
    | none | bool | int | float | list | dict | uuid | datetime =>
      rw [hfield] at hreference
      cases hreference
  | trajectory =>
    obtain ⟨-, hreference, -⟩ := h
    show Trajectory.getReferenceCurve record = _
    rw [Trajectory.getReferenceCurve, data_of_items hitems]
    exact hreference
  | ppfgDataset => exact h.elim
  | wellPressureTestRawMeasurement => exact h.elim

theorem onPostBulk_of_no_items (h : record.items = none) :
    c.checkBulkConsistencyOnPostBulk fa record df = .ok () := by
  cases c <;>
    simp only [Checker.checkBulkConsistencyOnPostBulk, WellLog.checkBulkConsistencyOnPostBulk,
      Trajectory.checkBulkConsistencyOnPostBulk, PPFGDataset.checkBulkConsistencyOnPostBulk,
      WellPressureTestRawMeasurement.checkBulkConsistencyOnPostBulk, onPostBulk, h]

/-- The first way, of a record with data. -/
theorem onPostBulk_eq {data : Dict String Value} (hitems : record.items = some data) :
    c.checkBulkConsistencyOnPostBulk fa record df =
      python (c.getReferenceCurve record) >>= fun referenceName =>
        python (df.postedBulk referenceName) >>= fun bulkInfo =>
          c.checkData fa record data bulkInfo := by
  have hcheck : ∀ bulkInfo, c.checkData fa record data bulkInfo =
      c.checkBulkConsistency fa record bulkInfo := fun bulkInfo => by
    rw [c.checkBulkConsistency_eq, hitems]
  simp only [hcheck]
  cases c with
  | wellLog =>
    show WellLog.checkBulkConsistencyOnPostBulk fa record df =
      (python (.ok (WellLog.getReferenceCurve record)) >>= _)
    rw [WellLog.checkBulkConsistencyOnPostBulk, onPostBulk, WellLog.getReferenceCurve, hitems]
    rfl
  | trajectory =>
    show Trajectory.checkBulkConsistencyOnPostBulk fa record df = _
    rw [Trajectory.checkBulkConsistencyOnPostBulk, onPostBulk, hitems]
    rfl
  | ppfgDataset =>
    show PPFGDataset.checkBulkConsistencyOnPostBulk record df =
      (python (.ok (PPFGDataset.getReferenceCurve record)) >>= _)
    rw [PPFGDataset.checkBulkConsistencyOnPostBulk, onPostBulk, PPFGDataset.getReferenceCurve,
      hitems]
    rfl
  | wellPressureTestRawMeasurement =>
    show WellPressureTestRawMeasurement.checkBulkConsistencyOnPostBulk record df = _
    rw [WellPressureTestRawMeasurement.checkBulkConsistencyOnPostBulk, hitems]
    rfl

/-- The check of the description, step by step. -/
theorem checkDescribed_eq {data : Dict String Value} (hitems : record.items = some data) :
    c.checkDescribed fa record df =
      python (c.getReferenceCurve record) >>= fun referenceName =>
        python (df.fromDataframe referenceName) >>= fun bulkInfo =>
          c.checkData fa record data bulkInfo := by
  simp only [Checker.checkDescribed, c.checkBulkConsistency_eq, hitems]

/-- What `agree_curves` asks for, of the counts of a dataframe. -/
theorem PathsMeet.agree_curves (fa : FloatArithmetic φ) {data : Dict String Value}
    (hitems : record.items = some data)
    (hcurves : c.ListsNone data → (∀ label ∈ df.labels, label = "") → df.labels = [])
    (hunnamed : c = .wellLog → c.getReferenceCurve record = .ok (.str "") → "" ∈ df.labels →
      record.id ≠ none) (reference : Option ColumnDescribe) :
    Agree (c.checkData fa record data ⟨postedCurves df.labels, reference⟩)
      (c.checkData fa record data ⟨describedCurves df.labels, reference⟩) := by
  refine WellboreDdms.agree_curves c (erase_describedCurves df.labels) (fun hnone => ?_)
    (fun hc hfield hcontains => ?_) reference
  · rw [postedCurves_eq_nil, describedCurves_eq_nil]
    exact ⟨hcurves hnone, fun h => by simp [h]⟩
  · refine hunnamed hc ?_ ((contains_describedCurves_empty df.labels).mp hcontains)
    subst hc
    show Except.ok (WellLog.getReferenceCurve record) = _
    rw [WellLog.getReferenceCurve, hitems]
    exact congrArg _ hfield

/-- **The two ways to a check end alike** where they meet. -/
theorem agree_of_pathsMeet (h : PathsMeet fa c record df) :
    Agree (c.checkBulkConsistencyOnPostBulk fa record df) (c.checkDescribed fa record df) := by
  cases hitems : record.items with
  | none =>
    have hreference := getReferenceCurve_of_no_items (c := c) hitems
    have hnot : ¬ df.IsReference .none := by
      rintro ⟨s, hs, -⟩
      cases hs
    have hcolumn := DataFrame.fromColumn_unambiguous hnot rfl (h.index _ hreference hnot)
    have hdescribed : c.checkDescribed fa record df = .ok () := by
      simp only [Checker.checkDescribed, hreference, DataFrame.fromDataframe,
        c.checkBulkConsistency_eq, hitems]
      show (python (df.fromColumn .none >>= _) >>= _) = _
      rw [hcolumn]
      rfl
    rw [onPostBulk_of_no_items hitems, hdescribed]
    trivial
  | some data =>
    rw [onPostBulk_eq hitems, checkDescribed_eq hitems]
    refine agree_bind fun v hv => ?_
    have hv := python_eq_ok.mp hv
    have hcurves := PathsMeet.agree_curves fa hitems (h.curves data hitems) h.unnamed
    by_cases href : df.IsReference v
    · -- Both ways describe the column of the reference.
      rw [DataFrame.postedBulk_of_reference href, DataFrame.fromDataframe]
      cases df.fromColumn v with
      | error e => exact CheckError.SameClass.refl _
      | ok reference => exact hcurves (some reference)
    · -- One way describes no reference, the other one the index.
      have hindex := DataFrame.fromColumn_unambiguous href (h.hashable v hv) (h.index v hv href)
      rw [DataFrame.postedBulk_of_not_reference href (h.hashable v hv), DataFrame.fromDataframe,
        hindex]
      have hsame : c.checkData fa record data ⟨postedCurves df.labels, none⟩ =
          c.checkData fa record data ⟨postedCurves df.labels, some df.describeIndex⟩ := by
        by_cases hcompares : c.Compares record data (postedCurves df.labels) wdmsIndexName
        · have hreference := getReferenceCurve_of_compares hitems hcompares
          rw [hv, Except.ok.injEq] at hreference
          have hnot : wdmsIndexName ∉ df.labels := fun hmem =>
            href ⟨wdmsIndexName, hreference, by decide, hmem⟩
          obtain ⟨hnone, hsome⟩ := Checker.checkData_of_compares fa hcompares
          rw [hnone, hsome df.describeIndex DataFrame.describeIndex_name]
          exact (h.indexReference data hitems hcompares hnot).symm
        · refine (Checker.checkData_of_not_compares ?_ ?_).symm
          · rw [DataFrame.describeIndex_name]; exact hcompares
          · rw [DataFrame.describeIndex_name]; decide
      show Agree (c.checkData fa record data ⟨postedCurves df.labels, none⟩)
        (c.checkData fa record data ⟨describedCurves df.labels, some df.describeIndex⟩)
      rw [hsame]
      exact hcurves _

/-! ## Where they part -/

/-- The check does not raise an `AttributeError`. -/
def NoAttributeError {α : Type} (x : Except CheckError α) : Prop :=
  x ≠ .error (.python .attributeError)

/-- A clean check raises no attribute error. -/
theorem Clean.noAttributeError {α : Type} {x : Except CheckError α} (h : Clean x) :
    NoAttributeError x := fun he => h _ he

theorem noAttributeError_bind {α β : Type} {x : Except CheckError α} {f : α → Except CheckError β}
    (hx : NoAttributeError x) (hf : ∀ a, x = .ok a → NoAttributeError (f a)) :
    NoAttributeError (x >>= f) := by
  cases x with
  | ok a => exact hf a rfl
  | error e => exact fun he => hx (congrArg Except.error (Except.error.inj he))

theorem noAttributeError_python {α : Type} {x : Except PyError α} (h : x ≠ .error .attributeError) :
    NoAttributeError (python x) := by
  cases x with
  | ok a => nofun
  | error e =>
    exact fun he => h (congrArg Except.error (CheckError.python.inj (Except.error.inj he)))

/-- A list is iterated, or the value is no list. -/
theorem iterate_ne_attributeError (v : Value) : v.iterate ≠ .error .attributeError := by
  cases v <;> nofun

/-- The sizes of the record raise no attribute error. -/
theorem curveSizesFromMeta_ne_attributeError {size : Value → Except PyError Value}
    (hsize : ∀ o, ∃ n, size (.dict o) = .ok n) (items : List (Dict String Value))
    (sizesFromMeta : Dict String Value) :
    curveSizesFromMeta size (objects items) sizesFromMeta ≠ .error .attributeError := by
  induction items generalizing sizesFromMeta with
  | nil =>
    intro h
    cases h
  | cons o os ih =>
    obtain ⟨n, hn⟩ := hsize o
    rw [objects_cons]
    simp only [curveSizesFromMeta, Value.item, hn]
    cases Dict.get o "CurveID" with
    | none =>
      intro h
      cases h
    | some v =>
      cases v <;> first | exact ih _ | (intro h; cases h)

/-- The curves of a record of the right shape do not lead to one. -/
theorem noAttributeError_curves {data : Dict String Value} {curveSizes : Dict String Int}
    (e : CurveEntity) (hshape : ListOrNull data "Curves" (TextOrNull · "CurveID"))
    {k : List Value → Except CheckError Unit}
    (hk : ∀ items, NoAttributeError (k (objects items))) :
    NoAttributeError (raiseIfNoCurves e (field data "Curves") curveSizes >>= fun _ =>
      python (field data "Curves").iterate >>= k) := by
  refine noAttributeError_bind clean_raiseIfNoCurves.noAttributeError fun _ _ => ?_
  refine noAttributeError_bind (noAttributeError_python (iterate_ne_attributeError _)) ?_
  intro curves hcurves
  rcases hshape with hnone | ⟨items, hitems, -⟩
  · rw [hnone] at hcurves
    cases hcurves
  · rw [hitems] at hcurves
    cases hcurves
    exact hk items

/-- A record of the right shape with an id does not lead to one, if nothing is compared. -/
theorem noAttributeError_checkData (fa : FloatArithmetic φ) (curveSizes : Dict String Int)
    {data : Dict String Value} (hshape : c.Shaped data) (hid : record.id ≠ none) :
    NoAttributeError (c.checkData fa record data ⟨curveSizes, none⟩) := by
  have htotals : ∀ (e : CurveEntity) (items : List (Dict String Value)),
      NoAttributeError (compareCurves e (objects items) curveSizes) := fun e items =>
    noAttributeError_bind
      (noAttributeError_python (curveSizesFromMeta_ne_attributeError
        (fun o => ⟨_, numberOfColumns_dict o⟩) items []))
      fun _ _ => (clean_then.mpr ⟨clean_raiseIfNotMatchingColumns,
        fun _ => clean_raiseIfNotMatchingTotals⟩).noAttributeError
  cases c with
  | wellLog =>
    obtain ⟨hcurves, hreference⟩ := hshape
    refine noAttributeError_bind ?_ fun _ hpass => ?_
    · exact noAttributeError_curves .wellLog hcurves fun items =>
        noAttributeError_bind (raiseIfMissingId_objects items).1.noAttributeError
          fun _ _ => htotals .wellLog items
    · -- the columns have passed, and no reference is described
      obtain ⟨curves, hfield, -⟩ :=
        (checkColumnsConsistency_wellLog_shaped curveSizes hcurves).2.mp hpass
      have hcheck := WellLog.checksReference fa ⟨curveSizes, none⟩
        (get_of_field hfield (Value.list_ne_none _)) ⟨hreference.hashable, fun _ _ _ => hid⟩
      have hok : NoAttributeError (.ok ()) := by
        intro h
        cases h
      exact (hcheck.iff hok).mpr (by rintro _ ⟨⟩)
  | trajectory =>
    by_cases hcolumns : Dict.contains data Trajectory.stationProperties = false → curveSizes ≠ []
    · refine ((Trajectory.clean_check hshape).mpr ⟨hcolumns, ?_⟩).noAttributeError
      rintro _ _ _ ⟨⟩
    · -- without stations the bulk must have columns: else a `KeyError` is raised
      obtain ⟨habsent, hnil⟩ := Classical.not_imp.mp hcolumns
      have hget : Dict.get data Trajectory.stationProperties = none := by
        simpa [Dict.contains] using habsent
      rw [not_not.mp hnil]
      simp only [Checker.checkData, Trajectory.checkColumnsConsistency, habsent, Value.item, hget]
      intro h
      cases h
  | ppfgDataset =>
    refine noAttributeError_curves .ppfgDataset hshape fun items => ?_
    have hsize : ∀ o, ∃ n, defaultNumberOfColumns (.dict o) = .ok n := fun _ => ⟨.int 1, rfl⟩
    exact noAttributeError_bind
      (noAttributeError_python (curveSizesFromMeta_ne_attributeError hsize items []))
      fun _ _ => clean_raiseIfNotMatchingColumns.noAttributeError
  | wellPressureTestRawMeasurement =>
    exact noAttributeError_curves .wellPressureTestRawMeasurement hshape fun items =>
      htotals .wellPressureTestRawMeasurement items

/-- Values that are false have no items. -/
theorem iterate_of_falsy {v : Value} (h : v.truthy = false) :
    v.iterate = .ok [] ∨ v.iterate = .error .typeError := by
  cases v with
  | str s =>
    obtain rfl : s = "" := by simpa [Value.truthy] using h
    exact .inl rfl
  | list xs => exact .inl (by simpa [Value.truthy, Value.iterate] using h)
  | dict items => exact .inl (by simpa [Value.truthy, Value.iterate] using h)
  | none | bool | int | float => exact .inr rfl
  | uuid | datetime => cases h

/-- Without curves in the record and in the bulk, no check raises a consistency exception. -/
theorem checkData_of_listsNone (fa : FloatArithmetic φ) (record : CheckedRecord)
    {data : Dict String Value} (hnone : c.ListsNone data) :
    c.checkData fa record data ⟨[], none⟩ = .ok () ∨
      ∃ e, c.checkData fa record data ⟨[], none⟩ = .error (.python e) := by
  -- the three entities with curves begin alike: null is not iterable, an empty list is
  have hcurves : ∀ (e : CurveEntity) (k : List Value → Except CheckError Unit),
      (field data "Curves").truthy = false → k [] = .ok () →
      (raiseIfNoCurves e (field data "Curves") [] >>= fun _ =>
        python (field data "Curves").iterate >>= k) = .ok () ∨
      (raiseIfNoCurves e (field data "Curves") [] >>= fun _ =>
        python (field data "Curves").iterate >>= k) = .error (.python .typeError) := by
    intro e k hfalsy hk
    rw [raiseIfNoCurves_eq_ok.mpr (.inr rfl)]
    rcases iterate_of_falsy hfalsy with hnil | herror
    · rw [hnil]
      exact .inl hk
    · rw [herror]
      exact .inr rfl
  cases c with
  | wellLog =>
    rcases hcurves .wellLog (fun curves => raiseIfMissingId curves >>= fun _ =>
        compareCurves .wellLog curves []) hnone rfl with hok | herror
    · have hpass : WellLog.checkColumnsConsistency data [] = .ok () := hok
      simp only [Checker.checkData, hpass, WellLog.checkReferenceInBulk, WellLog.referenceInBulk]
      -- a list or dict cannot be a key of the bulk
      cases field data "ReferenceCurveID" with
      | list | dict => exact .inr ⟨.typeError, rfl⟩
      | none | bool | int | float | str | uuid | datetime => exact .inl rfl
    · have hraise : WellLog.checkColumnsConsistency data [] = .error (.python .typeError) := herror
      simp only [Checker.checkData, hraise]
      exact .inr ⟨.typeError, rfl⟩
  | trajectory =>
    -- the list of stations is missing, and looking it up raises
    have hget : Dict.get data Trajectory.stationProperties = none := by
      simpa [Checker.ListsNone, Dict.contains] using hnone
    have habsent : Dict.contains data Trajectory.stationProperties = false := hnone
    refine .inr ⟨.keyError Trajectory.stationProperties, ?_⟩
    simp only [Checker.checkData, Trajectory.checkColumnsConsistency, habsent, Value.item, hget]
    rfl
  | ppfgDataset =>
    exact (hcurves .ppfgDataset (fun curves =>
      python (curveSizesFromMeta defaultNumberOfColumns curves []) >>= fun sizesFromMeta =>
        raiseIfNotMatchingColumns .ppfgDataset [] sizesFromMeta) hnone rfl).imp_right
      fun h => ⟨_, h⟩
  | wellPressureTestRawMeasurement =>
    exact (hcurves .wellPressureTestRawMeasurement (fun curves =>
      compareCurves .wellPressureTestRawMeasurement curves []) hnone rfl).imp_right
      fun h => ⟨_, h⟩

/-- Columns without curves in the record are refused. -/
theorem checkData_refused (fa : FloatArithmetic φ) (record : CheckedRecord)
    {data : Dict String Value} (hnone : c.ListsNone data) {bulkInfo : BulkInfoForConsistency}
    (hsome : bulkInfo.curves ≠ []) :
    ∃ ex, c.checkData fa record data bulkInfo = .error (.consistency ex) := by
  obtain ⟨curves, reference⟩ := bulkInfo
  obtain ⟨p, ps, rfl⟩ := List.exists_cons_of_ne_nil hsome
  have hrefused : ∀ e, (field data "Curves").truthy = false →
      raiseIfNoCurves e (field data "Curves") (p :: ps) = .error (.consistency (.noCurves e)) := by
    intro e hfalsy
    rw [raiseIfNoCurves, hfalsy]
    rfl
  cases c with
  | wellLog =>
    refine ⟨.noCurves .wellLog, ?_⟩
    simp only [Checker.checkData, WellLog.checkColumnsConsistency, hrefused .wellLog hnone]
    rfl
  | trajectory =>
    have habsent : Dict.contains data Trajectory.stationProperties = false := hnone
    refine ⟨.missingTrajectoryStationProperty, ?_⟩
    simp only [Checker.checkData, Trajectory.checkColumnsConsistency, habsent]
    rfl
  | ppfgDataset =>
    refine ⟨.noCurves .ppfgDataset, ?_⟩
    simp only [Checker.checkData, PPFGDataset.checkColumnsConsistency, hrefused .ppfgDataset hnone]
    rfl
  | wellPressureTestRawMeasurement =>
    refine ⟨.noCurves .wellPressureTestRawMeasurement, ?_⟩
    simp only [Checker.checkData, WellPressureTestRawMeasurement.checkColumnsConsistency,
      hrefused .wellPressureTestRawMeasurement hnone]
    rfl

/-- A record that lists nothing has a reference, or none. -/
theorem getReferenceCurve_of_listsNone {data : Dict String Value}
    (hitems : record.items = some data) (hnone : c.ListsNone data) :
    ∃ v, c.getReferenceCurve record = .ok v := by
  cases c with
  | trajectory =>
    refine ⟨.none, ?_⟩
    have hget : Dict.get data Trajectory.stationProperties = none := by
      simpa [Checker.ListsNone, Dict.contains] using hnone
    show Trajectory.getReferenceCurve record = _
    rw [Trajectory.getReferenceCurve, data_of_items hitems]
    show Trajectory.referenceOfData data = _
    rw [Trajectory.referenceOfData, field, hget]
    rfl
  | wellLog | ppfgDataset | wellPressureTestRawMeasurement => exact ⟨_, rfl⟩

/-- Nothing is taken for an attribute error but itself. -/
theorem sameClass_attributeError {e : CheckError} (h : e.SameClass (.python .attributeError)) :
    e = .python .attributeError := by
  cases e with
  | consistency e => exact h.elim
  | python e =>
    cases e with
    | attributeError => rfl
    | keyError => cases h
    | typeError | valueError | overflowError => cases h

/-- The end of the second way, where no column is the reference. -/
theorem checkDescribed_index {data : Dict String Value} (hitems : record.items = some data)
    {v : Value} (hv : c.getReferenceCurve record = .ok v) (href : ¬ df.IsReference v)
    (hhash : v.hashable = true) (hindex : df.IndexUnambiguous) :
    c.checkDescribed fa record df =
      c.checkData fa record data ⟨describedCurves df.labels, some df.describeIndex⟩ := by
  rw [checkDescribed_eq hitems, hv]
  show (python (df.fromColumn v >>= _) >>= _) = _
  rw [DataFrame.fromColumn_unambiguous href hhash hindex]
  rfl

/-- Where the reference is not in the bulk, the posted bulk has none. -/
theorem onPostBulk_index {data : Dict String Value} (hitems : record.items = some data)
    {v : Value} (hv : c.getReferenceCurve record = .ok v) (href : ¬ df.IsReference v)
    (hhash : v.hashable = true) :
    c.checkBulkConsistencyOnPostBulk fa record df =
      c.checkData fa record data ⟨postedCurves df.labels, none⟩ := by
  rw [onPostBulk_eq hitems, hv]
  show (python (df.postedBulk v) >>= _) = _
  rw [DataFrame.postedBulk_of_not_reference href hhash]
  rfl

/-- Where the two ways end alike, a record that lists nothing has no column of which the
labels are all empty: the second way would refuse them, and the first not. -/
theorem labels_eq_nil_of_agree {data : Dict String Value} (hitems : record.items = some data)
    (hnone : c.ListsNone data) (hhash : ∀ v, c.getReferenceCurve record = .ok v → v.hashable = true)
    (h : Agree (c.checkBulkConsistencyOnPostBulk fa record df) (c.checkDescribed fa record df))
    (hempty : ∀ label ∈ df.labels, label = "") : df.labels = [] := by
  by_contra hsome
  obtain ⟨v, hv⟩ := getReferenceCurve_of_listsNone hitems hnone
  have href : ¬ df.IsReference v := by
    rintro ⟨s, -, hne, hmem⟩
    exact hne (hempty s hmem)
  have hindex : df.IndexUnambiguous := DataFrame.indexUnambiguous_of_not_mem fun hmem =>
    absurd (hempty wdmsIndexName hmem) (by decide)
  rw [onPostBulk_index hitems hv href (hhash v hv),
    checkDescribed_index hitems hv href (hhash v hv) hindex,
    (postedCurves_eq_nil df.labels).mpr hempty] at h
  have hdescribed : (⟨describedCurves df.labels, some df.describeIndex⟩ :
      BulkInfoForConsistency).curves ≠ [] := (describedCurves_eq_nil df.labels).not.mpr hsome
  obtain ⟨ex, hex⟩ := checkData_refused fa record hnone hdescribed
  rw [hex] at h
  rcases checkData_of_listsNone fa record hnone with hok | ⟨e, herror⟩
  · rw [hok] at h
    exact h
  · rw [herror] at h
    cases e <;> exact h

/-- Where the two ways end alike, the label that the index takes is not there twice: the second
way would raise an exception that the first does not raise. -/
theorem indexUnambiguous_of_agree (hshape : ∀ data, record.items = some data → c.Shaped data)
    (hid : record.id ≠ none) {v : Value} (hv : c.getReferenceCurve record = .ok v)
    (href : ¬ df.IsReference v) (hhash : v.hashable = true)
    (h : Agree (c.checkBulkConsistencyOnPostBulk fa record df) (c.checkDescribed fa record df)) :
    df.IndexUnambiguous := by
  by_contra hindex
  have hdescribed : c.checkDescribed fa record df = .error (.python .attributeError) := by
    rw [Checker.checkDescribed, hv]
    show (python (df.fromColumn v >>= _) >>= _) = _
    rw [DataFrame.fromColumn_ambiguous href hhash hindex]
    rfl
  rw [hdescribed] at h
  cases hitems : record.items with
  | none =>
    rw [onPostBulk_of_no_items hitems] at h
    exact h
  | some data =>
    rw [onPostBulk_index hitems hv href hhash] at h
    have hno := noAttributeError_checkData fa (postedCurves df.labels) (hshape data hitems) hid
    cases hcheck : c.checkData fa record data ⟨postedCurves df.labels, none⟩ with
    | ok =>
      rw [hcheck] at h
      exact h
    | error e =>
      rw [hcheck] at h hno
      exact hno (congrArg Except.error (sameClass_attributeError h))

/-- Where the two ways end alike, the comparison with the index passes: only the second way
makes it. -/
theorem compare_index_of_agree {data : Dict String Value} (hitems : record.items = some data)
    (hcurves : c.ListsNone data → (∀ label ∈ df.labels, label = "") → df.labels = [])
    (hid : record.id ≠ none)
    (hcompares : c.Compares record data (postedCurves df.labels) wdmsIndexName)
    (hnot : wdmsIndexName ∉ df.labels)
    (h : Agree (c.checkBulkConsistencyOnPostBulk fa record df) (c.checkDescribed fa record df)) :
    c.compare fa data df.describeIndex = .ok () := by
  have hv := getReferenceCurve_of_compares hitems hcompares
  have href : ¬ df.IsReference (.str wdmsIndexName) := by
    rintro ⟨s, hs, -, hmem⟩
    cases hs
    exact hnot hmem
  obtain ⟨hnone, hsome⟩ := Checker.checkData_of_compares fa hcompares
  rw [onPostBulk_index hitems hv href rfl, hnone,
    checkDescribed_index hitems hv href rfl (DataFrame.indexUnambiguous_of_not_mem hnot)] at h
  have hsame := PathsMeet.agree_curves fa hitems hcurves (fun _ _ _ => hid) (some df.describeIndex)
  rw [hsome df.describeIndex DataFrame.describeIndex_name] at hsame
  exact hsame.eq_ok_iff.mpr (h.eq_ok_iff.mp rfl)

/-- Where the two ways end alike, they meet, for records of the shape the checks are for. -/
theorem pathsMeet_of_agree (hshape : ∀ data, record.items = some data → c.Shaped data)
    (hid : record.id ≠ none)
    (hhash : ∀ v, c.getReferenceCurve record = .ok v → v.hashable = true)
    (h : Agree (c.checkBulkConsistencyOnPostBulk fa record df) (c.checkDescribed fa record df)) :
    PathsMeet fa c record df where
  hashable := hhash
  index := fun v hv href => indexUnambiguous_of_agree hshape hid hv href (hhash v hv) h
  curves := fun _ hitems hnone hempty => labels_eq_nil_of_agree hitems hnone hhash h hempty
  indexReference := fun _ hitems hcompares hnot =>
    compare_index_of_agree hitems
      (fun hnone hempty => labels_eq_nil_of_agree hitems hnone hhash h hempty) hid hcompares hnot h
  unnamed := fun _ _ _ => hid

/-- **The two ways to a check end alike exactly where they meet**: there for every record, and
only there for a record with an id, of the shape the checks are for. -/
theorem paths_agree_iff (fa : FloatArithmetic φ) (c : Checker) (record : CheckedRecord)
    (df : DataFrame) :
    (PathsMeet fa c record df →
      Agree (c.checkBulkConsistencyOnPostBulk fa record df) (c.checkDescribed fa record df)) ∧
    ((∀ data, record.items = some data → c.Shaped data) → record.id ≠ none →
      (∀ v, c.getReferenceCurve record = .ok v → v.hashable = true) →
      (Agree (c.checkBulkConsistencyOnPostBulk fa record df) (c.checkDescribed fa record df) ↔
        PathsMeet fa c record df)) :=
  ⟨agree_of_pathsMeet, fun hshape hid hhash =>
    ⟨pathsMeet_of_agree hshape hid hhash, agree_of_pathsMeet⟩⟩

end

/-- One row of zeros. -/
def zeros : Series := ⟨.number (some ((0 : ℚ) : WithTop ℚ)), .number (some ((0 : ℚ) : WithTop ℚ)),
  some .increasing, false, false⟩

/-- A column that the record lists, and no reference. -/
theorem paths_agree_depthOnly :
    Agree
      (Checker.ppfgDataset.checkBulkConsistencyOnPostBulk .exact ⟨some "p:t:1", some depthOnly⟩
        ⟨1, zeros, [("MD", zeros)]⟩)
      (Checker.ppfgDataset.checkDescribed .exact ⟨some "p:t:1", some depthOnly⟩
        ⟨1, zeros, [("MD", zeros)]⟩) := by
  refine (paths_agree_iff .exact .ppfgDataset _ _).1 ⟨?_, fun _ _ _ => .inr ?_, ?_, ?_, nofun⟩
  · rintro _ ⟨⟩
    rfl
  · exact Nat.zero_le 1
  · rintro _ ⟨⟩ hnone
    cases hnone
  · exact fun _ _ h => h.elim

/-- A column with the empty label is no curve for one way, and a curve for the other. -/
theorem empty_label_parts :
    ¬ Agree
      (Checker.ppfgDataset.checkBulkConsistencyOnPostBulk .exact
        ⟨some "p:t:1", some [("Curves", .list [])]⟩ ⟨1, zeros, [("", zeros)]⟩)
      (Checker.ppfgDataset.checkDescribed .exact
        ⟨some "p:t:1", some [("Curves", .list [])]⟩ ⟨1, zeros, [("", zeros)]⟩) :=
  fun h => h

end WellboreDdms
