import WellboreDdms.Consistency.Specs

/-!
# What the checks of the curves accept

A bulk is consistent with a record that lists curves if its curves are among those of the
record, with as many columns as the record says, and if its reference fits the record.

- `CurveList`: the curves of a record, none of them without a name and no name twice.
- `Consistent`: the bulks the checks are for.
- `EndsAgree`: the ends of the index, which are compared in the place of those of a column that is
  named like the index, meet the bounds where the ends of the column do.
- `accepts_consistent_iff`: the checks accept these bulks and no others exactly where no curve has
  the empty name, the values they read have the type they need and these ends agree, or they
  reject anyway.
-/

namespace WellboreDdms

open Python Machine

/-- The check returns where the property holds, and raises a consistency exception elsewhere. -/
structure AcceptsExactly (check : Except CheckError Unit) (p : Prop) : Prop where
  accepts : check = .ok () ↔ p
  rejects : ¬ p → ∃ e, check = .error (.consistency e)

/-- A check accepts exactly these inputs if it raises nothing else. -/
theorem acceptsExactly_iff {check : Except CheckError Unit} {p : Prop} :
    AcceptsExactly check p ↔ Clean check ∧ (check = .ok () ↔ p) := by
  constructor
  · rintro ⟨haccepts, hrejects⟩
    refine ⟨fun e he => ?_, haccepts⟩
    have hnot : ¬ p := fun hp => by cases he.symm.trans (haccepts.mpr hp)
    obtain ⟨e', he'⟩ := hrejects hnot
    cases he.symm.trans he'
  · rintro ⟨hclean, haccepts⟩
    refine ⟨haccepts, fun hnot => ?_⟩
    cases hcheck : check with
    | ok => exact absurd (haccepts.mp hcheck) hnot
    | error e =>
      cases e with
      | consistency e => exact ⟨e, rfl⟩
      | python e => exact (hclean e hcheck).elim

/-! ## The reference -/

section

variable {φ : Type} (fa : FloatArithmetic φ) (data : Dict String Value)
  (top bottom : ReferenceBound)
  (column : NumericColumn)

/-- The column is strictly monotonic, and its ends are the bounds of the record. -/
structure Fits : Prop where
  strictlyMonotonic : StrictlyMonotonic column.values
  start : BoundHolds fa data top column.first
  stop : BoundHolds fa data bottom column.last

/-- The column is strictly monotonic, and the ends of its description are the bounds. -/
structure DescriptionFits : Prop where
  strictlyMonotonic : StrictlyMonotonic column.values
  start : BoundHolds fa data top column.start
  stop : BoundHolds fa data bottom column.stop

/-- The bounds that are compared with the ends of the description are numbers. -/
def BoundsComparable : Prop :=
  StrictlyMonotonic column.values → Comparable fa data top column.start ∧
    (BoundHolds fa data top column.start → Comparable fa data bottom column.stop)

/-- If the column is named like the index, the ends of the index meet the bounds exactly where its
own ends do. -/
def EndsAgree : Prop :=
  column.name = wdmsIndexName → StrictlyMonotonic column.values →
    (BoundHolds fa data top (column.index.head column.index_ne_nil) ∧
        BoundHolds fa data bottom (column.index.getLast column.index_ne_nil) ↔
      BoundHolds fa data top column.first ∧ BoundHolds fa data bottom column.last)

end

section

variable {φ : Type} {fa : FloatArithmetic φ} {data : Dict String Value}
  {top bottom : ReferenceBound}
  {column : NumericColumn}

/-- **The check of a reference** accepts a description that fits. -/
theorem checkReference_describe :
    checkReference fa data top bottom column.describe = .ok () ↔
      DescriptionFits fa data top bottom column := by
  rw [checkReference_eq_ok, checkReferenceIsStrictlyMonotonic_describe]
  exact ⟨fun ⟨hmonotonic, hstart, hstop⟩ => ⟨hmonotonic, hstart, hstop⟩,
    fun ⟨hmonotonic, hstart, hstop⟩ => ⟨hmonotonic, hstart, hstop⟩⟩

/-- It raises nothing else where the bounds can be compared. -/
theorem clean_checkReference_describe :
    Clean (checkReference fa data top bottom column.describe) ↔
      BoundsComparable fa data top bottom column := by
  rw [clean_checkReference, checkReferenceIsStrictlyMonotonic_describe]
  exact Iff.rfl

/-- The description says of a column what it should, if its ends agree. -/
theorem descriptionFits_iff :
    (DescriptionFits fa data top bottom column ↔ Fits fa data top bottom column) ↔
      EndsAgree fa data top bottom column := by
  have hfits : Fits fa data top bottom column ↔ StrictlyMonotonic column.values ∧
      BoundHolds fa data top column.first ∧ BoundHolds fa data bottom column.last :=
    ⟨fun h => ⟨h.strictlyMonotonic, h.start, h.stop⟩, fun ⟨h, hstart, hstop⟩ => ⟨h, hstart, hstop⟩⟩
  have hdescribed : DescriptionFits fa data top bottom column ↔ StrictlyMonotonic column.values ∧
      BoundHolds fa data top column.start ∧ BoundHolds fa data bottom column.stop :=
    ⟨fun h => ⟨h.strictlyMonotonic, h.start, h.stop⟩, fun ⟨h, hstart, hstop⟩ => ⟨h, hstart, hstop⟩⟩
  rw [hfits, hdescribed, and_congr_right_iff, EndsAgree, NumericColumn.start, NumericColumn.stop]
  by_cases hname : column.name = wdmsIndexName
  · rw [if_pos hname, if_pos hname]
    exact ⟨fun h _ => h, fun h => h hname⟩
  · rw [if_neg hname, if_neg hname]
    exact iff_of_true (fun _ => Iff.rfl) fun h => absurd h hname

end

/-! ## The curves -/

/-- The curves of a record that lists some, with distinct names. -/
structure CurveList (data : Dict String Value) where
  curves : List CurveItem
  get : Dict.get data "Curves" = some (.list (curveObjects curves))
  nonempty : curves ≠ []
  distinct : (curves.map CurveItem.name).Nodup

/-- The checker of an entity. -/
def CurveEntity.checker : CurveEntity → Checker
  | .wellLog => .wellLog
  | .ppfgDataset => .ppfgDataset
  | .wellPressureTestRawMeasurement => .wellPressureTestRawMeasurement

section

variable {data : Dict String Value} (list : CurveList data) (e : CurveEntity)
  (curveSizes : Dict String Int)

/-- Every curve of the bulk is one of the record. -/
def CurvesListed : Prop :=
  ∀ name ∈ curveSizes.map Prod.fst, name ∈ list.curves.map CurveItem.name

/-- Every curve of the record that the bulk has is there with its number of columns. -/
def TotalsMatch : Prop :=
  ∀ c ∈ list.curves, ∀ n, Dict.get curveSizes c.name = some n → c.numberOfColumns.eqInt n = true

/-- What the checks of the columns ask for: they pass over the empty name. -/
structure ColumnsPass : Prop where
  listed : ∀ name ∈ curveSizes.map Prod.fst, name ≠ "" → name ∈ list.curves.map CurveItem.name
  totals : e ≠ .ppfgDataset → TotalsMatch list curveSizes

/-- All curves of the bulk are listed, or have the empty name. -/
theorem curvesListed_iff :
    CurvesListed list curveSizes ↔
      (∀ name ∈ curveSizes.map Prod.fst, name ≠ "" → name ∈ list.curves.map CurveItem.name) ∧
        "" ∉ curveSizes.map Prod.fst := by
  constructor
  · intro h
    refine ⟨fun name hname _ => h name hname, fun hempty => ?_⟩
    obtain ⟨c, -, hc⟩ := List.mem_map.mp (h "" hempty)
    exact c.nonempty hc
  · rintro ⟨h, hempty⟩ name hname
    exact h name hname fun hname' => hempty (hname' ▸ hname)

variable {list e curveSizes}

theorem CurveList.truthy_curves (list : CurveList data) : (field data "Curves").truthy = true := by
  have hne : curveObjects list.curves ≠ [] := by simpa [curveObjects, objects] using list.nonempty
  simpa [field, list.get, Value.truthy] using hne

theorem CurveList.iterate_curves :
    (field data "Curves").iterate = .ok (curveObjects list.curves) := by
  simp [field, list.get, Value.iterate]

theorem CurveList.raiseIfNoCurves (list : CurveList data) :
    raiseIfNoCurves e (field data "Curves") curveSizes = .ok () :=
  raiseIfNoCurves_eq_ok.mpr (.inl list.truthy_curves)

/-- The sizes in the record are those of the curves listed. -/
theorem CurveList.recordSizes_eq (n : CurveItem → Value) :
    recordSizes n list.curves [] = list.curves.map fun c => (c.name, n c) :=
  recordSizes_distinct list.distinct fun _ _ => nofun

/-- The two comparisons of the columns, where the totals are compared. -/
theorem CurveList.compareCurves (list : CurveList data) (he : e ≠ .ppfgDataset) :
    Clean (compareCurves e (curveObjects list.curves) curveSizes) ∧
      (compareCurves e (curveObjects list.curves) curveSizes = .ok () ↔
        ColumnsPass list e curveSizes) := by
  obtain ⟨hclean, hpass⟩ := compareCurves_named e list.curves curveSizes
  refine ⟨hclean, hpass.trans ?_⟩
  rw [list.recordSizes_eq]
  constructor
  · rintro ⟨hlisted, htotals⟩
    exact ⟨hlisted, fun _ c hc => htotals _ (List.mem_map_of_mem hc) c.nonempty⟩
  · rintro ⟨hlisted, htotals⟩
    refine ⟨hlisted, fun p hp _ => ?_⟩
    obtain ⟨c, hc, rfl⟩ := List.mem_map.mp hp
    exact htotals he c hc

theorem checkColumnsConsistency_wellLog (list : CurveList data) (curveSizes : Dict String Int) :
    Clean (WellLog.checkColumnsConsistency data curveSizes) ∧
      (WellLog.checkColumnsConsistency data curveSizes = .ok () ↔
        ColumnsPass list .wellLog curveSizes) := by
  have hid : raiseIfMissingId (curveObjects list.curves) = .ok () :=
    (raiseIfMissingId_objects _).2.mpr
      (List.forall_mem_map.mpr fun c _ => c.truthy_curveId)
  have hrun : WellLog.checkColumnsConsistency data curveSizes =
      WellboreDdms.compareCurves .wellLog (curveObjects list.curves) curveSizes := by
    rw [WellLog.checkColumnsConsistency, list.raiseIfNoCurves, list.iterate_curves]
    show (raiseIfMissingId (curveObjects list.curves) >>= _) = _
    rw [hid]
    rfl
  rw [hrun]
  exact list.compareCurves nofun

theorem checkColumnsConsistency_wellPressureTestRawMeasurement (list : CurveList data)
    (curveSizes : Dict String Int) :
    Clean (WellPressureTestRawMeasurement.checkColumnsConsistency data curveSizes) ∧
      (WellPressureTestRawMeasurement.checkColumnsConsistency data curveSizes = .ok () ↔
        ColumnsPass list .wellPressureTestRawMeasurement curveSizes) := by
  have hrun : WellPressureTestRawMeasurement.checkColumnsConsistency data curveSizes =
      WellboreDdms.compareCurves .wellPressureTestRawMeasurement (curveObjects list.curves)
        curveSizes := by
    rw [WellPressureTestRawMeasurement.checkColumnsConsistency, list.raiseIfNoCurves,
      list.iterate_curves]
    rfl
  rw [hrun]
  exact list.compareCurves nofun

theorem checkColumnsConsistency_ppfgDataset (list : CurveList data) (curveSizes : Dict String Int) :
    Clean (PPFGDataset.checkColumnsConsistency data curveSizes) ∧
      (PPFGDataset.checkColumnsConsistency data curveSizes = .ok () ↔
        ColumnsPass list .ppfgDataset curveSizes) := by
  have hrun : PPFGDataset.checkColumnsConsistency data curveSizes =
      raiseIfNotMatchingColumns .ppfgDataset curveSizes
        (recordSizes (fun _ => .int 1) list.curves []) := by
    rw [PPFGDataset.checkColumnsConsistency, list.raiseIfNoCurves, list.iterate_curves]
    show (python (curveSizesFromMeta defaultNumberOfColumns
      (curveObjects list.curves) []) >>= _) = _
    rw [curveSizesFromMeta_named (n := fun _ => .int 1) fun _ => rfl]
    rfl
  rw [hrun]
  refine ⟨clean_raiseIfNotMatchingColumns, raiseIfNotMatchingColumns_eq_ok.trans ?_⟩
  simp only [contains_recordSizes_nil]
  exact ⟨fun h => ⟨h, fun hne => absurd rfl hne⟩, fun h => h.listed⟩

end

/-! ## The accepted bulks -/

section

variable {φ : Type} (fa : FloatArithmetic φ) (id : Option String) {data : Dict String Value}
  (list : CurveList data) (curveSizes : Dict String Int) (column? : Option NumericColumn)

/-- A bulk whose reference, if it has one, is a column of numbers. -/
def numericBulk : BulkInfoForConsistency := ⟨curveSizes, column?.map NumericColumn.describe⟩

/-- The column is the reference of the well log. -/
def IsReference (column : NumericColumn) : Prop :=
  WellLog.Compared ⟨id, some data⟩ data list.curves curveSizes column.name

/-- The reference of a well log fits the record. -/
def ReferenceFits (e : CurveEntity) : Prop :=
  e = .wellLog → ∀ column ∈ column?, IsReference id list curveSizes column →
    Fits fa data .samplingStart .samplingStop column

/-- The description of the reference fits the record. -/
def DescribedFits (e : CurveEntity) : Prop :=
  e = .wellLog → ∀ column ∈ column?, IsReference id list curveSizes column →
    DescriptionFits fa data .samplingStart .samplingStop column

/-- Whichever ends of the reference are compared, they meet the bounds or do not. -/
def ReferenceAgrees (e : CurveEntity) : Prop :=
  e = .wellLog → ∀ column ∈ column?, IsReference id list curveSizes column →
    EndsAgree fa data .samplingStart .samplingStop column

/-- The bulks that are consistent with the record. -/
structure Consistent (e : CurveEntity) : Prop where
  listed : CurvesListed list curveSizes
  totals : e ≠ .ppfgDataset → TotalsMatch list curveSizes
  reference : ReferenceFits fa id list curveSizes column? e

/-- The values that the check of the reference reads have the type it needs. -/
structure ReferenceTyped : Prop where
  readable : WellLog.ReferenceReadable ⟨id, some data⟩ data curveSizes
  comparable : ∀ column ∈ column?, IsReference id list curveSizes column →
    BoundsComparable fa data .samplingStart .samplingStop column

/-- A record is consistent if its columns pass, none has the empty name, and its reference fits. -/
theorem consistent_iff (e : CurveEntity) :
    Consistent fa id list curveSizes column? e ↔ ColumnsPass list e curveSizes ∧
      "" ∉ curveSizes.map Prod.fst ∧ ReferenceFits fa id list curveSizes column? e := by
  constructor
  · rintro ⟨hlisted, htotals, hreference⟩
    obtain ⟨hnamed, hempty⟩ := (curvesListed_iff list curveSizes).mp hlisted
    exact ⟨⟨hnamed, htotals⟩, hempty, hreference⟩
  · rintro ⟨⟨hnamed, htotals⟩, hempty, hreference⟩
    exact ⟨(curvesListed_iff list curveSizes).mpr ⟨hnamed, hempty⟩, htotals, hreference⟩

/-- Implications with one premise agree where it holds. -/
theorem imp_congr_right_iff {p q r : Prop} : ((p → q) ↔ (p → r)) ↔ (p → (q ↔ r)) := by
  refine ⟨fun h hp => ⟨fun hq => ?_, fun hr => ?_⟩, imp_congr_right⟩
  · exact h.mp (fun _ => hq) hp
  · exact h.mpr (fun _ => hr) hp

/-- Of at most one column. -/
theorem forall_column_iff {p q : NumericColumn → Prop} :
    ((∀ column ∈ column?, p column) ↔ ∀ column ∈ column?, q column) ↔
      ∀ column ∈ column?, (p column ↔ q column) := by
  cases column? with
  | none => exact iff_of_true (iff_of_true nofun nofun) nofun
  | some column => simp

/-- What is described of the reference decides as the reference does, where they agree. -/
theorem describedFits_iff (e : CurveEntity) :
    (DescribedFits fa id list curveSizes column? e ↔
      ReferenceFits fa id list curveSizes column? e) ↔
      ReferenceAgrees fa id list curveSizes column? e := by
  have hcolumns := forall_column_iff column?
    (p := fun column => IsReference id list curveSizes column →
      DescriptionFits fa data .samplingStart .samplingStop column)
    (q := fun column => IsReference id list curveSizes column →
      Fits fa data .samplingStart .samplingStop column)
  unfold DescribedFits ReferenceFits ReferenceAgrees
  rw [imp_congr_right_iff, hcolumns]
  simp only [imp_congr_right_iff, descriptionFits_iff]

/-- The reference of a bulk is what is described of its column. -/
theorem forall_described {p : ColumnDescribe → Prop} :
    (∀ reference ∈ (numericBulk curveSizes column?).reference, p reference) ↔
      ∀ column ∈ column?, p column.describe := by
  cases column? with
  | none => exact iff_of_true nofun nofun
  | some column => simp [numericBulk]

/-- The check of the reference, of a record with named curves. -/
theorem checkReferenceInBulk_numericBulk :
    (Clean (WellLog.checkReferenceInBulk fa ⟨id, some data⟩ data (numericBulk curveSizes column?)) ↔
      ReferenceTyped fa id list curveSizes column?) ∧
    (ReferenceTyped fa id list curveSizes column? →
      (WellLog.checkReferenceInBulk fa ⟨id, some data⟩ data
          (numericBulk curveSizes column?) = .ok () ↔
        DescribedFits fa id list curveSizes column? .wellLog)) := by
  by_cases hreadable : WellLog.ReferenceReadable ⟨id, some data⟩ data curveSizes
  · have hcheck := WellLog.checksReference fa (numericBulk curveSizes column?) list.get hreadable
    constructor
    · rw [hcheck.iff (clean_ok ()), forall_described]
      simp only [clean_checkReference_describe]
      exact ⟨fun h => ⟨hreadable, h⟩, fun h => h.comparable⟩
    · intro _
      rw [hcheck.iff (p := fun check => check = .ok ()) rfl, forall_described]
      simp only [checkReference_describe]
      exact ⟨fun h _ => h, fun h => h rfl⟩
  · obtain ⟨e, he⟩ := WellLog.checkReferenceInBulk_raises fa
      (numericBulk curveSizes column?) hreadable
    refine ⟨iff_of_false (fun h => h e he) fun h => hreadable h.readable, fun h => ?_⟩
    exact (hreadable h.readable).elim

/-- The whole check: where it raises nothing but consistency exceptions, and when it passes. -/
theorem checkBulkConsistency_numericBulk (e : CurveEntity) :
    (Clean (e.checker.checkBulkConsistency fa ⟨id, some data⟩ (numericBulk curveSizes column?)) ↔
      (ColumnsPass list e curveSizes → e = .wellLog →
        ReferenceTyped fa id list curveSizes column?)) ∧
    ((ColumnsPass list e curveSizes → e = .wellLog → ReferenceTyped fa id list curveSizes column?) →
      (e.checker.checkBulkConsistency fa ⟨id, some data⟩ (numericBulk curveSizes column?) = .ok () ↔
        ColumnsPass list e curveSizes ∧ DescribedFits fa id list curveSizes column? e)) := by
  -- Without a reference to check, the check is that of the columns.
  have hcolumns : ∀ {check : Except CheckError Unit}, e ≠ .wellLog →
      Clean check ∧ (check = .ok () ↔ ColumnsPass list e curveSizes) →
      (Clean check ↔ (ColumnsPass list e curveSizes → e = .wellLog →
        ReferenceTyped fa id list curveSizes column?)) ∧
      ((ColumnsPass list e curveSizes → e = .wellLog →
        ReferenceTyped fa id list curveSizes column?) →
        (check = .ok () ↔
          ColumnsPass list e curveSizes ∧ DescribedFits fa id list curveSizes column? e)) := by
    rintro check hne ⟨hclean, hpass⟩
    have hfits : DescribedFits fa id list curveSizes column? e := fun he => absurd he hne
    exact ⟨iff_of_true hclean fun _ he => absurd he hne,
      fun _ => hpass.trans (and_iff_left hfits).symm⟩
  cases e with
  | wellLog =>
    obtain ⟨hclean, hpass⟩ := checkColumnsConsistency_wellLog list curveSizes
    obtain ⟨hcleanRef, hpassRef⟩ := checkReferenceInBulk_numericBulk fa id list curveSizes column?
    rw [Checker.checkBulkConsistency_of_get list.get]
    show (Clean (WellLog.checkColumnsConsistency data curveSizes >>= fun _ =>
      WellLog.checkReferenceInBulk fa ⟨id, some data⟩ data (numericBulk curveSizes column?)) ↔ _) ∧
      (_ → ((WellLog.checkColumnsConsistency data curveSizes >>= fun _ =>
        WellLog.checkReferenceInBulk fa ⟨id, some data⟩ data (numericBulk curveSizes column?)) =
          .ok () ↔ _))
    rw [clean_then, then_eq_ok, hpass, hcleanRef]
    constructor
    · exact ⟨fun h hcolumns _ => h.2 hcolumns, fun h => ⟨hclean, fun hcolumns => h hcolumns rfl⟩⟩
    · intro htyped
      exact and_congr_right fun hcolumns => hpassRef (htyped hcolumns rfl)
  | ppfgDataset =>
    rw [Checker.checkBulkConsistency_of_get list.get]
    exact hcolumns nofun (checkColumnsConsistency_ppfgDataset list curveSizes)
  | wellPressureTestRawMeasurement =>
    rw [Checker.checkBulkConsistency_of_get list.get]
    exact hcolumns nofun (checkColumnsConsistency_wellPressureTestRawMeasurement list curveSizes)

/-- **The checks of the curves accept exactly the consistent bulks** unless the bulk has a curve
of the empty name and would pass without it, or the reference cannot be read (its name is no
key, the record of a reference in the bulk has no id, or a bound is no number), or is named like
the index and the ends of the index, which are compared, meet the bounds where its own do not. -/
theorem accepts_consistent_iff (e : CurveEntity) :
    AcceptsExactly
        (e.checker.checkBulkConsistency fa ⟨id, some data⟩ (numericBulk curveSizes column?))
        (Consistent fa id list curveSizes column? e) ↔
      (ColumnsPass list e curveSizes →
        (e = .wellLog → ReferenceTyped fa id list curveSizes column?) ∧
        ("" ∈ curveSizes.map Prod.fst → ¬ DescribedFits fa id list curveSizes column? e) ∧
        ("" ∉ curveSizes.map Prod.fst → ReferenceAgrees fa id list curveSizes column? e)) := by
  obtain ⟨hclean, hpass⟩ := checkBulkConsistency_numericBulk fa id list curveSizes column? e
  rw [acceptsExactly_iff, hclean, consistent_iff, ← describedFits_iff]
  constructor
  · rintro ⟨htyped, haccepts⟩ hcolumns
    -- what is accepted, of columns that pass
    have hiff : DescribedFits fa id list curveSizes column? e ↔
        "" ∉ curveSizes.map Prod.fst ∧ ReferenceFits fa id list curveSizes column? e := by
      rw [hpass htyped, and_congr_right_iff] at haccepts
      exact haccepts hcolumns
    refine ⟨htyped hcolumns, fun hempty hfits => (hiff.mp hfits).1 hempty, fun hempty => ?_⟩
    rw [hiff]
    exact and_iff_right hempty
  · intro h
    have htyped := fun hcolumns => (h hcolumns).1
    refine ⟨htyped, (hpass htyped).trans (and_congr_right fun hcolumns => ?_)⟩
    obtain ⟨-, hnamed, hagrees⟩ := h hcolumns
    by_cases hempty : "" ∈ curveSizes.map Prod.fst
    · exact iff_of_false (hnamed hempty) fun h => h.1 hempty
    · rw [hagrees hempty]
      exact (and_iff_right hempty).symm

end

/-- The data of a well log with the curve `MD` alone. -/
def depthOnly : Dict String Value := [("Curves", .list [.dict [("CurveID", .str "MD")]])]

/-- A record of one curve. -/
def depthOnlyCurves : CurveList depthOnly where
  curves := [⟨[("CurveID", .str "MD")], "MD", rfl, by decide⟩]
  get := rfl
  nonempty := nofun
  distinct := List.nodup_singleton "MD"

/-- Its column. -/
def depthColumn : NumericColumn where
  name := "MD"
  values := [some ((0 : ℚ) : WithTop ℚ), some ((1 : ℚ) : WithTop ℚ)]
  index := [.value (.int 0), .value (.int 1)]
  nonempty := nofun
  aligned := rfl

/-- A column with an empty label is none of the record's curves, and the bulk is accepted. -/
theorem unnamed_curve_accepted :
    ¬ AcceptsExactly
      (CurveEntity.wellLog.checker.checkBulkConsistency .exact ⟨some "p:t:1", some depthOnly⟩
        (numericBulk [("MD", 1), ("", 1)] (some depthColumn)))
      (Consistent .exact (some "p:t:1") depthOnlyCurves [("MD", 1), ("", 1)] (some depthColumn)
        .wellLog) := by
  intro h
  have hlisted := (h.accepts.mp rfl).listed ""
  simp [depthOnlyCurves] at hlisted

end WellboreDdms
