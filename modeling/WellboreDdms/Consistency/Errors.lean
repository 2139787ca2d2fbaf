import WellboreDdms.Bulk.Routes
import WellboreDdms.Consistency.Stations

/-!
# What else the checks raise

A check that fails should raise a consistency exception, which the client gets as a bad
request. Any other exception is an error of the server. The fields of a record may be
absent or null, and so may the members of its lists.

- `Shaped`: the data of a record, as far as a check reads it.
- `Guarded`: what the data must have besides for the check to raise nothing else.
- `clean_check_iff`: the checks raise nothing else exactly where the data is guarded;
  `bad_request_of_guarded` is what the client sees then.
-/

namespace WellboreDdms

open Python Machine

/-- The field is absent, null or a text. -/
def TextOrNull (o : Dict String Value) (key : String) : Prop :=
  field o key = .none ∨ ∃ s, field o key = .str s

/-- The field is absent, null or a list of objects with a property. -/
def ListOrNull (data : Dict String Value) (key : String) (p : Dict String Value → Prop) : Prop :=
  field data key = .none ∨ ∃ items, field data key = .list (objects items) ∧ ∀ o ∈ items, p o

theorem TextOrNull.hashable {o : Dict String Value} {key : String} (h : TextOrNull o key) :
    (field o key).hashable = true := by
  rcases h with hnone | ⟨s, hs⟩
  · rw [hnone]; rfl
  · rw [hs]; rfl

theorem get_of_field {data : Dict String Value} {key : String} {v : Value} (h : field data key = v)
    (hne : v ≠ .none) : Dict.get data key = some v := by
  unfold field at h
  cases hget : Dict.get data key with
  | none =>
    rw [hget] at h
    exact absurd h.symm hne
  | some w =>
    rw [hget] at h
    exact congrArg some h

/-- The data of a record, as far as a check reads it to match the columns. -/
def Checker.Shaped : Checker → Dict String Value → Prop
  | .wellLog, data =>
    ListOrNull data "Curves" (TextOrNull · "CurveID") ∧ TextOrNull data "ReferenceCurveID"
  | .trajectory, data => ListOrNull data Trajectory.stationProperties fun o =>
    TextOrNull o "Name" ∧ TextOrNull o Trajectory.stationPropertyTypeId
  | .ppfgDataset, data | .wellPressureTestRawMeasurement, data =>
    ListOrNull data "Curves" (TextOrNull · "CurveID")

/-! ## The columns -/

section

variable {data : Dict String Value} {curveSizes : Dict String Int}

/-- The curves of the bulk are those of the record, with their numbers of columns. -/
structure ColumnsAccepted (curves : List CurveItem) (curveSizes : Dict String Int) : Prop where
  nonempty : curves ≠ [] ∨ curveSizes = []
  listed : ∀ name ∈ curveSizes.map Prod.fst, name ≠ "" → name ∈ curves.map CurveItem.name
  totals : ∀ p ∈ recordSizes CurveItem.numberOfColumns curves [], p.1 ≠ "" →
    ∀ n, Dict.get curveSizes p.1 = some n → p.2.eqInt n = true

/-- Objects with identifiers are curves with names. -/
theorem exists_curveItems {items : List (Dict String Value)}
    (htext : ∀ o ∈ items, TextOrNull o "CurveID")
    (htruthy : ∀ o ∈ items, (field o "CurveID").truthy = true) :
    ∃ curves : List CurveItem, curves.map CurveItem.fields = items := by
  induction items with
  | nil => exact ⟨[], rfl⟩
  | cons o os ih =>
    rw [List.forall_mem_cons] at htext htruthy
    obtain ⟨curves, hcurves⟩ := ih htext.2 htruthy.2
    have hname : ∃ name, field o "CurveID" = .str name ∧ name ≠ "" := by
      have hhead := htruthy.1
      rcases htext.1 with hnone | ⟨name, hname⟩
      · rw [hnone] at hhead
        cases hhead
      · rw [hname] at hhead
        exact ⟨name, hname, by simpa [Value.truthy] using hhead⟩
    obtain ⟨name, hfield, hne⟩ := hname
    exact ⟨⟨o, name, get_of_field hfield (Value.str_ne_none name), hne⟩ :: curves,
      by rw [List.map_cons, hcurves]⟩

/-- Null curves pass the first check without columns, and then cannot be listed. -/
theorem iterate_null (e : CurveEntity) (curveSizes : Dict String Int)
    (hnone : field data "Curves" = .none) (k : List Value → Except CheckError Unit) :
    let check := raiseIfNoCurves e (field data "Curves") curveSizes >>= fun _ =>
      python (field data "Curves").iterate >>= k
    (Clean check ↔ curveSizes ≠ []) ∧ check ≠ .ok () := by
  rw [hnone]
  cases curveSizes with
  | nil => exact ⟨iff_of_false (fun h => h .typeError rfl) fun h => h rfl, nofun⟩
  | cons p ps => exact ⟨iff_of_true (clean_consistency _) nofun, nofun⟩

/-- A list of curves is there if it is not empty. -/
theorem raiseIfNoCurves_list {e : CurveEntity} {curves : List Value}
    (hfield : field data "Curves" = .list curves) :
    raiseIfNoCurves e (field data "Curves") curveSizes = .ok () ↔ curves ≠ [] ∨
      curveSizes = [] := by
  rw [raiseIfNoCurves_eq_ok, hfield]
  cases curves <;> simp [Value.truthy]

/-- **The columns of a well log**, where the curves are a list or null. -/
theorem checkColumnsConsistency_wellLog_shaped (curveSizes : Dict String Int)
    (hshape : ListOrNull data "Curves" (TextOrNull · "CurveID")) :
    (Clean (WellLog.checkColumnsConsistency data curveSizes) ↔
      (field data "Curves" = .none → curveSizes ≠ [])) ∧
    (WellLog.checkColumnsConsistency data curveSizes = .ok () ↔
      ∃ curves, field data "Curves" = .list (curveObjects curves) ∧
        ColumnsAccepted curves curveSizes) := by
  -- the curves are null, and not iterable, or a list
  rcases hshape with hnone | ⟨items, hitems, htext⟩
  · obtain ⟨hclean, hnot⟩ := iterate_null .wellLog curveSizes hnone
      fun curves => raiseIfMissingId curves >>= fun _ => compareCurves .wellLog curves curveSizes
    refine ⟨hclean.trans ⟨fun h _ => h, fun h => h hnone⟩, iff_of_false hnot ?_⟩
    rintro ⟨curves, hlist, -⟩
    rw [hnone] at hlist
    cases hlist
  -- every object of the list must have an id before the columns are compared
  · obtain ⟨hcleanId, hpassId⟩ := raiseIfMissingId_objects items
    have hrun : WellLog.checkColumnsConsistency data curveSizes =
        (raiseIfNoCurves .wellLog (field data "Curves") curveSizes >>= fun _ =>
          raiseIfMissingId (objects items) >>= fun _ =>
            compareCurves .wellLog (objects items) curveSizes) := by
      rw [WellLog.checkColumnsConsistency, hitems]
      rfl
    rw [hrun, clean_then, clean_then, then_eq_ok, then_eq_ok]
    constructor
    · refine iff_of_true ⟨clean_raiseIfNoCurves, fun _ => ⟨hcleanId, fun hid => ?_⟩⟩ fun h => ?_
      · obtain ⟨curves, rfl⟩ := exists_curveItems htext (hpassId.mp hid)
        exact (compareCurves_named .wellLog curves curveSizes).1
      · rw [hitems] at h
        cases h
    · rw [raiseIfNoCurves_list hitems]
      constructor
      · rintro ⟨hsome, hid, hcompare⟩
        obtain ⟨curves, rfl⟩ := exists_curveItems htext (hpassId.mp hid)
        obtain ⟨hlisted, htotals⟩ := (compareCurves_named .wellLog curves curveSizes).2.mp hcompare
        exact ⟨curves, hitems, hsome.imp_left fun h hnil => h (hnil ▸ rfl), hlisted, htotals⟩
      -- a list of curves is told by its objects
      · rintro ⟨curves, hcurves, hsome, hlisted, htotals⟩
        have hobjects : objects items = curveObjects curves :=
          Value.list.inj (hitems.symm.trans hcurves)
        rw [hobjects]
        refine ⟨hsome.imp_left fun h hnil => ?_, ?_, ?_⟩
        · exact h (List.map_eq_nil_iff.mp (List.map_eq_nil_iff.mp hnil))
        · exact (raiseIfMissingId_objects _).2.mpr
            (List.forall_mem_map.mpr fun c _ => c.truthy_curveId)
        · exact (compareCurves_named .wellLog curves curveSizes).2.mpr ⟨hlisted, htotals⟩

/-- Every curve of the record has an identifier, which may be null. -/
def CurvesIdentified (data : Dict String Value) : Prop :=
  ∀ items, field data "Curves" = .list (objects items) →
    ∀ o ∈ items, Dict.contains o "CurveID" = true

/-- The curves of the record are asked for by `c["CurveID"]`. -/
theorem clean_identified (e : CurveEntity) (curveSizes : Dict String Int)
    (hshape : ListOrNull data "Curves" (TextOrNull · "CurveID"))
    {k : List Value → Except CheckError Unit}
    (hk : ∀ items, Clean (k (objects items)) ↔
      ∀ o ∈ items, ∃ v, Dict.get o "CurveID" = some v ∧ v.hashable = true) :
    Clean (raiseIfNoCurves e (field data "Curves") curveSizes >>= fun _ =>
        python (field data "Curves").iterate >>= k) ↔
      (field data "Curves" = .none → curveSizes ≠ []) ∧ CurvesIdentified data := by
  rcases hshape with hnone | ⟨items, hitems, htext⟩
  -- without a list, no curve is unidentified
  · have hidentified : CurvesIdentified data := fun items hlist => by
      rw [hnone] at hlist
      cases hlist
    rw [(iterate_null e curveSizes hnone k).1]
    exact ⟨fun h => ⟨fun _ => h, hidentified⟩, fun h => h.1 hnone⟩
  · have hnull : field data "Curves" = .none → curveSizes ≠ [] := fun h => by
      rw [hitems] at h
      cases h
    have hidentified : CurvesIdentified data ↔
        ∀ o ∈ items, ∃ v, Dict.get o "CurveID" = some v ∧ v.hashable = true := by
      constructor
      · intro h o ho
        obtain ⟨v, hv⟩ := Option.isSome_iff_exists.mp (h items hitems o ho)
        have hfield : field o "CurveID" = v := by simp [field, hv]
        exact ⟨v, hv, hfield ▸ (htext o ho).hashable⟩
      · intro h items' hitems' o ho
        have hsame : items' = items :=
          objects_injective (Value.list.inj (hitems'.symm.trans hitems))
        obtain ⟨v, hv, -⟩ := h o (hsame ▸ ho)
        exact Option.isSome_iff_exists.mpr ⟨v, hv⟩
    rw [clean_then, and_iff_right clean_raiseIfNoCurves, raiseIfNoCurves_list hitems,
      and_iff_right hnull, hidentified, ← hk items, hitems]
    constructor
    · intro h
      -- an empty list of curves is refused before an id is looked up
      by_cases hsome : objects items ≠ [] ∨ curveSizes = []
      · exact h hsome
      · have hnil : items = [] := List.map_eq_nil_iff.mp (not_not.mp (not_or.mp hsome).1)
        rw [hk, hnil]
        exact List.forall_mem_nil _
    · exact fun h _ => h

/-- **The columns of a PPFG dataset**, in the same way. -/
theorem clean_checkColumnsConsistency_ppfgDataset (curveSizes : Dict String Int)
    (hshape : ListOrNull data "Curves" (TextOrNull · "CurveID")) :
    Clean (PPFGDataset.checkColumnsConsistency data curveSizes) ↔
      (field data "Curves" = .none → curveSizes ≠ []) ∧ CurvesIdentified data := by
  refine clean_identified .ppfgDataset curveSizes hshape fun items => ?_
  have hsize : ∀ o, ∃ n, defaultNumberOfColumns (.dict o) = .ok n := fun _ => ⟨.int 1, rfl⟩
  rw [← curveSizesFromMeta_isOk hsize items [], clean_bind, clean_python]
  exact and_iff_left fun _ _ => clean_raiseIfNotMatchingColumns

/-- **The columns of a raw measurement**, in the same way. -/
theorem clean_checkColumnsConsistency_wellPressureTestRawMeasurement
    (curveSizes : Dict String Int)
    (hshape : ListOrNull data "Curves" (TextOrNull · "CurveID")) :
    Clean (WellPressureTestRawMeasurement.checkColumnsConsistency data curveSizes) ↔
      (field data "Curves" = .none → curveSizes ≠ []) ∧ CurvesIdentified data := by
  refine clean_identified .wellPressureTestRawMeasurement curveSizes hshape fun items => ?_
  rw [← curveSizesFromMeta_isOk (fun o => ⟨_, numberOfColumns_dict o⟩) items [], compareCurves,
    clean_bind, clean_python]
  exact and_iff_left fun _ _ => clean_then.mpr
    ⟨clean_raiseIfNotMatchingColumns, fun _ => clean_raiseIfNotMatchingTotals⟩

end

/-! ## The reference -/

section

variable {φ : Type} (fa : FloatArithmetic φ) (record : CheckedRecord) (data : Dict String Value)
  (bulkInfo : BulkInfoForConsistency)

/-- The bounds that are compared with the ends of the reference are numbers. -/
def BoundsReadable (top bottom : ReferenceBound) (reference : ColumnDescribe) : Prop :=
  reference.hasDuplicate = false ∧ reference.monotonicity ≠ none →
    Comparable fa data top reference.startValue ∧
      (BoundHolds fa data top reference.startValue →
        Comparable fa data bottom reference.endValue)

/-- The check of a reference is clean where its bounds can be read. -/
theorem clean_checkReference_iff {top bottom : ReferenceBound} {reference : ColumnDescribe} :
    Clean (checkReference fa data top bottom reference) ↔
      BoundsReadable fa data top bottom reference := by
  rw [clean_checkReference, checkReferenceIsStrictlyMonotonic_eq_ok]
  exact Iff.rfl

/-- Besides its shape, what the data of a well log needs. -/
structure WellLog.Guarded : Prop where
  columns : field data "Curves" = .none → bulkInfo.curves ≠ []
  hasId : ∀ curves, field data "Curves" = .list (curveObjects curves) →
    ColumnsAccepted curves bulkInfo.curves → ∀ name, field data "ReferenceCurveID" = .str name →
      name ∈ bulkInfo.curves.map Prod.fst → record.id ≠ none
  bounds : ∀ curves, field data "Curves" = .list (curveObjects curves) →
    ColumnsAccepted curves bulkInfo.curves → ∀ reference ∈ bulkInfo.reference,
      Compared record data curves bulkInfo.curves reference.name →
        BoundsReadable fa data .samplingStart .samplingStop reference

/-- Besides its shape, what the data of a trajectory needs. -/
structure Trajectory.Guarded : Prop where
  columns : Dict.contains data stationProperties = false → bulkInfo.curves ≠ []
  bounds : ∀ list : StationList data, CurvesCollected list bulkInfo.curves →
    ∀ reference ∈ bulkInfo.reference, referenceName list.stations = .str reference.name →
      BoundsReadable fa data .topDepthMeasuredDepth .baseDepthMeasuredDepth reference

/-- Besides its shape, what the data of a record needs. -/
def Checker.Guarded : Checker → Prop
  | .wellLog => WellLog.Guarded fa record data bulkInfo
  | .trajectory => Trajectory.Guarded fa data bulkInfo
  | .ppfgDataset | .wellPressureTestRawMeasurement =>
    (field data "Curves" = .none → bulkInfo.curves ≠ []) ∧ CurvesIdentified data

variable {fa record data bulkInfo}

/-- **The check of a well log** is clean where it is guarded. -/
theorem WellLog.clean_check
    (hcurves : ListOrNull data "Curves" (TextOrNull · "CurveID"))
    (hreference : TextOrNull data "ReferenceCurveID") :
    Clean (checkColumnsConsistency data bulkInfo.curves >>= fun _ =>
        checkReferenceInBulk fa record data bulkInfo) ↔ Guarded fa record data bulkInfo := by
  obtain ⟨hclean, hpass⟩ := checkColumnsConsistency_wellLog_shaped bulkInfo.curves hcurves
  rw [clean_then, hclean, hpass]
  constructor
  · rintro ⟨hcolumns, hrest⟩
    have hreadable : ∀ curves, field data "Curves" = .list (curveObjects curves) →
        ColumnsAccepted curves bulkInfo.curves →
          ReferenceReadable record data bulkInfo.curves := by
      intro curves hfield haccepted
      by_contra hnot
      obtain ⟨e, he⟩ := checkReferenceInBulk_raises fa bulkInfo hnot
      exact hrest ⟨curves, hfield, haccepted⟩ e he
    refine ⟨hcolumns, fun curves hfield haccepted => (hreadable curves hfield haccepted).hasId, ?_⟩
    intro curves hfield haccepted reference hdescribed hcompared
    have hcheck := checksReference fa bulkInfo (get_of_field hfield (Value.list_ne_none _))
      (hreadable curves hfield haccepted)
    have hall := (hcheck.iff (clean_ok ())).mp (hrest ⟨curves, hfield, haccepted⟩)
    exact (clean_checkReference_iff fa data).mp (hall reference hdescribed hcompared)
  · rintro ⟨hcolumns, hid, hbounds⟩
    refine ⟨hcolumns, ?_⟩
    rintro ⟨curves, hfield, haccepted⟩
    have hcheck := checksReference fa bulkInfo (get_of_field hfield (Value.list_ne_none _))
      ⟨hreference.hashable, hid curves hfield haccepted⟩
    rw [hcheck.iff (clean_ok ())]
    intro reference hdescribed hcompared
    exact (clean_checkReference_iff fa data).mpr
      (hbounds curves hfield haccepted reference hdescribed hcompared)

/-- Without stations, the columns are refused, or there is no reference. -/
theorem Trajectory.clean_check_null (hnull : field data stationProperties = .none) :
    Clean (checkColumnsConsistency data bulkInfo.curves >>= fun _ =>
        checkReferenceOfBulk fa data bulkInfo) ↔
      (Dict.contains data stationProperties = false → bulkInfo.curves ≠ []) := by
  have hreference : checkReferenceOfBulk fa data bulkInfo = .ok () := by
    rw [checkReferenceOfBulk, referenceOfData, hnull]
    rfl
  rw [hreference, clean_then, and_iff_left fun _ => clean_ok ()]
  cases hget : Dict.get data stationProperties with
  | none =>
    have habsent : Dict.contains data stationProperties = false := by simp [Dict.contains, hget]
    rw [checkColumnsConsistency, habsent, Value.item, hget]
    cases bulkInfo.curves with
    | nil => exact iff_of_false (fun h => h _ rfl) fun h => h rfl rfl
    | cons p ps => exact iff_of_true (clean_consistency _) fun _ => List.cons_ne_nil p ps
  | some v =>
    have hnone : v = .none := by simpa [field, hget] using hnull
    have hpresent : Dict.contains data stationProperties = true := by simp [Dict.contains, hget]
    rw [checkColumnsConsistency, hpresent, Bool.not_true, Bool.and_false, Value.item, hget, hnone]
    exact iff_of_true clean_refused fun h => absurd h.symm Bool.false_ne_true

/-- **The check of a trajectory** is clean where it is guarded. -/
theorem Trajectory.clean_check
    (hshape : ListOrNull data stationProperties fun o =>
      TextOrNull o "Name" ∧ TextOrNull o stationPropertyTypeId) :
    Clean (checkColumnsConsistency data bulkInfo.curves >>= fun _ =>
        checkReferenceOfBulk fa data bulkInfo) ↔ Guarded fa data bulkInfo := by
  rcases hshape with hnull | ⟨items, hitems, htext⟩
  -- the stations are null: there is no list that could be checked
  · rw [clean_check_null hnull]
    refine ⟨fun h => ⟨h, fun list => ?_⟩, fun h => h.columns⟩
    have hfield : field data stationProperties = .list (objects list.stations) := by
      simp [field, list.get]
    rw [hnull] at hfield
    cases hfield
  · have hget := get_of_field hitems (Value.list_ne_none _)
    -- the data have one list of stations only
    have honly : ∀ list : StationList data, list.stations = items := fun list =>
      objects_injective (Value.list.inj (Option.some.inj (list.get.symm.trans hget)))
    have hpresent : Dict.contains data stationProperties = true := by simp [Dict.contains, hget]
    have hhash : ∀ v ∈ collectedNames items, v.hashable = true := by
      intro v hv
      obtain ⟨o, ho, rfl⟩ := exists_of_mem_collectedNames hv
      exact (htext o ho).1.hashable
    -- texts and nulls can be read as types
    have htypes : TypesReadable items := by
      intro o ho htruthy
      rcases (htext o ((List.takeWhile_sublist _).mem ho)).2 with hnone | ⟨s, hs⟩
      · rw [hnone] at htruthy
        cases htruthy
      · exact ⟨_, by rw [hs]; rfl⟩
    let list : StationList data := ⟨items, hget⟩
    obtain ⟨hclean, hpass⟩ := checkColumnsConsistency_stations list bulkInfo.curves
    rw [clean_then, and_iff_right (hclean.mpr hhash), hpass hhash,
      (checksReference fa list bulkInfo htypes).iff (clean_ok ())]
    constructor
    · intro h
      refine ⟨fun habsent => absurd (habsent.symm.trans hpresent) Bool.false_ne_true, ?_⟩
      rintro ⟨stations, hstations⟩ hcollected reference hdescribed hname
      obtain rfl : stations = items := honly ⟨stations, hstations⟩
      exact (clean_checkReference_iff fa data).mp (h hcollected reference hdescribed hname)
    · intro h hcollected reference hdescribed hname
      exact (clean_checkReference_iff fa data).mpr
        (h.bounds list hcollected reference hdescribed hname)

/-- **The checks fail only as errors of the client** exactly where the data is guarded. -/
theorem clean_check_iff (c : Checker) (hshape : ∀ data, record.items = some data → c.Shaped data) :
    Clean (c.checkBulkConsistency fa record bulkInfo) ↔
      ∀ data, record.items = some data → c.Guarded fa record data bulkInfo := by
  rw [c.checkBulkConsistency_eq]
  cases hitems : record.items with
  | none => exact iff_of_true (clean_ok ()) nofun
  | some data =>
    rw [hitems] at hshape
    simp only [Option.some.injEq, forall_eq'] at hshape ⊢
    cases c with
    | wellLog => exact WellLog.clean_check hshape.1 hshape.2
    | trajectory => exact Trajectory.clean_check hshape
    | ppfgDataset => exact clean_checkColumnsConsistency_ppfgDataset bulkInfo.curves hshape
    | wellPressureTestRawMeasurement =>
      exact clean_checkColumnsConsistency_wellPressureTestRawMeasurement bulkInfo.curves hshape

/-- A handler that checks a guarded record answers 400 if the check fails. -/
theorem bad_request_of_guarded (c : Checker) (read : Value → Except Raised BulkInfoForConsistency)
    (str : Value → String) (strCell : Cell → String) {record : Record}
    (hshape : ∀ data, record.checked.items = some data → c.Shaped data)
    (hguarded : ∀ data, record.checked.items = some data →
      c.Guarded fa record.checked data bulkInfo) {e : Raised}
    (h : (c.dataConsistencyChecks fa read str strCell).checkBulkConsistency record bulkInfo =
      .error e) :
    ∃ message, bulkErrorAsHttp e = .httpException 400 message := by
  have hclean := (clean_check_iff c hshape).mpr hguarded
  have hmap : (c.checkBulkConsistency fa record.checked bulkInfo).mapError
      (CheckError.raised str strCell) = .error e := h
  cases hcheck : c.checkBulkConsistency fa record.checked bulkInfo with
  | ok =>
    rw [hcheck] at hmap
    cases hmap
  | error e' =>
    rw [hcheck] at hmap
    cases e' with
    | consistency ex =>
      cases hmap
      exact ⟨ex.message str strCell, rfl⟩
    | python ex => exact (hclean ex hcheck).elim

end

/-- The curve of the sample data is identified. -/
theorem clean_check_depthOnly :
    Clean (Checker.ppfgDataset.checkBulkConsistency .exact ⟨none, some depthOnly⟩
      ⟨[("MD", 1)], none⟩) := by
  have hfield : field depthOnly "Curves" = .list (objects [[("CurveID", .str "MD")]]) := rfl
  refine (clean_check_iff .ppfgDataset ?_).mpr ?_
  · rintro _ ⟨⟩
    exact .inr ⟨_, hfield, by simp [TextOrNull, field, Dict.get]⟩
  · rintro _ ⟨⟩
    refine ⟨fun hnone => absurd (hfield.symm.trans hnone) (Value.list_ne_none _), ?_⟩
    intro items hitems o ho
    obtain rfl : items = [[("CurveID", .str "MD")]] :=
      objects_injective (Value.list.inj (hitems.symm.trans hfield))
    obtain rfl := List.mem_singleton.mp ho
    rfl

/-- A pressure dataset whose curve has no identifier. -/
def unidentified : CheckedRecord :=
  ⟨some "p:t:1", some [("Curves", .list [.dict [("CurveUnit", .str "psi")]])]⟩

/-- The identifier that is absent is asked for. -/
theorem unidentified_raises :
    (∀ data, unidentified.items = some data → Checker.ppfgDataset.Shaped data) ∧
      ¬ Clean (Checker.ppfgDataset.checkBulkConsistency .exact unidentified
        ⟨[("MD", 1)], none⟩) := by
  refine ⟨?_, fun h => h (.keyError "CurveID") rfl⟩
  rintro _ ⟨⟩
  exact .inr ⟨[[("CurveUnit", .str "psi")]], rfl, by simp [TextOrNull, field, Dict.get]⟩

end WellboreDdms
