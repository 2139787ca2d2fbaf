import WellboreDdms.Consistency.Checks

/-!
# What the checks of the columns ask for

For each step of the checks: when it passes, and that it raises nothing but consistency
exceptions where the record lists objects.

- `objects`: the value of a list of objects.
- `raiseIfNoCurves_eq_ok`, `raiseIfMissingId_objects`, `raiseIfNotMatchingColumns_eq_ok`,
  `raiseIfNotMatchingTotals_eq_ok`: the steps.
- `curveSizesFromMeta_isOk`, `curveSizesFromMeta_named`: the sizes of the record.
-/

namespace WellboreDdms

open Python Machine

/-- A list of objects. -/
def objects (items : List (Dict String Value)) : List Value := items.map .dict

@[simp] theorem objects_nil : objects [] = [] := rfl

@[simp] theorem objects_cons (o : Dict String Value) (os : List (Dict String Value)) :
    objects (o :: os) = .dict o :: objects os := rfl

theorem objects_injective : Function.Injective objects :=
  List.map_injective_iff.mpr fun _ _ => Value.dict.inj

/-- Data with a field is not empty. -/
theorem CheckedRecord.items_of_get {data : Dict String Value} {key : String} {v : Value}
    (h : Dict.get data key = some v) (id : Option String) :
    CheckedRecord.items ⟨id, some data⟩ = some data := by
  have hne : data ≠ [] := fun hnil => by
    rw [hnil] at h
    cases h
  simp [CheckedRecord.items, Option.filter, hne]

/-- A record that has the list is checked by its data. -/
theorem Checker.checkBulkConsistency_of_get {φ : Type} {fa : FloatArithmetic φ} {c : Checker}
    {data : Dict String Value} {key : String} {v : Value} (h : Dict.get data key = some v)
    (id : Option String) (bulkInfo : BulkInfoForConsistency) :
    c.checkBulkConsistency fa ⟨id, some data⟩ bulkInfo =
      c.checkData fa ⟨id, some data⟩ data bulkInfo := by
  rw [c.checkBulkConsistency_eq, CheckedRecord.items_of_get h]

/-! ## Steps without values of the record -/

section

variable {b : Bool} {ex : ConsistencyException}

theorem refused_eq_ok :
    (if b then .error (.consistency ex) else .ok () : Except CheckError Unit) = .ok () ↔
      b = false := by
  cases b <;> simp

theorem clean_refused : Clean (if b then .error (.consistency ex) else .ok () : Except _ Unit) := by
  cases b with
  | true => exact clean_consistency _
  | false => exact clean_ok ()

end

section

variable {e : CurveEntity} {curves : Value} {curveSizes : Dict String Int}
  {sizesFromMeta : Dict String Value}

/-- There are curves, or nothing to compare them with. -/
theorem raiseIfNoCurves_eq_ok :
    raiseIfNoCurves e curves curveSizes = .ok () ↔ (curves.truthy = true ∨ curveSizes = []) := by
  refine refused_eq_ok.trans ?_
  cases curves.truthy <;> simp

theorem clean_raiseIfNoCurves : Clean (raiseIfNoCurves e curves curveSizes) := clean_refused

theorem anyName_eq_false {names : List String} :
    anyName names = false ↔ ∀ name ∈ names, name = "" := by
  simp [anyName]

/-- Every curve of the bulk with a name is one of the record. -/
theorem raiseIfNotMatchingColumns_eq_ok :
    raiseIfNotMatchingColumns e curveSizes sizesFromMeta = .ok () ↔
      ∀ name ∈ curveSizes.map Prod.fst, name ≠ "" → Dict.contains sizesFromMeta name = true := by
  refine refused_eq_ok.trans ?_
  rw [anyName_eq_false]
  constructor
  · intro h name hname hne
    by_contra hnot
    exact hne (h name (List.mem_filter.mpr ⟨hname, by simpa using hnot⟩))
  · intro h name hname
    obtain ⟨hmem, hnot⟩ := List.mem_filter.mp hname
    by_contra hne
    rw [h name hmem hne] at hnot
    cases hnot

theorem clean_raiseIfNotMatchingColumns :
    Clean (raiseIfNotMatchingColumns e curveSizes sizesFromMeta) := clean_refused

/-- Every curve of the record with a name has as many columns in the bulk, if it is there. -/
theorem raiseIfNotMatchingTotals_eq_ok :
    raiseIfNotMatchingTotals e curveSizes sizesFromMeta = .ok () ↔
      ∀ p ∈ sizesFromMeta, p.1 ≠ "" → ∀ n, Dict.get curveSizes p.1 = some n →
        p.2.eqInt n = true := by
  refine refused_eq_ok.trans ?_
  rw [anyName_eq_false]
  constructor
  · intro h p hp hne n hn
    by_contra hnot
    refine hne (h p.1 (List.mem_map_of_mem (List.mem_filter.mpr ⟨hp, ?_⟩)))
    simpa [hn] using hnot
  · intro h name hname
    obtain ⟨p, hp, rfl⟩ := List.mem_map.mp hname
    obtain ⟨hmem, hnot⟩ := List.mem_filter.mp hp
    by_contra hne
    cases hn : Dict.get curveSizes p.1 with
    | none => simp [hn] at hnot
    | some n => simp [hn, h p hmem hne n hn] at hnot

theorem clean_raiseIfNotMatchingTotals :
    Clean (raiseIfNotMatchingTotals e curveSizes sizesFromMeta) := clean_refused

end

/-! ## Steps on the objects of the record -/

/-- The curves without an identifier are found in any list of objects. -/
theorem curvesMissingId_objects (items : List (Dict String Value)) (index : Nat) :
    ∃ indices, curvesMissingId index (objects items) = .ok indices ∧
      (indices.isEmpty = true ↔ ∀ o ∈ items, (field o "CurveID").truthy = true) := by
  induction items generalizing index with
  | nil => exact ⟨[], rfl, by simp⟩
  | cons o os ih =>
    obtain ⟨indices, hindices, hempty⟩ := ih (index + 1)
    refine ⟨if (field o "CurveID").truthy then indices else index :: indices, ?_, ?_⟩
    · simp only [objects_cons, curvesMissingId, Value.lookup, hindices]
      rfl
    · cases h : (field o "CurveID").truthy <;> simp [h, hempty]

/-- **The check of the ids** passes if every curve has one. -/
theorem raiseIfMissingId_objects (items : List (Dict String Value)) :
    Clean (raiseIfMissingId (objects items)) ∧
      (raiseIfMissingId (objects items) = .ok () ↔
        ∀ o ∈ items, (field o "CurveID").truthy = true) := by
  obtain ⟨indices, hindices, hempty⟩ := curvesMissingId_objects items 0
  have hrun : raiseIfMissingId (objects items) = if indices.isEmpty then .ok ()
      else .error (.consistency (.curvesMissingId indices)) := by
    rw [raiseIfMissingId, hindices]
    rfl
  rw [hrun, ← hempty]
  cases indices.isEmpty with
  | true => exact ⟨clean_ok (), by simp⟩
  | false => exact ⟨clean_consistency _, by simp⟩

/-- A curve without a number of columns has one. -/
theorem numberOfColumns_dict (o : Dict String Value) :
    numberOfColumns (.dict o) = .ok ((Dict.get o "NumberOfColumns").getD (.int 1)) := rfl

/-- The sizes are there when every object has an identifier that may be a key. -/
theorem curveSizesFromMeta_isOk {size : Value → Except PyError Value}
    (hsize : ∀ o, ∃ n, size (.dict o) = .ok n) (items : List (Dict String Value))
    (sizesFromMeta : Dict String Value) :
    (∃ m, curveSizesFromMeta size (objects items) sizesFromMeta = .ok m) ↔
      ∀ o ∈ items, ∃ v, Dict.get o "CurveID" = some v ∧ v.hashable = true := by
  induction items generalizing sizesFromMeta with
  | nil => exact ⟨fun _ => List.forall_mem_nil _, fun _ => ⟨sizesFromMeta, rfl⟩⟩
  | cons o os ih =>
    obtain ⟨n, hn⟩ := hsize o
    rw [objects_cons, List.forall_mem_cons]
    simp only [curveSizesFromMeta, Value.item, hn]
    cases hid : Dict.get o "CurveID" with
    | none => exact iff_of_false (by rintro ⟨_, ⟨⟩⟩) fun h => by simpa using h.1
    | some v =>
      by_cases hhash : v.hashable = true
      · have hhead : ∃ w, some v = some w ∧ w.hashable = true := ⟨v, rfl, hhash⟩
        simp only [hhead, true_and]
        cases v <;> first | exact ih _ | cases hhash
      · refine iff_of_false ?_ ?_
        · rintro ⟨m, hm⟩
          cases v <;> first | cases hm | exact hhash rfl
        · rintro ⟨⟨w, hw, h⟩, -⟩
          exact hhash (Option.some.inj hw ▸ h)

/-! ## Curves with names -/

/-- A curve of a record: an object with a name. -/
structure CurveItem where
  fields : Dict String Value
  name : String
  curveId : Dict.get fields "CurveID" = some (.str name)
  nonempty : name ≠ ""

namespace CurveItem

/-- `NumberOfColumns`, 1 where the key is absent. -/
def numberOfColumns (c : CurveItem) : Value := (Dict.get c.fields "NumberOfColumns").getD (.int 1)

theorem truthy_curveId (c : CurveItem) : (field c.fields "CurveID").truthy = true := by
  simp [field, c.curveId, Value.truthy, c.nonempty]

end CurveItem

/-- The curves as JSON objects. -/
def curveObjects (curves : List CurveItem) : List Value := objects (curves.map CurveItem.fields)

@[simp] theorem curveObjects_cons (c : CurveItem) (cs : List CurveItem) :
    curveObjects (c :: cs) = .dict c.fields :: curveObjects cs := rfl

/-- The sizes of the curves by name; of two curves with one name, the last one counts. -/
def recordSizes (n : CurveItem → Value) (curves : List CurveItem)
    (sizesFromMeta : Dict String Value) : Dict String Value :=
  curves.foldl (fun d c => Dict.set d c.name (n c)) sizesFromMeta

theorem curveSizesFromMeta_named {size : Value → Except PyError Value} {n : CurveItem → Value}
    (hsize : ∀ c, size (.dict c.fields) = .ok (n c)) (curves : List CurveItem)
    (sizesFromMeta : Dict String Value) :
    curveSizesFromMeta size (curveObjects curves) sizesFromMeta =
      .ok (recordSizes n curves sizesFromMeta) := by
  induction curves generalizing sizesFromMeta with
  | nil => rfl
  | cons c cs ih =>
    have hstep : curveSizesFromMeta size (curveObjects (c :: cs)) sizesFromMeta =
        curveSizesFromMeta size (curveObjects cs) (Dict.set sizesFromMeta c.name (n c)) := by
      simp only [curveObjects_cons, curveSizesFromMeta, Value.item, c.curveId, hsize]
      rfl
    rw [hstep, ih]
    rfl

/-- Distinct names are the keys, in their order. -/
theorem recordSizes_distinct {n : CurveItem → Value} {curves : List CurveItem}
    {sizesFromMeta : Dict String Value} (h : (curves.map CurveItem.name).Nodup)
    (hnew : ∀ c ∈ curves, c.name ∉ sizesFromMeta.map Prod.fst) :
    recordSizes n curves sizesFromMeta = sizesFromMeta ++ curves.map fun c => (c.name, n c) := by
  induction curves generalizing sizesFromMeta with
  | nil => simp [recordSizes]
  | cons c cs ih =>
    obtain ⟨hnotin, hnodup⟩ := List.nodup_cons.mp h
    have hset := Dict.set_eq_append (n c) (hnew c List.mem_cons_self)
    have hrest : ∀ d ∈ cs, d.name ∉ (Dict.set sizesFromMeta c.name (n c)).map Prod.fst := by
      intro d hd hmem
      rw [hset, List.map_append, List.mem_append] at hmem
      rcases hmem with hold | hname
      · exact hnew d (List.mem_cons_of_mem _ hd) hold
      · have hsame : d.name = c.name := List.mem_singleton.mp hname
        exact hnotin (hsame ▸ List.mem_map_of_mem hd)
    show recordSizes n cs (Dict.set sizesFromMeta c.name (n c)) = _
    rw [ih hnodup hrest, hset]
    simp

/-- The names collected are those of the curves. -/
theorem contains_recordSizes {n : CurveItem → Value} (curves : List CurveItem)
    (sizesFromMeta : Dict String Value) (name : String) :
    Dict.contains (recordSizes n curves sizesFromMeta) name = true ↔
      name ∈ curves.map CurveItem.name ∨ Dict.contains sizesFromMeta name = true := by
  induction curves generalizing sizesFromMeta with
  | nil => simp [recordSizes]
  | cons c cs ih =>
    show Dict.contains (recordSizes n cs (Dict.set sizesFromMeta c.name (n c))) name = true ↔ _
    rw [ih, Dict.contains_set, Bool.or_eq_true, decide_eq_true_eq, List.map_cons, List.mem_cons]
    tauto

theorem contains_recordSizes_nil {n : CurveItem → Value} (curves : List CurveItem) (name : String) :
    Dict.contains (recordSizes n curves []) name = true ↔ name ∈ curves.map CurveItem.name :=
  (contains_recordSizes curves [] name).trans (or_iff_left nofun)

/-- The comparison of named curves: every curve of the bulk that has a name is one of them, with
its number of columns. -/
theorem compareCurves_named (e : CurveEntity) (curves : List CurveItem)
    (curveSizes : Dict String Int) :
    Clean (compareCurves e (curveObjects curves) curveSizes) ∧
      (compareCurves e (curveObjects curves) curveSizes = .ok () ↔
        (∀ name ∈ curveSizes.map Prod.fst, name ≠ "" → name ∈ curves.map CurveItem.name) ∧
        ∀ p ∈ recordSizes CurveItem.numberOfColumns curves [], p.1 ≠ "" →
          ∀ n, Dict.get curveSizes p.1 = some n → p.2.eqInt n = true) := by
  have hrun : compareCurves e (curveObjects curves) curveSizes =
      (raiseIfNotMatchingColumns e curveSizes (recordSizes CurveItem.numberOfColumns curves []) >>=
        fun _ => raiseIfNotMatchingTotals e curveSizes
          (recordSizes CurveItem.numberOfColumns curves [])) := by
    rw [compareCurves, curveSizesFromMeta_named fun c => numberOfColumns_dict c.fields]
    rfl
  rw [hrun]
  constructor
  · exact clean_then.mpr ⟨clean_raiseIfNotMatchingColumns, fun _ => clean_raiseIfNotMatchingTotals⟩
  · rw [then_eq_ok, raiseIfNotMatchingColumns_eq_ok, raiseIfNotMatchingTotals_eq_ok]
    simp only [contains_recordSizes_nil]

/-- The curve of the name is of the family. -/
def MeasuredDepth (curves : List CurveItem) (reference dataPartition : String) : Prop :=
  ∃ c ∈ curves, c.name = reference ∧
    field c.fields "LogCurveFamilyID" = .str (WellLog.measuredDepthFamily dataPartition)

theorem anyOfFamily_named (expected reference : String) (curves : List CurveItem) :
    WellLog.anyOfFamily expected reference (curveObjects curves) =
      .ok (curves.any fun c => decide (c.name = reference) &&
        (field c.fields "LogCurveFamilyID").eqText expected) := by
  induction curves with
  | nil => rfl
  | cons c cs ih =>
    simp only [curveObjects_cons, WellLog.anyOfFamily, Value.item, c.curveId]
    show (if decide (c.name = reference) = true then
        if (field c.fields "LogCurveFamilyID").eqText expected = true then .ok true
        else WellLog.anyOfFamily expected reference (curveObjects cs)
      else WellLog.anyOfFamily expected reference (curveObjects cs)) = _
    rw [ih, List.any_cons]
    cases decide (c.name = reference) with
    | false => rfl
    | true => cases (field c.fields "LogCurveFamilyID").eqText expected <;> rfl

/-- The reference is a measured depth if a curve of its name is of that family. -/
theorem isCurveReferenceFamilyMeasuredDepth_named {data : Dict String Value}
    {curves : List CurveItem} (hget : Dict.get data "Curves" = some (.list (curveObjects curves)))
    (reference dataPartition : String) :
    ∃ b, WellLog.isCurveReferenceFamilyMeasuredDepth data reference dataPartition = .ok b ∧
      (b = true ↔ MeasuredDepth curves reference dataPartition) := by
  have hrun : WellLog.isCurveReferenceFamilyMeasuredDepth data reference dataPartition =
      WellLog.anyOfFamily (WellLog.measuredDepthFamily dataPartition) reference
        (curveObjects curves) := by
    simp only [WellLog.isCurveReferenceFamilyMeasuredDepth, Value.item, hget]
    rfl
  refine ⟨_, hrun.trans (anyOfFamily_named _ reference curves), ?_⟩
  simp [MeasuredDepth, Value.eqText_iff]

/-! ## The reference -/

section

variable {φ : Type} {fa : FloatArithmetic φ} {data : Dict String Value}
  {top bottom : ReferenceBound}
  {described : Option ColumnDescribe} {compared : String → Prop} {check : Except CheckError Unit}

/-- The check passes, or is that of the column described, if the column is the one to compare. -/
def ChecksReference (fa : FloatArithmetic φ) (data : Dict String Value)
    (top bottom : ReferenceBound)
    (described : Option ColumnDescribe) (compared : String → Prop)
    (check : Except CheckError Unit) : Prop :=
  (check = .ok () ∧ ∀ reference ∈ described, ¬ compared reference.name) ∨
    ∃ reference ∈ described, compared reference.name ∧
      check = checkReference fa data top bottom reference

/-- A property of the check is one of the comparison, if it holds where nothing is compared. -/
theorem ChecksReference.iff (h : ChecksReference fa data top bottom described compared check)
    {p : Except CheckError Unit → Prop} (hp : p (.ok ())) :
    p check ↔ ∀ reference ∈ described, compared reference.name →
      p (checkReference fa data top bottom reference) := by
  rcases h with ⟨hok, hnone⟩ | ⟨reference, hdescribed, hcompared, hrun⟩
  · rw [hok]
    exact iff_of_true hp fun reference hdescribed h => absurd h (hnone reference hdescribed)
  · rw [hrun]
    constructor
    · intro h other hother _
      cases hdescribed.symm.trans hother
      exact h
    · intro h
      exact h reference hdescribed hcompared

end

/-! ## The reference of a well log -/

namespace WellLog

section

variable {φ : Type} {record : CheckedRecord} {data : Dict String Value}
  {bulkInfo : BulkInfoForConsistency} {curves : List CurveItem}

/-- The column that is compared: the reference that the record names, a curve of the bulk, of
the family of the measured depth. -/
structure Compared (record : CheckedRecord) (data : Dict String Value) (curves : List CurveItem)
    (curveSizes : Dict String Int) (name : String) : Prop where
  named : field data "ReferenceCurveID" = .str name
  inBulk : name ∈ curveSizes.map Prod.fst
  measuredDepth : ∃ dataPartition, getDataPartitionFromRecordId record = .ok dataPartition ∧
    MeasuredDepth curves name dataPartition

/-- The name of the reference may be a key, and the record has a partition if it is in the
bulk. -/
structure ReferenceReadable (record : CheckedRecord) (data : Dict String Value)
    (curveSizes : Dict String Int) : Prop where
  hashable : (field data "ReferenceCurveID").hashable = true
  hasId : ∀ name, field data "ReferenceCurveID" = .str name → name ∈ curveSizes.map Prod.fst →
    record.id ≠ none

/-- The reference in the bulk is the name of one of its curves. -/
theorem referenceInBulk_eq (curveSizes : Dict String Int)
    (hhash : (field data "ReferenceCurveID").hashable = true) :
    ∃ reference?, referenceInBulk data curveSizes = .ok reference? ∧ ∀ name,
      reference? = some name ↔
      field data "ReferenceCurveID" = .str name ∧ name ∈ curveSizes.map Prod.fst := by
  unfold referenceInBulk
  cases hfield : field data "ReferenceCurveID" with
  | str s =>
    refine ⟨_, rfl, fun name => ?_⟩
    simp only [Value.str.injEq, ← Dict.contains_iff]
    split
    · constructor
      · rintro ⟨⟩
        exact ⟨rfl, ‹_›⟩
      · rintro ⟨rfl, -⟩
        rfl
    · refine iff_of_false (Option.some_ne_none name).symm ?_
      rintro ⟨rfl, h⟩
      exact absurd h ‹_›
  | list xs => rw [hfield] at hhash; cases hhash
  | dict items => rw [hfield] at hhash; cases hhash
  | none | bool | int | float | uuid | datetime => exact ⟨none, rfl, fun name => by simp⟩

/-- What the check of a reference in the bulk comes to, by the family of its curve. -/
theorem checkReferenceInBulk_eq (fa : FloatArithmetic φ) {name id : String} {ofFamily : Bool}
    (hreference : referenceInBulk data bulkInfo.curves = .ok (some name))
    (hid : record.id = some id)
    (hfamily : isCurveReferenceFamilyMeasuredDepth data name ((split id).headD "") = .ok ofFamily) :
    checkReferenceInBulk fa record data bulkInfo =
      if ofFamily then
        match bulkInfo.reference with
        | some reference =>
          if name = reference.name then
            checkReference fa data .samplingStart .samplingStop reference
          else .ok ()
        | none => .ok ()
      else .ok () := by
  have hpartition : getDataPartitionFromRecordId record = .ok ((split id).headD "") := by
    rw [getDataPartitionFromRecordId, hid]
  rw [checkReferenceInBulk, hreference]
  show (python (getDataPartitionFromRecordId record) >>= _) = _
  rw [hpartition]
  show (python (isCurveReferenceFamilyMeasuredDepth data name _) >>= _) = _
  rw [hfamily]
  rfl

/-- The reference of the record is compared if it is of the family. -/
theorem compared_iff {name id : String} {curveSizes : Dict String Int} {ofFamily : Bool}
    (hfield : field data "ReferenceCurveID" = .str name) (hin : name ∈ curveSizes.map Prod.fst)
    (hid : record.id = some id)
    (hfamily : ofFamily = true ↔ MeasuredDepth curves name ((split id).headD "")) (other : String) :
    Compared record data curves curveSizes other ↔ name = other ∧ ofFamily = true := by
  have hpartition : getDataPartitionFromRecordId record = .ok ((split id).headD "") := by
    rw [getDataPartitionFromRecordId, hid]
  constructor
  · rintro ⟨hnamed, -, partition, hp, hdepth⟩
    rw [hfield, Value.str.injEq] at hnamed
    rw [hpartition, Except.ok.injEq] at hp
    rw [hfamily, hp, hnamed]
    exact ⟨rfl, hdepth⟩
  · rintro ⟨rfl, hof⟩
    exact ⟨hfield, hin, _, hpartition, hfamily.mp hof⟩

/-- The check of the reference, of a record with named curves. -/
theorem checksReference (fa : FloatArithmetic φ) (bulkInfo : BulkInfoForConsistency)
    (hget : Dict.get data "Curves" = some (.list (curveObjects curves)))
    (hreadable : ReferenceReadable record data bulkInfo.curves) :
    ChecksReference fa data .samplingStart .samplingStop bulkInfo.reference
      (Compared record data curves bulkInfo.curves)
      (checkReferenceInBulk fa record data bulkInfo) := by
  obtain ⟨reference?, hreference, hname⟩ := referenceInBulk_eq bulkInfo.curves hreadable.hashable
  cases reference? with
  | none =>
    refine .inl ⟨by rw [checkReferenceInBulk, hreference]; rfl, fun reference _ hcompared => ?_⟩
    cases (hname reference.name).mpr ⟨hcompared.named, hcompared.inBulk⟩
  | some name =>
    obtain ⟨hfield, hin⟩ := (hname name).mp rfl
    obtain ⟨id, hid⟩ := Option.ne_none_iff_exists'.mp (hreadable.hasId name hfield hin)
    obtain ⟨ofFamily, hof, hfamily⟩ :=
      isCurveReferenceFamilyMeasuredDepth_named hget name ((split id).headD "")
    -- what remains are the family of the curve and the column described
    have hsame := compared_iff hfield hin hid hfamily
    rw [checkReferenceInBulk_eq fa hreference hid hof]
    cases ofFamily with
    | false => exact .inl ⟨rfl, fun _ _ hcompared => by cases ((hsame _).mp hcompared).2⟩
    | true =>
      rw [if_pos rfl]
      cases hdescribed : bulkInfo.reference with
      | none => exact .inl ⟨rfl, nofun⟩
      | some reference =>
        by_cases heq : name = reference.name
        · exact .inr ⟨reference, rfl, (hsame _).mpr ⟨heq, rfl⟩, if_pos heq⟩
        · refine .inl ⟨if_neg heq, ?_⟩
          rintro _ ⟨⟩ hcompared
          exact heq ((hsame _).mp hcompared).1

theorem checkReferenceInBulk_raises (fa : FloatArithmetic φ) (bulkInfo : BulkInfoForConsistency)
    (h : ¬ ReferenceReadable record data bulkInfo.curves) :
    ∃ e, checkReferenceInBulk fa record data bulkInfo = .error (.python e) := by
  by_cases hhash : (field data "ReferenceCurveID").hashable = true
  · obtain ⟨reference?, hreference, hname⟩ := referenceInBulk_eq bulkInfo.curves hhash
    have hid : ∃ name, reference? = some name ∧ record.id = none := by
      by_contra hnot
      exact h ⟨hhash, fun name hfield hin hid => hnot ⟨name, (hname name).mpr ⟨hfield, hin⟩, hid⟩⟩
    obtain ⟨name, rfl, hid⟩ := hid
    refine ⟨.attributeError, ?_⟩
    rw [checkReferenceInBulk, hreference]
    show (python (getDataPartitionFromRecordId record) >>= _) = _
    rw [getDataPartitionFromRecordId, hid]
    rfl
  · refine ⟨.typeError, ?_⟩
    unfold checkReferenceInBulk referenceInBulk
    cases hfield : field data "ReferenceCurveID" with
    | list | dict => rfl
    | none | bool | int | float | str | uuid | datetime =>
      rw [hfield] at hhash
      exact absurd rfl hhash

end

end WellLog

end WellboreDdms
