import WellboreDdms.Consistency.Wire

/-!
# The descriptions that survive the wire

JSON has no NaN, no infinities and no instants, and the type of the column is not sent, so
that what pandas finds among the values is all there is.

- `SurvivesWire`: the description that is built from the JSON is the one that was sent.
- `alike_labels_iff`, `alike_values_iff`: which labels of rows and which columns come back.
- `survives_iff`: for which dataframes the description survives.
- `Plain.libraries`: libraries that are as the description expects them, to run it.
-/

namespace WellboreDdms

namespace Wire

open Python

/-! ## What survives -/

/-- The reference: the column asked for, if it is there, or else the index. -/
def Frame.referenceColumn (df : Frame) (referenceName : Option String) : Except PyError Column :=
  match referenceName with
  | some name => if name ≠ "" ∧ name ∈ df.labels then df.columnSeries name else .ok df.index
  | none => .ok df.index

section

variable {Df : Type}

/-- The description has the ends of the column; that of an empty dataframe has none. -/
def HasEnds (df : Frame) (column : Column) (d : ColumnDescribe Df) : Prop :=
  if df.empty then d.startValue = .none ∧ d.endValue = .none
  else d.startValue = column.firstValue ∧ d.endValue = column.lastValue

/-- The description of the reference comes back as it was sent. -/
def SurvivesWire (lib : Libraries Df) (df : Frame) (referenceName : Option String) : Prop :=
  ∀ d column, fromColumn lib df referenceName = .ok d →
    df.referenceColumn referenceName = .ok column →
    ∃ rebuilt, ColumnDescribe.init lib (d.toJson lib) = .ok rebuilt ∧
      rebuilt.eq lib d = true ∧ HasEnds df column rebuilt

end

namespace Column

/-- The values can be told from one another as labels of rows. -/
def KeepsLabels : Column → Prop
  | ints _ | strs _ => True
  | floats values => ∀ x ∈ values, isInfinite x = false
  | timestamps _ => False

/-- The values, and the type of the column, can be told from their JSON. -/
def KeepsValues : Column → Prop
  | ints _ | strs _ => True
  | floats values => (∀ x ∈ values, isInfinite x = false) ∧ ∃ x ∈ values, isFinite x = true
  | timestamps _ => False

end Column

/-- The reference has the ends of the column, also if the index is described in its place. -/
def Column.EndsLike (described column : Column) : Prop :=
  described.firstValue = column.firstValue ∧ described.lastValue = column.lastValue

/-- What the description is of can be told from the JSON, and the description is of the
reference. -/
def Frame.KeptInJson (df : Frame) (referenceName : Option String) : Prop :=
  ∀ series column, df.columnSeries (df.referenceLabel referenceName) = .ok series →
    df.referenceColumn referenceName = .ok column →
    df.index.ends.KeepsLabels ∧
      (df.reducedColumn (df.referenceLabel referenceName) series).ends.KeepsValues ∧
      (df.reducedColumn (df.referenceLabel referenceName) series).EndsLike column

/-! ## Values in JSON -/

section

variable {Df : Type} (lib : Libraries Df)

/-- Values of two lists that `equals` takes for the same. -/
def Libraries.Alike (xs ys : List Scalar) : Prop :=
  List.Forall₂ (fun x y => lib.alike x y = true) xs ys

theorem Libraries.alike_refl (xs : List Scalar) : lib.Alike xs xs :=
  List.forall₂_same.mpr fun x _ => lib.alike_self x

/-- Two readings of the same values are alike if they are so one by one. -/
theorem Libraries.alike_map {α : Type} (f g : α → Scalar) (xs : List α) :
    lib.Alike (xs.map f) (xs.map g) ↔ ∀ x ∈ xs, lib.alike (f x) (g x) = true := by
  rw [Alike, List.forall₂_map_left_iff, List.forall₂_map_right_iff, List.forall₂_same]

theorem viaJson_ints (values : List Int) :
    (Column.ints values).toList.map lib.viaJson = (Column.ints values).toList := by
  rw [Column.toList, List.map_map]
  exact List.map_congr_left fun n _ => lib.viaJson_int n

theorem viaJson_strs (values : List String) :
    (Column.strs values).toList.map lib.viaJson = (Column.strs values).toList := by
  rw [Column.toList, List.map_map]
  exact List.map_congr_left fun s _ => lib.viaJson_str s

/-- Floats are floats, or missing. -/
theorem viaJson_floats_or_none (values : List Number) :
    ∀ x ∈ (Column.floats values).toList.map lib.viaJson, x.isFloat = true ∨ x = .none := by
  simp only [Column.toList, List.forall_mem_map, lib.viaJson_float]
  intro x _
  split
  · exact .inl rfl
  · exact .inr rfl

theorem exists_float_of_finite {values : List Number} (h : ∃ x ∈ values, isFinite x = true) :
    ∃ x ∈ (Column.floats values).toList.map lib.viaJson, x.isFloat = true := by
  obtain ⟨x, hx, hfinite⟩ := h
  refine ⟨lib.viaJson (.float x), List.mem_map_of_mem (List.mem_map_of_mem hx), ?_⟩
  rw [lib.viaJson_float, if_pos hfinite]
  rfl

/-- Without a finite one, nothing but missing values comes back. -/
theorem viaJson_not_finite {values : List Number} (h : ¬ ∃ x ∈ values, isFinite x = true) :
    ∀ x ∈ (Column.floats values).toList.map lib.viaJson, x = .none := by
  simp only [Column.toList, List.forall_mem_map, lib.viaJson_float]
  intro x hx
  exact if_neg fun hfinite => h ⟨x, hx, hfinite⟩

/-- What stands for a missing value is like NaN, and not like an infinity. -/
theorem alike_missing_float {missing : Scalar} (hmissing : missing.isna = true) {x : Number}
    (hx : isFinite x = false) : lib.alike missing (.float x) = true ↔ isInfinite x = false := by
  by_cases hnan : x = none
  · subst hnan
    exact iff_of_true (lib.alike_missing hmissing rfl) rfl
  · have hinfinite : isInfinite x = true := by simp [isInfinite, hnan, hx]
    rw [lib.alike_infinite hmissing hinfinite, hinfinite]
    exact iff_of_false nofun nofun

/-- A float among floats. -/
theorem alike_viaJson_float (x : Number) :
    lib.alike (lib.viaJson (.float x)).orNan (.float x) = true ↔ isInfinite x = false := by
  rw [lib.viaJson_float]
  by_cases hfinite : isFinite x = true
  · rw [if_pos hfinite]
    exact iff_of_true (lib.alike_self _) (by simp [isInfinite, hfinite])
  · rw [if_neg hfinite]
    exact alike_missing_float lib rfl (Bool.eq_false_iff.mpr hfinite)

/-! ## Ends that are found again -/

/-- Labels of rows come back, if they are no instants and no infinities. -/
theorem alike_labels_iff {c : Column} (h : c.toList ≠ []) :
    lib.Alike (lib.stored (c.toList.map lib.viaJson)) (lib.stored c.toList) ↔ c.KeepsLabels := by
  rw [lib.stored_column c h]
  cases c with
  | ints values =>
    rw [viaJson_ints, lib.stored_column _ h]
    exact iff_of_true (lib.alike_refl _) trivial
  | strs values =>
    rw [viaJson_strs, lib.stored_column _ h]
    exact iff_of_true (lib.alike_refl _) trivial
  | floats values =>
    by_cases hfinite : ∃ x ∈ values, isFinite x = true
    · rw [lib.stored_floats (viaJson_floats_or_none lib values)
        (exists_float_of_finite lib hfinite),
        Column.toList, List.map_map, List.map_map, lib.alike_map]
      exact forall₂_congr fun x _ => alike_viaJson_float lib x
    · rw [lib.stored_missing (viaJson_not_finite lib hfinite), Column.toList, List.map_map,
        lib.alike_map]
      refine forall₂_congr fun x hx => ?_
      have hx' : isFinite x = false := Bool.eq_false_iff.mpr fun hx' => hfinite ⟨x, hx, hx'⟩
      rw [Function.comp_apply, lib.viaJson_float, hx', if_neg Bool.false_ne_true]
      exact alike_missing_float lib rfl hx'
  | timestamps values =>
    -- they are texts now
    choose text htext using lib.viaJson_timestamp
    have hjson : (Column.timestamps values).toList.map lib.viaJson =
        (Column.strs (values.map text)).toList := by
      simp only [Column.toList, List.map_map]
      exact List.map_congr_left fun t _ => htext t
    have hne : (Column.strs (values.map text)).toList ≠ [] := by
      rw [← hjson]
      exact mt List.map_eq_nil_iff.mp h
    rw [hjson, lib.stored_column _ hne, Column.toList, Column.toList, List.map_map, lib.alike_map]
    refine iff_of_false (fun hall => ?_) id
    obtain ⟨t, ts, hts⟩ := List.exists_cons_of_ne_nil (mt List.map_eq_nil_iff.mpr h)
    have hsame := hall t (hts ▸ List.mem_cons_self)
    exact absurd (hsame.symm.trans (lib.alike_text (text t) t)) (by decide)

/-- A column comes back with its type, if its ends are no instants and no infinities, and not
all of them are missing. -/
theorem alike_values_iff {c : Column} (h : c.toList ≠ []) :
    lib.dtype (c.toList.map lib.viaJson) = lib.dtype c.toList ∧
        lib.Alike (lib.stored (c.toList.map lib.viaJson)) (lib.stored c.toList) ↔
      c.KeepsValues := by
  rw [alike_labels_iff lib h]
  cases c with
  | ints values =>
    rw [viaJson_ints]
    exact iff_of_true ⟨rfl, trivial⟩ trivial
  | strs values =>
    rw [viaJson_strs]
    exact iff_of_true ⟨rfl, trivial⟩ trivial
  | floats values =>
    rw [lib.dtype_column _ h, and_comm]
    refine and_congr_right fun _ => ?_
    by_cases hfinite : ∃ x ∈ values, isFinite x = true
    · rw [lib.dtype_floats (viaJson_floats_or_none lib values) (exists_float_of_finite lib hfinite)]
      exact iff_of_true rfl hfinite
    · rw [lib.dtype_missing (viaJson_not_finite lib hfinite)]
      have hne : "object" ≠ "float64" := by decide
      exact iff_of_false hne hfinite
  | timestamps values => exact iff_of_false And.right id

/-- What comes back is what was sent. -/
theorem stored_of_keepsValues {c : Column} (hne : c.toList ≠ []) (h : c.KeepsValues) :
    lib.stored (c.toList.map lib.viaJson) = c.toList := by
  cases c with
  | ints values => rw [viaJson_ints, lib.stored_column _ hne]
  | strs values => rw [viaJson_strs, lib.stored_column _ hne]
  | floats values =>
    obtain ⟨hinfinite, hfinite⟩ := h
    rw [lib.stored_floats (viaJson_floats_or_none lib values) (exists_float_of_finite lib hfinite),
      Column.toList, List.map_map, List.map_map]
    refine List.map_congr_left fun x hx => ?_
    have hx' := hinfinite x hx
    rw [Function.comp_apply, Function.comp_apply, lib.viaJson_float]
    rcases x with _ | _ | _ | q
    · rfl
    · cases hx'
    · cases hx'
    · rfl
  | timestamps values => exact h.elim

/-! ## The description that is built from the JSON -/

/-- The JSON gives the fields, with the split of the JSON. -/
theorem given_toJson (d : ColumnDescribe Df) :
    Given (d.toJson lib) { d.toFields with startEnd := d.startEnd.toJson lib } :=
  ⟨rfl, rfl, rfl, rfl, rfl, .inl rfl⟩

theorem toJson_oneColumn (index : List Scalar) (name : String) (values : List Scalar) :
    (oneColumn index name values).toJson lib =
      oneColumn (index.map lib.viaJson) name (values.map lib.viaJson) := by
  simp [Split.toJson, oneColumn, Function.comp_def]

section

variable {df : Frame} {name : String} {series : Column} {d : ColumnDescribe Df}

/-- The description that is built from the JSON is of the ends in the JSON. -/
theorem init_toJson (h : df.empty = false) (hseries : df.columnSeries name = .ok series)
    (hd : d.toFields = df.fields name series) :
    ∃ rebuilt, ColumnDescribe.init lib (d.toJson lib) = .ok rebuilt ∧
      Describes lib { df.fields name series with startEnd := (df.startEnd name series).toJson lib }
        ((df.reducedColumn name series).ends.toList.map lib.viaJson) rebuilt := by
  have hgiven := given_toJson lib d
  rw [hd] at hgiven
  refine init_column lib hgiven (toJson_oneColumn lib _ _ _) rfl ?_ ?_
  · exact mt List.map_eq_nil_iff.mp (Column.ends_ne_nil (index_ne_nil h))
  · rw [List.length_map, List.length_map, length_ends hseries]

/-- Descriptions of one column differ by the labels of the rows, the values and their type. -/
theorem describes_eq_iff {fields : Fields} {index values index' values' : List Scalar}
    {rebuilt : ColumnDescribe Df}
    (hsplit : fields.startEnd = oneColumn index fields.name values)
    (hd : Describes lib fields values d)
    (hrebuilt : Describes lib { fields with startEnd := oneColumn index' fields.name values' }
      values' rebuilt) :
    rebuilt.eq lib d = true ↔ lib.Alike (lib.stored index') (lib.stored index) ∧
      lib.dtype values' = lib.dtype values ∧
        lib.Alike (lib.stored values') (lib.stored values) := by
  have hconstructed := hd.constructed
  rw [hsplit] at hconstructed
  have hequals := lib.equals_column hrebuilt.constructed hconstructed
  simp [ColumnDescribe.eq, hd.described, hrebuilt.described, hequals, Libraries.Alike]

/-- **The rebuilt description** is equal and has the ends of the reference exactly if these are
kept. -/
theorem rebuilt_iff (h : df.empty = false) (hseries : df.columnSeries name = .ok series)
    (column : Column) {rebuilt : ColumnDescribe Df}
    (hd : Describes lib (df.fields name series) (df.reducedColumn name series).ends.toList d)
    (hrebuilt : Describes lib
      { df.fields name series with startEnd := (df.startEnd name series).toJson lib }
      ((df.reducedColumn name series).ends.toList.map lib.viaJson) rebuilt) :
    rebuilt.eq lib d = true ∧ HasEnds df column rebuilt ↔
      df.index.ends.KeepsLabels ∧ (df.reducedColumn name series).ends.KeepsValues ∧
        (df.reducedColumn name series).EndsLike column := by
  have hends := Column.ends_ne_nil (reducedColumn_ne_nil h hseries)
  have hjson : (df.startEnd name series).toJson lib =
      oneColumn (df.index.ends.toList.map lib.viaJson) name
        ((df.reducedColumn name series).ends.toList.map lib.viaJson) := toJson_oneColumn lib _ _ _
  have hequal := describes_eq_iff lib rfl hd (hjson ▸ hrebuilt)
  rw [alike_values_iff lib hends,
    alike_labels_iff lib (Column.ends_ne_nil (index_ne_nil h))] at hequal
  rw [hequal, and_assoc]
  refine and_congr_right fun _ => and_congr_right fun hkeeps => ?_
  rw [HasEnds, if_neg (by rw [h]; exact Bool.false_ne_true), hrebuilt.startValue, hrebuilt.endValue,
    stored_of_keepsValues lib hends hkeeps, Column.toList_ends, headD_firstAndLast,
    getLastD_firstAndLast]
  rfl

end

/-- An empty dataframe has an empty description. -/
theorem survives_of_empty {df : Frame} (h : df.empty = true) (referenceName : Option String) :
    SurvivesWire lib df referenceName := by
  intro d column hd _
  obtain ⟨startEndDf, hconstruct, hempty, hequals⟩ := lib.construct_empty
  have hdescribed := fromColumn_empty lib h referenceName hconstruct hempty
  obtain rfl := Except.ok.inj (hdescribed.symm.trans hd)
  refine ⟨.ofEmpty startEndDf, init_empty lib (given_toJson lib _) hconstruct hempty, ?_, ?_⟩
  · simp [ColumnDescribe.eq, ColumnDescribe.ofEmpty, hequals]
  · rw [HasEnds, if_pos h]
    exact ⟨rfl, rfl⟩

/-- **The description survives the wire** exactly if the dataframe is empty, or the labels of its
ends and the values of its ends can be told from their JSON: there is no instant and no infinity
among them, and a column of floats has an end that is not missing. -/
theorem survives_iff (df : Frame) (referenceName : Option String) :
    SurvivesWire lib df referenceName ↔ df.empty = true ∨ df.KeptInJson referenceName := by
  cases h : df.empty with
  | true => exact iff_of_true (survives_of_empty lib h referenceName) (.inl rfl)
  | false =>
    rw [or_iff_right Bool.false_ne_true]
    constructor
    · intro hsurvives series column hseries hcolumn
      obtain ⟨d, hd, hdescribes⟩ := fromColumn_series lib h hseries
      obtain ⟨rebuilt, hrebuilt, hequal⟩ := hsurvives d column hd hcolumn
      obtain ⟨rebuilt', hrebuilt', hdescribes'⟩ := init_toJson lib h hseries hdescribes.described
      obtain rfl := Except.ok.inj (hrebuilt'.symm.trans hrebuilt)
      exact (rebuilt_iff lib h hseries column hdescribes hdescribes').mp hequal
    · intro hkept d column hd hcolumn
      cases hseries : df.columnSeries (df.referenceLabel referenceName) with
      | error e =>
        -- the description is not built
        rw [fromColumn, h, if_neg Bool.false_ne_true] at hd
        dsimp only at hd
        rw [hseries] at hd
        cases hd
      | ok series =>
        obtain ⟨d', hd', hdescribes⟩ := fromColumn_series lib h hseries
        obtain rfl := Except.ok.inj (hd'.symm.trans hd)
        obtain ⟨rebuilt, hrebuilt, hdescribes'⟩ := init_toJson lib h hseries hdescribes.described
        exact ⟨rebuilt, hrebuilt, (rebuilt_iff lib h hseries column hdescribes hdescribes').mpr
          (hkept series column hseries hcolumn)⟩

end

/-! ## Two columns -/

namespace Plain

/-- A column as pandas stores it. -/
structure Series where
  dtype : String
  values : List Scalar
  deriving DecidableEq

/-- A dataframe as pandas stores it. -/
structure DataFrame where
  index : Series
  columns : List (String × Series)

/-- An integer. -/
def isInt : Scalar → Bool
  | .int _ => true
  | _ => false

/-- A timestamp. -/
def isTimestamp : Scalar → Bool
  | .timestamp _ => true
  | _ => false

/-- The type of values that are of one type, or floats of which some are missing. -/
def infer (values : List Scalar) : Series :=
  if (values.any Scalar.isFloat) && values.all fun x => x.isFloat || x.isna then
    ⟨"float64", values.map Scalar.orNan⟩
  else if values ≠ [] ∧ values.all isInt then ⟨"int64", values⟩
  else if values ≠ [] ∧ values.all isTimestamp then ⟨"datetime64[ns]", values⟩
  else ⟨"object", values⟩

/-- Columns of the values, row by row. -/
def construct (split : Split) : DataFrame where
  index := infer split.index
  columns := split.columns.zipIdx.map fun (name, j) =>
    (name, infer (split.data.map fun row => row.getD j .none))

/-- A frame without rows or without columns. -/
def empty (df : DataFrame) : Bool := df.index.values.isEmpty || df.columns.isEmpty

/-- The values of a column. -/
def tolist (df : DataFrame) (name : String) : Except PyError (List Scalar) :=
  match df.columns.find? fun p => p.1 = name with
  | some p => .ok p.2.values
  | none => .error (.keyError name)

/-- Equal, or both missing. -/
def alike (x y : Scalar) : Bool := x = y || (x.isna && y.isna)

/-- The same of lists. -/
def sameValues (xs ys : List Scalar) : Bool :=
  decide (List.Forall₂ (fun x y => alike x y = true) xs ys)

/-- Equal labels, dtypes and values. -/
def equals (df other : DataFrame) : Bool :=
  sameValues df.index.values other.index.values &&
    decide (List.Forall₂ (fun p q => p.1 = q.1 ∧ p.2.dtype = q.2.dtype ∧
      sameValues p.2.values q.2.values = true) df.columns other.columns)

/-- A text. -/
def readText : Option Argument → Except PyError String
  | some (.str s) => .ok s
  | _ => .error .valueError

/-- A frame in its split form. -/
def readSplit : Option Argument → Except PyError Split
  | some (.split frame) => .ok frame
  | _ => .error .valueError

/-- A text, or none. -/
def readOptionalText : Option Argument → Except PyError (Option String)
  | none | some .none => .ok none
  | some (.str s) => .ok (some s)
  | _ => .error .valueError

/-- A flag, false if it is not given. -/
def readFlag : Option Argument → Except PyError Bool
  | none => .ok false
  | some (.bool b) => .ok b
  | _ => .error .valueError

/-- A monotonicity, or none. -/
def readMonotonicity : Option Argument → Except PyError (Option Monotonicity)
  | none | some .none => .ok none
  | some (.str s) =>
    if s = monotonicityValue .increasing then .ok (some .increasing)
    else if s = monotonicityValue .decreasing then .ok (some .decreasing)
    else .error .valueError
  | _ => .error .valueError

/-- The fields, read one after the other. -/
def validate (data : Dict String Argument) : Except PyError Fields := do
  let name ← readText (Dict.get data "name")
  let startEnd ← readSplit (Dict.get data "startEnd")
  let monotonicity ← readMonotonicity (Dict.get data "monotonicity")
  let hasDuplicate ← readFlag (Dict.get data "hasDuplicate")
  let hasNan ← readFlag (Dict.get data "hasNan")
  let dataType ← readOptionalText (Dict.get data "dataType")
  return ⟨name, startEnd, monotonicity, hasDuplicate, hasNan, dataType⟩

/-- The instants of the dataframe below, as pydantic prints them. -/
def instantText (t : Timestamp) : String :=
  if t = 0 then "1970-01-01T00:00:00" else "1970-01-02T00:00:00"

/-- What JSON makes of a value: null for what is not finite, a text for a timestamp. -/
def viaJson : Scalar → Scalar
  | .float x => if isFinite x then .float x else .none
  | .timestamp t => .str (instantText t)
  | x => x

/-- Fields that were given are read as they are. -/
theorem validate_of_given {data : Dict String Argument} {fields : Fields} (h : Given data fields) :
    validate data = .ok fields := by
  have hmonotonicity : readMonotonicity
      (some (optionalText (fields.monotonicity.map monotonicityValue))) =
        .ok fields.monotonicity := by
    match fields.monotonicity with
    | none => rfl
    | some .increasing => rfl
    | some .decreasing => rfl
  have htype : readOptionalText (Dict.get data "dataType") = .ok fields.dataType := by
    rcases h.dataType with hget | ⟨hget, hnone⟩
    · rw [hget]
      cases fields.dataType <;> rfl
    · rw [hget, hnone]
      rfl
  rw [validate, h.name, h.startEnd, h.monotonicity, h.hasDuplicate, h.hasNan, htype, hmonotonicity]
  rfl

theorem infer_floats {values : List Scalar} (hall : ∀ x ∈ values, x.isFloat = true ∨ x = .none)
    (hsome : ∃ x ∈ values, x.isFloat = true) :
    infer values = ⟨"float64", values.map Scalar.orNan⟩ := by
  refine if_pos (Bool.and_eq_true_iff.mpr ⟨List.any_eq_true.mpr hsome, List.all_eq_true.mpr ?_⟩)
  intro x hx
  rcases hall x hx with hfloat | rfl
  · rw [hfloat]
    rfl
  · rfl

/-- Without floats, the values are kept. -/
theorem infer_of_no_float {values : List Scalar} (h : ∀ x ∈ values, x.isFloat = false) :
    infer values = if values ≠ [] ∧ values.all isInt then ⟨"int64", values⟩
      else if values ≠ [] ∧ values.all isTimestamp then ⟨"datetime64[ns]", values⟩
      else ⟨"object", values⟩ := by
  refine if_neg fun hfloat => ?_
  obtain ⟨x, hx, hx'⟩ := List.any_eq_true.mp (Bool.and_eq_true_iff.mp hfloat).1
  cases (h x hx).symm.trans hx'

theorem infer_missing {values : List Scalar} (h : ∀ x ∈ values, x = .none) :
    infer values = ⟨"object", values⟩ := by
  have hnone : ∀ {p : Scalar → Bool}, p .none = false → ¬ (values ≠ [] ∧ values.all p = true) := by
    rintro p hp ⟨hne, hall⟩
    obtain ⟨x, xs, rfl⟩ := List.exists_cons_of_ne_nil hne
    have hx := List.all_eq_true.mp hall x List.mem_cons_self
    rw [h x List.mem_cons_self, hp] at hx
    cases hx
  rw [infer_of_no_float fun x hx => by rw [h x hx]; rfl, if_neg (hnone rfl), if_neg (hnone rfl)]

theorem infer_column {c : Column} (h : c.toList ≠ []) : infer c.toList = ⟨c.dtype, c.toList⟩ := by
  cases c with
  | ints values =>
    rw [infer_of_no_float (by simp [Column.toList, Scalar.isFloat]), if_pos]
    · rfl
    · exact ⟨h, by simp [Column.toList, isInt]⟩
  | floats values =>
    obtain ⟨x, xs, rfl⟩ := List.exists_cons_of_ne_nil (mt List.map_eq_nil_iff.mpr h)
    have hfloat : ∀ y ∈ (Column.floats (x :: xs)).toList, y.isFloat = true ∨ y = .none := by
      simp [Column.toList, Scalar.isFloat]
    rw [infer_floats hfloat ⟨.float x, List.mem_cons_self, rfl⟩]
    simp [Column.toList, Column.dtype, Scalar.orNan]
  | strs values =>
    obtain ⟨s, ss, rfl⟩ := List.exists_cons_of_ne_nil (mt List.map_eq_nil_iff.mpr h)
    rw [infer_of_no_float (by simp [Column.toList, Scalar.isFloat]),
      if_neg (by simp [Column.toList, isInt]), if_neg (by simp [Column.toList, isTimestamp])]
    rfl
  | timestamps values =>
    obtain ⟨t, ts, rfl⟩ := List.exists_cons_of_ne_nil (mt List.map_eq_nil_iff.mpr h)
    rw [infer_of_no_float (by simp [Column.toList, Scalar.isFloat]),
      if_neg (by simp [Column.toList, isInt]), if_pos]
    · rfl
    · exact ⟨h, by simp [Column.toList, isTimestamp]⟩

theorem construct_oneColumn (index : List Scalar) (name : String) (values : List Scalar) :
    construct (oneColumn index name values) = ⟨infer index, [(name, infer values)]⟩ := by
  simp [construct, oneColumn, Function.comp_def]

theorem infer_ne_nil {values : List Scalar} (h : values ≠ []) : (infer values).values ≠ [] := by
  rw [infer]
  split
  · exact mt List.map_eq_nil_iff.mp h
  · split
    · exact h
    · split
      · exact h
      · exact h

/-- A missing value is not like an infinite one. -/
theorem alike_infinite {x : Scalar} {y : Number} (hx : x.isna = true)
    (hy : isInfinite y = true) : alike x (.float y) = false := by
  have hne : x ≠ .float y := by
    rintro rfl
    match y with
    | none => cases hy
  have hna : (Scalar.float y).isna = false := by
    match y with
    | some none => rfl
    | some (some none) => rfl
  simp [alike, hne, hna]

/-- Libraries that are as the description expects them. -/
def libraries : Libraries DataFrame where
  construct split := .ok (construct split)
  empty := empty
  tolist := tolist
  restore df _ _ := .ok df
  equals := equals
  validate := validate
  viaJson := viaJson
  stored values := (infer values).values
  dtype values := (infer values).dtype
  alike := alike
  construct_empty := ⟨_, rfl, rfl, by decide⟩
  construct_column := by
    intro index values name hindex _
    refine ⟨_, rfl, ?_, ?_⟩
    · rw [construct_oneColumn]
      simp [empty, infer_ne_nil hindex]
    · rw [construct_oneColumn]
      simp [tolist]
  equals_column := by
    intro index values index' values' name df df' hdf hdf'
    obtain rfl := Except.ok.inj hdf
    obtain rfl := Except.ok.inj hdf'
    rw [construct_oneColumn, construct_oneColumn]
    simp [equals, sameValues]
  stored_column c h := by rw [infer_column h]
  dtype_column c h := by rw [infer_column h]
  stored_floats hall hsome := by rw [infer_floats hall hsome]
  dtype_floats hall hsome := by rw [infer_floats hall hsome]
  stored_missing h := by rw [infer_missing h]
  dtype_missing h := by rw [infer_missing h]
  alike_self x := by simp [alike]
  alike_missing hx hy := by simp [alike, hx, hy]
  alike_infinite hx hy := alike_infinite hx hy
  alike_text s t := rfl
  validate_given := validate_of_given
  viaJson_int _ := rfl
  viaJson_str _ := rfl
  viaJson_float _ := rfl
  viaJson_timestamp t := ⟨_, rfl⟩

end Plain

/-- Two rows, with a column of instants and one of floats. -/
def twoRows : Frame where
  index := .ints [0, 1]
  columns := [("T", .timestamps [0, 86400000000000]), ("MD", .floats [some ((1 : ℚ) : WithTop ℚ),
    none])]
  lengths := by decide

/-- A column of floats comes back, with its NaN. -/
theorem survives_floats : SurvivesWire Plain.libraries twoRows (some "MD") := by
  refine (survives_iff Plain.libraries twoRows (some "MD")).mpr (.inr ?_)
  intro series column hseries hcolumn
  obtain rfl := Except.ok.inj hseries
  obtain rfl := Except.ok.inj hcolumn
  refine ⟨trivial, ⟨?_, some ((1 : ℚ) : WithTop ℚ), List.mem_cons_self, rfl⟩, rfl, rfl⟩
  intro x hx
  rcases List.mem_cons.mp hx with rfl | hx
  · rfl
  · cases List.mem_singleton.mp hx
    rfl

/-- **An instant comes back as text**, since its type is not sent. -/
theorem instants_not_survive : ¬ SurvivesWire Plain.libraries twoRows (some "T") := by
  intro h
  obtain ⟨rebuilt, hrebuilt, -, hends⟩ := h _ (.timestamps [0, 86400000000000]) rfl rfl
  obtain rfl := Except.ok.inj hrebuilt
  rw [HasEnds, if_neg (by decide)] at hends
  exact absurd hends.1 (by decide)

end Wire

end WellboreDdms
