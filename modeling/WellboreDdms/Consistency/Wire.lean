import WellboreDdms.Consistency.Paths

/-!
# The description of a column as the worker sends it

The worker describes the reference of a bulk by `from_column` and sends the description as
JSON; the service builds it anew from that JSON.

- `Scalar`, `Column`, `Frame`: the values of a dataframe, by their types.
- `Split`, `Fields`: `to_dict('split')`, and the fields of the description.
- `Libraries`: what the description asks of pandas and of pydantic, and what is known of them.
- `ColumnDescribe.init`, `fromColumn`, `ColumnDescribe.toJson`: the description, the way it is
  built and the JSON of it.
- `view_fromColumn`: the checks read of it what they read of the dataframe.
-/

namespace WellboreDdms

namespace Wire

open Python

/-- An instant of a dataframe, in nanoseconds since the epoch. -/
abbrev Timestamp := Int

/-- What `tolist` makes of the values of a dataframe. -/
inductive Scalar where
  | none
  | int (n : Int)
  | float (x : Number)
  | str (s : String)
  | timestamp (t : Timestamp)
  deriving DecidableEq

/-- A column or an index, by the type of its values. -/
inductive Column where
  | ints (values : List Int)
  | floats (values : List Number)
  | strs (values : List String)
  | timestamps (values : List Timestamp)

namespace Column

/-- The values. -/
def toList : Column → List Scalar
  | ints values => values.map .int
  | floats values => values.map .float
  | strs values => values.map .str
  | timestamps values => values.map .timestamp

/-- `str(dtype)`; narrower numbers have types of their own. -/
def dtype : Column → String
  | ints _ => "int64"
  | floats _ => "float64"
  | strs _ => "object"
  | timestamps _ => "datetime64[ns]"

/-- pandas' `is_monotonic_increasing`. -/
def isMonotonicIncreasing : Column → Bool
  | ints values => values.Pairwise (· ≤ ·)
  | floats values => Increasing values
  | strs values => values.Pairwise (· ≤ ·)
  | timestamps values => values.Pairwise (· ≤ ·)

/-- pandas' `is_monotonic_decreasing`. -/
def isMonotonicDecreasing : Column → Bool
  | ints values => values.Pairwise (· ≥ ·)
  | floats values => Decreasing values
  | strs values => values.Pairwise (· ≥ ·)
  | timestamps values => values.Pairwise (· ≥ ·)

/-- The first value. -/
def firstValue (c : Column) : Scalar := c.toList.headD .none

/-- The last value. -/
def lastValue (c : Column) : Scalar := c.toList.getLastD .none

/-- No value occurs twice. -/
def isUnique (c : Column) : Bool := c.toList.Nodup

/-- A float is missing. -/
def hasnans (c : Column) : Bool := .float none ∈ c.toList

end Column

/-- `iloc[[0, -1]]`, if there is more than one row. -/
def firstAndLast {α : Type} : List α → List α
  | x :: y :: xs => [x, (y :: xs).getLast (List.cons_ne_nil y xs)]
  | xs => xs

/-- The first and the last value, in a column of the same type. -/
def Column.ends : Column → Column
  | .ints values => .ints (firstAndLast values)
  | .floats values => .floats (firstAndLast values)
  | .strs values => .strs (firstAndLast values)
  | .timestamps values => .timestamps (firstAndLast values)

/-- A dataframe with labels that are texts; each column has a value for each label of the
index. -/
structure Frame where
  index : Column
  columns : List (String × Column)
  lengths : ∀ p ∈ columns, p.2.toList.length = index.toList.length

/-- `to_dict('split')`. -/
structure Split where
  index : List Scalar
  columns : List String
  data : List (List Scalar)

/-- One column under its name. -/
def oneColumn (index : List Scalar) (name : String) (values : List Scalar) : Split :=
  ⟨index, [name], values.map fun x => [x]⟩

namespace Scalar

/-- A float, which may be missing. -/
def isFloat : Scalar → Bool
  | float _ => true
  | _ => false

/-- `isna` -/
def isna : Scalar → Bool
  | none | float .none => true
  | _ => false

/-- Among floats, a missing value is NaN. -/
def orNan : Scalar → Scalar
  | none => float .none
  | x => x

end Scalar

/-- Neither missing nor infinite. -/
def isFinite : Number → Bool
  | some (some (some _)) => true
  | _ => false

/-- Infinite. -/
def isInfinite (x : Number) : Bool := x ≠ none && !isFinite x

/-! ## The description -/

/-- What the fields of the description are set from. -/
inductive Argument where
  | none
  | bool (b : Bool)
  | str (s : String)
  | split (frame : Split)

/-- The text of a monotonicity. -/
def monotonicityValue : Monotonicity → String
  | .increasing => "increasing"
  | .decreasing => "decreasing"

/-- The fields of the model. -/
structure Fields where
  name : String
  startEnd : Split
  monotonicity : Option Monotonicity
  hasDuplicate : Bool
  hasNan : Bool
  dataType : Option String

/-- An optional argument. -/
def optionalText : Option String → Argument
  | none => .none
  | some s => .str s

/-- The arguments give these fields: a type that is not given is none. -/
structure Given (data : Dict String Argument) (fields : Fields) : Prop where
  name : Dict.get data "name" = some (.str fields.name)
  startEnd : Dict.get data "startEnd" = some (.split fields.startEnd)
  monotonicity : Dict.get data "monotonicity" =
    some (optionalText (fields.monotonicity.map monotonicityValue))
  hasDuplicate : Dict.get data "hasDuplicate" = some (.bool fields.hasDuplicate)
  hasNan : Dict.get data "hasNan" = some (.bool fields.hasNan)
  dataType : Dict.get data "dataType" = some (optionalText fields.dataType) ∨
    Dict.get data "dataType" = none ∧ fields.dataType = none

/-! ## pandas and pydantic -/

/-- What the description asks of pandas and of pydantic, and what is known of their answers. A
dataframe of pandas is some `Df`. -/
structure Libraries (Df : Type) where
  /-- `pd.DataFrame(**split)` -/
  construct : Split → Except PyError Df
  /-- `df.empty` -/
  empty : Df → Bool
  /-- `df[name].tolist()` -/
  tolist : Df → String → Except PyError (List Scalar)
  /-- `df[name] = df[name].astype(dtype)` -/
  restore : Df → String → String → Except PyError Df
  /-- `df.equals(other)` -/
  equals : Df → Df → Bool
  /-- `BaseModel.__init__(**data)` -/
  validate : Dict String Argument → Except PyError Fields
  /-- A value that is written as JSON, and read. -/
  viaJson : Scalar → Scalar
  /-- What a column that is made of a list holds, and its `dtype`. -/
  stored : List Scalar → List Scalar
  dtype : List Scalar → String
  /-- Two values that `equals` takes for the same. -/
  alike : Scalar → Scalar → Bool
  construct_empty : ∃ df, construct ⟨[], [], []⟩ = .ok df ∧ empty df = true ∧ equals df df = true
  construct_column : ∀ {index values : List Scalar} (name : String), index ≠ [] →
    index.length = values.length → ∃ df, construct (oneColumn index name values) = .ok df ∧
      empty df = false ∧ tolist df name = .ok (stored values)
  /-- The labels of the rows may differ in type, the columns may not. -/
  equals_column : ∀ {index values index' values' : List Scalar} {name : String} {df df' : Df},
    construct (oneColumn index name values) = .ok df →
    construct (oneColumn index' name values') = .ok df' →
    (equals df df' = true ↔ List.Forall₂ (fun x y => alike x y = true) (stored index)
      (stored index') ∧ dtype values = dtype values' ∧
      List.Forall₂ (fun x y => alike x y = true) (stored values) (stored values'))
  /-- The constructor is the inverse of `to_dict` on the values of one type. -/
  stored_column : ∀ c : Column, c.toList ≠ [] → stored c.toList = c.toList
  dtype_column : ∀ c : Column, c.toList ≠ [] → dtype c.toList = c.dtype
  /-- Floats of which some are missing are a column of floats. -/
  stored_floats : ∀ {values : List Scalar}, (∀ x ∈ values, x.isFloat = true ∨ x = .none) →
    (∃ x ∈ values, x.isFloat = true) → stored values = values.map Scalar.orNan
  dtype_floats : ∀ {values : List Scalar}, (∀ x ∈ values, x.isFloat = true ∨ x = .none) →
    (∃ x ∈ values, x.isFloat = true) → dtype values = "float64"
  /-- Nothing but missing values are a column of objects. -/
  stored_missing : ∀ {values : List Scalar}, (∀ x ∈ values, x = .none) → stored values = values
  dtype_missing : ∀ {values : List Scalar}, (∀ x ∈ values, x = .none) → dtype values = "object"
  alike_self : ∀ x, alike x x = true
  alike_missing : ∀ {x y : Scalar}, x.isna = true → y.isna = true → alike x y = true
  alike_infinite : ∀ {x : Scalar} {y : Number}, x.isna = true → isInfinite y = true →
    alike x (.float y) = false
  alike_text : ∀ (s : String) (t : Timestamp), alike (.str s) (.timestamp t) = false
  /-- An argument that is no field is ignored. -/
  validate_given : ∀ {data : Dict String Argument} {fields : Fields}, Given data fields →
    validate data = .ok fields
  /-- JSON has no NaN, no infinities and no instants. -/
  viaJson_int : ∀ n, viaJson (.int n) = .int n
  viaJson_str : ∀ s, viaJson (.str s) = .str s
  viaJson_float : ∀ x, viaJson (.float x) = if isFinite x then .float x else .none
  viaJson_timestamp : ∀ t, ∃ text, viaJson (.timestamp t) = .str text

/-! ## The constructor -/

/-- `ColumnDescribe`, with its private attributes. -/
structure ColumnDescribe (Df : Type) extends Fields where
  startValue : Scalar
  endValue : Scalar
  startEndDf : Df

section

variable {Df : Type} (lib : Libraries Df)

namespace ColumnDescribe

/-- The type of the column, if it is given, is restored. -/
def restoreType (fields : Fields) (df : Df) : Except PyError Df :=
  match fields.dataType with
  | none => .ok df
  | some dataType => if dataType = "" then .ok df else lib.restore df fields.name dataType

/-- `__init__` -/
def init (data : Dict String Argument) : Except PyError (ColumnDescribe Df) := do
  let fields ← lib.validate data
  let df ← lib.construct fields.startEnd
  if lib.empty df then
    return { toFields := fields, startValue := .none, endValue := .none, startEndDf := df }
  else
    let df ← restoreType lib fields df
    let values ← lib.tolist df fields.name
    return {
      toFields := fields
      startValue := values.headD .none
      endValue := values.getLastD .none
      startEndDf := df }

/-- `__eq__` -/
def eq (d other : ColumnDescribe Df) : Bool :=
  lib.equals d.startEndDf other.startEndDf && d.name = other.name &&
    d.monotonicity = other.monotonicity && d.hasDuplicate = other.hasDuplicate &&
    d.hasNan = other.hasNan && d.dataType = other.dataType

end ColumnDescribe

end

/-! ## `from_column` -/

/-- What `from_column` makes of the two flags. -/
def Column.monotonicity (c : Column) : Option Monotonicity :=
  if c.isMonotonicIncreasing then some .increasing
  else if c.isMonotonicDecreasing then some .decreasing
  else none

namespace Frame

variable (df : Frame)

/-- The labels of the columns. -/
def labels : List String := df.columns.map Prod.fst

/-- Without rows, or without columns. -/
def empty : Bool := df.index.toList.isEmpty || df.columns.isEmpty

/-- The name of the reference: that of the index, if the column asked for is not there. -/
def referenceLabel (referenceName : Option String) : String :=
  match referenceName with
  | some name => if name ≠ "" ∧ name ∈ df.labels then name else wdmsIndexName
  | none => wdmsIndexName

/-- `column_series`; a label that is there twice gives a dataframe, which has no order. -/
def columnSeries (name : String) : Except PyError Column :=
  match df.columns.filter fun p => p.1 = name with
  | [] => .ok df.index
  | [p] => .ok p.2
  | _ => .error .attributeError

/-- The column of `reduced_df`, where the index replaces a column that is named like it. -/
def reducedColumn (name : String) (series : Column) : Column :=
  if name = wdmsIndexName then df.index else series

/-- `reduced_df[[name]].to_dict('split')` -/
def startEnd (name : String) (series : Column) : Split :=
  oneColumn df.index.ends.toList name (df.reducedColumn name series).ends.toList

end Frame

/-- The arguments `from_column` passes; `dType` is not the name of the field. -/
def arguments (name : String) (startEnd : Split) (series : Column) : Dict String Argument :=
  [("name", .str name), ("startEnd", .split startEnd),
   ("monotonicity", optionalText (series.monotonicity.map monotonicityValue)),
   ("hasDuplicate", .bool !series.isUnique), ("hasNan", .bool series.hasnans),
   ("dType", .str series.dtype)]

section

variable {Df : Type} (lib : Libraries Df)

/-- `ColumnDescribe.from_column` -/
def fromColumn (df : Frame) (referenceName : Option String) : Except PyError (ColumnDescribe Df) :=
  if df.empty then
    -- `pd.DataFrame()` and `pd.Series()`
    ColumnDescribe.init lib (arguments wdmsIndexName ⟨[], [], []⟩ (.strs []))
  else do
    let name := df.referenceLabel referenceName
    let series ← df.columnSeries name
    ColumnDescribe.init lib (arguments name (df.startEnd name series) series)

/-! ## JSON -/

/-- The frame as JSON gives it back. -/
def Split.toJson (split : Split) : Split where
  index := split.index.map lib.viaJson
  columns := split.columns
  data := split.data.map fun row => row.map lib.viaJson

/-- The members of the JSON object; the private attributes are not sent. -/
def ColumnDescribe.toJson (d : ColumnDescribe Df) : Dict String Argument :=
  [("name", .str d.name), ("startEnd", .split (d.startEnd.toJson lib)),
   ("monotonicity", optionalText (d.monotonicity.map monotonicityValue)),
   ("hasDuplicate", .bool d.hasDuplicate), ("hasNan", .bool d.hasNan),
   ("dataType", optionalText d.dataType)]

end

/-! ## First and last rows -/

section

variable {α β : Type}

theorem firstAndLast_map (f : α → β) (xs : List α) :
    firstAndLast (xs.map f) = (firstAndLast xs).map f := by
  match xs with
  | [] => rfl
  | [_] => rfl
  | x :: y :: xs =>
    show [f x, ((y :: xs).map f).getLast _] = [f x, f _]
    rw [List.getLast_map]

theorem length_firstAndLast (xs : List α) : (firstAndLast xs).length = min xs.length 2 := by
  match xs with
  | [] => rfl
  | [_] => rfl
  | _ :: _ :: xs =>
    show 2 = min (xs.length + 2) 2
    omega

theorem firstAndLast_ne_nil {xs : List α} (h : xs ≠ []) : firstAndLast xs ≠ [] := by
  match xs with
  | [_] => exact List.cons_ne_nil _ _
  | _ :: _ :: _ => exact List.cons_ne_nil _ _

theorem headD_firstAndLast (xs : List α) (x : α) : (firstAndLast xs).headD x = xs.headD x := by
  match xs with
  | [] => rfl
  | [_] => rfl
  | _ :: _ :: _ => rfl

theorem getLastD_firstAndLast (xs : List α) (x : α) :
    (firstAndLast xs).getLastD x = xs.getLastD x := by
  match xs with
  | [] => rfl
  | [_] => rfl
  | a :: y :: xs =>
    rw [firstAndLast, List.getLastD_cons, List.getLastD_cons, List.getLastD_cons,
      List.getLastD_cons, List.getLastD_nil, List.getLast_eq_getLastD]

end

theorem Column.toList_ends (c : Column) : c.ends.toList = firstAndLast c.toList := by
  cases c with
  | ints values => exact (firstAndLast_map _ values).symm
  | floats values => exact (firstAndLast_map _ values).symm
  | strs values => exact (firstAndLast_map _ values).symm
  | timestamps values => exact (firstAndLast_map _ values).symm

theorem Column.ends_ne_nil {c : Column} (h : c.toList ≠ []) : c.ends.toList ≠ [] := by
  rw [c.toList_ends]
  exact firstAndLast_ne_nil h

/-! ## The description, built and built anew -/

/-- The type of the column is not among the fields. -/
theorem given_arguments (name : String) (startEnd : Split) (series : Column) :
    Given (arguments name startEnd series)
      ⟨name, startEnd, series.monotonicity, !series.isUnique, series.hasnans, none⟩ :=
  ⟨rfl, rfl, rfl, rfl, rfl, .inr ⟨rfl, rfl⟩⟩

section

variable {Df : Type} (lib : Libraries Df)

/-- The description of one column, without a type to restore. -/
structure Describes (fields : Fields) (values : List Scalar) (d : ColumnDescribe Df) : Prop where
  described : d.toFields = fields
  startValue : d.startValue = (lib.stored values).headD .none
  endValue : d.endValue = (lib.stored values).getLastD .none
  constructed : lib.construct fields.startEnd = .ok d.startEndDf

/-- **The constructor**, of one column: it takes what pandas makes of the values. -/
theorem init_column {data : Dict String Argument} {fields : Fields} {index values : List Scalar}
    (hdata : Given data fields) (hsplit : fields.startEnd = oneColumn index fields.name values)
    (htype : fields.dataType = none) (hindex : index ≠ [])
    (hlength : index.length = values.length) :
    ∃ d, ColumnDescribe.init lib data = .ok d ∧ Describes lib fields values d := by
  obtain ⟨df, hconstruct, hempty, htolist⟩ := lib.construct_column fields.name hindex hlength
  rw [← hsplit] at hconstruct
  refine ⟨⟨fields, (lib.stored values).headD .none, (lib.stored values).getLastD .none, df⟩, ?_,
    rfl, rfl, rfl, hconstruct⟩
  rw [ColumnDescribe.init, lib.validate_given hdata]
  show (lib.construct fields.startEnd >>= _) = _
  rw [hconstruct]
  show (if lib.empty df = true then _ else _) = _
  rw [hempty, if_neg Bool.false_ne_true, ColumnDescribe.restoreType, htype]
  show lib.tolist df fields.name >>= _ = _
  rw [htolist]
  rfl

end

section

variable {df : Frame}

theorem index_ne_nil (h : df.empty = false) : df.index.toList ≠ [] := by
  rw [Frame.empty, Bool.or_eq_false_iff, List.isEmpty_eq_false_iff] at h
  exact h.1

theorem toList_ne_nil (h : df.empty = false) {series : Column} {name : String}
    (hseries : df.columnSeries name = .ok series) : series.toList ≠ [] := by
  have hindex := index_ne_nil h
  rw [Frame.columnSeries] at hseries
  split at hseries
  · obtain rfl := Except.ok.inj hseries
    exact hindex
  · rename_i p hp
    obtain rfl := Except.ok.inj hseries
    have hmem : p ∈ df.columns := List.mem_of_mem_filter (hp ▸ List.mem_singleton_self p)
    intro hnil
    have hlength := df.lengths p hmem
    rw [hnil, List.length_nil] at hlength
    exact hindex (List.eq_nil_of_length_eq_zero hlength.symm)
  · cases hseries

theorem reducedColumn_ne_nil (h : df.empty = false) {series : Column} {name : String}
    (hseries : df.columnSeries name = .ok series) :
    (df.reducedColumn name series).toList ≠ [] := by
  rw [Frame.reducedColumn]
  split
  · exact index_ne_nil h
  · exact toList_ne_nil h hseries

/-- The fields that `from_column` sets for a dataframe that is not empty. -/
def Frame.fields (df : Frame) (name : String) (series : Column) : Fields :=
  ⟨name, df.startEnd name series, series.monotonicity, !series.isUnique, series.hasnans, none⟩

theorem length_columnSeries {series : Column} {name : String}
    (hseries : df.columnSeries name = .ok series) :
    series.toList.length = df.index.toList.length := by
  rw [Frame.columnSeries] at hseries
  split at hseries
  · obtain rfl := Except.ok.inj hseries
    rfl
  · rename_i p hp
    obtain rfl := Except.ok.inj hseries
    exact df.lengths p (List.mem_of_mem_filter (hp ▸ List.mem_singleton_self p))
  · cases hseries

/-- The described column has a value for each of the two rows. -/
theorem length_ends {series : Column} {name : String}
    (hseries : df.columnSeries name = .ok series) :
    df.index.ends.toList.length = (df.reducedColumn name series).ends.toList.length := by
  rw [Column.toList_ends, Column.toList_ends, length_firstAndLast, length_firstAndLast,
    Frame.reducedColumn]
  split
  · rfl
  · rw [length_columnSeries hseries]

variable {Df : Type} (lib : Libraries Df)

/-- **`from_column`** of a dataframe that is not empty describes the ends of the column. -/
theorem fromColumn_series {referenceName : Option String} (h : df.empty = false)
    {series : Column} (hseries : df.columnSeries (df.referenceLabel referenceName) = .ok series) :
    ∃ d, fromColumn lib df referenceName = .ok d ∧
      Describes lib (df.fields (df.referenceLabel referenceName) series)
        (df.reducedColumn (df.referenceLabel referenceName) series).ends.toList d := by
  rw [fromColumn, h, if_neg Bool.false_ne_true]
  dsimp only
  rw [hseries]
  exact init_column lib (given_arguments _ _ _) rfl rfl (Column.ends_ne_nil (index_ne_nil h))
    (length_ends hseries)

/-- The description of an empty dataframe. -/
def ColumnDescribe.ofEmpty (startEndDf : Df) : ColumnDescribe Df :=
  ⟨⟨wdmsIndexName, ⟨[], [], []⟩, some .increasing, false, false, none⟩, .none, .none, startEndDf⟩

/-- **The init** of an empty description gives it back. -/
theorem init_empty {data : Dict String Argument} {startEndDf : Df}
    (hdata : Given data (ColumnDescribe.ofEmpty startEndDf).toFields)
    (hconstruct : lib.construct ⟨[], [], []⟩ = .ok startEndDf)
    (hempty : lib.empty startEndDf = true) :
    ColumnDescribe.init lib data = .ok (.ofEmpty startEndDf) := by
  rw [ColumnDescribe.init, lib.validate_given hdata]
  show (lib.construct ⟨[], [], []⟩ >>= _) = _
  rw [hconstruct]
  show (if lib.empty startEndDf = true then _ else _) = _
  rw [if_pos hempty]
  rfl

/-- **The description of an empty frame** is the empty one. -/
theorem fromColumn_empty (h : df.empty = true) (referenceName : Option String) {startEndDf : Df}
    (hconstruct : lib.construct ⟨[], [], []⟩ = .ok startEndDf)
    (hempty : lib.empty startEndDf = true) :
    fromColumn lib df referenceName = .ok (.ofEmpty startEndDf) := by
  rw [fromColumn, if_pos h]
  exact init_empty lib (given_arguments _ _ _) hconstruct hempty

end

/-! ## What the checks read -/

/-- The value, as the checks compare it. -/
def Scalar.toCell : Scalar → Cell
  | .none => .value .none
  | .int n => .number (some (some ((n : ℚ) : WithTop ℚ)))
  | .float x => .number x
  | .str s => .value (.str s)
  | .timestamp t => .value (.datetime (t / 1000))

/-- What the checks read of a description. -/
def ColumnDescribe.view {Df : Type} (d : ColumnDescribe Df) : WellboreDdms.ColumnDescribe :=
  ⟨d.name, d.startValue.toCell, d.endValue.toCell, d.monotonicity, d.hasDuplicate, d.hasNan⟩

/-- What is described of a column. -/
def Column.toSeries (c : Column) : WellboreDdms.Series :=
  ⟨c.firstValue.toCell, c.lastValue.toCell, c.monotonicity, !c.isUnique, c.hasnans⟩

/-- The dataframe, as far as the checks read it. -/
def Frame.toDataFrame (df : Frame) : WellboreDdms.DataFrame where
  rowCount := df.index.toList.length
  index := df.index.toSeries
  columns := df.columns.map fun p => (p.1, p.2.toSeries)

section

variable {Df : Type} {lib : Libraries Df}

/-- The first value, as the frame stores it. -/
theorem headD_stored {c : Column} (h : c.toList ≠ []) :
    (lib.stored c.ends.toList).headD .none = c.firstValue := by
  rw [lib.stored_column _ (Column.ends_ne_nil h), Column.toList_ends, headD_firstAndLast]
  rfl

theorem getLastD_stored {c : Column} (h : c.toList ≠ []) :
    (lib.stored c.ends.toList).getLastD .none = c.lastValue := by
  rw [lib.stored_column _ (Column.ends_ne_nil h), Column.toList_ends, getLastD_firstAndLast]
  rfl

/-- What is read of a description is what is described of the column. -/
theorem view_of_describes {df : Frame} {name : String} {series : Column} {d : ColumnDescribe Df}
    (hnonempty : (df.reducedColumn name series).toList ≠ [])
    (h : Describes lib (df.fields name series) (df.reducedColumn name series).ends.toList d) :
    d.view = .ofSeries name series.toSeries (df.reducedColumn name series).toSeries := by
  rw [ColumnDescribe.view, h.described, h.startValue, h.endValue, headD_stored hnonempty,
    getLastD_stored hnonempty]
  rfl

end

/-- The description of a frame as the checks read it. -/
theorem describe_toDataFrame (df : Frame) (name : String) :
    df.toDataFrame.describe name = (df.columnSeries name).map fun series =>
      .ofSeries name series.toSeries (df.reducedColumn name series).toSeries := by
  have hfilter : (df.toDataFrame.columns.filter fun p => p.1 = name) =
      (df.columns.filter fun p => p.1 = name).map fun p => (p.1, p.2.toSeries) := by
    rw [Frame.toDataFrame, List.filter_map]
    rfl
  rw [WellboreDdms.DataFrame.describe, hfilter, Frame.columnSeries]
  cases df.columns.filter fun p => p.1 = name with
  | nil =>
    simp only [Except.map, Frame.reducedColumn, ite_self]
    rfl
  | cons p ps =>
    cases ps with
    | nil =>
      simp only [Except.map, Frame.reducedColumn, apply_ite Column.toSeries]
      rfl
    | cons q qs => rfl

/-- **The checks read** the description that is built here. -/
theorem view_fromColumn {Df : Type} (lib : Libraries Df) (df : Frame)
    (referenceName : Option String) :
    (fromColumn lib df referenceName).map ColumnDescribe.view =
      df.toDataFrame.fromColumn (referenceName.elim .none .str) := by
  have hempty : df.toDataFrame.empty = df.empty := by
    rw [Bool.eq_iff_iff]
    simp [WellboreDdms.DataFrame.empty, Frame.empty, Frame.toDataFrame]
  have hlabels : df.toDataFrame.labels = df.labels := by
    simp [WellboreDdms.DataFrame.labels, Frame.labels, Frame.toDataFrame]
  -- an empty frame is described without looking at the reference
  cases h : df.empty with
  | true =>
    obtain ⟨startEndDf, hconstruct, hemptyDf, -⟩ := lib.construct_empty
    rw [WellboreDdms.DataFrame.fromColumn, hempty, h, if_pos rfl,
      fromColumn_empty lib h referenceName hconstruct hemptyDf]
    rfl
  | false =>
    have hdescribe : df.toDataFrame.fromColumn (referenceName.elim .none .str) =
        df.toDataFrame.describe (df.referenceLabel referenceName) := by
      rw [WellboreDdms.DataFrame.fromColumn, hempty, h, if_neg Bool.false_ne_true]
      cases referenceName with
      | none => rfl
      | some name =>
        -- the empty name counts as none, and a name that is no label as the index
        by_cases hname : name = ""
        · subst hname
          rfl
        · show (if (!decide (name ≠ "")) = true then _ else _) = _
          rw [if_neg (by simp [hname])]
          show df.toDataFrame.describe
            ((if name ∈ df.toDataFrame.labels then some name else none).getD wdmsIndexName) = _
          rw [hlabels, Frame.referenceLabel]
          by_cases hmem : name ∈ df.labels
          · simp [hmem, hname]
          · simp [hmem]
    rw [hdescribe, describe_toDataFrame]
    cases hseries : df.columnSeries (df.referenceLabel referenceName) with
    | error e =>
      rw [fromColumn, h, if_neg Bool.false_ne_true]
      dsimp only
      rw [hseries]
      rfl
    -- the ends pass through the frame that the description holds
    | ok series =>
      obtain ⟨d, hd, hdescribes⟩ := fromColumn_series lib h hseries
      rw [hd]
      exact congrArg Except.ok (view_of_describes (reducedColumn_ne_nil h hseries) hdescribes)

end Wire

end WellboreDdms
