import Mathlib.Data.List.Nodup
import WellboreDdms.Python.Dict
import WellboreDdms.Python.Operations
import WellboreDdms.Python.Text

/-!
# Dataframes as JSON

A dataframe is written as JSON with its missing values as the text `NaN`, and read back with
that text as a missing value.

- `Frame`: the labels of its rows, and the cells of its columns.
- `PandasJson`: what is asked of pandas: it reads what it wrote, except that for `columns` the
  labels of the rows are the keys of JSON objects; it fills and replaces cells, and converts an
  index label by label.
- `toJson`, `readJson`: the serializer. For `columns` it guesses the type of the index, as
  integers first and then as floats.
- `readJson_toJson_iff`: the dataframes that come back as they were.
- `plainPandas`: a pandas that keeps these laws.
-/

namespace WellboreDdms

open Python (Dict FloatArithmetic Number decimalInt decimalInt_repr maxStrDigits repr_injective)

/-- The orients of a JSON frame. -/
inductive JSONOrient where
  | split
  | columns
  deriving DecidableEq

namespace JSONOrient

/-- Their texts. -/
def value : JSONOrient → String
  | .split => "split"
  | .columns => "columns"

/-- `JSONOrient[orient]`; `none` is the `KeyError`. -/
def get (orient : String) : Option JSONOrient :=
  if orient = "split" then some .split else if orient = "columns" then some .columns else none

@[simp] theorem get_value (orient : JSONOrient) : get orient.value = some orient := by
  cases orient <;> rfl

end JSONOrient

/-! ## Dataframes -/

/-- An integer of 64 bits. -/
abbrev Int64Label := { i : Int // -2 ^ 63 ≤ i ∧ i < 2 ^ 63 }

/-- A label of an object index. -/
inductive Label where
  | int (i : Int)
  | str (s : String)
  deriving DecidableEq

/-- The labels of the rows, by the type they are kept as: `integers` are the integer types other
than `int64`. -/
inductive Index (φ : Type) where
  | int64 (labels : List Int64Label)
  | integers (dtype : String) (labels : List Int)
  | float64 (labels : List φ)
  | object (labels : List Label)
  deriving DecidableEq

/-- What a cell holds. -/
inductive Datum where
  | number (q : ℚ)
  | missing
  | text (s : String)
  deriving DecidableEq

/-- A label as the key of a JSON object. -/
def Label.text : Label → String
  | .int i => i.repr
  | .str s => s

namespace Index

variable {φ : Type}

/-- The number of labels. -/
def length : Index φ → Nat
  | .int64 labels => labels.length
  | .integers _ labels => labels.length
  | .float64 labels => labels.length
  | .object labels => labels.length

/-- The labels, where they are integers and texts. -/
def labels : Index φ → Option (List Label)
  | .int64 labels => some (labels.map fun i => .int i.1)
  | .integers _ labels => some (labels.map .int)
  | .float64 _ => none
  | .object labels => some labels

end Index

/-- Columns as long as the index. -/
@[ext] structure Frame (φ : Type) where
  index : Index φ
  columns : Dict String (List Datum)
  length_eq : ∀ column ∈ columns, column.2.length = index.length

namespace Frame

variable {φ : Type}

/-- Each cell is changed. -/
def mapCells (f : Datum → Datum) (df : Frame φ) : Frame φ where
  index := df.index
  columns := df.columns.map fun column => (column.1, column.2.map f)
  length_eq := by
    intro column hcolumn
    obtain ⟨original, horiginal, rfl⟩ := List.mem_map.mp hcolumn
    simpa using df.length_eq original horiginal

/-- The frame gets another index of its length. -/
def withIndex (df : Frame φ) (index : Index φ) (h : index.length = df.index.length) : Frame φ where
  index := index
  columns := df.columns
  length_eq := fun column hcolumn => (df.length_eq column hcolumn).trans h.symm

/-- Pairwise distinct labels, of rows that are integers or texts. -/
structure Stated (df : Frame φ) : Prop where
  columns : (df.columns.map Prod.fst).Nodup
  index : ∃ labels, df.index.labels = some labels ∧ labels.Nodup

/-- No cell is `cell`. -/
def Free (cell : Datum) (df : Frame φ) : Prop := ∀ column ∈ df.columns, cell ∉ column.2

end Frame

/-- What the serializer asks of pandas: `DataFrame.to_json`, `pd.read_json` without conversion of
the axes, `df.fillna(value)`, `df.replace(value, np.nan)` and `Index.astype`, where `none` is the
exception that the serializer goes on after. -/
structure PandasJson (φ τ : Type) where
  toJson : Frame φ → JSONOrient → Option τ
  readJson : τ → JSONOrient → Option (Frame φ)
  fillna : String → Frame φ → Frame φ
  replace : String → Frame φ → Frame φ
  astype : Index φ → String → Option (Index φ)
  /-- How `astype` reads a text, as an integer and as a float. -/
  readInt64 : String → Option Int64Label
  readFloat64 : String → Option φ
  /-- What is written is read. -/
  split : ∀ {df : Frame φ}, df.Stated → df.Free .missing →
    ∃ t, toJson df .split = some t ∧ readJson t .split = some df
  columns : ∀ {df : Frame φ} {labels : List Label}, df.Stated → df.Free .missing →
    df.index.labels = some labels → (labels.map Label.text).Nodup →
    ∃ t df', toJson df .columns = some t ∧ readJson t .columns = some df' ∧
      df'.index = .object (labels.map fun label => .str label.text) ∧ df'.columns = df.columns
  /-- The labels of rows that are the keys of JSON objects are texts. -/
  keys : ∀ {t df}, readJson t .columns = some df → ∃ texts : List String,
    df.index = .object (texts.map .str)
  /-- The missing cells are filled, and no other. -/
  fillna_eq : ∀ value df, fillna value df =
    df.mapCells fun cell => if cell = .missing then .text value else cell
  /-- The cells that hold the value are replaced, and no other. -/
  replace_eq : ∀ value df, replace value df =
    df.mapCells fun cell => if cell = .text value then .missing else cell
  length_astype : ∀ {index dtype index'}, astype index dtype = some index' →
    index'.length = index.length
  /-- An index of texts is converted if all of them are read. -/
  astype_int64 : ∀ texts : List String, astype (.object (texts.map .str)) "int64" =
    (texts.mapM readInt64).map .int64
  astype_float64 : ∀ texts : List String, astype (.object (texts.map .str)) "float64" =
    (texts.mapM readFloat64).map .float64
  /-- The text of an integer is read as that integer. -/
  readInt64_repr : ∀ i : Int64Label, readInt64 i.1.repr = some i

/-! ## The serializer -/

/-- All labels are read, or one of them is not. -/
theorem mapM_eq_none_iff {α β : Type} {f : α → Option β} {xs : List α} :
    xs.mapM f = none ↔ ∃ x ∈ xs, f x = none := by
  induction xs with
  | nil => simp
  | cons x xs ih =>
    cases hx : f x with
    | none => simp [hx]
    | some y =>
      cases hxs : xs.mapM f with
      | none => simpa [hx, hxs] using ih.mp hxs
      | some ys => simpa [hx, hxs] using ih

theorem length_of_mapM {α β : Type} {f : α → Option β} {xs : List α} {ys : List β}
    (h : xs.mapM f = some ys) : ys.length = xs.length := by
  induction xs generalizing ys with
  | nil =>
    cases h
    rfl
  | cons x xs ih =>
    rw [List.mapM_cons] at h
    obtain ⟨y, -, hrest⟩ := Option.bind_eq_some_iff.mp h
    obtain ⟨ys', hys, hpure⟩ := Option.bind_eq_some_iff.mp hrest
    cases hpure
    exact congrArg Nat.succ (ih hys)

/-- What was written is read. -/
theorem mapM_map {α β : Type} {f : β → Option α} {g : α → β} (h : ∀ a, f (g a) = some a)
    (xs : List α) : (xs.map g).mapM f = some xs := by
  induction xs with
  | nil => rfl
  | cons x xs ih => simp [h, ih]

section

variable {φ τ : Type} (pandas : PandasJson φ τ)

/-- `for dtype in [..]`: the index is converted to the first type that takes all of its labels. -/
def coerceIndex (df : Frame φ) : List String → Frame φ
  | [] => df
  | dtype :: dtypes =>
    match h : pandas.astype df.index dtype with
    | some index => df.withIndex index (pandas.length_astype h)
    -- `TypeError`, `ValueError` or `OverflowError`
    | none => coerceIndex df dtypes

/-- `to_json`: missing values are written as texts. -/
def toJson (df : Frame φ) (orient : String) : Option τ := do
  let orient ← JSONOrient.get orient
  pandas.toJson (pandas.fillna "NaN" df) orient

/-- `read_json`: the texts become missing values again, and the index of columns is coerced. -/
def readJson (data : τ) (orient : String) : Option (Frame φ) := do
  let orient ← JSONOrient.get orient
  let df ← pandas.readJson data orient
  let df := pandas.replace "NaN" df
  if orient = .columns then some (coerceIndex pandas df ["int64", "float64"]) else some df

end

/-! ## What comes back -/

/-- The index that is read back is the one that was written. An index of objects must hold texts
alone, of which one is not read as an integer of 64 bits and one is not read as a float. -/
def KeepsIndex {φ τ : Type} (pandas : PandasJson φ τ) : JSONOrient → Index φ → Prop
  | .split, _ => True
  | .columns, .int64 _ => True
  | .columns, .object labels =>
    ∃ texts : List String, labels = texts.map .str ∧
      (∃ text ∈ texts, pandas.readInt64 text = none) ∧
      ∃ text ∈ texts, pandas.readFloat64 text = none
  | .columns, _ => False

section

variable {φ τ : Type} {pandas : PandasJson φ τ} {df : Frame φ} {orient : JSONOrient}

namespace Frame

variable (pandas) (value : String)

theorem stated_fillna (h : df.Stated) : (pandas.fillna value df).Stated where
  columns := by
    have hlabels : ((pandas.fillna value df).columns.map Prod.fst) = df.columns.map Prod.fst := by
      simp [pandas.fillna_eq, mapCells]
    rw [hlabels]
    exact h.columns
  index := by
    rw [pandas.fillna_eq]
    exact h.index

/-- No cell becomes one that the function avoids. -/
theorem free_mapCells {f : Datum → Datum} {cell : Datum} (h : ∀ x, f x ≠ cell) :
    (df.mapCells f).Free cell := by
  intro column hcolumn hmem
  obtain ⟨original, -, rfl⟩ := List.mem_map.mp hcolumn
  obtain ⟨x, -, hx⟩ := List.mem_map.mp hmem
  exact h x hx

/-- Nothing is missing after `fillna`. -/
theorem free_fillna : (pandas.fillna value df).Free .missing := by
  rw [pandas.fillna_eq]
  refine free_mapCells fun x => ?_
  split
  · exact nofun
  · assumption

/-- The value is nowhere after `replace`. -/
theorem free_replace (df : Frame φ) : (pandas.replace value df).Free (.text value) := by
  rw [pandas.replace_eq]
  refine free_mapCells fun x => ?_
  split
  · exact nofun
  · assumption

/-- Missing values come back, if no cell had their text. -/
theorem columns_replace_fillna (h : df.Free (.text value)) :
    (pandas.replace value (pandas.fillna value df)).columns = df.columns := by
  rw [pandas.replace_eq, pandas.fillna_eq]
  show List.map _ (List.map _ df.columns) = df.columns
  rw [List.map_map]
  refine (List.map_congr_left fun column hcolumn => ?_).trans (List.map_id _)
  refine Prod.ext rfl ?_
  show List.map _ (List.map _ column.2) = column.2
  rw [List.map_map]
  refine (List.map_congr_left fun cell hcell => ?_).trans (List.map_id _)
  by_cases hmissing : cell = .missing
  · simp [hmissing]
  · have hne : cell ≠ .text value := fun heq => h column hcolumn (heq ▸ hcell)
    simp [hmissing, hne]

/-- `replace` reads the cells alone. -/
theorem columns_replace {df df' : Frame φ} (h : df.columns = df'.columns) :
    (pandas.replace value df).columns = (pandas.replace value df').columns := by
  rw [pandas.replace_eq, pandas.replace_eq]
  show List.map _ df.columns = List.map _ df'.columns
  rw [h]

theorem index_replace (df : Frame φ) : (pandas.replace value df).index = df.index := by
  rw [pandas.replace_eq]
  rfl

end Frame

/-! ## The index that is guessed -/

theorem columns_coerceIndex (df : Frame φ) (dtypes : List String) :
    (coerceIndex pandas df dtypes).columns = df.columns := by
  induction dtypes with
  | nil => rfl
  | cons dtype dtypes ih =>
    rw [coerceIndex]
    split
    · rfl
    · exact ih

/-- The types are tried one after the other. -/
theorem index_coerceIndex_cons (df : Frame φ) (dtype : String) (dtypes : List String) :
    (coerceIndex pandas df (dtype :: dtypes)).index =
      (pandas.astype df.index dtype).getD (coerceIndex pandas df dtypes).index := by
  rw [coerceIndex]
  split
  · rename_i index h
    show index = _
    rw [h]
    rfl
  · rename_i h
    rw [h]
    rfl

/-- What is made of labels that are texts: integers, else floats, else what they are. -/
theorem index_coerceIndex {texts : List String} (h : df.index = .object (texts.map .str)) :
    (coerceIndex pandas df ["int64", "float64"]).index =
      ((texts.mapM pandas.readInt64).map .int64).getD
        (((texts.mapM pandas.readFloat64).map .float64).getD (.object (texts.map .str))) := by
  rw [index_coerceIndex_cons, index_coerceIndex_cons, h, pandas.astype_int64,
    pandas.astype_float64]
  exact congrArg _ (congrArg _ h)

/-- The labels of an index that comes back. -/
theorem keepsIndex_of_eq {index : Index φ} {texts : List String} {labels : List Label}
    (hindex : df.index = .object (texts.map .str)) (hlabels : index.labels = some labels)
    (h : (coerceIndex pandas df ["int64", "float64"]).index = index) :
    KeepsIndex pandas .columns index := by
  rw [index_coerceIndex hindex] at h
  cases hint : texts.mapM pandas.readInt64 with
  | some values =>
    rw [hint] at h
    rw [← h]
    trivial
  | none =>
    rw [hint] at h
    cases hfloat : texts.mapM pandas.readFloat64 with
    | some values =>
      -- floats are no labels that were written
      rw [hfloat] at h
      rw [← h] at hlabels
      cases hlabels
    | none =>
      rw [hfloat] at h
      rw [← h]
      exact ⟨texts, rfl, mapM_eq_none_iff.mp hint, mapM_eq_none_iff.mp hfloat⟩

theorem Label.text_int_injective :
    Function.Injective fun i : Int64Label => (Label.int i.1).text := by
  intro i j h
  exact Subtype.ext (repr_injective h)

/-- Labels that are kept are told apart by their texts, and read back from them. -/
theorem coerceIndex_of_keepsIndex {index : Index φ} {labels : List Label}
    (hlabels : index.labels = some labels) (hnodup : labels.Nodup)
    (h : KeepsIndex pandas .columns index) :
    (labels.map Label.text).Nodup ∧
      ∀ df : Frame φ, df.index = .object (labels.map fun label => .str label.text) →
        (coerceIndex pandas df ["int64", "float64"]).index = index := by
  cases index with
  -- integers are told apart by their texts, and read back from them
  | int64 values =>
    cases hlabels
    constructor
    · rw [List.map_map]
      exact (List.Nodup.of_map _ hnodup).map Label.text_int_injective
    · intro df hdf
      have htexts : df.index = .object ((values.map fun i => i.1.repr).map .str) := by
        rw [hdf, List.map_map, List.map_map]
        rfl
      have hread : (values.map fun i => i.1.repr).mapM pandas.readInt64 = some values :=
        mapM_map pandas.readInt64_repr values
      rw [index_coerceIndex htexts, hread]
      rfl
  | integers dtype values => exact h.elim
  | float64 values => exact h.elim
  -- texts stay only if they are read neither as integers nor as floats
  | object values =>
    cases hlabels
    obtain ⟨texts, rfl, hint, hfloat⟩ := h
    constructor
    · rw [List.map_map]
      exact (List.map_id texts).symm ▸ List.Nodup.of_map _ hnodup
    · intro df hdf
      have htexts : df.index = .object (texts.map .str) := by
        rw [hdf, List.map_map]
        rfl
      rw [index_coerceIndex htexts, mapM_eq_none_iff.mpr hint, mapM_eq_none_iff.mpr hfloat]
      rfl

/-! ## Writing and reading -/

/-- The frame as it is read: with its missing values, and its index guessed for `columns`. -/
def asRead (pandas : PandasJson φ τ) (orient : JSONOrient) (df : Frame φ) : Frame φ :=
  if orient = .columns then coerceIndex pandas (pandas.replace "NaN" df) ["int64", "float64"]
  else pandas.replace "NaN" df

theorem readJson_value (data : τ) : readJson pandas data orient.value =
    (pandas.readJson data orient).map (asRead pandas orient) := by
  cases hread : pandas.readJson data orient with
  | none => simp [readJson, hread]
  | some df =>
    simp only [readJson, JSONOrient.get_value, hread, Option.bind_eq_bind, Option.bind_some,
      Option.map_some, asRead]
    split <;> rfl

theorem columns_asRead (orient : JSONOrient) (df : Frame φ) :
    (asRead pandas orient df).columns = (pandas.replace "NaN" df).columns := by
  unfold asRead
  split
  · exact columns_coerceIndex _ _
  · rfl

/-- **Writing and reading** give a dataframe back if and only if no cell holds the text that
stands for a missing value and the orient keeps the index. -/
theorem readJson_toJson_iff (h : df.Stated) (orient : JSONOrient) :
    ((toJson pandas df orient.value).bind fun data => readJson pandas data orient.value) =
        some df ↔
      df.Free (.text "NaN") ∧ KeepsIndex pandas orient df.index := by
  obtain ⟨labels, hlabels, hnodup⟩ := h.index
  have hwrite : toJson pandas df orient.value =
      pandas.toJson (pandas.fillna "NaN" df) orient := by
    simp [toJson]
  rw [hwrite]
  constructor
  · intro hread
    obtain ⟨data, -, hdata⟩ := Option.bind_eq_some_iff.mp hread
    rw [readJson_value] at hdata
    obtain ⟨df', hpandas, rfl⟩ := Option.map_eq_some_iff.mp hdata
    constructor
    -- what is read has no such cell, since they are all replaced
    · have hfree := Frame.free_replace pandas "NaN" df'
      rw [Frame.Free, ← columns_asRead orient] at hfree
      exact hfree
    -- the split orient writes the labels as they are, the other one writes texts
    · cases orient with
      | split => trivial
      | columns =>
        obtain ⟨texts, htexts⟩ := pandas.keys hpandas
        rw [← Frame.index_replace pandas "NaN"] at htexts
        exact keepsIndex_of_eq htexts hlabels rfl
  · rintro ⟨hfree, hindex⟩
    -- replacing undoes filling, as the frame had no such cell of its own
    have hcolumns := Frame.columns_replace_fillna pandas "NaN" hfree
    cases orient with
    | split =>
      obtain ⟨data, hdata, hread⟩ :=
        pandas.split (Frame.stated_fillna pandas "NaN" h) (Frame.free_fillna pandas "NaN")
      rw [hdata, Option.bind_some, readJson_value, hread]
      refine congrArg some (Frame.ext ?_ hcolumns)
      show (pandas.replace "NaN" (pandas.fillna "NaN" df)).index = df.index
      rw [Frame.index_replace, pandas.fillna_eq]
      rfl
    | columns =>
      obtain ⟨htexts, hcoerced⟩ := coerceIndex_of_keepsIndex hlabels hnodup hindex
      have hfilled : (pandas.fillna "NaN" df).index.labels = some labels := by
        rw [pandas.fillna_eq]
        exact hlabels
      obtain ⟨data, df', hdata, hread, hindex', hcolumns'⟩ :=
        pandas.columns (Frame.stated_fillna pandas "NaN" h) (Frame.free_fillna pandas "NaN")
          hfilled htexts
      rw [hdata, Option.bind_some, readJson_value, hread]
      refine congrArg some (Frame.ext ?_ ?_)
      · refine hcoerced _ ?_
        rw [Frame.index_replace, hindex']
      · rw [columns_asRead, Frame.columns_replace pandas "NaN" hcolumns']
        exact hcolumns

end

/-! ## Texts that do not come back -/

/-- The keys of JSON objects, for the labels of the rows. -/
def Index.asKeys {φ : Type} : Index φ → Index φ
  | .int64 labels => .object (labels.map fun i => .str (Label.int i.1).text)
  | .integers _ labels => .object (labels.map fun i => .str (Label.int i).text)
  | .float64 labels => .float64 labels
  | .object labels => .object (labels.map fun label => .str label.text)

theorem Index.length_asKeys {φ : Type} (index : Index φ) : index.asKeys.length = index.length := by
  cases index <;> simp [asKeys, length]

theorem Index.asKeys_eq {φ : Type} {index : Index φ} {labels : List Label}
    (h : index.labels = some labels) :
    index.asKeys = .object (labels.map fun label => .str label.text) := by
  cases index <;> cases h <;> simp [asKeys]

/-- `int64` and `float64` of a text: `int` and `float` read it. -/
def textInt64 (text : String) : Option Int64Label :=
  (decimalInt text.toList).bind fun i => if h : -2 ^ 63 ≤ i ∧ i < 2 ^ 63 then some ⟨i, h⟩ else none

theorem textInt64_repr (i : Int64Label) : textInt64 i.1.repr = some i := by
  have hshort : i.1.natAbs < 10 ^ maxStrDigits := by
    have hbound : i.1.natAbs < 10 ^ 19 := by
      have hrange := i.2
      omega
    exact hbound.trans_le (Nat.pow_le_pow_right (by decide) (by decide))
  rw [textInt64, decimalInt_repr hshort, Option.bind_some, dif_pos i.2]

/-- An index of labels that are texts, converted label by label. -/
def astypeTexts {φ : Type} (float : String → Option φ) (index : Index φ) (dtype : String) :
    Option (Index φ) :=
  match index with
  | .object labels =>
    if dtype = "int64" then (labels.mapM fun label => textInt64 label.text).map .int64
    else if dtype = "float64" then (labels.mapM fun label => float label.text).map .float64
    else none
  | _ => none

/-- A document as the frame it stands for. Where two labels have one text, nothing is written. -/
def plainPandas {φ : Type} (fa : FloatArithmetic φ) : PandasJson φ (Frame φ) where
  toJson := fun df orient =>
    match orient with
    | .split => some df
    | .columns =>
      if ((df.index.labels.getD []).map Label.text).Nodup then
        some (df.withIndex df.index.asKeys df.index.length_asKeys)
      else none
  readJson := fun df orient =>
    match orient, df.index with
    | .split, _ => some df
    | .columns, .object labels =>
      if labels = labels.map fun label => .str label.text then some df else none
    | .columns, _ => none
  fillna := fun value df => df.mapCells fun cell => if cell = .missing then .text value else cell
  replace := fun value df => df.mapCells fun cell => if cell = .text value then .missing else cell
  astype := astypeTexts fa.parse
  readInt64 := textInt64
  readFloat64 := fa.parse
  split := fun {df} _ _ => ⟨df, rfl, rfl⟩
  columns := by
    intro df labels _ _ hlabels hnodup
    have hkeys := Index.asKeys_eq hlabels
    let keyed := df.withIndex df.index.asKeys df.index.length_asKeys
    refine ⟨keyed, keyed, ?_, ?_, hkeys, rfl⟩
    · rw [hlabels, Option.getD_some]
      exact if_pos hnodup
    · have hindex : keyed.index = _ := hkeys
      simp only [hindex]
      refine if_pos ?_
      rw [List.map_map]
      rfl
  keys := by
    intro t df h
    split at h
    · contradiction
    · rename_i labels _ hindex
      split at h
      · rename_i heq
        cases h
        exact ⟨labels.map Label.text, by rw [hindex, List.map_map]; exact congrArg _ heq⟩
      · cases h
    · cases h
  fillna_eq := fun _ _ => rfl
  replace_eq := fun _ _ => rfl
  length_astype := by
    intro index dtype index' h
    unfold astypeTexts at h
    split at h
    · split at h
      · obtain ⟨values, hvalues, rfl⟩ := Option.map_eq_some_iff.mp h
        exact length_of_mapM hvalues
      · split at h
        · obtain ⟨values, hvalues, rfl⟩ := Option.map_eq_some_iff.mp h
          exact length_of_mapM hvalues
        · cases h
    · cases h
  astype_int64 := by
    intro texts
    rw [astypeTexts, if_pos rfl, List.mapM_map]
    rfl
  astype_float64 := by
    intro texts
    rw [astypeTexts, if_neg (by decide), if_pos rfl, List.mapM_map]
    rfl
  readInt64_repr := textInt64_repr

/-- One row, whose label is a text, and one column. -/
def row (label : String) (cell : Datum) : Frame Number where
  index := .object [.str label]
  columns := [("MD", [cell])]
  length_eq := by
    intro column hcolumn
    rw [List.mem_singleton.mp hcolumn]
    rfl

theorem stated_row (label : String) (cell : Datum) : (row label cell).Stated where
  columns := List.nodup_singleton _
  index := ⟨_, rfl, List.nodup_singleton _⟩

/-- Numbers without rounding, of which no text is one. -/
def exactPandas : PandasJson Number (Frame Number) := plainPandas .exact

/-- **Two texts that do not come back**: the one of a missing value, and a label that reads like
an integer. -/
theorem text_is_not_kept :
    (¬ ∀ df : Frame Number, df.Stated →
      ((toJson exactPandas df "split").bind fun data => readJson exactPandas data "split") =
        some df) ∧
    ¬ ∀ df : Frame Number, df.Stated →
      ((toJson exactPandas df "columns").bind fun data => readJson exactPandas data "columns") =
        some df := by
  constructor
  · intro h
    have hcells := congrArg (Option.map Frame.columns) (h _ (stated_row "top" (.text "NaN")))
    exact absurd hcells (by decide)
  · intro h
    have hindex := congrArg (Option.map Frame.index) (h _ (stated_row "1" .missing))
    exact absurd hindex (by decide)

/-- A missing value under a label that is no number comes back. -/
theorem readJson_toJson_missing :
    ((toJson exactPandas (row "top" .missing) JSONOrient.columns.value).bind fun data =>
      readJson exactPandas data JSONOrient.columns.value) = some (row "top" .missing) := by
  have hfree : (row "top" .missing).Free (.text "NaN") := by
    intro column hcolumn
    rw [List.mem_singleton.mp hcolumn]
    decide
  have hkeeps : KeepsIndex exactPandas .columns (row "top" .missing).index :=
    ⟨["top"], rfl, ⟨_, List.mem_singleton_self _, by decide⟩, ⟨_, List.mem_singleton_self _, rfl⟩⟩
  exact (readJson_toJson_iff (stated_row "top" .missing) .columns).mpr ⟨hfree, hkeeps⟩

end WellboreDdms
