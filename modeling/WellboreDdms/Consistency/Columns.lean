import WellboreDdms.Python.Dict
import WellboreDdms.Records.RecordId

/-!
# Curves and columns

A curve of a bulk is a column, or an array of columns whose labels are the name of the
curve with an index in brackets. The source groups the labels of a dataframe into curves
in two places.

- `arrayName`: the name of the curve in the label of an array column.
- `curveNameAndColumnCount`, `groupCurveColumns`: the two groupings.
- `erase_sizes_groupCurveColumns`: they count the same columns, except for the empty label.
- `contains_describedCurves`, `postedCurves_eq_nil`: which curves there are.
-/

namespace WellboreDdms

open Python

/-- `(?P<start>[^:]+):?(?P<stop>.*)`: the second group has no line feed, and the first one
takes what it can. -/
def matchesSlice : List Char → Bool
  | [] => false
  | c :: s => c ≠ ':' && !((c :: s).dropWhile fun c => c ≠ ':').contains '\n'

/-- The longest name before an opening bracket; `before` is what has been passed, in
reverse. -/
def nameBefore (before : List Char) : List Char → Option (List Char)
  | [] => none
  | c :: s =>
    match nameBefore (c :: before) s with
    | some name => some name
    | none =>
      if c = '[' && !before.isEmpty && !before.contains '\n' && matchesSlice s then
        some before.reverse
      else none

/-- The name of an array's column, before its last index. -/
def nameInLabel (s : List Char) : Option (List Char) :=
  if s.getLast? = some ']' then nameBefore [] s.dropLast else none

/-- The group `name` of `^(?P<name>.+)\[(?P<start>[^:]+):?(?P<stop>.*)\]$`. -/
def arrayName (label : String) : Option String :=
  (nameInLabel (dropLastLineFeed label.toList)).map String.ofList

/-- `_get_curve_name_and_column_count`. -/
def curveNameAndColumnCount : List String → Dict String Int → Dict String Int
  | [], arrayCol => arrayCol
  | c :: cs, arrayCol =>
    match arrayName c with
    | some name =>
      curveNameAndColumnCount cs (Dict.set arrayCol name ((Dict.get arrayCol name).getD 0 + 1))
    | none =>
      if c ≠ "" then curveNameAndColumnCount cs (Dict.set arrayCol c 1)
      else curveNameAndColumnCount cs arrayCol

/-- `group_curve_columns`, arrays and other columns. -/
def groupCurveColumns : List String → Dict String (List String) → Dict String (List String)
  | [], arrayCol => arrayCol
  | c :: cs, arrayCol =>
    match arrayName c with
    | some name =>
      groupCurveColumns cs (Dict.set arrayCol name ((Dict.get arrayCol name).getD [] ++ [c]))
    | none => groupCurveColumns cs (Dict.set arrayCol c [c])

/-- `{c: len(v) for c, v in curves.items()}`. -/
def sizes (curves : Dict String (List String)) : Dict String Int :=
  curves.map fun p => (p.1, (p.2.length : Int))

/-! ## The groupings agree -/

theorem nameBefore_ne_nil {before s name : List Char} (h : nameBefore before s = some name) :
    name ≠ [] := by
  induction s generalizing before with
  | nil => cases h
  | cons c s ih =>
    rw [nameBefore] at h
    split at h
    · cases h
      exact ih ‹_›
    · split at h
      · rename_i hbefore
        cases h
        intro hnil
        simp [List.reverse_eq_nil_iff.mp hnil] at hbefore
      · cases h

theorem arrayName_ne_empty {label name : String} (h : arrayName label = some name) : name ≠ "" := by
  obtain ⟨chars, hchars, rfl⟩ := Option.map_eq_some_iff.mp h
  obtain ⟨-, hbefore⟩ := Option.ite_none_right_eq_some.mp hchars
  intro hempty
  have hnil := congrArg String.toList hempty
  rw [String.toList_ofList] at hnil
  exact nameBefore_ne_nil hbefore hnil

theorem sizes_set (curves : Dict String (List String)) (name : String) (columns : List String) :
    sizes (Dict.set curves name columns) = Dict.set (sizes curves) name columns.length := by
  induction curves with
  | nil => rfl
  | cons p curves ih =>
    obtain ⟨a, b⟩ := p
    by_cases ha : a = name
    · simp [sizes, Dict.set, ha]
    · simpa [sizes, Dict.set, ha] using ih

theorem get_sizes (curves : Dict String (List String)) (name : String) :
    Dict.get (sizes curves) name =
      (Dict.get curves name).map fun columns => (columns.length : Int) := by
  induction curves with
  | nil => rfl
  | cons p curves ih =>
    obtain ⟨a, b⟩ := p
    by_cases ha : a = name
    · simp [sizes, Dict.get, ha]
    · simpa [sizes, Dict.get, ha] using ih

/-- **The two groupings agree**, except for the empty label, which only the second one
takes for a curve. -/
theorem erase_sizes_groupCurveColumns (labels : List String) (curves : Dict String (List String)) :
    Dict.erase (sizes (groupCurveColumns labels curves)) "" =
      curveNameAndColumnCount labels (Dict.erase (sizes curves) "") := by
  induction labels generalizing curves with
  | nil => rfl
  | cons c cs ih =>
    rw [groupCurveColumns, curveNameAndColumnCount]
    cases harray : arrayName c with
    | some name =>
      have hname := arrayName_ne_empty harray
      simp only [ih, sizes_set, Dict.erase_set_of_ne _ _ hname, Dict.get_erase_of_ne _ hname,
        get_sizes]
      cases Dict.get curves name with
      | none => simp
      | some columns => simp
    | none =>
      by_cases hc : c = ""
      · subst hc
        simp [ih, sizes_set]
      · simp [ih, sizes_set, hc, Dict.erase_set_of_ne _ _ hc]

/-- The curves of both groupings, from the labels of a dataframe. -/
def postedCurves (labels : List String) : Dict String Int := curveNameAndColumnCount labels []

/-- The sizes of the curves in a description. -/
def describedCurves (labels : List String) : Dict String Int := sizes (groupCurveColumns labels [])

/-- What is posted leaves out the empty name. -/
theorem erase_describedCurves (labels : List String) :
    Dict.erase (describedCurves labels) "" = postedCurves labels :=
  erase_sizes_groupCurveColumns labels []

/-! ## Which curves there are -/

/-- The curve of a label. -/
def curveName (label : String) : String := (arrayName label).getD label

/-- Only the empty label has the empty name. -/
theorem curveName_eq_empty {label : String} : curveName label = "" ↔ label = "" := by
  cases harray : arrayName label with
  | none => simp [curveName, harray]
  | some name =>
    have hname := arrayName_ne_empty harray
    refine iff_of_false (by simpa [curveName, harray] using hname) ?_
    rintro rfl
    cases harray

/-- The names of the labels are those of the groups. -/
theorem contains_groupCurveColumns (labels : List String) (curves : Dict String (List String))
    (name : String) :
    Dict.contains (groupCurveColumns labels curves) name = true ↔
      name ∈ labels.map curveName ∨ Dict.contains curves name = true := by
  induction labels generalizing curves with
  | nil => simp [groupCurveColumns]
  | cons c cs ih =>
    have hstep : ∃ columns,
        groupCurveColumns (c :: cs) curves =
          groupCurveColumns cs (Dict.set curves (curveName c) columns) := by
      rw [groupCurveColumns, curveName]
      cases arrayName c with
      | none => exact ⟨_, rfl⟩
      | some name => exact ⟨_, rfl⟩
    obtain ⟨columns, hstep⟩ := hstep
    rw [hstep, ih, Dict.contains_set, Bool.or_eq_true, decide_eq_true_eq, List.map_cons,
      List.mem_cons]
    tauto

/-- The names described are those of the labels. -/
theorem contains_describedCurves (labels : List String) (name : String) :
    Dict.contains (describedCurves labels) name = true ↔ name ∈ labels.map curveName := by
  have hsizes : Dict.contains (describedCurves labels) name =
      Dict.contains (groupCurveColumns labels []) name := by
    simp [Dict.contains, describedCurves, get_sizes]
  rw [hsizes, contains_groupCurveColumns]
  exact or_iff_left Bool.false_ne_true

/-- The empty name is described if there is an empty label. -/
theorem contains_describedCurves_empty (labels : List String) :
    Dict.contains (describedCurves labels) "" = true ↔ "" ∈ labels := by
  simp [contains_describedCurves, curveName_eq_empty]

theorem eq_nil_iff_contains {β : Type} (d : Dict String β) :
    d = [] ↔ ∀ name, Dict.contains d name = false := by
  constructor
  · rintro rfl name
    rfl
  · intro h
    cases d with
    | nil => rfl
    | cons p d =>
      have hp : Dict.contains (p :: d) p.1 = true := Dict.contains_iff.mpr List.mem_cons_self
      cases (h p.1).symm.trans hp

theorem describedCurves_eq_nil (labels : List String) :
    describedCurves labels = [] ↔ labels = [] := by
  constructor
  · intro h
    cases labels with
    | nil => rfl
    | cons c cs =>
      have hc := (contains_describedCurves (c :: cs) (curveName c)).mpr List.mem_cons_self
      cases ((eq_nil_iff_contains _).mp h (curveName c)).symm.trans hc
  · rintro rfl
    rfl

theorem postedCurves_eq_nil (labels : List String) :
    postedCurves labels = [] ↔ ∀ label ∈ labels, label = "" := by
  rw [eq_nil_iff_contains, ← erase_describedCurves]
  constructor
  · intro h label hlabel
    by_contra hne
    have hname : curveName label ≠ "" := fun hempty => hne (curveName_eq_empty.mp hempty)
    have hnot := h (curveName label)
    rw [Dict.contains, Dict.get_erase_of_ne _ hname] at hnot
    have hmem :=
      (contains_describedCurves labels (curveName label)).mpr (List.mem_map_of_mem hlabel)
    cases hnot.symm.trans hmem
  · intro h name
    refine Bool.eq_false_iff.mpr fun hmem => ?_
    obtain ⟨p, hp, rfl⟩ := List.mem_map.mp (Dict.contains_iff.mp hmem)
    obtain ⟨hp, hne⟩ := List.mem_filter.mp hp
    have hdescribed := Dict.contains_iff.mpr (List.mem_map_of_mem hp)
    obtain ⟨label, hlabel, hname⟩ :=
      List.mem_map.mp ((contains_describedCurves labels p.1).mp hdescribed)
    rw [h label hlabel] at hname
    simp [← hname, curveName_eq_empty.mpr] at hne

end WellboreDdms
