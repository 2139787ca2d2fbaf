import WellboreDdms.Consistency.Columns
import Mathlib.Data.List.Induction

/-!
# The selection of columns

The `curves` parameter of a read selects columns: by their label, all those of an array, or a
slice of it, `NAME[a:b]`.

- `matchFullSlicePattern`, `getArrayColumns`: what a selection may name.
- `selectColumns`: the loop over the selections.
- `Matches`: the columns a selection is meant to match.
- `Selects`: what the two lists are meant to be.
- `selects_iff`: the lists are those exactly if every slice has a column.
-/

namespace WellboreDdms

open Python

/-- The groups `start` and `stop`, in the brackets. -/
def sliceBounds (index : List Char) : List Char × List Char :=
  (index.takeWhile fun c => c ≠ ':', (index.dropWhile fun c => c ≠ ':').tail)

/-- `match_full_slice_pattern`. -/
def matchFullSlicePattern (columnLabel : String) : Option (String × String × String) :=
  let label := dropLastLineFeed columnLabel.toList
  match nameInLabel label with
  | some name =>
    let bounds := sliceBounds (label.dropLast.drop (name.length + 1))
    if bounds.1.isEmpty || bounds.2.isEmpty then none
    else some (String.ofList name, String.ofList bounds.1, String.ofList bounds.2)
  | none => none

/-- The slice that is read from a selection, if `int` takes its bounds. -/
def fullSlice (sel : String) : Option (String × Int × Int) :=
  match matchFullSlicePattern sel with
  | some (name, start, stop) =>
    match decimalInt start.toList, decimalInt stop.toList with
    | some a, some b => some (name, a, b)
    | _, _ => none
  | none => none

/-- The label of an array's column. -/
def indexedLabel (name : String) (i : Int) : String := name ++ "[" ++ toString i ++ "]"

/-- `range(a, b + 1)`. -/
def intRange (a b : Int) : List Int := (List.range (b + 1 - a).toNat).map fun (k : Nat) => a + k

/-- `get_array_columns`. -/
def getArrayColumns : List String → Dict String (List String) → Dict String (List String)
  | [], arrayCol => arrayCol
  | c :: cs, arrayCol =>
    match arrayName c with
    | some name =>
      getArrayColumns cs (Dict.set arrayCol name ((Dict.get arrayCol name).getD [] ++ [c]))
    | none => getArrayColumns cs arrayCol

/-- `matching_columns`, for a selection that is no label: those of the array it names, else those
of its slice, else itself. The columns are a set, listed in the order of its iteration. -/
def matchingColumns (columns : List String) (sel : String) : List String :=
  match Dict.get (getArrayColumns columns []) sel with
  | some arrayColumns => arrayColumns
  | none =>
    match fullSlice sel with
    | some (name, a, b) =>
      columns.filter fun column => column ∈ (intRange a b).map (indexedLabel name)
    | none => [sel]

/-- `selected.update({column: 1 for column in columns})`. -/
def updateSelected (selected : Dict String Nat) (columns : List String) : Dict String Nat :=
  columns.foldl (fun selected column => Dict.set selected column 1) selected

section

variable (natsorted : List String → List String) (columns : List String)

/-- One round of the loop, on `selected` and `curves_non_existent`. -/
def selectColumn (state : Dict String Nat × List String) (sel : String) :
    Dict String Nat × List String :=
  if sel ∈ columns then (Dict.set state.1 sel 1, state.2)
  else
    let matching := matchingColumns columns sel
    if matching.all (· ∈ columns) then (updateSelected state.1 (natsorted matching), state.2)
    else (state.1, state.2 ++ (matching.eraseDups.filter fun column => column ∉ columns))

/-- `select_columns`. -/
def selectColumns (columnSelection : List String) : List String × List String :=
  let state := columnSelection.foldl (selectColumn natsorted columns) ([], [])
  (state.1.map Prod.fst, state.2)

end

/-! ## What a selection matches -/

/-- The selection names an array. -/
def NamesArray (columns : List String) (sel : String) : Prop :=
  ∃ column ∈ columns, arrayName column = some sel

instance (columns : List String) (sel : String) : Decidable (NamesArray columns sel) :=
  inferInstanceAs (Decidable (∃ column ∈ columns, arrayName column = some sel))

/-- The columns of a selection, by the first rule that applies: the label equal to it, the columns
of the array it names, the columns of its slice. -/
def Matches (columns : List String) (sel column : String) : Prop :=
  column ∈ columns ∧
    if sel ∈ columns then column = sel
    else if NamesArray columns sel then arrayName column = some sel
    else ∃ name a b i, fullSlice sel = some (name, a, b) ∧ a ≤ i ∧ i ≤ b ∧
      column = indexedLabel name i

/-- The column is matched by a selection of the list. -/
def Matched (columns columnSelection : List String) (column : String) : Prop :=
  ∃ sel ∈ columnSelection, Matches columns sel column

/-- The list has the columns that are matched, once, and those of earlier selections first. -/
structure SelectsInOrder (columns columnSelection selected : List String) : Prop where
  nodup : selected.Nodup
  mem_iff : ∀ column, column ∈ selected ↔ Matched columns columnSelection column
  ordered : selected.Pairwise fun c d =>
    ∀ k, Matched columns (columnSelection.take k) d → Matched columns (columnSelection.take k) c

/-- What the two lists are meant to be: the second one has the selections that match no column. -/
structure Selects (columns columnSelection : List String) (out : List String × List String) :
    Prop where
  selected : SelectsInOrder columns columnSelection out.1
  nonExistent : ∀ sel, sel ∈ out.2 ↔
    sel ∈ columnSelection ∧ ¬ ∃ column, Matches columns sel column

/-- The slice of a selection that is neither a label nor the name of an array has a column. -/
def SlicesFound (columns columnSelection : List String) : Prop :=
  ∀ sel ∈ columnSelection, sel ∉ columns → ¬ NamesArray columns sel →
    ∀ name a b, fullSlice sel = some (name, a, b) →
      ∃ i, a ≤ i ∧ i ≤ b ∧ indexedLabel name i ∈ columns

/-! ## One selection -/

theorem mem_intRange {a b i : Int} : i ∈ intRange a b ↔ a ≤ i ∧ i ≤ b := by
  rw [intRange, List.mem_map]
  constructor
  · rintro ⟨k, hk, rfl⟩
    rw [List.mem_range] at hk
    omega
  · rintro ⟨ha, hb⟩
    refine ⟨(i - a).toNat, List.mem_range.mpr ?_, ?_⟩
    · omega
    · omega

/-- The columns of an array are put together. -/
theorem get_getArrayColumns (columns : List String) (curves : Dict String (List String))
    (name : String) :
    Dict.get (getArrayColumns columns curves) name =
      match columns.filter fun column => arrayName column = some name with
      | [] => Dict.get curves name
      | group => some ((Dict.get curves name).getD [] ++ group) := by
  induction columns generalizing curves with
  | nil => rfl
  | cons c cs ih =>
    rw [getArrayColumns]
    cases harray : arrayName c with
    | none =>
      rw [List.filter_cons_of_neg (by simp [harray])]
      exact ih curves
    | some name' =>
      by_cases hname : name' = name
      · subst hname
        rw [List.filter_cons_of_pos (by simp [harray])]
        dsimp only
        rw [ih, Dict.get_set_self]
        cases cs.filter fun column => arrayName column = some name' with
        | nil => rfl
        | cons d group =>
          dsimp only
          rw [Option.getD_some, List.append_assoc]
          rfl
      · rw [List.filter_cons_of_neg (by simp [harray, hname])]
        dsimp only
        rw [ih, Dict.get_set_of_ne _ _ (Ne.symm hname)]

section

variable {columns : List String} {sel : String}

theorem get_arrays (columns : List String) (sel : String) :
    Dict.get (getArrayColumns columns []) sel =
      if NamesArray columns sel then some (columns.filter fun column => arrayName column = some sel)
      else none := by
  rw [get_getArrayColumns]
  cases hgroup : columns.filter fun column => arrayName column = some sel with
  | nil =>
    refine (if_neg ?_).symm
    rintro ⟨column, hcolumn, harray⟩
    exact List.filter_eq_nil_iff.mp hgroup column hcolumn (decide_eq_true harray)
  | cons d group =>
    have hd : d ∈ columns.filter fun column => arrayName column = some sel := by
      rw [hgroup]
      exact List.mem_cons_self
    rw [List.mem_filter, decide_eq_true_eq] at hd
    exact (if_pos ⟨d, hd⟩).symm

theorem matchingColumns_of_array (h : NamesArray columns sel) :
    matchingColumns columns sel = columns.filter fun column => arrayName column = some sel := by
  rw [matchingColumns, get_arrays, if_pos h]

/-- A slice matches the columns in its range. -/
theorem matchingColumns_of_slice (h : ¬ NamesArray columns sel) {name : String} {a b : Int}
    (hslice : fullSlice sel = some (name, a, b)) :
    matchingColumns columns sel =
      columns.filter fun column => column ∈ (intRange a b).map (indexedLabel name) := by
  rw [matchingColumns, get_arrays, if_neg h, hslice]

theorem matchingColumns_of_plain (h : ¬ NamesArray columns sel) (hslice : fullSlice sel = none) :
    matchingColumns columns sel = [sel] := by
  rw [matchingColumns, get_arrays, if_neg h, hslice]

/-- The selection is not understood: it is no label, no array and no slice. -/
def Unknown (columns : List String) (sel : String) : Prop :=
  sel ∉ columns ∧ ¬ NamesArray columns sel ∧ fullSlice sel = none

/-- The columns that are found are those that the selection matches. -/
theorem mem_matchingColumns (hsel : sel ∉ columns) (hknown : ¬ Unknown columns sel)
    (column : String) : column ∈ matchingColumns columns sel ↔ Matches columns sel column := by
  rw [Matches, if_neg hsel]
  by_cases harray : NamesArray columns sel
  · rw [matchingColumns_of_array harray, if_pos harray, List.mem_filter, decide_eq_true_eq]
  · rw [if_neg harray]
    cases hslice : fullSlice sel with
    | none => exact absurd ⟨hsel, harray, hslice⟩ hknown
    | some slice =>
      obtain ⟨name, a, b⟩ := slice
      rw [matchingColumns_of_slice harray hslice, List.mem_filter, decide_eq_true_eq, List.mem_map]
      refine and_congr_right fun _ => ?_
      constructor
      · rintro ⟨i, hi, rfl⟩
        obtain ⟨ha, hb⟩ := mem_intRange.mp hi
        exact ⟨name, a, b, i, rfl, ha, hb, rfl⟩
      · rintro ⟨_, _, _, i, ⟨⟩, ha, hb, rfl⟩
        exact ⟨i, mem_intRange.mpr ⟨ha, hb⟩, rfl⟩

theorem not_matches_of_unknown (h : Unknown columns sel) (column : String) :
    ¬ Matches columns sel column := by
  obtain ⟨hsel, harray, hslice⟩ := h
  rw [Matches, if_neg hsel, if_neg harray]
  rintro ⟨-, name, a, b, i, hslice', -⟩
  cases hslice.symm.trans hslice'

theorem matches_self (h : sel ∈ columns) (column : String) :
    Matches columns sel column ↔ column = sel := by
  rw [Matches, if_pos h]
  exact and_iff_right_of_imp fun heq => heq ▸ h

end

/-! ## The loop -/

/-- New columns come after those selected before. -/
theorem keys_updateSelected (selected : Dict String Nat) (found : List String) :
    ∃ new, (updateSelected selected found).map Prod.fst = selected.map Prod.fst ++ new ∧
      ∀ c, c ∈ new ↔ c ∈ found ∧ c ∉ selected.map Prod.fst := by
  induction found generalizing selected with
  | nil => exact ⟨[], (List.append_nil _).symm, by simp⟩
  | cons c found ih =>
    obtain ⟨new, hkeys, hnew⟩ := ih (Dict.set selected c 1)
    rw [Dict.keys_set] at hkeys hnew
    by_cases hc : c ∈ selected.map Prod.fst
    · rw [if_pos hc] at hkeys hnew
      refine ⟨new, hkeys, fun d => ?_⟩
      rw [hnew, List.mem_cons]
      refine and_congr_left fun hd => (or_iff_right ?_).symm
      rintro rfl
      exact hd hc
    · rw [if_neg hc] at hkeys hnew
      refine ⟨c :: new, hkeys.trans (List.append_assoc ..), fun d => ?_⟩
      rw [List.mem_cons, hnew, List.mem_cons, List.mem_append, List.mem_singleton]
      by_cases hd : d = c
      · subst hd
        exact iff_of_true (.inl rfl) ⟨.inl rfl, hc⟩
      · simp only [hd, false_or, or_false]

theorem nodup_updateSelected {selected : Dict String Nat} (h : (selected.map Prod.fst).Nodup)
    (found : List String) : ((updateSelected selected found).map Prod.fst).Nodup := by
  induction found generalizing selected with
  | nil => exact h
  | cons c found ih => exact ih (Dict.nodup_keys_set h c 1)

section

variable {columns xs selected new : List String} {sel : String}

theorem matched_concat (columns xs : List String) (sel column : String) :
    Matched columns (xs ++ [sel]) column ↔
      Matched columns xs column ∨ Matches columns sel column := by
  simp only [Matched, List.mem_append, List.mem_singleton, or_and_right, exists_or, exists_eq_left]

/-- One selection more: the columns it matches and that are not selected yet come last. -/
theorem SelectsInOrder.concat (h : SelectsInOrder columns xs selected)
    (hnodup : (selected ++ new).Nodup)
    (hnew : ∀ c, c ∈ new ↔ Matches columns sel c ∧ c ∉ selected) :
    SelectsInOrder columns (xs ++ [sel]) (selected ++ new) := by
  have hmem : ∀ c, c ∈ selected ++ new ↔ Matched columns (xs ++ [sel]) c := by
    intro c
    rw [List.mem_append, hnew, matched_concat, ← h.mem_iff]
    tauto
  refine ⟨hnodup, hmem, ?_⟩
  -- a column is matched before the last selection, or by it
  have htake : ∀ k, (xs ++ [sel]).take k = xs.take k ∨ (xs ++ [sel]).take k = xs ++ [sel] := by
    intro k
    rcases Nat.lt_or_ge xs.length k with hk | hk
    · exact .inr (List.take_of_length_le (by simp; omega))
    · exact .inl (List.take_append_of_le_length hk)
  have hlast : ∀ c ∈ selected ++ new, ∀ d ∈ new, ∀ k,
      Matched columns ((xs ++ [sel]).take k) d → Matched columns ((xs ++ [sel]).take k) c := by
    intro c hc d hd k hmatched
    rcases htake k with hk | hk
    · rw [hk] at hmatched
      obtain ⟨sel', hsel', hmatches⟩ := hmatched
      have hselected := (h.mem_iff d).mpr ⟨sel', List.mem_of_mem_take hsel', hmatches⟩
      exact absurd hselected ((hnew d).mp hd).2
    · rw [hk]
      exact (hmem c).mp hc
  refine List.pairwise_append.mpr ⟨?_, ?_, ?_⟩
  · refine h.ordered.imp_of_mem fun {c d} hc _ hcd k hd => ?_
    rcases htake k with hk | hk
    · rw [hk] at hd ⊢
      exact hcd k hd
    · rw [hk]
      exact (hmem c).mp (List.mem_append_left _ hc)
  · exact List.pairwise_of_forall_mem_list fun c hc d hd =>
      hlast c (List.mem_append_right _ hc) d hd
  · exact fun c hc d hd => hlast c (List.mem_append_left _ hc) d hd

variable {natsorted : List String → List String}

/-- An unknown name is put on the list of these. -/
theorem selectColumn_unknown (state : Dict String Nat × List String) (h : Unknown columns sel) :
    selectColumn natsorted columns state sel = (state.1, state.2 ++ [sel]) := by
  obtain ⟨hsel, harray, hslice⟩ := h
  have hself : [sel].eraseDups = [sel] := rfl
  rw [selectColumn, if_neg hsel, matchingColumns_of_plain harray hslice]
  simp [hsel, hself]

/-- **A known name** selects the columns that it matches. -/
theorem selectColumn_known (hnatsorted : ∀ labels, (natsorted labels).Perm labels)
    (state : Dict String Nat × List String) (h : ¬ Unknown columns sel) :
    ∃ found, (∀ c, c ∈ found ↔ Matches columns sel c) ∧
      selectColumn natsorted columns state sel = (updateSelected state.1 found, state.2) := by
  by_cases hsel : sel ∈ columns
  · refine ⟨[sel], fun c => ?_, if_pos hsel⟩
    rw [matches_self hsel, List.mem_singleton]
  · have hmem := mem_matchingColumns hsel h
    have hall : (matchingColumns columns sel).all (· ∈ columns) = true :=
      List.all_eq_true.mpr fun c hc => decide_eq_true ((hmem c).mp hc).1
    refine ⟨natsorted (matchingColumns columns sel), fun c => ?_, ?_⟩
    · rw [(hnatsorted _).mem_iff, hmem]
    · rw [selectColumn, if_neg hsel]
      exact if_pos hall

/-- **The loop** selects what is matched, and lists the selections it does not understand. -/
theorem foldl_selectColumn (hnatsorted : ∀ labels, (natsorted labels).Perm labels)
    (columnSelection : List String) :
    SelectsInOrder columns columnSelection
        ((columnSelection.foldl (selectColumn natsorted columns) ([], [])).1.map Prod.fst) ∧
      ∀ sel, sel ∈ (columnSelection.foldl (selectColumn natsorted columns) ([], [])).2 ↔
        sel ∈ columnSelection ∧ Unknown columns sel := by
  -- induction from the end: the loop looks at one name after those before it
  induction columnSelection using List.reverseRecOn with
  | nil => exact ⟨⟨List.nodup_nil, by simp [Matched], .nil⟩, by simp⟩
  | append_singleton xs sel ih =>
    obtain ⟨hselected, hunknown⟩ := ih
    rw [List.foldl_append, List.foldl_cons, List.foldl_nil]
    generalize xs.foldl (selectColumn natsorted columns) ([], []) = state at hselected hunknown ⊢
    by_cases h : Unknown columns sel
    · rw [selectColumn_unknown state h]
      refine ⟨?_, fun sel' => ?_⟩
      · have hnone : ∀ c, c ∈ ([] : List String) ↔
            Matches columns sel c ∧ c ∉ state.1.map Prod.fst :=
          fun c => iff_of_false List.not_mem_nil fun hc => not_matches_of_unknown h c hc.1
        have hconcat := hselected.concat (by rw [List.append_nil]; exact hselected.nodup) hnone
        rwa [List.append_nil] at hconcat
      · rw [List.mem_append, hunknown, List.mem_append, List.mem_singleton]
        constructor
        · rintro (⟨hmem, hunknown'⟩ | rfl)
          · exact ⟨.inl hmem, hunknown'⟩
          · exact ⟨.inr rfl, h⟩
        · rintro ⟨hmem | rfl, hunknown'⟩
          · exact .inl ⟨hmem, hunknown'⟩
          · exact .inr rfl
    · obtain ⟨found, hfound, hstep⟩ := selectColumn_known hnatsorted state h
      obtain ⟨new, hkeys, hnew⟩ := keys_updateSelected state.1 found
      rw [hstep]
      refine ⟨?_, fun sel' => ?_⟩
      · have hnodup := nodup_updateSelected hselected.nodup found
        rw [hkeys] at hnodup ⊢
        exact hselected.concat hnodup fun c => by rw [hnew, hfound]
      · rw [hunknown, List.mem_append, List.mem_singleton]
        refine and_congr_left fun hunknown' => (or_iff_left ?_).symm
        -- a known name is not put on the list of unknown ones
        rintro rfl
        exact h hunknown'

/-- An array's name matches each of its columns. -/
theorem matches_of_array (hsel : sel ∉ columns) {column : String} (hcolumn : column ∈ columns)
    (harray : arrayName column = some sel) : Matches columns sel column := by
  refine ⟨hcolumn, ?_⟩
  rw [if_neg hsel, if_pos ⟨column, hcolumn, harray⟩]
  exact harray

/-- A selection that matches nothing is not understood, unless it is a slice. -/
theorem unknown_or_slice (h : ¬ ∃ column, Matches columns sel column) :
    sel ∉ columns ∧ ¬ NamesArray columns sel := by
  have hsel : sel ∉ columns := fun hsel => h ⟨sel, (matches_self hsel sel).mpr rfl⟩
  exact ⟨hsel, fun ⟨column, hcolumn, harray⟩ => h ⟨column, matches_of_array hsel hcolumn harray⟩⟩

/-- **The columns are selected as they are meant to** exactly if every slice has a column. -/
theorem selects_iff (hnatsorted : ∀ labels, (natsorted labels).Perm labels)
    (columnSelection : List String) :
    Selects columns columnSelection (selectColumns natsorted columns columnSelection) ↔
      SlicesFound columns columnSelection := by
  obtain ⟨hselected, hunknown⟩ := foldl_selectColumn hnatsorted columnSelection
  constructor
  · intro h sel hmem hsel harray name a b hslice
    -- a slice without a column selects nothing, and is on no list either
    by_contra hnone
    have hnot : ¬ ∃ column, Matches columns sel column := by
      rintro ⟨column, hcolumn, hmatches⟩
      rw [if_neg hsel, if_neg harray] at hmatches
      obtain ⟨_, _, _, i, hslice', ha, hb, rfl⟩ := hmatches
      cases hslice.symm.trans hslice'
      exact hnone ⟨i, ha, hb, hcolumn⟩
    have hout := (h.nonExistent sel).mpr ⟨hmem, hnot⟩
    obtain ⟨-, -, -, hnoSlice⟩ := (hunknown sel).mp hout
    cases hslice.symm.trans hnoSlice
  · intro h
    refine ⟨hselected, fun sel => (hunknown sel).trans (and_congr_right fun hmem => ?_)⟩
    constructor
    · rintro hsel ⟨column, hcolumn⟩
      exact not_matches_of_unknown hsel column hcolumn
    · intro hnot
      -- what selects nothing is unknown, or a slice
      obtain ⟨hsel, harray⟩ := unknown_or_slice hnot
      refine ⟨hsel, harray, ?_⟩
      cases hslice : fullSlice sel with
      | none => rfl
      | some slice =>
        obtain ⟨name, a, b⟩ := slice
        obtain ⟨i, ha, hb, hcolumn⟩ := h sel hmem hsel harray name a b hslice
        refine absurd ⟨indexedLabel name i, hcolumn, ?_⟩ hnot
        rw [if_neg hsel, if_neg harray]
        exact ⟨name, a, b, i, hslice, ha, hb, rfl⟩

end

/-! ## Selections of an array -/

/-- The columns of the examples, in natural order. -/
def arrayColumns : List String := ["A[0]", "A[1]", "A[2]", "D"]

theorem slicesFound_arrayColumns : SlicesFound arrayColumns ["A[1:5]", "D", "X", "A"] := by
  intro sel hmem hsel harray name a b hslice
  simp only [List.mem_cons, List.not_mem_nil, or_false] at hmem
  rcases hmem with rfl | rfl | rfl | rfl
  · have hread : fullSlice "A[1:5]" = some ("A", 1, 5) := by decide
    cases hread.symm.trans hslice
    exact ⟨1, by decide, by decide, by decide⟩
  · exact absurd (by decide) hsel
  · have hread : fullSlice "X" = none := by decide
    cases hread.symm.trans hslice
  · exact absurd (by decide) harray

/-- What is selected of the sample. -/
theorem array_columns_selected :
    Selects arrayColumns ["A[1:5]", "D", "X", "A"]
      (selectColumns id arrayColumns ["A[1:5]", "D", "X", "A"]) :=
  (selects_iff (fun labels => .refl labels) _).mpr slicesFound_arrayColumns

/-- **A slice without columns** is in neither list. -/
theorem empty_slice_not_listed :
    ¬ Selects arrayColumns ["A[5:7]"] (selectColumns id arrayColumns ["A[5:7]"]) := by
  intro h
  have hknown : ¬ Unknown arrayColumns "A[5:7]" := fun hunknown => by
    cases hunknown.2.2.symm.trans (by decide : fullSlice "A[5:7]" = some ("A", 5, 7))
  have hmatching : matchingColumns arrayColumns "A[5:7]" = [] := by decide
  have hnone : ¬ ∃ column, Matches arrayColumns "A[5:7]" column := by
    rintro ⟨column, hcolumn⟩
    have hmem := (mem_matchingColumns (by decide) hknown column).mpr hcolumn
    rw [hmatching] at hmem
    cases hmem
  have hout : (selectColumns id arrayColumns ["A[5:7]"]).2 = [] := by decide
  have hmem := (h.nonExistent "A[5:7]").mpr ⟨List.mem_singleton_self _, hnone⟩
  rw [hout] at hmem
  cases hmem

end WellboreDdms
