import WellboreDdms.Consistency.Columns
import Mathlib.Algebra.Ring.Int.Defs
import Mathlib.Data.List.Induction
import Mathlib.Data.List.Nodup

/-!
# Columns grouped into curves

Grouping is meant to put every column of a dataframe into the group of its curve.

- `columnsOf`: the columns of a curve.
- `NamesApart`: no column is named like an array that is there too.
- `get_groupCurveColumns`: the groups are the columns of the curves, where the names are apart.
- `partitioned_iff`: the groups are a partition, in whatever order the labels come, exactly there.
-/

namespace WellboreDdms

open Python

/-- The columns of the curve `name`, in order. -/
def columnsOf (labels : List String) (name : String) : List String :=
  labels.filter fun label => curveName label = name

/-- No label is that of a column and the name of an array. -/
def NamesApart (labels : List String) : Prop :=
  ∀ c ∈ labels, arrayName c = none → ∀ d ∈ labels, arrayName d ≠ some c

instance (labels : List String) : Decidable (NamesApart labels) :=
  inferInstanceAs (Decidable
    (∀ c ∈ labels, arrayName c = none → ∀ d ∈ labels, arrayName d ≠ some c))

/-- The groups contain each label once, under its name; both groupings count them, and their order
is the only thing that depends on that of the labels. -/
structure Partitioned (labels : List String) : Prop where
  columns : ((groupCurveColumns labels []).flatMap Prod.snd).Perm labels
  count : ((describedCurves labels).map Prod.snd).sum = labels.length
  names : ∀ p ∈ groupCurveColumns labels [], ∀ label ∈ p.2,
    label = p.1 ∨ ∃ index, label = p.1 ++ "[" ++ index ++ "]"
  posted : postedCurves labels = describedCurves labels
  permuted : ∀ other, other.Perm labels → ∀ name,
    (Dict.contains (groupCurveColumns other []) name =
      Dict.contains (groupCurveColumns labels []) name) ∧
    ∀ label, label ∈ (Dict.get (groupCurveColumns other []) name).getD [] ↔
      label ∈ (Dict.get (groupCurveColumns labels []) name).getD []

/-! ## The name of an array -/

/-- The name ends at the last bracket that opens an index. -/
theorem nameBefore_eq_some {before s name : List Char} (h : nameBefore before s = some name) :
    ∃ index, before.reverse ++ s = name ++ '[' :: index ∧ index ≠ [] := by
  induction s generalizing before with
  | nil => cases h
  | cons c s ih =>
    rw [nameBefore] at h
    split at h
    · cases h
      obtain ⟨index, hindex, hne⟩ := ih ‹_›
      refine ⟨index, ?_, hne⟩
      rw [← hindex, List.reverse_cons, List.append_assoc, List.singleton_append]
    · split at h
      · rename_i hbefore
        cases h
        simp only [Bool.and_eq_true, decide_eq_true_eq] at hbefore
        obtain ⟨⟨⟨rfl, -⟩, -⟩, hslice⟩ := hbefore
        refine ⟨s, rfl, ?_⟩
        rintro rfl
        cases hslice
      · cases h

/-- The label of an array column is its name and an index in brackets. -/
theorem arrayName_eq_some {label name : String} (hline : '\n' ∉ label.toList)
    (h : arrayName label = some name) : ∃ index, label = name ++ "[" ++ index ++ "]" := by
  have hlast : dropLastLineFeed label.toList = label.toList :=
    if_neg fun hfeed => hline (List.mem_of_getLast? hfeed)
  rw [arrayName, hlast] at h
  obtain ⟨chars, hchars, rfl⟩ := Option.map_eq_some_iff.mp h
  obtain ⟨hbracket, hbefore⟩ := Option.ite_none_right_eq_some.mp hchars
  obtain ⟨index, hindex, -⟩ := nameBefore_eq_some hbefore
  refine ⟨String.ofList index, String.toList_inj.mp ?_⟩
  have hlabel : label.toList = label.toList.dropLast ++ [']'] :=
    (List.dropLast_append_getLast? _ hbracket).symm
  rw [hlabel, ← List.nil_append label.toList.dropLast, ← List.reverse_nil, hindex]
  simp

/-! ## The groups -/

/-- The labels are grouped one after the other. -/
theorem groupCurveColumns_append (xs ys : List String) (curves : Dict String (List String)) :
    groupCurveColumns (xs ++ ys) curves = groupCurveColumns ys (groupCurveColumns xs curves) := by
  induction xs generalizing curves with
  | nil => rfl
  | cons c xs ih =>
    rw [List.cons_append, groupCurveColumns, groupCurveColumns]
    split
    · exact ih _
    · exact ih _

/-- One label more: it is put into the group of its array, or is a group of its own. -/
theorem groupCurveColumns_concat (labels : List String) (c : String) :
    groupCurveColumns (labels ++ [c]) [] =
      Dict.set (groupCurveColumns labels []) (curveName c)
        (match arrayName c with
          | some name => (Dict.get (groupCurveColumns labels []) name).getD [] ++ [c]
          | none => [c]) := by
  rw [groupCurveColumns_append, groupCurveColumns, curveName]
  cases arrayName c with
  | none => rfl
  | some name => rfl

theorem nodup_keys_groupCurveColumns (labels : List String) :
    ((groupCurveColumns labels []).map Prod.fst).Nodup := by
  induction labels using List.reverseRecOn with
  | nil => exact List.nodup_nil
  | append_singleton labels c ih =>
    rw [groupCurveColumns_concat]
    exact Dict.nodup_keys_set ih _ _

/-- The columns of a name after one more label. -/
theorem columnsOf_concat (labels : List String) (c name : String) :
    columnsOf (labels ++ [c]) name =
      columnsOf labels name ++ if curveName c = name then [c] else [] := by
  rw [columnsOf, List.filter_append, List.filter_singleton, columnsOf]
  simp

/-- The columns of a name are the labels of that name. -/
theorem mem_columnsOf {labels : List String} {name label : String} :
    label ∈ columnsOf labels name ↔ label ∈ labels ∧ curveName label = name := by
  rw [columnsOf, List.mem_filter, decide_eq_true_eq]

/-- A label is that of a column or of an array. -/
theorem curveName_eq {label name : String} (h : curveName label = name) :
    arrayName label = some name ∨ arrayName label = none ∧ label = name := by
  unfold curveName at h
  cases harray : arrayName label with
  | none =>
    rw [harray] at h
    exact .inr ⟨rfl, h⟩
  | some name' =>
    rw [harray] at h
    exact .inl (congrArg some h)

/-- **The groups are the curves**, if no array has the name of a column. -/
theorem get_groupCurveColumns {labels : List String} (hnodup : labels.Nodup)
    (hapart : NamesApart labels) (name : String) :
    Dict.get (groupCurveColumns labels []) name =
      if columnsOf labels name = [] then none else some (columnsOf labels name) := by
  induction labels using List.reverseRecOn with
  | nil => rfl
  | append_singleton labels c ih =>
    have hsub : ∀ d ∈ labels, d ∈ labels ++ [c] := fun d hd => List.mem_append_left _ hd
    obtain ⟨hlabels, -, hnew⟩ := List.nodup_append.mp hnodup
    have ih := ih hlabels
      fun d hd hnone d' hd' => hapart d (hsub d hd) hnone d' (hsub d' hd')
    have hself : c ∈ labels ++ [c] := List.mem_append_right _ (List.mem_singleton_self c)
    rw [groupCurveColumns_concat, columnsOf_concat]
    by_cases hname : curveName c = name
    · rw [hname, Dict.get_set_self, if_pos rfl, if_neg (List.concat_ne_nil c _)]
      rcases curveName_eq hname with harray | ⟨hcolumn, rfl⟩
      · rw [harray, Option.some.injEq]
        dsimp only
        rw [ih]
        split
        · rename_i hnil
          rw [hnil]
          rfl
        · rfl
      · -- the group of a column is new
        have hnil : columnsOf labels c = [] := by
          refine List.filter_eq_nil_iff.mpr fun d hd hcurve => ?_
          rcases curveName_eq (of_decide_eq_true hcurve) with harray | ⟨-, rfl⟩
          · exact hapart c hself hcolumn d (hsub d hd) harray
          · exact hnew d hd d (List.mem_singleton_self d) rfl
        rw [hcolumn, hnil]
        rfl
    · rw [Dict.get_set_of_ne _ _ (Ne.symm hname), if_neg hname, List.append_nil, ih]

section

variable {labels : List String}

/-- **The group of a name** has its columns, in their order. -/
theorem getD_groupCurveColumns (hnodup : labels.Nodup) (hapart : NamesApart labels)
    (name : String) :
    (Dict.get (groupCurveColumns labels []) name).getD [] = columnsOf labels name := by
  rw [get_groupCurveColumns hnodup hapart]
  split
  · rename_i hnil
    exact hnil.symm
  · rfl

theorem eq_columnsOf_of_mem (hnodup : labels.Nodup) (hapart : NamesApart labels)
    {p : String × List String} (hp : p ∈ groupCurveColumns labels []) :
    p.2 = columnsOf labels p.1 := by
  have hget := Dict.get_of_mem (nodup_keys_groupCurveColumns labels) hp
  rw [← getD_groupCurveColumns hnodup hapart, hget]
  rfl

/-- The groups contain each label once. -/
theorem groups_perm (hnodup : labels.Nodup) (hapart : NamesApart labels) :
    ((groupCurveColumns labels []).flatMap Prod.snd).Perm labels := by
  have hgroup : ∀ p ∈ groupCurveColumns labels [], p.2 = columnsOf labels p.1 :=
    fun p hp => eq_columnsOf_of_mem hnodup hapart hp
  have honce : ((groupCurveColumns labels []).flatMap Prod.snd).Nodup := by
    refine List.nodup_flatMap.mpr ⟨fun p hp => ?_, ?_⟩
    · rw [hgroup p hp]
      exact hnodup.filter _
    · have hkeys := List.pairwise_map.mp (nodup_keys_groupCurveColumns labels)
      refine hkeys.imp_of_mem fun {p q} hp hq hne label hlabel hlabel' => hne ?_
      rw [hgroup p hp, mem_columnsOf] at hlabel
      rw [hgroup q hq, mem_columnsOf] at hlabel'
      exact hlabel.2.symm.trans hlabel'.2
  refine (List.perm_ext_iff_of_nodup honce hnodup).mpr fun label => ?_
  rw [List.mem_flatMap]
  constructor
  · rintro ⟨p, hp, hlabel⟩
    rw [hgroup p hp] at hlabel
    exact (mem_columnsOf.mp hlabel).1
  · intro hlabel
    have hmem : label ∈ columnsOf labels (curveName label) := mem_columnsOf.mpr ⟨hlabel, rfl⟩
    have hget := get_groupCurveColumns hnodup hapart (curveName label)
    rw [if_neg (List.ne_nil_of_mem hmem)] at hget
    exact ⟨_, Dict.mem_of_get hget, hmem⟩

theorem sum_sizes (curves : Dict String (List String)) :
    ((sizes curves).map Prod.snd).sum = (curves.flatMap Prod.snd).length := by
  induction curves with
  | nil => rfl
  | cons p curves ih =>
    rw [List.flatMap_cons, List.length_append, Int.natCast_add, ← ih]
    rfl

theorem contains_perm {other : List String} (hperm : other.Perm labels) (name : String) :
    Dict.contains (groupCurveColumns other []) name =
      Dict.contains (groupCurveColumns labels []) name := by
  rw [Bool.eq_iff_iff, contains_groupCurveColumns, contains_groupCurveColumns,
    (hperm.map curveName).mem_iff]

theorem NamesApart.perm {other : List String} (hapart : NamesApart labels)
    (hperm : other.Perm labels) : NamesApart other :=
  fun c hc hnone d hd => hapart c (hperm.mem_iff.mp hc) hnone d (hperm.mem_iff.mp hd)

/-- What is in a group stays there until a column of that name comes. -/
theorem mem_group_of_mem {c d : String} {curves : Dict String (List String)}
    (hd : d ∈ (Dict.get curves c).getD []) (hc : c ∉ labels) :
    d ∈ (Dict.get (groupCurveColumns labels curves) c).getD [] := by
  induction labels generalizing curves with
  | nil => exact hd
  | cons l labels ih =>
    obtain ⟨hne, hc⟩ := not_or.mp (List.mem_cons.not.mp hc)
    rw [groupCurveColumns]
    split
    · rename_i name _
      refine ih ?_ hc
      by_cases hname : name = c
      · subst hname
        rw [Dict.get_set_self]
        exact List.mem_append_left _ hd
      · rwa [Dict.get_set_of_ne _ _ (Ne.symm hname)]
    · refine ih ?_ hc
      rwa [Dict.get_set_of_ne _ _ hne]

/-- A column of an array is in the group of its name, unless a label overwrites it. -/
theorem mem_group_of_arrayName {c d : String} (harray : arrayName d = some c) (hd : d ∈ labels)
    (hc : c ∉ labels) (curves : Dict String (List String)) :
    d ∈ (Dict.get (groupCurveColumns labels curves) c).getD [] := by
  induction labels generalizing curves with
  | nil => cases hd
  | cons l labels ih =>
    have hrest : c ∉ labels := fun hmem => hc (List.mem_cons_of_mem l hmem)
    rcases List.mem_cons.mp hd with heq | hd
    · rw [groupCurveColumns, ← heq, harray]
      refine mem_group_of_mem ?_ hrest
      rw [Dict.get_set_self]
      exact List.mem_append_right _ (List.mem_singleton_self d)
    · rw [groupCurveColumns]
      split
      · exact ih hd hrest _
      · exact ih hd hrest _

/-- The group of an array is lost when its name comes after it, as that of a column. -/
theorem namesApart_of_permuted (hnodup : labels.Nodup)
    (hperm : ∀ other, other.Perm labels → ∀ name label,
      label ∈ (Dict.get (groupCurveColumns other []) name).getD [] ↔
        label ∈ (Dict.get (groupCurveColumns labels []) name).getD []) :
    NamesApart labels := by
  intro c hc hcolumn d hd harray
  have hne : d ≠ c := by
    rintro rfl
    cases hcolumn.symm.trans harray
  have hd' : d ∈ labels.erase c := (List.mem_erase_of_ne hne).mpr hd
  have hfirst : d ∈ (Dict.get (groupCurveColumns (c :: labels.erase c) []) c).getD [] := by
    rw [groupCurveColumns, hcolumn]
    exact mem_group_of_arrayName harray hd' (hnodup.not_mem_erase) _
  have hlast : d ∉ (Dict.get (groupCurveColumns (labels.erase c ++ [c]) []) c).getD [] := by
    have hname : curveName c = c := by rw [curveName, hcolumn]; rfl
    rw [groupCurveColumns_concat, hname, Dict.get_set_self, hcolumn]
    exact fun h => hne (List.mem_singleton.mp h)
  have hcons := (List.perm_cons_erase hc).symm
  have hconcat := (List.perm_append_singleton c (labels.erase c)).trans hcons
  exact hlast ((hperm _ hconcat c d).mpr ((hperm _ hcons c d).mp hfirst))

/-- **Grouping is a partition** exactly if the names are apart. -/
theorem partitioned_iff (hnodup : labels.Nodup)
    (hlabels : ∀ label ∈ labels, label ≠ "" ∧ '\n' ∉ label.toList) :
    Partitioned labels ↔ NamesApart labels := by
  constructor
  · intro h
    exact namesApart_of_permuted hnodup fun other hother name => (h.permuted other hother name).2
  · intro hapart
    have hperm := groups_perm hnodup hapart
    refine ⟨hperm, ?_, fun p hp label hlabel => ?_, ?_, fun other hother name => ⟨?_, ?_⟩⟩
    · rw [describedCurves, sum_sizes, hperm.length_eq]
    · rw [eq_columnsOf_of_mem hnodup hapart hp, mem_columnsOf] at hlabel
      rcases curveName_eq hlabel.2 with harray | ⟨-, hself⟩
      · exact .inr (arrayName_eq_some (hlabels label hlabel.1).2 harray)
      · exact .inl hself
    · have hempty : "" ∉ labels := fun hmem => (hlabels "" hmem).1 rfl
      have hfull : Dict.erase (describedCurves labels) "" = describedCurves labels := by
        refine List.filter_eq_self.mpr fun p hp => decide_eq_true fun hp' => hempty ?_
        rw [← contains_describedCurves_empty, Dict.contains_iff, ← hp']
        exact List.mem_map_of_mem hp
      rw [← erase_describedCurves, hfull]
    · exact contains_perm hother name
    · intro label
      rw [getD_groupCurveColumns hnodup hapart,
        getD_groupCurveColumns (hother.nodup_iff.mpr hnodup) (hapart.perm hother), mem_columnsOf,
        mem_columnsOf, hother.mem_iff]

end

/-- Two arrays and a curve. -/
theorem partitioned_arrays : Partitioned ["A", "B[0]", "C[0][1]", "B[1]", "C[0][2]"] :=
  (partitioned_iff (by decide) (by decide)).mpr (by decide)

/-- **A column is lost**: the column `A` takes the place of the array `A`. -/
theorem not_partitioned_column_after_array : ¬ Partitioned ["A[0]", "A"] := by
  intro h
  exact absurd h.count (by decide)

end WellboreDdms
