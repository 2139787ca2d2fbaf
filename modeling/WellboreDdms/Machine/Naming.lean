import Mathlib.Data.List.Nodup
import Mathlib.Data.List.Perm.Basic

/-!
# Names for a list of things

Some things carry a name, and for each of them another one can be generated. They are named in
order: a thing keeps the name it carries unless a thing before it was given this name.

- `assigned`: the names so given. They need not be distinct, since a generated name is not
  compared with the others.
- `renamed`: the things that carry no name, or one that a thing before them carries. This
  depends on the names carried alone, and so does `intended`: each of these things has its
  generated name, and the others keep theirs.
- `Unambiguous`: the generated names of `renamed` things are distinct, and no thing carries one.
- `unambiguous_iff`: so it is if and only if the assigned names are distinct and whoever carries
  a name first has it. The names are then the intended ones (`assigned_eq_intended`).
-/

namespace Machine

namespace Naming

universe u v

variable {ι : Type u} {α : Type v} (carried : ι → Option α) (generated : ι → α)

/-- The thing carries no name, or one of those taken. -/
def Unnamed (taken : List α) (i : ι) : Prop := ∀ a ∈ carried i, a ∈ taken

/-- Whoever carries a name first has it, unless the name was carried `before`. -/
def KeepsFirst (before : List α) (ps : List (ι × α)) : Prop :=
  ∀ qs i a rs, ps = qs ++ (i, a) :: rs → ∀ b, carried i = some b → b ∉ before →
    (∀ q ∈ qs, carried q.1 ≠ some b) → a = b

section

variable {carried}

/-- What is not without a name carries one that is not taken. -/
theorem exists_of_not_unnamed {taken : List α} {i : ι} (h : ¬ Unnamed carried taken i) :
    ∃ a, carried i = some a ∧ a ∉ taken := by
  unfold Unnamed at h
  push Not at h
  exact h

/-- The names carried before, once one more thing is named. -/
theorem mem_carried_append {i : ι} {a : α} {before : List α} :
    a ∈ (carried i).toList ++ before ↔ carried i = some a ∨ a ∈ before := by
  rw [List.mem_append, Option.mem_toList]

/-- The first thing is named, and so are the others, for whom its name counts as carried before. -/
theorem keepsFirst_cons {before : List α} {i : ι} {a : α} {ps : List (ι × α)} :
    KeepsFirst carried before ((i, a) :: ps) ↔
      (∀ b, carried i = some b → b ∉ before → a = b) ∧
        KeepsFirst carried ((carried i).toList ++ before) ps := by
  constructor
  · intro h
    refine ⟨fun b hb hnot => h [] i a ps rfl b hb hnot (by simp), ?_⟩
    rintro qs j c rs rfl b hb hnot hfirst
    obtain ⟨hi, hbefore⟩ := not_or.mp (mem_carried_append.not.mp hnot)
    refine h ((i, a) :: qs) j c rs rfl b hb hbefore fun q hq => ?_
    rcases List.mem_cons.mp hq with rfl | hq
    · exact hi
    · exact hfirst q hq
  · rintro ⟨hhead, hrest⟩ qs j c rs heq b hb hnot hfirst
    cases qs with
    | nil =>
      obtain ⟨hp, -⟩ := List.cons.inj heq
      cases hp
      exact hhead b hb hnot
    | cons q qs =>
      obtain ⟨rfl, rfl⟩ := List.cons.inj heq
      refine hrest qs j c rs rfl b hb (mem_carried_append.not.mpr (not_or.mpr ⟨?_, hnot⟩)) ?_
      · exact hfirst _ List.mem_cons_self
      · exact fun q hq => hfirst q (List.mem_cons_of_mem _ hq)

/-- The same on the things, if each is named once. -/
theorem keepsFirst_iff_mem {ps : List (ι × α)} (hnodup : (ps.map Prod.fst).Nodup) :
    KeepsFirst carried [] ps ↔
      ∀ is i js, ps.map Prod.fst = is ++ i :: js → ∀ a, carried i = some a →
        (∀ j ∈ is, carried j ≠ some a) → (i, a) ∈ ps := by
  constructor
  · intro h is i js heq a ha hfirst
    obtain ⟨qs, ps', rfl, rfl, hrest⟩ := List.map_eq_append_iff.mp heq
    obtain ⟨p, rs, rfl, rfl, rfl⟩ := List.map_eq_cons_iff.mp hrest
    have hname := h qs p.1 p.2 rs rfl a ha List.not_mem_nil fun q hq =>
      hfirst q.1 (List.mem_map_of_mem hq)
    rw [← hname]
    exact List.mem_append_right qs List.mem_cons_self
  · rintro h qs i a rs rfl b hb - hfirst
    rw [List.map_append, List.map_cons] at h
    have hmem := h _ i _ rfl b hb fun j hj => by
      obtain ⟨q, hq, rfl⟩ := List.mem_map.mp hj
      exact hfirst q hq
    have hsame : (i, a) = (i, b) :=
      List.inj_on_of_nodup_map hnodup (List.mem_append_right qs List.mem_cons_self) hmem rfl
    exact (Prod.mk.inj hsame).2

end

variable [DecidableEq α]

instance (taken : List α) (i : ι) : Decidable (Unnamed carried taken i) :=
  inferInstanceAs (Decidable (∀ a ∈ carried i, a ∈ taken))

/-- The name an item carries, or else the generated one. -/
def name (taken : List α) (i : ι) : α :=
  match carried i with
  | some a => if a ∈ taken then generated i else a
  | none => generated i

/-- The things with their names; those in `taken` were given to others before. -/
def assigned : List α → List ι → List (ι × α)
  | _, [] => []
  | taken, i :: is =>
    (i, name carried generated taken i) :: assigned (name carried generated taken i :: taken) is

/-- The things with their names, where only the names carried count as taken. -/
def intended : List α → List ι → List (ι × α)
  | _, [] => []
  | before, i :: is =>
    (i, name carried generated before i) :: intended ((carried i).toList ++ before) is

/-- The things that do not have the name they carry. -/
def regenerated : List α → List ι → List ι
  | _, [] => []
  | taken, i :: is =>
    if Unnamed carried taken i then
      i :: regenerated (name carried generated taken i :: taken) is
    else regenerated (name carried generated taken i :: taken) is

/-- The things whose name is not intended to be the one they carry. -/
def renamed : List α → List ι → List ι
  | _, [] => []
  | before, i :: is =>
    if Unnamed carried before i then i :: renamed ((carried i).toList ++ before) is
    else renamed ((carried i).toList ++ before) is

/-- The names that are carried, each once. -/
def kept : List α → List ι → List α
  | _, [] => []
  | before, i :: is =>
    if Unnamed carried before i then kept ((carried i).toList ++ before) is
    else (carried i).toList ++ kept ((carried i).toList ++ before) is

/-- The generated names are distinct, and no item carries one of them. -/
structure Unambiguous (is : List ι) : Prop where
  distinct : ((renamed carried [] is).map generated).Nodup
  not_carried : ∀ i ∈ renamed carried [] is, generated i ∉ is.filterMap carried

variable {carried generated}

/-- An item without a name of its own gets the generated one. -/
theorem name_of_unnamed {taken : List α} {i : ι} (h : Unnamed carried taken i) :
    name carried generated taken i = generated i := by
  unfold name
  split
  · next a ha => exact if_pos (h a ha)
  · rfl

theorem name_of_not_mem {taken : List α} {i : ι} {a : α} (ha : carried i = some a)
    (hnot : a ∉ taken) : name carried generated taken i = a := by
  rw [name, ha]
  exact if_neg hnot

/-- Only whether the item has a name of its own matters. -/
theorem name_congr {taken before : List α} {i : ι}
    (h : Unnamed carried taken i ↔ Unnamed carried before i) :
    name carried generated taken i = name carried generated before i := by
  by_cases hi : Unnamed carried before i
  · rw [name_of_unnamed hi, name_of_unnamed (h.mpr hi)]
  · obtain ⟨a, ha, hnot⟩ := exists_of_not_unnamed hi
    obtain ⟨b, hb, hnot'⟩ := exists_of_not_unnamed (h.not.mpr hi)
    rw [name_of_not_mem ha hnot, name_of_not_mem hb hnot']
    exact Option.some.inj (hb.symm.trans ha)

@[simp] theorem map_fst_assigned (taken : List α) (is : List ι) :
    (assigned carried generated taken is).map Prod.fst = is := by
  induction is generalizing taken with
  | nil => rfl
  | cons i is ih => rw [assigned, List.map_cons, ih]

/-! ## The intended names -/

/-- An intended name is one carried for the first time, or is generated for a thing that is
to be renamed. -/
theorem mem_intended {before : List α} {is : List ι} {i : ι} {a : α}
    (h : (i, a) ∈ intended carried generated before is) :
    carried i = some a ∨ (i ∈ renamed carried before is ∧ a = generated i) := by
  induction is generalizing before with
  | nil => cases h
  | cons j is ih =>
    rw [intended] at h
    rw [renamed]
    by_cases hj : Unnamed carried before j
    · rw [if_pos hj]
      rcases List.mem_cons.mp h with heq | h
      · cases heq
        exact .inr ⟨List.mem_cons_self, name_of_unnamed hj⟩
      · exact (ih h).imp_right fun hi => ⟨List.mem_cons_of_mem _ hi.1, hi.2⟩
    · rw [if_neg hj]
      rcases List.mem_cons.mp h with heq | h
      · obtain ⟨b, hb, hnot⟩ := exists_of_not_unnamed hj
        cases heq
        rw [name_of_not_mem hb hnot]
        exact .inl hb
      · exact ih h

/-- The renamed items are items of the list. -/
theorem mem_of_mem_renamed {before : List α} {is : List ι} {i : ι}
    (h : i ∈ renamed carried before is) : i ∈ is := by
  induction is generalizing before with
  | nil => cases h
  | cons j is ih =>
    rw [renamed] at h
    split at h
    · rcases List.mem_cons.mp h with rfl | h
      · exact List.mem_cons_self
      · exact List.mem_cons_of_mem _ (ih h)
    · exact List.mem_cons_of_mem _ (ih h)

/-- A renamed item is meant to have its generated name. -/
theorem mem_intended_of_mem_renamed {before : List α} {is : List ι} {i : ι}
    (h : i ∈ renamed carried before is) :
    (i, generated i) ∈ intended carried generated before is := by
  induction is generalizing before with
  | nil => cases h
  | cons j is ih =>
    rw [renamed] at h
    rw [intended]
    split at h
    · next hj =>
      rcases List.mem_cons.mp h with rfl | h
      · rw [name_of_unnamed hj]
        exact List.mem_cons_self
      · exact List.mem_cons_of_mem _ (ih h)
    · exact List.mem_cons_of_mem _ (ih h)

/-- The intended names are those carried, each once, and the generated ones. -/
theorem intended_perm (before : List α) (is : List ι) :
    ((intended carried generated before is).map Prod.snd).Perm
      (kept carried before is ++ (renamed carried before is).map generated) := by
  induction is generalizing before with
  | nil => exact .nil
  | cons i is ih =>
    rw [intended, kept, renamed, List.map_cons]
    by_cases hi : Unnamed carried before i
    · rw [if_pos hi, if_pos hi, name_of_unnamed hi, List.map_cons]
      exact ((ih _).cons _).trans List.perm_middle.symm
    · obtain ⟨a, ha, hnot⟩ := exists_of_not_unnamed hi
      rw [if_neg hi, if_neg hi, name_of_not_mem ha hnot, ha]
      exact (ih _).cons _

/-- The names kept are those carried and not taken before. -/
theorem mem_kept {before : List α} {is : List ι} {a : α} :
    a ∈ kept carried before is ↔ a ∈ is.filterMap carried ∧ a ∉ before := by
  induction is generalizing before with
  | nil => simp [kept]
  | cons i is ih =>
    have hcons : a ∈ (i :: is).filterMap carried ↔
        carried i = some a ∨ a ∈ is.filterMap carried := by simp
    rw [kept, hcons]
    by_cases hi : Unnamed carried before i
    · have hbefore : carried i = some a → a ∈ before := hi a
      rw [if_pos hi, ih, mem_carried_append]
      tauto
    · obtain ⟨b, hb, hnot⟩ := exists_of_not_unnamed hi
      have hbefore : carried i = some a → a ∉ before := by
        intro ha
        rw [Option.some.inj (ha.symm.trans hb)]
        exact hnot
      rw [if_neg hi, mem_carried_append, ih, mem_carried_append]
      tauto

theorem nodup_kept (before : List α) (is : List ι) : (kept carried before is).Nodup := by
  induction is generalizing before with
  | nil => exact .nil
  | cons i is ih =>
    rw [kept]
    by_cases hi : Unnamed carried before i
    · rw [if_pos hi]
      exact ih _
    · obtain ⟨a, ha, -⟩ := exists_of_not_unnamed hi
      rw [if_neg hi, ha]
      refine List.nodup_cons.mpr ⟨fun hmem => ?_, ih _⟩
      exact (mem_kept.mp hmem).2 List.mem_cons_self

/-- **The intended names** are distinct if and only if the generated ones are, and no thing
carries one of these. -/
theorem nodup_intended_iff (is : List ι) :
    ((intended carried generated [] is).map Prod.snd).Nodup ↔
      Unambiguous carried generated is := by
  rw [(intended_perm [] is).nodup_iff, List.nodup_append]
  constructor
  · rintro ⟨-, hdistinct, hdisjoint⟩
    refine ⟨hdistinct, fun i hi hmem => ?_⟩
    exact hdisjoint _ (mem_kept.mpr ⟨hmem, List.not_mem_nil⟩) _ (List.mem_map_of_mem hi) rfl
  · rintro ⟨hdistinct, hnot⟩
    refine ⟨nodup_kept [] is, hdistinct, ?_⟩
    rintro a ha b hb rfl
    obtain ⟨i, hi, rfl⟩ := List.mem_map.mp hb
    exact hnot i hi (mem_kept.mp ha).1

/-! ## The assigned names -/

/-- **Names that are not ambiguous** are the intended ones: every name given to a thing so far
is one carried before, or no other thing carries it. -/
theorem assigned_eq_intended_of {before taken : List α} {is : List ι}
    (hbefore : ∀ a ∈ before, a ∈ taken)
    (htaken : ∀ a ∈ taken, a ∈ is.filterMap carried → a ∈ before)
    (hnot : ∀ i ∈ renamed carried before is, generated i ∉ is.filterMap carried) :
    assigned carried generated taken is = intended carried generated before is ∧
      regenerated carried generated taken is = renamed carried before is := by
  induction is generalizing before taken with
  | nil => exact ⟨rfl, rfl⟩
  | cons i is ih =>
    have hiff : Unnamed carried taken i ↔ Unnamed carried before i := by
      refine forall₂_congr fun a ha => ⟨fun hmem => htaken a hmem ?_, hbefore a⟩
      exact List.mem_filterMap.mpr ⟨i, List.mem_cons_self, ha⟩
    have hrest : ∀ {a}, a ∈ is.filterMap carried → a ∈ (i :: is).filterMap carried := by
      intro a ha
      obtain ⟨j, hj, hja⟩ := List.mem_filterMap.mp ha
      exact List.mem_filterMap.mpr ⟨j, List.mem_cons_of_mem i hj, hja⟩
    have hih : assigned carried generated (name carried generated before i :: taken) is =
          intended carried generated ((carried i).toList ++ before) is ∧
        regenerated carried generated (name carried generated before i :: taken) is =
          renamed carried ((carried i).toList ++ before) is := by
      refine ih ?_ ?_ ?_
      · intro a ha
        rcases mem_carried_append.mp ha with ha | ha
        · by_cases hmem : a ∈ before
          · exact List.mem_cons_of_mem _ (hbefore a hmem)
          · rw [name_of_not_mem ha hmem]
            exact List.mem_cons_self
        · exact List.mem_cons_of_mem _ (hbefore a ha)
      · intro a ha hmem
        refine mem_carried_append.mpr ?_
        rcases List.mem_cons.mp ha with rfl | ha
        · by_cases hi : Unnamed carried before i
          · -- a generated name, which nobody carries
            rw [name_of_unnamed hi] at hmem
            rw [renamed, if_pos hi] at hnot
            exact absurd (hrest hmem) (hnot i List.mem_cons_self)
          · obtain ⟨b, hb, hb'⟩ := exists_of_not_unnamed hi
            rw [name_of_not_mem hb hb']
            exact .inl hb
        · exact .inr (htaken a ha (hrest hmem))
      · intro j hj hmem
        refine hnot j ?_ (hrest hmem)
        rw [renamed]
        split
        · exact List.mem_cons_of_mem _ hj
        · exact hj
    rw [assigned, intended, regenerated, renamed, name_congr hiff, hih.1, hih.2]
    exact ⟨rfl, if_congr hiff rfl rfl⟩

/-- Whoever carries a name first is intended to have it. -/
theorem keepsFirst_intended (before : List α) (is : List ι) :
    KeepsFirst carried before (intended carried generated before is) := by
  induction is generalizing before with
  | nil =>
    intro qs i a rs heq
    simp [intended] at heq
  | cons i is ih =>
    exact keepsFirst_cons.mpr ⟨fun b hb hnot => name_of_not_mem hb hnot, ih _⟩

/-- Names that do this are the intended ones. -/
theorem assigned_eq_intended_of_keepsFirst {before taken : List α} {is : List ι}
    (hbefore : ∀ a ∈ before, a ∈ taken)
    (hkeeps : KeepsFirst carried before (assigned carried generated taken is)) :
    assigned carried generated taken is = intended carried generated before is := by
  induction is generalizing before taken with
  | nil => rfl
  | cons i is ih =>
    obtain ⟨hhead, hrest⟩ := keepsFirst_cons.mp hkeeps
    have hname : name carried generated taken i = name carried generated before i := by
      by_cases hi : Unnamed carried before i
      · rw [name_of_unnamed hi, name_of_unnamed fun a ha => hbefore a (hi a ha)]
      · obtain ⟨b, hb, hnot⟩ := exists_of_not_unnamed hi
        rw [hhead b hb hnot, name_of_not_mem hb hnot]
    rw [assigned, intended, ← hname]
    refine congrArg _ (ih (fun a ha => ?_) hrest)
    rcases mem_carried_append.mp ha with ha | ha
    · by_cases hmem : a ∈ taken
      · exact List.mem_cons_of_mem _ hmem
      · rw [name_of_not_mem ha hmem]
        exact List.mem_cons_self
    · exact List.mem_cons_of_mem _ (hbefore a ha)

/-- **Unambiguous names** are assigned as intended. -/
theorem assigned_eq_intended {is : List ι} (h : Unambiguous carried generated is) :
    assigned carried generated [] is = intended carried generated [] is :=
  (assigned_eq_intended_of (fun _ ha => ha) (fun _ ha _ => ha) h.not_carried).1

theorem regenerated_eq_renamed {is : List ι} (h : Unambiguous carried generated is) :
    regenerated carried generated [] is = renamed carried [] is :=
  (assigned_eq_intended_of (fun _ ha => ha) (fun _ ha _ => ha) h.not_carried).2

/-- **The assigned names** are distinct, and who carries one first has it, if and only if the
generated names are not ambiguous. -/
theorem unambiguous_iff (is : List ι) :
    ((assigned carried generated [] is).map Prod.snd).Nodup ∧
        KeepsFirst carried [] (assigned carried generated [] is) ↔
      Unambiguous carried generated is := by
  constructor
  · rintro ⟨hnodup, hkeeps⟩
    rw [assigned_eq_intended_of_keepsFirst (fun _ ha => ha) hkeeps] at hnodup
    exact (nodup_intended_iff is).mp hnodup
  · intro h
    rw [assigned_eq_intended h]
    exact ⟨(nodup_intended_iff is).mpr h, keepsFirst_intended [] is⟩

end Naming

end Machine
