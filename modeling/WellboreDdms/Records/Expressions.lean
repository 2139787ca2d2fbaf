import WellboreDdms.Machine.Effect
import WellboreDdms.Python.Regex
import WellboreDdms.Records.RecordId

/-!
# The expressions of the record ids

`split_record_id_version` matches two expressions. The last part of an id has colons and
digits too, so that it first takes all of the text, and then gives back what the version needs.

- `osduRecordIdRegex`, `osduRecordIdWithVersionRegex`: the expressions, part by part.
- `IsRecordIdText`, `IsVersionedText`: the texts they are meant for.
- `splitByExpressions_eq`: the matches cut the text where `splitRecordIdVersion` does.
- `splitsRecordIds`: what is split off is what the texts are made of.
-/

namespace WellboreDdms

open Machine Python Python.Regex

section

variable {β : Type} (isWord : Char → Bool)

/-- `[\w\-\.]+:[^\:]+:[\w\-\.\:\%]+` before the rest of an expression, with the text it takes. -/
def recordIdGroup (k : List Char → Option β) (s : List Char) : Option (List Char × β) :=
  (plus (isNamespaceChar isWord)
    (literal [':'] (plus (· ≠ ':') (literal [':'] (plus (isIdChar isWord) k)))) s).map
      fun (namespaceName, entityType, name, rest) =>
        (namespaceName ++ ':' :: (entityType ++ ':' :: name), rest)

/-- `OSDU_RECORD_ID_REGEX.match` -/
def osduRecordIdRegex (s : List Char) : Option (List Char × Unit) :=
  recordIdGroup isWord endOfText s

/-- `:(?P<version>([0-9])*)$` -/
def matchVersion : List Char → Option (List Char × Unit) :=
  literal [':'] (star Char.isDigit endOfText)

/-- `OSDU_RECORD_ID_WITH_VERSION_REGEX.match` -/
def osduRecordIdWithVersionRegex (s : List Char) : Option (List Char × List Char × Unit) :=
  recordIdGroup isWord matchVersion s

/-- `split_record_id_version`, by the matches. -/
def splitByExpressions (recordId : String) : Except Raised (Option String × Option Nat) :=
  match osduRecordIdWithVersionRegex isWord recordId.toList with
  | none =>
    .ok (if (osduRecordIdRegex isWord recordId.toList).isSome then some recordId else none, none)
  | some (id, version, _) => (versionInt version).map fun v => (some (String.ofList id), v)

/-- Three parts with colons between them; the last one may have colons of its own. -/
def IsRecordIdText (s : List Char) : Prop :=
  ∃ namespaceName entityType name, s = namespaceName ++ ':' :: (entityType ++ ':' :: name) ∧
    namespaceName ≠ [] ∧ (∀ c ∈ namespaceName, isNamespaceChar isWord c = true) ∧
    entityType ≠ [] ∧ ':' ∉ entityType ∧ name ≠ [] ∧ ∀ c ∈ name, isIdChar isWord c = true

/-- A record id, a colon and digits, or none. -/
def IsVersionedText (s : List Char) : Prop :=
  ∃ id version, s = id ++ ':' :: version ∧ IsRecordIdText isWord id ∧
    ∀ c ∈ version, c.isDigit = true

/-! ## What the expressions match -/

variable {isWord} {k : List Char → Option β} {s : List Char}

theorem colon_not_namespaceChar (h : isWord ':' = false) : isNamespaceChar isWord ':' = false := by
  simp [isNamespaceChar, h]

/-- The id's group fails if no id can be taken. -/
theorem recordIdGroup_eq_none_iff (hcolon : isWord ':' = false) :
    recordIdGroup isWord k s = none ↔
      ∀ id t, s = id ++ t → IsRecordIdText isWord id → k t = none := by
  rw [recordIdGroup, Option.map_eq_none_iff]
  constructor
  · rintro hnone id t rfl ⟨a, b, c, rfl, ha, hall, hb, hnot, hc, hid⟩
    have hb' : ∀ x ∈ b, decide (x ≠ ':') = true :=
      fun x hx => decide_eq_true fun heq => hnot (heq ▸ hx)
    have htype := plus_eq_none_iff.mp hnone a _ (List.append_assoc ..) ha hall
    have hname := plus_eq_none_iff.mp ((literal_append [':'] _).symm.trans htype) b
      (':' :: (c ++ t)) (List.append_assoc ..) hb hb'
    exact plus_eq_none_iff.mp ((literal_append [':'] _).symm.trans hname) c t rfl hc hid
  · intro hnone
    rw [Option.eq_none_iff_forall_ne_some]
    rintro ⟨a, b, c, r⟩ hm
    obtain ⟨ha, hall, u, rfl, htype⟩ :=
      (plus_literal_eq_some_iff (colon_not_namespaceChar hcolon)).mp hm
    obtain ⟨hb, hnot, v, rfl, hname⟩ := (plus_literal_eq_some_iff (by decide)).mp htype
    obtain ⟨hc, hid, t, rfl, hk, -⟩ := plus_eq_some_iff.mp hname
    have hb' : ':' ∉ b := fun hmem => absurd (hnot ':' hmem) (by decide)
    have hrest := hnone (a ++ ':' :: (b ++ ':' :: c)) t (by simp)
      ⟨a, b, c, rfl, ha, hall, hb, hb', hc, hid⟩
    cases hk.symm.trans hrest

/-- A match is of a record id, which is followed by what the rest of the expression matches. -/
theorem recordIdGroup_eq_some (hcolon : isWord ':' = false) {id : List Char} {r : β}
    (h : recordIdGroup isWord k s = some (id, r)) :
    ∃ t, s = id ++ t ∧ IsRecordIdText isWord id ∧ k t = some r := by
  obtain ⟨⟨a, b, c, r'⟩, hm, heq⟩ := Option.map_eq_some_iff.mp h
  obtain ⟨rfl, rfl⟩ := Prod.mk.inj heq
  obtain ⟨ha, hall, u, rfl, htype⟩ :=
    (plus_literal_eq_some_iff (colon_not_namespaceChar hcolon)).mp hm
  obtain ⟨hb, hnot, v, rfl, hname⟩ := (plus_literal_eq_some_iff (by decide)).mp htype
  obtain ⟨hc, hid, t, rfl, hk, -⟩ := plus_eq_some_iff.mp hname
  have hb' : ':' ∉ b := fun hmem => absurd (hnot ':' hmem) (by decide)
  exact ⟨t, by simp, ⟨a, b, c, rfl, ha, hall, hb, hb', hc, hid⟩, hk⟩

/-- What the version's group takes: digits, before the end of the line. -/
theorem matchVersion_eq_some_iff {version : List Char} {b : Unit} :
    matchVersion s = some (version, b) ↔
      (∀ c ∈ version, c.isDigit = true) ∧ (s = ':' :: version ∨ s = ':' :: version ++ ['\n']) := by
  rw [matchVersion, literal_eq_some_iff]
  constructor
  · rintro ⟨t, rfl, ht⟩
    obtain ⟨hdigits, rfl | rfl⟩ := (star_endOfText_eq_some_iff (by decide)).mp ht
    · exact ⟨hdigits, .inl rfl⟩
    · exact ⟨hdigits, .inr rfl⟩
  · rintro ⟨hdigits, rfl | rfl⟩
    · exact ⟨version, rfl, (star_endOfText_eq_some_iff (by decide)).mpr ⟨hdigits, .inl rfl⟩⟩
    · exact ⟨version ++ ['\n'], rfl,
        (star_endOfText_eq_some_iff (by decide)).mpr ⟨hdigits, .inr rfl⟩⟩

/-! ## Where the text is cut -/

/-- The hand-written reading of ids is that of the expression. -/
theorem matchesRecordId_iff (hcolon : isWord ':' = false) :
    matchesRecordId isWord s = true ↔ IsRecordIdText isWord s := by
  rw [matchesRecordId]
  constructor
  · intro h
    split at h
    · rename_i a rest hcut
      split at h
      · rename_i b c hcut'
        obtain ⟨rfl, -⟩ := cutFirst_eq_some_iff.mp hcut
        obtain ⟨rfl, hb⟩ := cutFirst_eq_some_iff.mp hcut'
        simp only [Bool.and_eq_true, Bool.not_eq_true', List.isEmpty_eq_false_iff,
          List.all_eq_true] at h
        obtain ⟨⟨⟨⟨ha, hall⟩, hne⟩, hc⟩, hid⟩ := h
        exact ⟨a, b, c, rfl, ha, hall, hne, hb, hc, hid⟩
      · cases h
    · cases h
  · rintro ⟨a, b, c, rfl, ha, hall, hne, hb, hc, hid⟩
    have hnot : ':' ∉ a := fun hmem => by
      cases (colon_not_namespaceChar hcolon).symm.trans (hall ':' hmem)
    rw [cutFirst_append hnot]
    dsimp only
    rw [cutFirst_append hb]
    simp only [Bool.and_eq_true, Bool.not_eq_true', List.isEmpty_eq_false_iff, List.all_eq_true]
    exact ⟨⟨⟨⟨ha, hall⟩, hne⟩, hc⟩, hid⟩

theorem colon_not_mem_digits {version : List Char} (h : ∀ c ∈ version, c.isDigit = true) :
    ':' ∉ version := fun hmem => absurd (h ':' hmem) (by decide)

/-- A text without line feeds has none to drop. -/
theorem dropLastLineFeed_of_not_mem {x : List Char} (h : '\n' ∉ x) : dropLastLineFeed x = x :=
  if_neg fun hlast => h (List.mem_of_getLast? hlast)

/-- A line feed that is no part of a run stays the last character. -/
theorem dropLastLineFeed_append {x y : List Char} (hy : y ≠ []) (h : '\n' ∉ y) :
    dropLastLineFeed (x ++ y) = x ++ y := by
  refine if_neg fun hlast => h ?_
  rw [List.getLast?_append_of_ne_nil _ hy] at hlast
  exact List.mem_of_getLast? hlast

theorem dropLastLineFeed_concat (x : List Char) : dropLastLineFeed (x ++ ['\n']) = x := by
  simp [dropLastLineFeed]

/-- The text is what is left of it, and a line feed at most. -/
theorem exists_lineFeed (s : List Char) :
    ∃ t, s = dropLastLineFeed s ++ t ∧ (t = [] ∨ t = ['\n']) := by
  by_cases h : s.getLast? = some '\n'
  · obtain ⟨x, rfl⟩ := List.getLast?_eq_some_iff.mp h
    exact ⟨['\n'], by rw [dropLastLineFeed_concat], .inr rfl⟩
  · exact ⟨[], by rw [dropLastLineFeed, if_neg h, List.append_nil], .inl rfl⟩

/-- A record id does not end in a line feed. -/
theorem dropLastLineFeed_recordId (hfeed : isWord '\n' = false) {t : List Char}
    (h : IsRecordIdText isWord s) (ht : t = [] ∨ t = ['\n']) : dropLastLineFeed (s ++ t) = s := by
  rcases ht with rfl | rfl
  · obtain ⟨a, b, c, rfl, -, -, -, -, hc, hid⟩ := h
    have hnot : '\n' ∉ c := fun hmem => by
      have hno := hid '\n' hmem
      simp [isIdChar, isNamespaceChar, hfeed] at hno
    have hsplit : a ++ ':' :: (b ++ ':' :: c) = (a ++ ':' :: (b ++ [':'])) ++ c := by simp
    rw [List.append_nil, hsplit]
    exact dropLastLineFeed_append hc hnot
  · exact dropLastLineFeed_concat s

/-- The expression of ids takes a text with a last line feed, or without. -/
theorem isSome_osduRecordIdRegex (hcolon : isWord ':' = false) (hfeed : isWord '\n' = false) :
    (osduRecordIdRegex isWord s).isSome = matchesRecordId isWord (dropLastLineFeed s) := by
  rw [Bool.eq_iff_iff, matchesRecordId_iff hcolon]
  constructor
  · intro h
    obtain ⟨⟨id, b⟩, hmatch⟩ := Option.isSome_iff_exists.mp h
    obtain ⟨t, rfl, hid, ht⟩ := recordIdGroup_eq_some hcolon hmatch
    rwa [dropLastLineFeed_recordId hfeed hid (endOfText_eq_some_iff.mp ht)]
  · intro hid
    obtain ⟨t, hs, ht⟩ := exists_lineFeed s
    rw [Option.isSome_iff_ne_none]
    intro hnone
    have hend := (recordIdGroup_eq_none_iff hcolon).mp hnone _ t hs hid
    cases hend.symm.trans (endOfText_eq_some_iff (b := ()).mpr ht)

/-- **The matches cut where the last colon is**: the digits of a version have none. -/
theorem splitByExpressions_eq (hcolon : isWord ':' = false) (hfeed : isWord '\n' = false)
    (recordId : String) :
    splitByExpressions isWord recordId = splitRecordIdVersion isWord recordId := by
  rw [splitByExpressions, splitRecordIdVersion]
  cases hmatch : osduRecordIdWithVersionRegex isWord recordId.toList with
  | some m =>
    obtain ⟨id, version, b⟩ := m
    obtain ⟨t, hs, hid, ht⟩ := recordIdGroup_eq_some hcolon hmatch
    obtain ⟨hdigits, hversion⟩ := matchVersion_eq_some_iff.mp ht
    have hdrop : dropLastLineFeed recordId.toList = id ++ ':' :: version := by
      rcases hversion with rfl | rfl
      · rw [hs]
        refine dropLastLineFeed_append (List.cons_ne_nil _ _) fun hmem => ?_
        rcases List.mem_cons.mp hmem with heq | hmem
        · exact absurd heq (by decide)
        · exact absurd (hdigits _ hmem) (by decide)
      · rw [hs, ← List.append_assoc]
        exact dropLastLineFeed_concat _
    have hcond : (matchesRecordId isWord id && version.all Char.isDigit) = true :=
      Bool.and_eq_true_iff.mpr ⟨(matchesRecordId_iff hcolon).mpr hid, List.all_eq_true.mpr hdigits⟩
    simp only [hdrop, cutLast_append _ (colon_not_mem_digits hdigits), hcond, if_true]
  | none =>
    dsimp only
    rw [isSome_osduRecordIdRegex hcolon hfeed]
    cases hcut : cutLast (dropLastLineFeed recordId.toList) with
    | none => rfl
    | some cut =>
      obtain ⟨id, version⟩ := cut
      -- this cut would be a match
      have hcond : ¬ (matchesRecordId isWord id && version.all Char.isDigit) = true := by
        intro hcond
        obtain ⟨hid, hdigits⟩ := Bool.and_eq_true_iff.mp hcond
        obtain ⟨hdrop, -⟩ := cutLast_eq_some_iff.mp hcut
        obtain ⟨t, hs, ht⟩ := exists_lineFeed recordId.toList
        rw [hdrop, List.append_assoc] at hs
        have hnone := (recordIdGroup_eq_none_iff hcolon).mp hmatch id _ hs
          ((matchesRecordId_iff hcolon).mp hid)
        have hversion : ':' :: version ++ t = ':' :: version ∨
            ':' :: version ++ t = ':' :: version ++ ['\n'] := by
          rcases ht with rfl | rfl
          · exact .inl (List.append_nil _)
          · exact .inr rfl
        cases hnone.symm.trans
          (matchVersion_eq_some_iff (b := ()).mpr ⟨List.all_eq_true.mp hdigits, hversion⟩)
      dsimp only
      rw [if_neg hcond]

/-! ## What is split off -/

/-- Decimal digits that denote the number. -/
def IsDecimal (digits : String) (v : Nat) : Prop :=
  digits ≠ "" ∧ (∀ c ∈ digits.toList, c.isDigit = true) ∧ Nat.ofDigitChars 10 digits.toList 0 = v

/-- A record id, a colon and more digits than `int` reads. -/
def IsTooLong (isWord : Char → Bool) (s : String) : Prop :=
  ∃ id digits : String, s = id ++ ":" ++ digits ∧ IsRecordIdText isWord id.toList ∧
    (∀ c ∈ digits.toList, c.isDigit = true) ∧ maxStrDigits < digits.toList.length

/-- What `split_record_id_version` tells of a text without line breaks. -/
structure SplitsRecordIds (isWord : Char → Bool) : Prop where
  /-- The id and the version are read back. -/
  versioned : ∀ recordId, SingleLine recordId → IsRecordIdText isWord recordId.toList →
    ∀ v < 10 ^ maxStrDigits, splitRecordIdVersion isWord (recordId ++ ":" ++ toString v) =
      .ok (some recordId, some v)
  invalid : ∀ s, SingleLine s → (splitRecordIdVersion isWord s = .ok (none, none) ↔
    ¬ IsRecordIdText isWord s.toList ∧ ¬ IsVersionedText isWord s.toList)
  version : ∀ s, SingleLine s → ∀ r v, splitRecordIdVersion isWord s = .ok (r, some v) →
    ∃ id digits, r = some id ∧ s = id ++ ":" ++ digits ∧ IsDecimal digits v
  versionless : ∀ s, SingleLine s → ∀ r, splitRecordIdVersion isWord s = .ok (some r, none) →
    s = r ∨ s = r ++ ":"
  /-- A `ValueError`, and nothing else, is raised for a version that is too long. -/
  raises : ∀ s, SingleLine s →
    ((∃ e, splitRecordIdVersion isWord s = .error e) ↔ IsTooLong isWord s)

/-- The split of an id with a version, where `int` reads the version. -/
theorem splitRecordIdVersion_of_cut {s id : String} {version : List Char}
    (hs : s.toList = id.toList ++ ':' :: version) (hline : SingleLine s)
    (hid : IsRecordIdText isWord id.toList) (hcolon : isWord ':' = false)
    (hdigits : ∀ c ∈ version, c.isDigit = true) :
    splitRecordIdVersion isWord s = (versionInt version).map fun v => (some id, v) := by
  have hcond : (matchesRecordId isWord id.toList && version.all Char.isDigit) = true :=
    Bool.and_eq_true_iff.mpr ⟨(matchesRecordId_iff hcolon).mpr hid, List.all_eq_true.mpr hdigits⟩
  rw [splitRecordIdVersion, dropLastLineFeed_of_not_mem hline, hs]
  simp only [cutLast_append _ (colon_not_mem_digits hdigits), hcond, if_true,
    String.ofList_toList]

theorem splitRecordIdVersion_of_not_versioned {s : String} (hline : SingleLine s)
    (hcolon : isWord ':' = false) (h : ¬ IsVersionedText isWord s.toList) :
    splitRecordIdVersion isWord s =
      .ok (if matchesRecordId isWord s.toList then some s else none, none) := by
  rw [splitRecordIdVersion, dropLastLineFeed_of_not_mem hline]
  cases hcut : cutLast s.toList with
  | none => rfl
  | some cut =>
    obtain ⟨id, version⟩ := cut
    dsimp only
    rw [if_neg]
    intro hcond
    obtain ⟨hid, hdigits⟩ := Bool.and_eq_true_iff.mp hcond
    exact h ⟨id, version, (cutLast_eq_some_iff.mp hcut).1, (matchesRecordId_iff hcolon).mp hid,
      List.all_eq_true.mp hdigits⟩

theorem toList_append_version (id version : String) :
    (id ++ ":" ++ version).toList = id.toList ++ ':' :: version.toList := by
  simp

/-- A text with a version is an id, a colon and digits. -/
theorem exists_version {s : String} (h : IsVersionedText isWord s.toList) :
    ∃ id version : String, s = id ++ ":" ++ version ∧ IsRecordIdText isWord id.toList ∧
      ∀ c ∈ version.toList, c.isDigit = true := by
  obtain ⟨id, version, hs, hid, hdigits⟩ := h
  refine ⟨String.ofList id, String.ofList version, ?_, ?_, ?_⟩
  · rw [← String.toList_inj, hs, toList_append_version, String.toList_ofList,
      String.toList_ofList]
  · rwa [String.toList_ofList]
  · rwa [String.toList_ofList]

/-- The number that is read, if one is. -/
theorem versionInt_eq_ok {version : List Char} (h : ∀ c ∈ version, c.isDigit = true)
    {v : Option Nat} (hread : versionInt version = .ok v) :
    v = if version.isEmpty then none else some (Nat.ofDigitChars 10 version 0) := by
  rw [versionInt_of_digits h] at hread
  split at hread
  · rename_i hempty
    cases hread
    rw [if_pos hempty]
  · rename_i hempty
    rw [if_neg hempty]
    split at hread
    · cases hread
      rfl
    · cases hread

/-- Nothing is found in a text that is neither. -/
theorem splitRecordIdVersion_eq_none_iff {s : String} (hcolon : isWord ':' = false)
    (hline : SingleLine s) :
    splitRecordIdVersion isWord s = .ok (none, none) ↔
      ¬ IsRecordIdText isWord s.toList ∧ ¬ IsVersionedText isWord s.toList := by
  by_cases hversioned : IsVersionedText isWord s.toList
  · obtain ⟨id, version, rfl, hid, hdigits⟩ := exists_version hversioned
    rw [splitRecordIdVersion_of_cut (toList_append_version id version) hline hid hcolon hdigits]
    refine iff_of_false (fun h => ?_) fun h => h.2 hversioned
    cases hread : versionInt version.toList with
    | ok v =>
      rw [hread] at h
      cases h
    | error e =>
      rw [hread] at h
      cases h
  · rw [splitRecordIdVersion_of_not_versioned hline hcolon hversioned, and_iff_left hversioned,
      ← matchesRecordId_iff hcolon]
    split
    · rename_i hmatch
      exact iff_of_false (fun h => nomatch (Prod.mk.inj (Except.ok.inj h)).1) fun h => h hmatch
    · rename_i hmatch
      exact iff_of_true rfl hmatch

/-- The version is read from digits that follow the id. -/
theorem isDecimal_of_split {s : String} (hcolon : isWord ':' = false) (hline : SingleLine s)
    {r : Option String} {v : Nat} (hsplit : splitRecordIdVersion isWord s = .ok (r, some v)) :
    ∃ id digits, r = some id ∧ s = id ++ ":" ++ digits ∧ IsDecimal digits v := by
  by_cases hversioned : IsVersionedText isWord s.toList
  · obtain ⟨id, version, rfl, hid, hdigits⟩ := exists_version hversioned
    rw [splitRecordIdVersion_of_cut (toList_append_version id version) hline hid hcolon hdigits]
      at hsplit
    obtain ⟨w, hread, hpair⟩ := map_eq_ok.mp hsplit
    obtain ⟨rfl, rfl⟩ := Prod.mk.inj hpair
    have hv := versionInt_eq_ok hdigits hread
    by_cases hempty : version.toList.isEmpty
    · rw [if_pos hempty] at hv
      cases hv
    · rw [if_neg hempty] at hv
      refine ⟨id, version, rfl, rfl, ?_, hdigits, (Option.some.inj hv).symm⟩
      rintro rfl
      exact hempty rfl
  · rw [splitRecordIdVersion_of_not_versioned hline hcolon hversioned] at hsplit
    cases (Prod.mk.inj (Except.ok.inj hsplit)).2

/-- Without a version, nothing but a last colon is left out. -/
theorem eq_of_split_versionless {s r : String} (hcolon : isWord ':' = false)
    (hline : SingleLine s) (hsplit : splitRecordIdVersion isWord s = .ok (some r, none)) :
    s = r ∨ s = r ++ ":" := by
  by_cases hversioned : IsVersionedText isWord s.toList
  · obtain ⟨id, version, rfl, hid, hdigits⟩ := exists_version hversioned
    rw [splitRecordIdVersion_of_cut (toList_append_version id version) hline hid hcolon hdigits]
      at hsplit
    obtain ⟨w, hread, hpair⟩ := map_eq_ok.mp hsplit
    obtain ⟨hr, rfl⟩ := Prod.mk.inj hpair
    have hv := versionInt_eq_ok hdigits hread
    by_cases hempty : version.toList.isEmpty
    · right
      rw [← Option.some.inj hr, String.toList_eq_nil_iff.mp (List.isEmpty_iff.mp hempty),
        String.append_empty]
    · rw [if_neg hempty] at hv
      cases hv
  · rw [splitRecordIdVersion_of_not_versioned hline hcolon hversioned] at hsplit
    left
    obtain ⟨hr, -⟩ := Prod.mk.inj (Except.ok.inj hsplit)
    split at hr
    · exact Option.some.inj hr
    · cases hr

/-- Only a version that is too long is not read. -/
theorem splitRecordIdVersion_raises_iff {s : String} (hcolon : isWord ':' = false)
    (hline : SingleLine s) :
    (∃ e, splitRecordIdVersion isWord s = .error e) ↔ IsTooLong isWord s := by
  constructor
  · rintro ⟨e, he⟩
    by_cases hversioned : IsVersionedText isWord s.toList
    · obtain ⟨id, version, rfl, hid, hdigits⟩ := exists_version hversioned
      rw [splitRecordIdVersion_of_cut (toList_append_version id version) hline hid hcolon hdigits,
        versionInt_of_digits hdigits] at he
      refine ⟨id, version, rfl, hid, hdigits, Nat.lt_of_not_le fun hshort => ?_⟩
      rw [if_pos hshort] at he
      split at he
      · cases he
      · cases he
    · rw [splitRecordIdVersion_of_not_versioned hline hcolon hversioned] at he
      cases he
  · rintro ⟨id, version, rfl, hid, hdigits, hlong⟩
    have hempty : ¬ version.toList.isEmpty = true := by
      intro hempty
      rw [List.isEmpty_iff.mp hempty] at hlong
      exact absurd hlong (Nat.not_lt_zero _)
    rw [splitRecordIdVersion_of_cut (toList_append_version id version) hline hid hcolon hdigits,
      versionInt_of_digits hdigits, if_neg hempty, if_neg (Nat.not_le_of_lt hlong)]
    exact ⟨_, rfl⟩

/-- **Ids and versions are split** as the two grammars say. -/
theorem splitsRecordIds (hcolon : isWord ':' = false) : SplitsRecordIds isWord where
  versioned := by
    intro recordId _ hid v hv
    exact splitRecordIdVersion_append ((matchesRecordId_iff hcolon).mpr hid) hv
  invalid := by
    intro s hline
    exact splitRecordIdVersion_eq_none_iff hcolon hline
  version := by
    intro s hline r v hsplit
    exact isDecimal_of_split hcolon hline hsplit
  versionless := by
    intro s hline r hsplit
    exact eq_of_split_versionless hcolon hline hsplit
  raises := by
    intro s hline
    exact splitRecordIdVersion_raises_iff hcolon hline

/-- The word characters of ASCII. -/
theorem splitsRecordIds_ascii : SplitsRecordIds fun c => c.isAlphanum || c = '_' :=
  splitsRecordIds (by decide)

end

/-- **A version of 4301 digits is not read back**: `int` raises. -/
theorem long_version_not_split :
    ¬ ∀ v : Nat, splitRecordIdVersion (fun c => c.isAlphanum || c = '_')
      ("opendes:work-product-component--WellLog:1" ++ ":" ++ toString v) =
        .ok (some "opendes:work-product-component--WellLog:1", some v) := by
  intro h
  have hid : IsRecordId (fun c => c.isAlphanum || c = '_')
      "opendes:work-product-component--WellLog:1" := by
    show matchesRecordId _ _ = true
    decide
  have hlong := splitRecordIdVersion_append_long hid (Nat.le_refl (10 ^ maxStrDigits))
  cases hlong.symm.trans (h (10 ^ maxStrDigits))

end WellboreDdms
