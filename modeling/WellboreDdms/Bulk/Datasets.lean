import Mathlib.Data.Int.Order.Basic
import Mathlib.Data.List.Lex
import WellboreDdms.Bulk.Access

/-!
# The datasets of a record

`set_bulk_uri` writes the bulk URI of a record, and, for the kinds that have it, appends a
dataset URI to `DDMSDatasets`.

- `EntityKind`: the parts of a kind, as `authority:source:group--Name:version`.
- `BulkUriSet`: what a write is meant to leave in the record.
- `listedKind_text`: the kind is cut at every `--`, and so it is only recognised if it has one.
- `setBulkUri_iff`: for which kinds the write does what it is meant to.
-/

namespace WellboreDdms

open Python OsduBulkIdAccess

/-- The parts of a kind. None has a colon. -/
structure EntityKind where
  authority : String
  source : String
  group : String
  name : String
  version : String
  colonFree : ∀ part ∈ [authority, source, group, name, version], ':' ∉ part.toList

namespace EntityKind

variable (kind : EntityKind)

/-- The text before the name, up to the dashes. -/
def entity : String := kind.authority ++ ":" ++ kind.source ++ ":" ++ kind.group

/-- The kind after its authority and source. -/
def text : String := kind.entity ++ "--" ++ kind.name ++ ":" ++ kind.version

/-- The kind has datasets in this version. -/
def listed (pk : Packaging) : Bool :=
  match Dict.get earliestKindVersionIncludingDdmsDatasets kind.name with
  | some earliest => pk.versionGe kind.version earliest == some true
  | none => false

/-- The version can be compared with those of the table. -/
def ValidVersion (pk : Packaging) : Prop :=
  ∀ p ∈ earliestKindVersionIncludingDdmsDatasets, (pk.versionGe kind.version p.2).isSome = true

instance (pk : Packaging) : Decidable (kind.ValidVersion pk) :=
  inferInstanceAs (Decidable (∀ p ∈ earliestKindVersionIncludingDdmsDatasets,
    (pk.versionGe kind.version p.2).isSome = true))

/-- There are no dashes but those before the name. -/
def CutOnce : Prop :=
  ∀ part ∈ [kind.authority, kind.source, kind.group ++ "-", kind.version],
    ¬ "--".toList <:+: part.toList

instance : Decidable kind.CutOnce :=
  inferInstanceAs (Decidable (∀ part ∈ [kind.authority, kind.source, kind.group ++ "-",
    kind.version], ¬ "--".toList <:+: part.toList))

end EntityKind

/-! ## How a kind is cut -/

/-- What `_set_bulk_uri_ddms_datasets` finds of the kind in the table; `none` is the
`InvalidVersion`. -/
def listedKind (pk : Packaging) (kind : String) : Option Bool :=
  match kindVersion kind with
  | some (name, version) =>
    match Dict.get earliestKindVersionIncludingDdmsDatasets name with
    | some earliest => pk.versionGe version earliest
    | none => some false
  | none => some false

namespace EntityKind

variable {kind : EntityKind} {pk : Packaging}

theorem toList_text : kind.text.toList =
    kind.entity.toList ++ ("--".toList ++ (kind.name ++ ":" ++ kind.version).toList) := by
  simp only [text, String.toList_append, List.append_assoc]

/-- The colon separates the name from the version. -/
theorem split_name_version :
    split (kind.name ++ ":" ++ kind.version) = [kind.name, kind.version] := by
  have hname : ':' ∉ kind.name.toList := kind.colonFree _ (by simp)
  have hversion : ':' ∉ kind.version.toList := kind.colonFree _ (by simp)
  have htext : (kind.name ++ ":" ++ kind.version).toList =
      kind.name.toList ++ ':' :: kind.version.toList := by
    simp [String.toList_append]
  rw [split_of_colon htext hname, split_of_not_mem hversion]
  simp

/-- The names of the table have no dashes. -/
theorem name_plain {name earliest : String}
    (h : Dict.get earliestKindVersionIncludingDdmsDatasets name = some earliest) :
    '-' ∉ name.toList ∧ (name, earliest) ∈ earliestKindVersionIncludingDdmsDatasets := by
  have hmem := Dict.mem_of_get h
  have hplain : ∀ p ∈ earliestKindVersionIncludingDdmsDatasets, '-' ∉ p.1.toList := by decide
  exact ⟨hplain _ hmem, hmem⟩

/-- The kind is cut once if its dashes occur once. -/
theorem cutOnce_iff (hname : '-' ∉ kind.name.toList) :
    kind.CutOnce ↔ ¬ "--".toList <:+: kind.entity.toList ++ ['-'] ∧
      ¬ "--".toList <:+: (kind.name ++ ":" ++ kind.version).toList := by
  have hpat : "--".toList ≠ [] := by decide
  have hcolon : ':' ∉ "--".toList := by decide
  have hentity : kind.entity.toList ++ ['-'] = kind.authority.toList ++ ':' ::
      (kind.source.toList ++ ':' :: (kind.group ++ "-").toList) := by
    simp [entity, String.toList_append]
  have htail : (kind.name ++ ":" ++ kind.version).toList =
      kind.name.toList ++ ':' :: kind.version.toList := by
    simp [String.toList_append]
  have hplain : ¬ "--".toList <:+: kind.name.toList := fun h => hname (h.subset (by decide))
  rw [hentity, htail, infix_append_cons_iff hpat hcolon, infix_append_cons_iff hpat hcolon,
    infix_append_cons_iff hpat hcolon, CutOnce]
  simp only [List.forall_mem_cons, not_or, hplain, not_false_eq_true, true_and]
  simp [and_assoc]

/-- A kind that is cut once yields its name and its version. -/
theorem kindVersion_of_cut (hfirst : ¬ "--".toList <:+: kind.entity.toList ++ ['-'])
    (hrest : ¬ "--".toList <:+: (kind.name ++ ":" ++ kind.version).toList) :
    kindVersion kind.text = some (kind.name, kind.version) := by
  have hsplit : splitText "--" kind.text = [kind.entity, kind.name ++ ":" ++ kind.version] := by
    have hpair : splitTextFrom "--".toList 0 kind.text.toList =
        [kind.entity.toList, (kind.name ++ ":" ++ kind.version).toList] :=
      (splitTextFrom_pair_iff (by decide)).mpr ⟨toList_text, hfirst, hrest⟩
    rw [splitText, hpair, List.map_cons, List.map_cons, List.map_nil, String.ofList_toList,
      String.ofList_toList]
  rw [kindVersion, hsplit]
  simp only [split_name_version]

/-- The dashes before the name are those that are found, or they are found one place earlier. -/
theorem cut_cases {a b p q : List Char} (h : a ++ ('-' :: '-' :: b) = p ++ ('-' :: '-' :: q))
    (hfirst : ¬ ['-', '-'] <:+: p ++ ['-']) (hrest : ¬ ['-', '-'] <:+: q) :
    a = p ∧ b = q ∨ q = '-' :: b := by
  rcases List.append_eq_append_iff.mp h with ⟨x, rfl, hx⟩ | ⟨x, rfl, hx⟩
  · -- the dashes before the name come first, and so they are found
    left
    match x, hx with
    | [], hx => exact ⟨(List.append_nil a).symm, by simpa using hx⟩
    | [c], hx =>
      have hc := (List.cons.inj hx).1
      subst hc
      exact absurd (List.infix_append a ['-', '-'] []) (by simpa using hfirst)
    | c :: d :: x, hx =>
      obtain ⟨hc, hx⟩ := List.cons.inj hx
      obtain ⟨hd, -⟩ := List.cons.inj hx
      subst hc hd
      exact absurd (List.infix_append a ['-', '-'] (x ++ ['-'])) (by simpa using hfirst)
  · match x, hx with
    | [], hx => exact .inl ⟨List.append_nil p, (by simpa using hx : q = b).symm⟩
    | [c], hx => exact .inr (List.cons.inj (List.cons.inj hx).2).2
    | c :: d :: x, hx =>
      -- the dashes before the name would be a second occurrence
      have hq : q = x ++ ('-' :: '-' :: b) := (List.cons.inj (List.cons.inj hx).2).2
      refine absurd ?_ hrest
      rw [hq]
      exact ⟨x, b, by simp⟩

/-- The first part of a text is its beginning. -/
theorem head_mem_of_split {c : Char} {t : List Char} {name version : String} (hc : c ≠ ':')
    (h : split (String.ofList (c :: t)) = [name, version]) : c ∈ name.toList := by
  by_cases hcolon : ':' ∈ c :: t
  · obtain ⟨a, b, ht, ha⟩ := List.eq_append_cons_of_mem hcolon
    rw [split_of_colon (String.toList_ofList.trans ht) ha] at h
    obtain ⟨rfl, -⟩ := List.cons.inj h
    rw [String.toList_ofList]
    match a, ht with
    | [], ht => exact absurd (List.cons.inj ht).1 hc
    | d :: a, ht =>
      rw [(List.cons.inj ht).1]
      exact List.mem_cons_self
  · rw [split_of_not_mem hcolon] at h
    cases (List.cons.inj h).2

/-- A name of the table is only found where the kind is cut once. -/
theorem cut_of_kindVersion {name version earliest : String}
    (h : kindVersion kind.text = some (name, version))
    (hname : Dict.get earliestKindVersionIncludingDdmsDatasets name = some earliest) :
    name = kind.name ∧ version = kind.version ∧
      ¬ "--".toList <:+: kind.entity.toList ++ ['-'] ∧
      ¬ "--".toList <:+: (kind.name ++ ":" ++ kind.version).toList := by
  obtain ⟨p, q, hpair, hq⟩ : ∃ p q, splitTextFrom "--".toList 0 kind.text.toList = [p, q] ∧
      split (String.ofList q) = [name, version] := by
    unfold kindVersion splitText at h
    split at h
    · rename_i hsplit
      obtain ⟨p, rest, hpair, -, hrest⟩ := List.map_eq_cons_iff.mp hsplit
      obtain ⟨q, none, rfl, rfl, hnone⟩ := List.map_eq_cons_iff.mp hrest
      rw [List.map_eq_nil_iff.mp hnone] at hpair
      refine ⟨p, q, hpair, ?_⟩
      split at h
      · rename_i hq
        cases h
        exact hq
      · cases h
    · cases h
  obtain ⟨htext, hfirst, hrest⟩ := (splitTextFrom_pair_iff (by decide)).mp hpair
  rw [toList_text] at htext
  have htext : kind.entity.toList ++ ('-' :: '-' :: (kind.name ++ ":" ++ kind.version).toList) =
      p ++ ('-' :: '-' :: q) := htext
  rcases cut_cases htext hfirst hrest with ⟨rfl, rfl⟩ | rfl
  · rw [String.ofList_toList, split_name_version] at hq
    obtain ⟨hname', hq⟩ := List.cons.inj hq
    exact ⟨hname'.symm, (List.cons.inj hq).1.symm, hfirst, hrest⟩
  · exact absurd (head_mem_of_split (by decide) hq) (name_plain hname).1

/-- **The kind is recognised** exactly if it is listed and cut once. -/
theorem listedKind_text (hversion : kind.ValidVersion pk) :
    listedKind pk kind.text = some (kind.listed pk && decide kind.CutOnce) := by
  unfold listedKind
  cases htable : Dict.get earliestKindVersionIncludingDdmsDatasets kind.name with
  | none =>
    -- a kind that is in no table is listed nowhere
    have hlisted : kind.listed pk = false := by rw [listed, htable]
    rw [hlisted, Bool.false_and]
    split
    · rename_i hkind
      split
      · rename_i hname
        rw [(cut_of_kindVersion hkind hname).1, htable] at hname
        cases hname
      · rfl
    · rfl
  | some earliest =>
    obtain ⟨hplain, hmem⟩ := name_plain htable
    -- the versions of the table can be compared
    obtain ⟨b, hb⟩ := Option.isSome_iff_exists.mp (hversion _ hmem)
    have hlisted : kind.listed pk = b := by
      rw [listed, htable]
      show (pk.versionGe kind.version earliest == some true) = b
      rw [hb]
      cases b <;> rfl
    rw [hlisted]
    -- only a kind whose dashes occur once is cut into its name and version
    by_cases hcut : kind.CutOnce
    · obtain ⟨hfirst, hrest⟩ := (cutOnce_iff hplain).mp hcut
      rw [kindVersion_of_cut hfirst hrest, decide_eq_true hcut, Bool.and_true]
      simp only [htable]
      exact hb
    · rw [decide_eq_false hcut, Bool.and_false]
      split
      · rename_i hkind
        split
        · rename_i hname
          obtain ⟨-, -, hdashes⟩ := cut_of_kindVersion hkind hname
          exact absurd ((cutOnce_iff hplain).mpr hdashes) hcut
        · rfl
      · rfl

end EntityKind

/-! ## What a write leaves -/

/-- The value is a list, if it is not falsy. -/
def IsArray (v : Option Value) : Prop := ∀ w, truthyValue v = some w → ∃ xs, w = .list xs

/-- The datasets of the record, none if there is no list of them. -/
def datasetsOf (data : Dict String Value) : List Value :=
  match truthyValue (Dict.get data "DDMSDatasets") with
  | some (.list xs) => xs
  | _ => []

/-- The path to the bulk URI leads through dictionaries, and the datasets are a list. -/
structure Writable (record : Record) : Prop where
  extensionProperties : IsObject (Dict.get record.data "ExtensionProperties")
  wdms : IsObject (Dict.get (extensionItems record.data) "wdms")
  datasets : IsArray (Dict.get record.data "DDMSDatasets")

/-- The record `r` is the record with the URI of `u`, and with its dataset URI if `listed`. -/
structure BulkUriSet (u : UUID) (listed : Bool) (record r : Record) : Prop where
  uri : getBulkUri r = .ok (.ofUuid u .v1 (by decide))
  data : ∀ k, k ≠ "DDMSDatasets" → k ≠ "ExtensionProperties" →
    Dict.get r.data k = Dict.get record.data k
  extensionProperties : ∀ k, k ≠ "wdms" →
    Dict.get (extensionItems r.data) k = Dict.get (extensionItems record.data) k
  wdms : ∀ k, k ≠ bulkUriField →
    Dict.get (wdmsItems r.data) k = Dict.get (wdmsItems record.data) k
  datasets : Dict.get r.data "DDMSDatasets" =
    if listed then
      some (.list (datasetsOf record.data ++
        [.str (BulkURI.ofUuid u .v1 (by decide)).encodeForDdmsDatasets]))
    else Dict.get record.data "DDMSDatasets"

section

variable {record r : Record} {pk : Packaging} {u : UUID}

/-- The extension properties are repaired, and the items of `wdms` are found in them. -/
theorem exists_extensionProperties (h : Writable record) :
    ∃ ext, extensionProperties record.data = .ok ext ∧
      wdmsExtension ext = .ok (wdmsItems record.data) ∧
      ∀ k, k ≠ "wdms" → Dict.get ext k = Dict.get (extensionItems record.data) k := by
  unfold extensionProperties
  cases hext : truthyValue (Dict.get record.data "ExtensionProperties") with
  | none =>
    refine ⟨[], rfl, ?_, fun k _ => ?_⟩
    · rw [wdmsItems, extensionItems, itemsOf_of_falsy hext]
      rfl
    · rw [extensionItems, itemsOf_of_falsy hext]
  | some ext =>
    obtain ⟨items, rfl⟩ := h.extensionProperties ext hext
    have hitems : extensionItems record.data = items := itemsOf_of_truthy hext
    have hshape := h.wdms
    rw [hitems] at hshape
    rw [wdmsItems, hitems]
    dsimp only
    cases hwdms : truthyValue (Dict.get items "wdms") with
    | none =>
      refine ⟨_, rfl, ?_, fun k hk => Dict.get_set_of_ne _ _ hk⟩
      rw [wdmsExtension, Dict.get_set_self, itemsOf_of_falsy hwdms]
    | some wdms =>
      obtain ⟨items', rfl⟩ := hshape wdms hwdms
      refine ⟨_, rfl, ?_, fun _ _ => rfl⟩
      rw [itemsOf_of_truthy hwdms, wdmsExtension, (truthyValue_eq_some hwdms).1]

/-- A dataset is appended to the list there is. -/
theorem appendDataset_of_array (h : IsArray (Dict.get record.data "DDMSDatasets")) (uri : String) :
    appendDataset record.data uri = .ok (.list (datasetsOf record.data ++ [.str uri])) := by
  unfold appendDataset datasetsOf
  cases hdatasets : truthyValue (Dict.get record.data "DDMSDatasets") with
  | none => rfl
  | some w =>
    obtain ⟨xs, rfl⟩ := h w hdatasets
    rfl

/-- A list with a dataset more is not what was there before. -/
theorem datasets_append_ne (v : Value) :
    some (.list (datasetsOf record.data ++ [v])) ≠ Dict.get record.data "DDMSDatasets" := by
  intro h
  have htruthy : truthyValue (Dict.get record.data "DDMSDatasets") =
      some (.list (datasetsOf record.data ++ [v])) := by
    rw [← h, truthyValue, Option.filter_some_pos]
    simp [Value.truthy]
  have hsame : ∀ xs, truthyValue (Dict.get record.data "DDMSDatasets") = some (.list xs) →
      datasetsOf record.data = xs := by
    intro xs hxs
    rw [datasetsOf, hxs]
  have hlength := congrArg List.length (hsame _ htruthy)
  simp at hlength

/-- **The datasets** of a listed kind get the URI, those of another kind stay. -/
theorem setBulkUriDdmsDatasets_eq {listed : Bool} (bulkUri : BulkURI)
    (harray : IsArray (Dict.get record.data "DDMSDatasets"))
    (hlisted : listedKind pk record.kind = some listed) :
    setBulkUriDdmsDatasets pk record bulkUri =
      .ok (if listed then
        { record with
          data := Dict.set record.data "DDMSDatasets"
            (.list (datasetsOf record.data ++ [.str bulkUri.encodeForDdmsDatasets])) }
      else record) := by
  rw [listedKind] at hlisted
  rw [setBulkUriDdmsDatasets]
  -- a kind that is not cut keeps its datasets
  cases hkind : kindVersion record.kind with
  | none =>
    rw [hkind] at hlisted
    cases hlisted
    rfl
  | some nameVersion =>
    obtain ⟨name, version⟩ := nameVersion
    rw [hkind] at hlisted
    dsimp only at hlisted ⊢
    -- a kind that is not listed keeps its datasets
    cases htable : Dict.get earliestKindVersionIncludingDdmsDatasets name with
    | none =>
      rw [htable] at hlisted
      cases hlisted
      rfl
    | some earliest =>
      rw [htable] at hlisted
      dsimp only at hlisted ⊢
      rw [hlisted]
      cases listed with
      | false => rfl
      | true =>
        dsimp only
        rw [appendDataset_of_array harray]
        rfl

/-- What is read of extension properties that have just been set. -/
theorem items_of_extension {data ext wdms : Dict String Value} {k : String} {v : Value}
    (h : Dict.get data "ExtensionProperties" =
      some (.dict (Dict.set ext "wdms" (.dict (Dict.set wdms k v))))) :
    extensionItems data = Dict.set ext "wdms" (.dict (Dict.set wdms k v)) ∧
      wdmsItems data = Dict.set wdms k v := by
  have hitems : extensionItems data = Dict.set ext "wdms" (.dict (Dict.set wdms k v)) := by
    rw [extensionItems, h]
    exact itemsOf_of_truthy (truthyValue_dict_set _ _ _)
  refine ⟨hitems, ?_⟩
  rw [wdmsItems, hitems, Dict.get_set_self]
  exact itemsOf_of_truthy (truthyValue_dict_set _ _ _)

/-- **What `set_bulk_uri` does** to a record that can be written: the datasets are extended if
its kind is found in the table. -/
theorem setBulkUri_spec {listed : Bool} (h : Writable record)
    (hlisted : listedKind pk record.kind = some listed) :
    ∃ r, setBulkUri pk record (.str u.text) = .ok r ∧ BulkUriSet u listed record r := by
  obtain ⟨ext, hext, hwdms, hframe⟩ := exists_extensionProperties h
  have hv1 : BulkStorageVersion.v1 ≠ .invalid := by decide
  obtain ⟨uri, huri, -⟩ := BulkURI.decode_encode u hv1
  have hmake : BulkURI.fromBulkStorageV1 (.str u.text) = .ok (.ofUuid u .v1 hv1) :=
    BulkURI.make_text u hv1
  -- the extension is written first, and then the datasets
  let wdms := Dict.set (wdmsItems record.data) bulkUriField (.str uri)
  let written : Record := { record with
    data := Dict.set record.data "ExtensionProperties" (.dict (Dict.set ext "wdms" (.dict wdms))) }
  have hset : setBulkUri pk record (.str u.text) =
      setBulkUriDdmsDatasets pk written (.ofUuid u .v1 hv1) := by
    simp only [setBulkUri, hext, hmake, huri, hwdms, bind, Except.bind]
    rfl
  have hdatasets : Dict.get written.data "DDMSDatasets" = Dict.get record.data "DDMSDatasets" :=
    Dict.get_set_of_ne _ _ (by decide)
  have harray : IsArray (Dict.get written.data "DDMSDatasets") := hdatasets ▸ h.datasets
  have hdone := setBulkUriDdmsDatasets_eq (.ofUuid u .v1 hv1) harray hlisted
  -- the datasets are another field, so the extension is left
  have hkept := (setBulkUriDdmsDatasets_frame hdone).2.2.2.2 "ExtensionProperties" (by decide)
  rw [Dict.get_set_self] at hkept
  obtain ⟨hitems, hwdmsItems⟩ := items_of_extension hkept
  rw [← hset] at hdone
  refine ⟨_, hdone, getBulkUri_setBulkUri hdone, (setBulkUri_frame hdone).2.2.2.2, ?_, ?_, ?_⟩
  · intro k hk
    rw [hitems, Dict.get_set_of_ne _ _ hk, hframe k hk]
  · intro k hk
    rw [hwdmsItems, Dict.get_set_of_ne _ _ hk]
  · have hsame : datasetsOf written.data = datasetsOf record.data := by
      rw [datasetsOf, datasetsOf, hdatasets]
    cases listed with
    | false => exact hdatasets
    | true =>
      rw [if_pos rfl, if_pos rfl, Dict.get_set_self, hsame]

/-- A listed kind with other dashes gets no dataset. -/
theorem not_set_of_dashes {kind : EntityKind} (h : Writable record)
    (hkind : record.kind = kind.text)
    (hversion : kind.ValidVersion pk) (hyes : kind.listed pk = true) (hdashes : ¬ kind.CutOnce)
    (u : UUID) :
    ¬ ∃ r, setBulkUri pk record (.str u.text) = .ok r ∧ BulkUriSet u (kind.listed pk) record r := by
  have hlisted := EntityKind.listedKind_text hversion
  rw [← hkind, decide_eq_false hdashes, Bool.and_false] at hlisted
  obtain ⟨r, hr, hset⟩ := setBulkUri_spec (u := u) h hlisted
  rintro ⟨r', hr', hset'⟩
  obtain rfl := Except.ok.inj (hr.symm.trans hr')
  have hdatasets := hset'.datasets.symm.trans hset.datasets
  rw [if_pos hyes, if_neg Bool.false_ne_true] at hdatasets
  exact datasets_append_ne _ hdatasets

/-- **The bulk URI is set as it is meant to** exactly if a listed kind has no other dashes. -/
theorem setBulkUri_iff {kind : EntityKind} (h : Writable record) (hkind : record.kind = kind.text)
    (hversion : kind.ValidVersion pk) (u : UUID) :
    (∃ r, setBulkUri pk record (.str u.text) = .ok r ∧ BulkUriSet u (kind.listed pk) record r) ↔
      (kind.listed pk = true → kind.CutOnce) := by
  constructor
  · intro hset hyes
    by_contra hdashes
    exact not_set_of_dashes h hkind hversion hyes hdashes u hset
  · intro hcut
    have hlisted := EntityKind.listedKind_text hversion
    have hsame : (kind.listed pk && decide kind.CutOnce) = kind.listed pk := by
      cases hyes : kind.listed pk with
      | false => rfl
      | true => rw [decide_eq_true (hcut hyes), Bool.and_self]
    rw [← hkind, hsame] at hlisted
    exact setBulkUri_spec h hlisted

end

/-! ## Two kinds -/

/-- The numbers of a dotted version. -/
def dottedNumbers (version : String) : Option (List Int) :=
  (splitText "." version).mapM fun part => decimalInt part.toList

/-- The order of the versions that are three numbers. -/
def dottedVersions : Packaging where
  versionGe := fun a b => do
    let a ← dottedNumbers a
    let b ← dottedNumbers b
    return decide (b ≤ a)

/-- The kind of well logs. -/
def logKind : EntityKind where
  authority := "osdu"
  source := "wks"
  group := "work-product-component"
  name := "WellLog"
  version := "1.4.0"
  colonFree := by decide

/-- The same kind of an authority with dashes in its name. -/
def dashedKind : EntityKind where
  authority := "my--org"
  source := "wks"
  group := "work-product-component"
  name := "WellLog"
  version := "1.4.0"
  colonFree := by decide

/-- A record without data. -/
def emptyRecord (kind : EntityKind) : Record where
  id := none
  kind := kind.text
  data := []

theorem writable_emptyRecord (kind : EntityKind) : Writable (emptyRecord kind) :=
  ⟨nofun, nofun, nofun⟩

/-- A well log gets its bulk URI. -/
theorem log_bulk_uri_set :
    ∃ r, setBulkUri dottedVersions (emptyRecord logKind)
      (.str (⟨5, by decide⟩ : UUID).text) = .ok r ∧
      BulkUriSet ⟨5, by decide⟩ (logKind.listed dottedVersions) (emptyRecord logKind) r := by
  have hkind : (emptyRecord logKind).kind = logKind.text := rfl
  have hversion : logKind.ValidVersion dottedVersions := by decide +kernel
  have hcut : logKind.CutOnce := by decide +kernel
  exact (setBulkUri_iff (writable_emptyRecord logKind) hkind hversion ⟨5, by decide⟩).mpr
    fun _ => hcut

/-- **The dataset is left out** where the authority has dashes. -/
theorem dashed_kind_not_set :
    ¬ ∃ r, setBulkUri dottedVersions (emptyRecord dashedKind) (.str (⟨5, by decide⟩ : UUID).text) =
        .ok r ∧
      BulkUriSet ⟨5, by decide⟩ (dashedKind.listed dottedVersions) (emptyRecord dashedKind) r := by
  have hkind : (emptyRecord dashedKind).kind = dashedKind.text := rfl
  have hversion : dashedKind.ValidVersion dottedVersions := by decide +kernel
  have hlisted : dashedKind.listed dottedVersions = true := by decide +kernel
  have hdashes : ¬ dashedKind.CutOnce := by decide +kernel
  exact not_set_of_dashes (writable_emptyRecord dashedKind) hkind hversion hlisted hdashes _

end WellboreDdms
