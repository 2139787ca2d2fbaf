import WellboreDdms.Bulk.Access
import Mathlib.Data.List.Count
import Mathlib.Data.List.Infix
import Mathlib.Data.List.Nodup
import Mathlib.Logic.Equiv.Basic

/-!
# Purging a record

Purging a record also deletes its bulks: the blobs listed under the record whose names
contain the bulk URI of a version.

- `deleteRecord`: the request, over the requests it issues to the two storages.
- `bulkDeletions`: the double loop over the blob names and the bulk URIs.
- `PurgesExactly`: one deletion for each blob in a bulk folder of the record, none for
  another.
- `purgesExactly_iff`: when that is so. A bulk URI has colons and the names of the blobs
  have none, so it is so when there is nothing to delete.
-/

namespace WellboreDdms

open Python Machine

/-- The answers to the calls of one deletion. -/
structure DeletionAnswers where
  getAllRecordVersions : Except Raised (List Int)
  fetchRecord : Int → Except Raised Record
  deleteRecord : Except Raised Unit
  purgeRecord : Except Raised Unit
  resolveTenant : Except Raised Unit
  listObjects : String → Except Raised (List String)

/-- The requests of a deletion that change a storage. -/
inductive DeletionRequest where
  | deleteRecord (id : String)
  | purgeRecord (id : String)
  | deleteBlob (objectName : String)
  deriving DecidableEq

/-- `a in b`, on strings. -/
def occursIn (a b : String) : Bool := decide (a.toList <:+: b.toList)

/-- The blobs to delete, in the order of the tasks. -/
def bulkDeletions (bulkFileNames recordBulkUris : List String) : List String :=
  bulkFileNames.flatMap fun bulkFileName =>
    (recordBulkUris.filter fun bulkId => occursIn bulkId bulkFileName).map fun _ => bulkFileName

section

variable (hashRecordId : String → String) (getBulkUri : Record → Except Raised BulkURI)
  (o : DeletionAnswers)

/-- `_get_bulk_uri_from_version`. -/
def getBulkUriFromVersion (version : Int) : Except Raised (Option String) :=
  match o.fetchRecord version with
  | .ok record => do
    let objBulkUri ← getBulkUri record
    if objBulkUri.isValid then return some (← objBulkUri.encode) else return none
  | .error e => if e = .unexpectedResponse 404 then .ok none else .error e

/-- What the versions are gathered to. -/
def bulkUrisOfVersions : List Int → Except Raised (List String)
  | [] => .ok []
  | version :: versions => do
    let bulkUri ← getBulkUriFromVersion getBulkUri o version
    let bulkUris ← bulkUrisOfVersions versions
    return bulkUri.toList ++ bulkUris

/-- `_get_bulk_uris_of_versions_from_record_id`. -/
def getBulkUrisOfVersionsFromRecordId : Except Raised (List String) :=
  o.getAllRecordVersions >>= bulkUrisOfVersions getBulkUri o

/-- The record is deleted, or purged after its bulk data. -/
def deleteRecord (recordId : String) (purge : Bool) :
    Effect (List DeletionRequest) Raised Unit :=
  if purge = false then do
    Effect.modify fun issued => issued ++ [.deleteRecord recordId]
    Effect.lift o.deleteRecord
  else do
    let recordBulkUris ← Effect.lift (getBulkUrisOfVersionsFromRecordId getBulkUri o)
    Effect.modify fun issued => issued ++ [.purgeRecord recordId]
    Effect.lift o.purgeRecord
    Effect.lift o.resolveTenant
    let bulkFileNames ← Effect.lift (o.listObjects (hashRecordId recordId))
    -- the deletions are only started: one that fails is logged later
    Effect.modify fun issued =>
      issued ++ (bulkDeletions bulkFileNames recordBulkUris).map .deleteBlob

/-- A version refers to the bulk. -/
def Referenced (bulkId : String) : Prop :=
  ∃ versions version record bulkUri, o.getAllRecordVersions = .ok versions ∧ version ∈ versions ∧
    o.fetchRecord version = .ok record ∧ getBulkUri record = .ok bulkUri ∧
    bulkUri.isValid = true ∧ bulkUri.bulkId = bulkId

/-- The blob lies in the folder of `record_bulk_path` for a bulk a version refers to. -/
def InBulkFolder (recordId name : String) : Prop :=
  ∃ bulkId, Referenced getBulkUri o bulkId ∧
    (hashRecordId recordId ++ "/bulk/" ++ bulkId ++ "/").toList <+: name.toList

/-- The requests delete every listed blob in `folder` once and no other blob. -/
structure PurgesExactly (folder : String → Prop) (names : List String)
    (issued : List DeletionRequest) : Prop where
  once : ∀ name ∈ names, folder name → issued.count (.deleteBlob name) = 1
  others : ∀ name, ¬ (name ∈ names ∧ folder name) → issued.count (.deleteBlob name) = 0

end

/-! ## What is deleted -/

/-- A blob is deleted once for each bulk URI that occurs in its name. -/
theorem count_bulkDeletions {names : List String} (h : names.Nodup) (uris : List String)
    (name : String) :
    (bulkDeletions names uris).count name =
      if name ∈ names then uris.countP fun uri => occursIn uri name else 0 := by
  induction names with
  | nil => rfl
  | cons n names ih =>
    obtain ⟨hnotin, hnodup⟩ := List.nodup_cons.mp h
    have hhead : ((uris.filter fun uri => occursIn uri n).map fun _ => n).count name =
        if n = name then uris.countP fun uri => occursIn uri n else 0 := by
      rw [List.map_const', List.count_replicate, List.countP_eq_length_filter]
      simp
    have hsplit : (bulkDeletions (n :: names) uris).count name =
        ((uris.filter fun uri => occursIn uri n).map fun _ => n).count name +
          (bulkDeletions names uris).count name := List.count_append
    rw [hsplit, hhead, ih hnodup]
    by_cases hn : n = name
    · subst hn
      simp [hnotin]
    · simp [hn, Ne.symm hn]

section

variable {hashRecordId : String → String} {getBulkUri : Record → Except Raised BulkURI}
  {o : DeletionAnswers}

/-- What a purge that returns has issued. -/
theorem deleteRecord_purge {recordId : String} {before issued : List DeletionRequest}
    (h : deleteRecord hashRecordId getBulkUri o recordId true before = (.ok (), issued)) :
    ∃ uris names, getBulkUrisOfVersionsFromRecordId getBulkUri o = .ok uris ∧
      o.listObjects (hashRecordId recordId) = .ok names ∧
      issued = before ++ [.purgeRecord recordId] ++ (bulkDeletions names uris).map .deleteBlob := by
  have hpost : Effect.Post (deleteRecord hashRecordId getBulkUri o recordId true) before
      fun out issued => out = .ok () → ∃ uris names,
        getBulkUrisOfVersionsFromRecordId getBulkUri o = .ok uris ∧
        o.listObjects (hashRecordId recordId) = .ok names ∧
        issued = before ++ [.purgeRecord recordId] ++
          (bulkDeletions names uris).map .deleteBlob := by
    refine Effect.post_lift_bind (fun _ _ => nofun) fun uris huris => ?_
    refine Effect.post_modify_bind ?_
    refine Effect.post_lift_bind (fun _ _ => nofun) fun _ _ => ?_
    refine Effect.post_lift_bind (fun _ _ => nofun) fun _ _ => ?_
    refine Effect.post_lift_bind (fun _ _ => nofun) fun names hnames => ?_
    exact fun _ => ⟨uris, names, huris, hnames, rfl⟩
  unfold Effect.Post at hpost
  rw [h] at hpost
  exact hpost rfl

/-- Without purge no blob is deleted. -/
theorem deleteRecord_no_purge (recordId : String) (before : List DeletionRequest) :
    (deleteRecord hashRecordId getBulkUri o recordId false before).2 =
      before ++ [.deleteRecord recordId] := rfl

/-- Every bulk URI has a colon. -/
theorem colon_mem_encode {bulkUri : BulkURI} {uri : String} (h : bulkUri.encode = .ok uri) :
    ':' ∈ uri.toList := by
  unfold BulkURI.encode at h
  split at h
  · cases h
    simp [String.toList_append]
  · split at h
    · cases h
      simp [String.toList_append]
    · cases h

theorem colon_mem_of_version {version : Int} {uri : String}
    (h : getBulkUriFromVersion getBulkUri o version = .ok (some uri)) : ':' ∈ uri.toList := by
  unfold getBulkUriFromVersion at h
  split at h
  · obtain ⟨bulkUri, -, h⟩ := bind_eq_ok.mp h
    split at h
    · obtain ⟨t, ht, h⟩ := bind_eq_ok.mp h
      cases h
      exact colon_mem_encode ht
    · cases h
  · split at h <;> cases h

theorem colon_mem_of_versions {versions : List Int} {uris : List String}
    (h : bulkUrisOfVersions getBulkUri o versions = .ok uris) : ∀ uri ∈ uris, ':' ∈ uri.toList := by
  induction versions generalizing uris with
  | nil =>
    cases h
    nofun
  | cons version versions ih =>
    obtain ⟨bulkUri, hbulkUri, h⟩ := bind_eq_ok.mp h
    obtain ⟨rest, hrest, h⟩ := bind_eq_ok.mp h
    cases h
    intro uri huri
    rcases List.mem_append.mp huri with hmem | hmem
    · rw [Option.mem_toList.mp hmem] at hbulkUri
      exact colon_mem_of_version hbulkUri
    · exact ih hrest uri hmem

/-- A text with a colon does not occur in one without. -/
theorem occursIn_of_not_mem {uri name : String} (huri : ':' ∈ uri.toList)
    (hname : ':' ∉ name.toList) : occursIn uri name = false :=
  decide_eq_false fun hoccurs => hname (hoccurs.subset huri)

/-- A name without colons contains no bulk URI. -/
theorem countP_occursIn_of_not_mem {uris : List String} (h : ∀ uri ∈ uris, ':' ∈ uri.toList)
    {name : String} (hname : ':' ∉ name.toList) :
    uris.countP (fun uri => occursIn uri name) = 0 := by
  rw [List.countP_eq_zero]
  intro uri huri
  rw [occursIn_of_not_mem (h uri huri) hname]
  exact Bool.false_ne_true

/-- The requests for blobs are those of the double loop. -/
theorem count_issued (recordId name : String) (deletions : List String) :
    ([DeletionRequest.purgeRecord recordId] ++ deletions.map DeletionRequest.deleteBlob).count
      (DeletionRequest.deleteBlob name) = deletions.count name := by
  have hinj : Function.Injective DeletionRequest.deleteBlob :=
    fun _ _ heq => DeletionRequest.deleteBlob.inj heq
  rw [List.singleton_append, List.count_cons_of_ne (by simp), List.count_map_of_injective _ _ hinj]

/-- Where only listed blobs are deleted, the counts of the listed ones decide. -/
theorem PurgesExactly.iff_of_count (folder : String → Prop) {names : List String}
    {issued : List DeletionRequest} {times : String → Nat}
    (hcount : ∀ name, issued.count (.deleteBlob name) = if name ∈ names then times name else 0) :
    PurgesExactly folder names issued ↔
      ∀ name ∈ names, (folder name → times name = 1) ∧ (¬ folder name → times name = 0) := by
  constructor
  · intro h name hname
    have hlisted := (hcount name).trans (if_pos hname)
    exact ⟨fun hfolder => hlisted.symm.trans (h.once name hname hfolder),
      fun hfolder => hlisted.symm.trans (h.others name fun hboth => hfolder hboth.2)⟩
  · intro h
    refine ⟨fun name hname hfolder => ?_, fun name hboth => ?_⟩
    · rw [hcount, if_pos hname]
      exact (h name hname).1 hfolder
    · rw [hcount]
      split
      · rename_i hname
        exact (h name hname).2 fun hfolder => hboth ⟨hname, hfolder⟩
      · rfl

/-- **When a purge deletes exactly the bulks of the record**: if and only if the name of
each listed blob in a bulk folder contains one bulk URI of the versions, and no other listed
name contains any. For names without colons: if and only if no listed blob is in a bulk
folder. -/
theorem purgesExactly_iff {recordId : String} {names uris : List String}
    {issued : List DeletionRequest}
    (hrun : deleteRecord hashRecordId getBulkUri o recordId true [] = (.ok (), issued))
    (hnames : o.listObjects (hashRecordId recordId) = .ok names) (hnodup : names.Nodup)
    (huris : getBulkUrisOfVersionsFromRecordId getBulkUri o = .ok uris) :
    (PurgesExactly (InBulkFolder hashRecordId getBulkUri o recordId) names issued ↔
      ∀ name ∈ names,
        (InBulkFolder hashRecordId getBulkUri o recordId name →
          uris.countP (fun uri => occursIn uri name) = 1) ∧
        (¬ InBulkFolder hashRecordId getBulkUri o recordId name →
          uris.countP (fun uri => occursIn uri name) = 0)) ∧
    ((∀ name ∈ names, ':' ∉ name.toList) →
      (PurgesExactly (InBulkFolder hashRecordId getBulkUri o recordId) names issued ↔
        ∀ name ∈ names, ¬ InBulkFolder hashRecordId getBulkUri o recordId name)) := by
  obtain ⟨uris', names', huris', hnames', rfl⟩ := deleteRecord_purge hrun
  obtain rfl := Except.ok.inj (huris.symm.trans huris')
  obtain rfl := Except.ok.inj (hnames.symm.trans hnames')
  have hiff := PurgesExactly.iff_of_count (InBulkFolder hashRecordId getBulkUri o recordId)
    fun name => (count_issued recordId name (bulkDeletions names uris)).trans
      (count_bulkDeletions hnodup uris name)
  refine ⟨hiff, fun hcolon => hiff.trans ?_⟩
  -- a bulk URI has a colon, and so occurs in no name that has none
  obtain ⟨versions, -, hversions⟩ := bind_eq_ok.mp huris
  have hnone : ∀ name ∈ names, uris.countP (fun uri => occursIn uri name) = 0 := fun name hname =>
    countP_occursIn_of_not_mem (colon_mem_of_versions hversions) (hcolon name hname)
  constructor
  · intro h name hname hfolder
    have hone := (h name hname).1 hfolder
    rw [hnone name hname] at hone
    cases hone
  · intro h name hname
    exact ⟨fun hfolder => absurd hfolder (h name hname), fun _ => hnone name hname⟩

end

/-! ## A record with one version -/

/-- A record that is purged. -/
def purgedId : String := "opendes:work-product-component--WellLog:1"

/-- The hash of its id. -/
def purgedHash : String := "7e773ff81197c94c6c6855b633748fab12e25aac"

/-- One version with a bulk, and one blob. -/
def purgeAnswers (blob : String) : DeletionAnswers where
  getAllRecordVersions := .ok [1]
  fetchRecord := fun _ => .ok
    { id := some purgedId
      kind := "osdu:wks:work-product-component--WellLog:1.0.0"
      data := [("ExtensionProperties", .dict [("wdms", .dict
        [("bulkURI", .str "urn:wdms-1:uuid:59c1ab7b-3bc9-4963-976d-815952bc8ddc")])])] }
  deleteRecord := .ok ()
  purgeRecord := .ok ()
  resolveTenant := .ok ()
  listObjects := fun folder => .ok [folder ++ blob]

theorem hash_purgedId : Equiv.swap purgedId purgedHash purgedId = purgedHash :=
  Equiv.swap_apply_left purgedId purgedHash

theorem listed_of_purged (blob : String) :
    (purgeAnswers blob).listObjects (Equiv.swap purgedId purgedHash purgedId) =
      .ok [purgedHash ++ blob] :=
  congrArg (fun folder => Except.ok [folder ++ blob]) hash_purgedId

/-- The purge of the record deletes no blob without a colon in its name. -/
theorem deleteRecord_purged {blob : String} (h : ':' ∉ (purgedHash ++ blob).toList) :
    deleteRecord (Equiv.swap purgedId purgedHash) OsduBulkIdAccess.getBulkUri (purgeAnswers blob)
      purgedId true [] = (.ok (), [.purgeRecord purgedId]) := by
  have hrun : deleteRecord (Equiv.swap purgedId purgedHash) OsduBulkIdAccess.getBulkUri
      (purgeAnswers blob) purgedId true [] = (.ok (), [.purgeRecord purgedId] ++
        (bulkDeletions [Equiv.swap purgedId purgedHash purgedId ++ blob]
          ["urn:wdms-1:uuid:59c1ab7b-3bc9-4963-976d-815952bc8ddc"]).map .deleteBlob) := by rfl
  have hnone : occursIn "urn:wdms-1:uuid:59c1ab7b-3bc9-4963-976d-815952bc8ddc"
      (purgedHash ++ blob) = false := occursIn_of_not_mem (by decide) h
  have hdeletions : bulkDeletions [purgedHash ++ blob]
      ["urn:wdms-1:uuid:59c1ab7b-3bc9-4963-976d-815952bc8ddc"] = [] := by
    simp only [bulkDeletions, List.flatMap_cons, List.flatMap_nil, List.filter_cons, hnone,
      Bool.false_eq_true, if_false, List.filter_nil, List.map_nil, List.append_nil]
  rw [hrun, hash_purgedId, hdeletions]
  rfl

theorem purged_uris (blob : String) :
    getBulkUrisOfVersionsFromRecordId OsduBulkIdAccess.getBulkUri (purgeAnswers blob) =
      .ok ["urn:wdms-1:uuid:59c1ab7b-3bc9-4963-976d-815952bc8ddc"] := by rfl

/-- **The bulk of a purged record stays**: its blob is listed and not deleted. -/
theorem purged_bulk_stays :
    ¬ ∀ (hashRecordId : String → String) (o : DeletionAnswers) (recordId : String)
      (names : List String) (issued : List DeletionRequest), Function.Injective hashRecordId →
      deleteRecord hashRecordId OsduBulkIdAccess.getBulkUri o recordId true [] = (.ok (), issued) →
      o.listObjects (hashRecordId recordId) = .ok names → names.Nodup →
      PurgesExactly (InBulkFolder hashRecordId OsduBulkIdAccess.getBulkUri o recordId) names
        issued := by
  intro h
  have hpurges :=
    h _ (purgeAnswers "/bulk/59c1ab7b-3bc9-4963-976d-815952bc8ddc/data/part.0.parquet")
    purgedId _ _ (Equiv.injective _) (deleteRecord_purged (by decide)) (listed_of_purged _)
    (List.nodup_singleton _)
  have hfolder : InBulkFolder (Equiv.swap purgedId purgedHash) OsduBulkIdAccess.getBulkUri
      (purgeAnswers "/bulk/59c1ab7b-3bc9-4963-976d-815952bc8ddc/data/part.0.parquet") purgedId
      (purgedHash ++ "/bulk/59c1ab7b-3bc9-4963-976d-815952bc8ddc/data/part.0.parquet") := by
    refine ⟨"59c1ab7b-3bc9-4963-976d-815952bc8ddc", ⟨[1], 1, _, _, rfl, List.mem_singleton_self 1,
      rfl, rfl, rfl, rfl⟩, ?_⟩
    rw [hash_purgedId]
    decide
  have hone := hpurges.once _ (List.mem_singleton_self _) hfolder
  cases hone

/-- Next to the bulks, the blobs of a session are left alone. -/
theorem purgesExactly_session :
    ∃ issued, deleteRecord (Equiv.swap purgedId purgedHash) OsduBulkIdAccess.getBulkUri
        (purgeAnswers "/session/87be6134-1b8f-43c0-a7f6-384a6a323f60/data/part.0.parquet") purgedId
        true [] = (.ok (), issued) ∧
      PurgesExactly (InBulkFolder (Equiv.swap purgedId purgedHash) OsduBulkIdAccess.getBulkUri
        (purgeAnswers "/session/87be6134-1b8f-43c0-a7f6-384a6a323f60/data/part.0.parquet") purgedId)
        [purgedHash ++ "/session/87be6134-1b8f-43c0-a7f6-384a6a323f60/data/part.0.parquet"]
        issued := by
  have hplain : ':' ∉ (purgedHash ++
      "/session/87be6134-1b8f-43c0-a7f6-384a6a323f60/data/part.0.parquet").toList := by decide
  have hrun := deleteRecord_purged hplain
  refine ⟨_, hrun, ?_⟩
  refine ((purgesExactly_iff hrun (listed_of_purged _) (List.nodup_singleton _)
    (purged_uris _)).2 (by decide)).mpr ?_
  rintro name hname ⟨bulkId, -, hfolder⟩
  rw [List.mem_singleton.mp hname, hash_purgedId, String.append_assoc,
    String.toList_append] at hfolder
  have hbulk := (List.prefix_append (purgedHash ++ "/bulk/").toList _).trans hfolder
  exact absurd hbulk (by decide)

end WellboreDdms
