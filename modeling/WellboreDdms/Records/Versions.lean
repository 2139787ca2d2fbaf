import Mathlib.Data.List.Perm.Basic
import WellboreDdms.Machine.History
import WellboreDdms.Machine.Run
import WellboreDdms.Records.BlobStorage

/-!
# Versions of records on a blob storage

Every write of a record makes a new blob in the folder of the record, named by its version. The
latest version is the one whose name sorts last.

- `BlobDeployment`: what the service runs on; `service`: its requests, on the blobs there are.
- `createOrUpdateRecords`, `deleteRecord`, `deleteRecords`: the calls that change the blobs.
- `BlobRecords`, `step`: the blobs over a sequence of calls, with the history of what was written
  and deleted, and `VersionedStore`: the answers of a store that keeps this history.
- `Keeps`: the invariant. The blobs of a record are the versions of its history, and their names
  sort as they were written.
- `versionedStore_of_run`: so it is after every run whose writes sort last (`sortsLast`) and whose
  deletions by id remove the blobs of these ids (`removesFolders`).
- `delete_records_leaves_record`: they need not, since the blobs are not named by the ids.
-/

namespace WellboreDdms

open Python Machine

variable {τ : Type}

/-- What the service runs on. Digests have one length and are taken to be distinct, so that none
of them begins what begins with another one. -/
structure BlobDeployment (py : Pydantic τ) where
  model : RecordModel py
  recordToJson : Record → τ
  md5Hexdigest : String → String
  dataPartition : String
  /-- The deletion of a blob that is not there. -/
  deleteMissing : Except Raised Unit
  modelValidateJson_recordToJson : ∀ r, model.modelValidateJson (recordToJson r) = some r
  hexdigest_prefix : ∀ {a b : String} {rest : List Char},
    (md5Hexdigest a).toList <+: (md5Hexdigest b).toList ++ rest → a = b

/-- The blobs of the container, by their names. -/
abbrev Blobs (τ : Type) := Dict String τ

/-- A record to be written, with the UUID and the ULID that are drawn for it. -/
structure DrawnRecord where
  record : Record
  uuidHex : String
  ulid : Int

namespace BlobDeployment

variable {py : Pydantic τ} (d : BlobDeployment py)

/-- The requests of the service, answered from the blobs; nobody is refused. -/
def service (blobs : Blobs τ) : StorageRecordServiceBlobStorage τ where
  checkAuth := .ok ()
  listObjects := fun start =>
    .ok ((blobs.map Prod.fst).filter fun name => start.toList.isPrefixOf name.toList)
  download := fun name =>
    match Dict.get blobs name with
    | some t => .ok t
    | none => .error resourceNotFoundException
  md5Hexdigest := d.md5Hexdigest
  dataPartition := d.dataPartition

/-- The start of the names of a record's blobs. -/
def folder (id : String) : String := (d.service []).getRecordFolder id

/-- The path of a version, which is no zero. -/
def objectName (id : String) (version : Int) : String := d.folder id ++ "/" ++ toString version

/-- A new id, from the parts of the kind. -/
def getNewIdForRecord (record : Record) (uuidHex : String) : Except Raised String :=
  match split record.kind with
  | authority :: _ :: entity :: _ => .ok (join [authority, entity, uuidHex])
  | _ => .error (.other "IndexError")

/-- The id of the record, or a new one. -/
def recordId (w : DrawnRecord) : Except Raised String :=
  match w.record.id with
  | some id => .ok id
  | none => getNewIdForRecord w.record w.uuidHex

/-- The record as it is written, with its id and its version. -/
def numbered (w : DrawnRecord) : Except Raised (String × Int × Record) := do
  let id ← recordId w
  return (id, w.ulid, { w.record with id := some id, version := some w.ulid })

/-- The record becomes a blob of its own. -/
def upload (blobs : Blobs τ) (r : String × Int × Record) : Blobs τ :=
  Dict.set blobs (d.objectName r.1 r.2.1) (d.recordToJson r.2.2)

/-- The records that were written, and the blobs after it. -/
def createOrUpdateRecords (blobs : Blobs τ) (records : List DrawnRecord) :
    Except Raised (List (String × Int × Record)) × Blobs τ :=
  match records.mapM numbered with
  | .ok written => (.ok written, written.foldl d.upload blobs)
  | .error e => (.error e, blobs)

/-- The versions, from the names of the blobs. -/
def getAllRecordVersions (blobs : Blobs τ) (id : String) : Except Raised (List String) := do
  let objects ← (d.service blobs).getAllVersionObject id
  return objects.map lastPart

/-- The blobs of a record, deleted one by one until a deletion raises. -/
def deleteEach (blobs : Blobs τ) : List String → Except Raised Unit × Blobs τ
  | [] => (.ok (), blobs)
  | name :: names =>
    if Dict.contains blobs name then deleteEach (Dict.erase blobs name) names
    else
      match d.deleteMissing with
      | .ok () => deleteEach blobs names
      | .error e => (.error (if e = fileNotFoundError then .unexpectedResponse 404 else e), blobs)

/-- `delete_record`, by the names of the record's blobs. -/
def deleteRecord (blobs : Blobs τ) (id : String) : Except Raised Unit × Blobs τ :=
  match (d.service blobs).getAllVersionObject id with
  | .ok names => d.deleteEach blobs names
  | .error e => (.error e, blobs)

/-- The blobs that are named in the body. All deletions are made, and the first exception is
raised. -/
def deleteRecords (blobs : Blobs τ) : List String → Except Raised Unit × Blobs τ
  | [] => (.ok (), blobs)
  | name :: names =>
    let rest := deleteRecords (Dict.erase blobs name) names
    (if Dict.contains blobs name then rest.1 else d.deleteMissing >>= fun _ => rest.1, rest.2)

end BlobDeployment

/-! ## Sequences of calls -/

/-- The calls that change what is stored. -/
inductive RecordCall where
  | createOrUpdateRecords (records : List DrawnRecord)
  | deleteRecord (id : String)
  | deleteRecords (requestBody : List String)

/-- `log` is no part of the service: what was written, with its version, and the ids deleted. -/
structure BlobRecords (τ : Type) where
  blobs : Blobs τ
  lastUlid : Int
  log : List (Entry String (Int × Record))

/-- ULIDs are drawn in increasing order. -/
def increasing : Int → List Int → Bool
  | _, [] => true
  | last, ulid :: ulids => last < ulid && increasing ulid ulids

namespace BlobRecords

variable {py : Pydantic τ} (d : BlobDeployment py)

/-- A call that raised has written or deleted nothing that it promised. -/
def step (s : BlobRecords τ) : RecordCall → Option (BlobRecords τ)
  | .createOrUpdateRecords records =>
    let ulids := records.map DrawnRecord.ulid
    if increasing s.lastUlid ulids then
      let (outcome, blobs) := d.createOrUpdateRecords s.blobs records
      let entries := match outcome with
        | .ok written => written.map fun r => .wrote r.1 r.2
        | .error _ => []
      some { blobs := blobs, lastUlid := ulids.getLastD s.lastUlid, log := s.log ++ entries }
    else none
  | .deleteRecord id =>
    let (outcome, blobs) := d.deleteRecord s.blobs id
    let entries := match outcome with
      | .ok _ => [.deleted id]
      | .error _ => []
    some { s with blobs := blobs, log := s.log ++ entries }
  | .deleteRecords requestBody =>
    let (outcome, blobs) := d.deleteRecords s.blobs requestBody
    let entries := match outcome with
      | .ok _ => requestBody.map .deleted
      | .error _ => []
    some { s with blobs := blobs, log := s.log ++ entries }

/-- No record is stored, and nothing has happened yet. Other blobs may be there. -/
structure Initial (s : BlobRecords τ) : Prop where
  nodup : (s.blobs.map Prod.fst).Nodup
  others : ∀ id, ∀ name ∈ s.blobs.map Prod.fst, ¬ (d.folder id).toList <+: name.toList
  lastUlid : 0 ≤ s.lastUlid
  log : s.log = []

/-- **A versioned store**: the answers are those of the history. -/
structure VersionedStore (s : BlobRecords τ) : Prop where
  getRecord : ∀ id, (d.service s.blobs).getRecord d.model id none =
    match (since id s.log).getLast? with
    | some (_, r) => .ok r
    | none => .error (.unexpectedResponse 404)
  getRecordVersion : ∀ id version r, (version, r) ∈ since id s.log →
    (d.service s.blobs).getRecordVersion d.model id (some version) none = .ok r
  getAllRecordVersions : ∀ id, d.getAllRecordVersions s.blobs id =
    .ok ((since id s.log).map fun w => toString w.1)

end BlobRecords

/-! ## Folders -/

namespace BlobDeployment

variable {py : Pydantic τ} (d : BlobDeployment py)

/-- The names of the blobs of a record. -/
def names (blobs : Blobs τ) (id : String) : List String :=
  (blobs.map Prod.fst).filter fun name => (d.folder id).toList.isPrefixOf name.toList

variable {d} {blobs : Blobs τ} {id id' name : String} {version : Int}

/-- The names of a record's blobs are those in its folder. -/
theorem mem_names : name ∈ d.names blobs id ↔
    name ∈ blobs.map Prod.fst ∧ (d.folder id).toList <+: name.toList := by
  rw [names, List.mem_filter, List.isPrefixOf_iff_prefix]

/-- A name lies in one folder at most. -/
theorem folder_unique (h : (d.folder id).toList <+: name.toList)
    (h' : (d.folder id').toList <+: name.toList) : id = id' := by
  obtain ⟨rest, hrest⟩ := h'
  rw [← hrest] at h
  have hfolder : ∀ id, (d.folder id).toList =
      ((if d.dataPartition = "" then "global" else d.dataPartition) ++ "_r_").toList ++
        (d.md5Hexdigest id).toList := by
    intro id
    rw [← String.toList_append]
    rfl
  rw [hfolder, hfolder, List.append_assoc, List.prefix_append_right_inj] at h
  exact d.hexdigest_prefix h

theorem toList_objectName : (d.objectName id version).toList =
    (d.folder id).toList ++ '/' :: version.repr.toList := by
  have hslash : "/".toList = ['/'] := by decide
  rw [objectName, String.toList_append, String.toList_append, hslash, List.append_assoc,
    List.singleton_append]
  rfl

/-- A blob lies in the folder of its record. -/
theorem folder_objectName : (d.folder id).toList <+: (d.objectName id version).toList := by
  rw [toList_objectName]
  exact List.prefix_append _ _

/-- The version is the last part of the name. -/
@[simp] theorem lastPart_objectName : lastPart (d.objectName id version) = toString version := by
  rw [lastPart_of_slash toList_objectName (slash_not_mem_repr version)]
  exact String.ofList_toList

/-- What is stored under a name of another folder does not count. -/
theorem names_set_of_ne (hne : id' ≠ id) (t : τ) :
    d.names (Dict.set blobs (d.objectName id version) t) id' = d.names blobs id' := by
  have hother : (d.folder id').toList.isPrefixOf (d.objectName id version).toList = false := by
    rw [Bool.eq_false_iff]
    intro h
    exact hne (folder_unique (List.isPrefixOf_iff_prefix.mp h) folder_objectName)
  rw [names, names, Dict.keys_set]
  split
  · rfl
  · rw [List.filter_append, List.filter_singleton, hother]
    exact List.append_nil _

theorem names_set_self (hnew : d.objectName id version ∉ blobs.map Prod.fst) (t : τ) :
    d.names (Dict.set blobs (d.objectName id version) t) id =
      d.names blobs id ++ [d.objectName id version] := by
  have hself : (d.folder id).toList.isPrefixOf (d.objectName id version).toList = true :=
    List.isPrefixOf_iff_prefix.mpr folder_objectName
  rw [names, names, Dict.keys_set, if_neg hnew, List.filter_append, List.filter_singleton, hself]
  rfl

end BlobDeployment

/-! ## The invariant -/

namespace BlobDeployment

variable {py : Pydantic τ} (d : BlobDeployment py)

/-- The blobs of each record are the versions of its history, under names that sort as they were
written. -/
structure Keeps (blobs : Blobs τ) (log : List (Entry String (Int × Record))) : Prop where
  nodup : (blobs.map Prod.fst).Nodup
  perm : ∀ id, (d.names blobs id).Perm ((since id log).map fun w => d.objectName id w.1)
  sorted : ∀ id, ((since id log).map fun w => d.objectName id w.1).Pairwise (· < ·)
  texts : ∀ id, ∀ w ∈ since id log,
    Dict.get blobs (d.objectName id w.1) = some (d.recordToJson w.2)
  positive : ∀ id, ∀ w ∈ since id log, 0 < w.1

/-- The name of the new version sorts after the names of the versions there are. -/
def sortsLast (blobs : Blobs τ) (r : String × Int × Record) : Bool :=
  (d.names blobs r.1).all fun name => decide (name < d.objectName r.1 r.2.1)

variable {d} {blobs : Blobs τ} {log : List (Entry String (Int × Record))}

/-- **One write** of a version that sorts last. -/
theorem Keeps.upload (h : d.Keeps blobs log) {r : String × Int × Record} (hpositive : 0 < r.2.1)
    (hlast : d.sortsLast blobs r = true) :
    d.Keeps (d.upload blobs r) (log ++ [.wrote r.1 r.2]) := by
  obtain ⟨id, version, record⟩ := r
  -- the new name sorts after all names of the record
  have hlast' : ∀ name ∈ d.names blobs id, name < d.objectName id version := by
    intro name hname
    exact of_decide_eq_true (List.all_eq_true.mp hlast name hname)
  have hnew : d.objectName id version ∉ blobs.map Prod.fst := fun hmem =>
    String.lt_irrefl _ (hlast' _ (mem_names.mpr ⟨hmem, folder_objectName⟩))
  have hlt : ∀ name ∈ (since id log).map fun w => d.objectName id w.1,
      name < d.objectName id version := fun name hname =>
    hlast' name ((h.perm id).mem_iff.mpr hname)
  -- so it is a new name, and no other version is overwritten
  have hne : ∀ {id'} {w : Int × Record}, w ∈ since id' log →
      d.objectName id' w.1 ≠ d.objectName id version := by
    intro id' w hw heq
    refine hnew (heq ▸ ?_)
    exact (mem_names.mp ((h.perm id').mem_iff.mpr (List.mem_map_of_mem hw))).1
  refine ⟨Dict.nodup_keys_set h.nodup _ _, ?_, ?_, ?_, ?_⟩
  · intro id'
    by_cases hid : id' = id
    · subst hid
      rw [BlobDeployment.upload, names_set_self hnew, since_wrote, List.map_append]
      exact (h.perm id').append_right _
    · rw [BlobDeployment.upload, names_set_of_ne hid, since_wrote_of_ne (Ne.symm hid)]
      exact h.perm id'
  · intro id'
    by_cases hid : id' = id
    · subst hid
      rw [since_wrote, List.map_append, List.pairwise_append]
      refine ⟨h.sorted id', List.pairwise_singleton _ _, fun name hname last hmem => ?_⟩
      rw [List.map_singleton, List.mem_singleton] at hmem
      rw [hmem]
      exact hlt name hname
    · rw [since_wrote_of_ne (Ne.symm hid)]
      exact h.sorted id'
  · intro id' w hw
    rw [BlobDeployment.upload]
    rcases mem_since_wrote.mp hw with hw | ⟨rfl, rfl⟩
    · rw [Dict.get_set_of_ne _ _ (hne hw)]
      exact h.texts id' w hw
    · exact Dict.get_set_self _ _ _
  · intro id' w hw
    rcases mem_since_wrote.mp hw with hw | ⟨-, rfl⟩
    · exact h.positive id' w hw
    · exact hpositive

/-- The writes of one call. -/
def sortLast (d : BlobDeployment py) (blobs : Blobs τ) : List (String × Int × Record) → Bool
  | [] => true
  | r :: rs => d.sortsLast blobs r && sortLast d (d.upload blobs r) rs

/-- **Several writes** of versions that sort last. -/
theorem Keeps.uploads {rs : List (String × Int × Record)} (h : d.Keeps blobs log)
    (hpositive : ∀ r ∈ rs, 0 < r.2.1) (hlast : sortLast d blobs rs = true) :
    d.Keeps (rs.foldl d.upload blobs) (log ++ rs.map fun r => .wrote r.1 r.2) := by
  induction rs generalizing blobs log with
  | nil => simpa using h
  | cons r rs ih =>
    obtain ⟨hr, hrs⟩ := Bool.and_eq_true_iff.mp hlast
    obtain ⟨hpos, hpositive⟩ := List.forall_mem_cons.mp hpositive
    have hrest := ih (h.upload hpos hr) hpositive hrs
    rwa [List.append_assoc] at hrest

/-- **A deletion** of whole folders, if the history forgets the same ids. -/
theorem Keeps.filter {p : String → Bool} {log' : List (Entry String (Int × Record))}
    (h : d.Keeps blobs log)
    (hids : ∀ id, (since id log' = since id log ∧ ∀ name ∈ d.names blobs id, p name = true) ∨
      (since id log' = [] ∧ ∀ name ∈ d.names blobs id, p name = false)) :
    d.Keeps (blobs.filter fun q => p q.1) log' := by
  have hkeys : (blobs.filter fun q => p q.1).map Prod.fst = (blobs.map Prod.fst).filter p := by
    rw [List.filter_map]
    rfl
  have hnames : ∀ id, d.names (blobs.filter fun q => p q.1) id = (d.names blobs id).filter p := by
    intro id
    rw [names, names, hkeys, List.filter_comm]
  refine ⟨?_, ?_, ?_, ?_, ?_⟩
  · rw [hkeys]
    exact h.nodup.filter p
  · intro id
    rw [hnames]
    -- the record keeps all its blobs, or loses them with its history
    rcases hids id with ⟨hsince, hkept⟩ | ⟨hsince, hgone⟩
    · rw [hsince, List.filter_eq_self.mpr hkept]
      exact h.perm id
    · rw [hsince, List.filter_eq_nil_iff.mpr fun name hname => by rw [hgone name hname]; decide]
      exact List.Perm.refl _
  · intro id
    rcases hids id with ⟨hsince, -⟩ | ⟨hsince, -⟩
    · rw [hsince]
      exact h.sorted id
    · rw [hsince]
      exact List.Pairwise.nil
  · intro id w hw
    rcases hids id with ⟨hsince, hkept⟩ | ⟨hsince, -⟩
    · rw [hsince] at hw
      have hmem := (h.perm id).mem_iff.mpr (List.mem_map_of_mem hw)
      rw [Dict.get_filter, if_pos (hkept _ hmem)]
      exact h.texts id w hw
    · rw [hsince] at hw
      cases hw
  · intro id w hw
    rcases hids id with ⟨hsince, -⟩ | ⟨hsince, -⟩
    · rw [hsince] at hw
      exact h.positive id w hw
    · rw [hsince] at hw
      cases hw

/-! ## What the calls do -/

/-- The versions of a record, as they were written. -/
theorem Keeps.getAllVersionObject (h : d.Keeps blobs log) (id : String) :
    (d.service blobs).getAllVersionObject id =
      .ok ((since id log).map fun w => d.objectName id w.1) := by
  have hperm := (List.mergeSort_perm (d.names blobs id) fun a b => decide (a ≤ b)).trans (h.perm id)
  have hsort : ((d.names blobs id).mergeSort fun a b => decide (a ≤ b)).Pairwise (· ≤ ·) := by
    refine (List.pairwise_mergeSort ?_ ?_ _).imp of_decide_eq_true
    · intro a b c hab hbc
      exact decide_eq_true (String.le_trans (of_decide_eq_true hab) (of_decide_eq_true hbc))
    · intro a b
      simpa using String.le_total a b
  have hsorted := (h.sorted id).imp fun hab => String.not_lt.mp (String.lt_asymm hab)
  exact congrArg Except.ok (hperm.eq_of_pairwise (fun _ _ _ _ => String.le_antisymm) hsort hsorted)

/-- Names that are there and differ are deleted, and nothing else. -/
theorem deleteEach_eq {names : List String} (hnodup : names.Nodup)
    (hmem : ∀ name ∈ names, name ∈ blobs.map Prod.fst) :
    d.deleteEach blobs names = (.ok (), blobs.filter fun q => decide (q.1 ∉ names)) := by
  induction names generalizing blobs with
  | nil => simp [deleteEach]
  | cons name names ih =>
    obtain ⟨hnotin, hnodup⟩ := List.nodup_cons.mp hnodup
    obtain ⟨hname, hmem⟩ := List.forall_mem_cons.mp hmem
    have hrest : ∀ other ∈ names, other ∈ (Dict.erase blobs name).map Prod.fst := by
      intro other hother
      obtain ⟨q, hq, rfl⟩ := List.mem_map.mp (hmem other hother)
      refine List.mem_map_of_mem (List.mem_filter.mpr ⟨hq, decide_eq_true fun heq => ?_⟩)
      exact hnotin (heq ▸ hother)
    rw [deleteEach, if_pos (Dict.contains_iff.mpr hname), ih hnodup hrest, Dict.erase,
      List.filter_filter]
    simp only [List.mem_cons, not_or, ne_eq, Bool.decide_and, Bool.and_comm]

theorem deleteRecords_blobs (requestBody : List String) :
    (d.deleteRecords blobs requestBody).2 = blobs.filter fun q => decide (q.1 ∉ requestBody) := by
  induction requestBody generalizing blobs with
  | nil => simp [deleteRecords]
  | cons name names ih =>
    simp only [deleteRecords]
    rw [ih, Dict.erase, List.filter_filter]
    simp only [List.mem_cons, not_or, ne_eq, Bool.decide_and, Bool.and_comm]

/-- **A deletion** of a record does not raise, and leaves no version of it. -/
theorem Keeps.deleteRecord (h : d.Keeps blobs log) (id : String) :
    (d.deleteRecord blobs id).1 = .ok () ∧
      d.Keeps (d.deleteRecord blobs id).2 (log ++ [.deleted id]) := by
  have hmem : ∀ name, name ∈ (since id log).map (fun w => d.objectName id w.1) ↔
      name ∈ d.names blobs id := fun name => ((h.perm id).mem_iff).symm
  have hnodup : ((since id log).map fun w => d.objectName id w.1).Nodup :=
    (h.sorted id).imp String.ne_of_lt
  have hdelete : d.deleteRecord blobs id = (.ok (), blobs.filter fun q =>
      decide (q.1 ∉ (since id log).map fun w => d.objectName id w.1)) := by
    rw [BlobDeployment.deleteRecord, h.getAllVersionObject]
    exact deleteEach_eq hnodup fun name hname => (mem_names.mp ((hmem name).mp hname)).1
  rw [hdelete]
  refine ⟨rfl, h.filter (p := fun name => decide (name ∉ _)) fun id' => ?_⟩
  by_cases hid : id' = id
  · subst hid
    refine Or.inr ⟨since_deleted _ _, fun name hname => ?_⟩
    exact decide_eq_false fun hnot => hnot ((hmem name).mpr hname)
  · refine Or.inl ⟨since_deleted_of_ne (Ne.symm hid) _, fun name hname => ?_⟩
    refine decide_eq_true fun hin => hid ?_
    exact folder_unique (mem_names.mp hname).2 (mem_names.mp ((hmem name).mp hin)).2

/-- The blobs that are named in the body are those in the folders of its ids; and if the call
raises, there are none. -/
def removesFolders (d : BlobDeployment py) (blobs : Blobs τ) (requestBody : List String) : Bool :=
  let returned := match (d.deleteRecords blobs requestBody).1 with
    | .ok _ => true
    | .error _ => false
  (blobs.map Prod.fst).all fun name =>
    decide (name ∈ requestBody) ==
      (returned && requestBody.any fun id => (d.folder id).toList.isPrefixOf name.toList)

/-- **A deletion by names** that removes whole folders. -/
theorem Keeps.deleteRecords (h : d.Keeps blobs log) {requestBody : List String}
    (hremoves : d.removesFolders blobs requestBody = true) :
    d.Keeps (d.deleteRecords blobs requestBody).2
      (log ++ match (d.deleteRecords blobs requestBody).1 with
        | .ok _ => requestBody.map .deleted
        | .error _ => []) := by
  rw [deleteRecords_blobs]
  refine h.filter (p := fun name => decide (name ∉ requestBody)) fun id => ?_
  have hall := List.all_eq_true.mp hremoves
  cases houtcome : (d.deleteRecords blobs requestBody).1 with
  -- the deletion raised: none of the blobs was there
  | error e =>
    refine Or.inl ⟨by simp only [List.append_nil], fun name hname => ?_⟩
    have hname' := hall name (mem_names.mp hname).1
    simp only [houtcome, Bool.false_and, beq_false, Bool.not_eq_true'] at hname'
    exact decide_eq_true (of_decide_eq_false hname')
  | ok u =>
    -- a blob is deleted exactly if its record's id is in the body
    have hiff : ∀ name ∈ d.names blobs id, name ∈ requestBody ↔ id ∈ requestBody := by
      intro name hname
      obtain ⟨hmem, hfolder⟩ := mem_names.mp hname
      have hname' := hall name hmem
      simp only [houtcome, Bool.true_and, beq_iff_eq] at hname'
      have hany : name ∈ requestBody ↔
          requestBody.any (fun id => (d.folder id).toList.isPrefixOf name.toList) = true := by
        rw [← hname', decide_eq_true_iff]
      rw [hany, List.any_eq_true]
      constructor
      · rintro ⟨id', hid', hprefix⟩
        rwa [folder_unique hfolder (List.isPrefixOf_iff_prefix.mp hprefix)]
      · exact fun hid => ⟨id, hid, List.isPrefixOf_iff_prefix.mpr hfolder⟩
    rw [since_append_deleted]
    by_cases hid : id ∈ requestBody
    · refine Or.inr ⟨if_pos hid, fun name hname => ?_⟩
      exact decide_eq_false fun hnot => hnot ((hiff name hname).mpr hid)
    · refine Or.inl ⟨if_neg hid, fun name hname => ?_⟩
      exact decide_eq_true fun hin => hid ((hiff name hname).mp hin)

/-- The version a record is written with is the ULID drawn for it. -/
theorem versions_of_numbered {records : List DrawnRecord} {written : List (String × Int × Record)}
    (h : records.mapM numbered = .ok written) :
    written.map (fun r => r.2.1) = records.map DrawnRecord.ulid := by
  induction records generalizing written with
  | nil =>
    cases h
    rfl
  | cons w records ih =>
    rw [List.mapM_cons] at h
    obtain ⟨r, hr, hrest⟩ := bind_eq_ok.mp h
    obtain ⟨rs, hrs, hpure⟩ := bind_eq_ok.mp hrest
    cases hpure
    rw [numbered] at hr
    obtain ⟨id, -, hid⟩ := bind_eq_ok.mp hr
    cases hid
    rw [List.map_cons, List.map_cons, ih hrs]

/-- **One call** that writes versions that sort last. -/
theorem Keeps.createOrUpdateRecords (h : d.Keeps blobs log) {records : List DrawnRecord}
    (hpositive : ∀ ulid ∈ records.map DrawnRecord.ulid, 0 < ulid)
    (hlast : ∀ written, records.mapM numbered = .ok written → sortLast d blobs written = true) :
    d.Keeps (d.createOrUpdateRecords blobs records).2
      (log ++ match (d.createOrUpdateRecords blobs records).1 with
        | .ok written => written.map fun r => .wrote r.1 r.2
        | .error _ => []) := by
  rw [BlobDeployment.createOrUpdateRecords]
  cases hwritten : records.mapM numbered with
  | error e => simpa using h
  | ok written =>
    refine h.uploads (fun r hr => hpositive _ ?_) (hlast written hwritten)
    rw [← versions_of_numbered hwritten]
    exact List.mem_map_of_mem hr

end BlobDeployment

namespace BlobRecords

variable {py : Pydantic τ} {d : BlobDeployment py} {s t : BlobRecords τ}

/-- Versions that increase are all greater than the last one. -/
theorem increasing_forall {last : Int} {ulids : List Int} (h : increasing last ulids = true) :
    (∀ ulid ∈ ulids, last < ulid) ∧ last ≤ ulids.getLastD last := by
  induction ulids generalizing last with
  | nil => exact ⟨nofun, le_refl last⟩
  | cons ulid ulids ih =>
    obtain ⟨hlt, hrest⟩ := Bool.and_eq_true_iff.mp h
    have hlt := of_decide_eq_true hlt
    obtain ⟨hall, hle⟩ := ih hrest
    refine ⟨List.forall_mem_cons.mpr ⟨hlt, fun other hother => hlt.trans (hall other hother)⟩, ?_⟩
    rw [List.getLastD_cons]
    exact hlt.le.trans hle

/-- What a call must meet: the versions it writes sort after those there are, and what it deletes
by id are the blobs of these ids. -/
def meetsCondition (d : BlobDeployment py) (s : BlobRecords τ) : RecordCall → Bool
  | .createOrUpdateRecords records =>
    match records.mapM BlobDeployment.numbered with
    | .ok written => d.sortLast s.blobs written
    | .error _ => true
  | .deleteRecord _ => true
  | .deleteRecords requestBody => d.removesFolders s.blobs requestBody

/-- The invariant of a run. -/
def Kept (d : BlobDeployment py) (s : BlobRecords τ) : Prop :=
  d.Keeps s.blobs s.log ∧ 0 ≤ s.lastUlid

/-- The invariant holds where no record is stored. -/
theorem Initial.kept (h : s.Initial d) : s.Kept d := by
  have hnames : ∀ id, d.names s.blobs id = [] := by
    intro id
    refine List.eq_nil_iff_forall_not_mem.mpr fun name hname => ?_
    obtain ⟨hmem, hfolder⟩ := BlobDeployment.mem_names.mp hname
    exact h.others id name hmem hfolder
  refine ⟨⟨h.nodup, ?_, ?_, ?_, ?_⟩, h.lastUlid⟩
  · intro id
    rw [hnames, h.log]
    exact List.Perm.refl _
  · intro id
    rw [h.log]
    exact List.Pairwise.nil
  · intro id w hw
    rw [h.log] at hw
    cases hw
  · intro id w hw
    rw [h.log] at hw
    cases hw

/-- The deletion of a record does not raise. -/
theorem Kept.step_deleteRecord (h : s.Kept d) (id : String) :
    step d s (.deleteRecord id) = some { s with
      blobs := (d.deleteRecord s.blobs id).2
      log := s.log ++ [.deleted id] } := by
  have hok := (h.1.deleteRecord id).1
  show some { s with
    blobs := (d.deleteRecord s.blobs id).2
    log := s.log ++ match (d.deleteRecord s.blobs id).1 with
      | .ok _ => [Entry.deleted id]
      | .error _ => [] } = _
  rw [hok]

/-- A record that has no version can be written. -/
theorem Kept.meetsCondition_of_absent (h : s.Kept d) {w : DrawnRecord} {id : String}
    (hid : BlobDeployment.recordId w = .ok id) (habsent : since id s.log = []) :
    meetsCondition d s (.createOrUpdateRecords [w]) = true := by
  have hnames : d.names s.blobs id = [] := by
    have hperm := h.1.perm id
    rw [habsent] at hperm
    exact hperm.eq_nil
  have hnumbered : [w].mapM BlobDeployment.numbered =
      .ok [(id, w.ulid, { w.record with id := some id, version := some w.ulid })] := by
    rw [List.mapM_cons, BlobDeployment.numbered, hid]
    rfl
  simp only [meetsCondition, hnumbered, BlobDeployment.sortLast, BlobDeployment.sortsLast, hnames,
    List.all_nil, Bool.and_true]

/-- **One call** that meets the condition. -/
theorem kept_step {call : RecordCall} (h : s.Kept d) (hmeets : meetsCondition d s call = true)
    (hstep : step d s call = some t) : t.Kept d := by
  obtain ⟨hkeeps, hulid⟩ := h
  cases call with
  | createOrUpdateRecords records =>
    obtain ⟨hincreasing, hstep⟩ := Option.ite_none_right_eq_some.mp hstep
    cases hstep
    obtain ⟨hall, hlast⟩ := increasing_forall hincreasing
    refine ⟨hkeeps.createOrUpdateRecords (fun ulid h => hulid.trans_lt (hall ulid h)) ?_,
      hulid.trans hlast⟩
    intro written hwritten
    simp only [meetsCondition, hwritten] at hmeets
    exact hmeets
  | deleteRecord id =>
    rw [Kept.step_deleteRecord ⟨hkeeps, hulid⟩] at hstep
    cases hstep
    exact ⟨(hkeeps.deleteRecord id).2, hulid⟩
  | deleteRecords requestBody =>
    cases hstep
    exact ⟨hkeeps.deleteRecords hmeets, hulid⟩

/-- A blob of the history is read as the record it was written from. -/
theorem Kept.getRecordVersion (h : s.Kept d) {id : String} {w : Int × Record}
    (hw : w ∈ since id s.log) {version : Option Int}
    (hpath : (d.service s.blobs).buildRecordPath id version = .ok (some (d.objectName id w.1))) :
    (d.service s.blobs).getRecordVersion d.model id version none = .ok w.2 := by
  have hdownload : (d.service s.blobs).downloadVersion id version = .ok (d.recordToJson w.2) := by
    have hget : (d.service s.blobs).download (d.objectName id w.1) = .ok (d.recordToJson w.2) := by
      simp only [BlobDeployment.service, h.1.texts id w hw]
    simp only [StorageRecordServiceBlobStorage.downloadVersion, hpath]
    exact hget
  have hauth : (d.service s.blobs).checkAuth = .ok () := rfl
  simp only [StorageRecordServiceBlobStorage.getRecordVersion, hauth, hdownload,
    StorageRecordServiceBlobStorage.readRecord, d.modelValidateJson_recordToJson, validated, bind,
    Except.bind, Except.mapError]

/-- The answers are those of the history. -/
theorem Kept.versionedStore (h : s.Kept d) : s.VersionedStore d where
  getRecord := by
    intro id
    -- the names are sorted as they were written, so that the last one is the newest
    have hversions := h.1.getAllVersionObject id
    have hpath : (d.service s.blobs).buildRecordPath id none =
        .ok ((since id s.log).map fun w => d.objectName id w.1).getLast? := by
      show ((d.service s.blobs).getAllVersionObject id >>= _) = _
      rw [hversions]
      rfl
    rw [List.getLast?_map] at hpath
    cases hlast : (since id s.log).getLast? with
    | none =>
      rw [hlast] at hpath
      simp only [StorageRecordServiceBlobStorage.getRecord,
        StorageRecordServiceBlobStorage.getRecordVersion,
        StorageRecordServiceBlobStorage.downloadVersion, hpath]
      rfl
    | some w =>
      rw [hlast] at hpath
      exact h.getRecordVersion (List.mem_of_getLast? hlast) hpath
  getRecordVersion := by
    intro id version r hr
    -- a version is no zero, which would stand for the latest one
    have hpositive : version ≠ 0 := (h.1.positive id _ hr).ne'
    refine h.getRecordVersion hr ?_
    simp only [StorageRecordServiceBlobStorage.buildRecordPath, Option.filter_some, hpositive,
      ne_eq, not_false_eq_true, decide_true, if_true]
    rfl
  getAllRecordVersions := by
    intro id
    rw [BlobDeployment.getAllRecordVersions, h.1.getAllVersionObject id]
    show Except.ok (((since id s.log).map fun w => d.objectName id w.1).map lastPart) = _
    rw [List.map_map]
    exact congrArg Except.ok (List.map_congr_left fun w _ => BlobDeployment.lastPart_objectName)

/-- **A versioned store**, after every sequence of calls that meet the condition. -/
theorem versionedStore_of_run {calls : List RecordCall} (hinit : s.Initial d)
    (hmeets : Guarded (step d) (fun s call => meetsCondition d s call = true) s calls)
    (hrun : run (step d) s calls = some t) : t.VersionedStore d :=
  (run_invariant kept_step hinit.kept hmeets hrun).versionedStore

end BlobRecords

/-! ## A deletion by id -/

/-- The members of a record; the other fields are kept together here. -/
def recordItems (r : Record) : Dict String Value :=
  (r.id.toList.map fun id => ("id", .str id)) ++ ("kind", .str r.kind) ::
    (r.version.toList.map fun version => ("version", .int version)) ++
      (if r.rest.isEmpty then [] else [("rest", .dict r.rest)]) ++ [("data", .dict r.data)]

/-- The record of its members. -/
def constructRecord (items : Dict String Value) : Option Record :=
  ((Dict.get items "data").bind Value.asDict).bind fun data =>
    let others := Dict.erase items "data"
    (kindOf others).map fun kind =>
      { id := match Dict.get others "id" with
          | some (.str id) => some id
          | _ => none
        kind := kind
        data := data
        version := match Dict.get others "version" with
          | some (.int version) => some version
          | _ => none
        rest := ((Dict.get others "rest").bind Value.asDict).getD [] }

theorem constructRecord_recordItems (r : Record) : constructRecord (recordItems r) = some r := by
  obtain ⟨id, kind, data, version, rest⟩ := r
  cases id <;> cases version <;> cases rest <;>
    simp [recordItems, constructRecord, Dict.get, Dict.erase, kindOf, Value.asDict]

/-- A record as the JSON tree of its members. -/
noncomputable def treeModel : RecordModel Pydantic.trees where
  modelValidateJson := fun t => t.asDict.bind constructRecord
  construct := constructRecord
  modelValidateJson_eq := by
    intro t items h
    obtain ⟨-, ht⟩ := Option.ite_none_right_eq_some.mp h
    cases ht
    rfl
  construct_data := by
    intro items items' data data' hothers hdata hdata'
    simp only [constructRecord, hothers, hdata, hdata', Option.bind_some, Value.asDict]
    cases kindOf (Dict.erase items' "data") <;> rfl

/-- A digest that none of the others begins, of no fixed length. -/
def digestChars : List Char → List Char
  | [] => [':']
  | c :: cs => '-' :: c :: digestChars cs

theorem eq_of_digestChars {a b rest : List Char} (h : digestChars a <+: digestChars b ++ rest) :
    a = b := by
  induction a generalizing b with
  | nil =>
    cases b with
    | nil => rfl
    | cons c b => exact absurd (List.cons_prefix_cons.mp h).1 (by decide)
  | cons c a ih =>
    cases b with
    | nil => exact absurd (List.cons_prefix_cons.mp h).1 (by decide)
    | cons c' b =>
      obtain ⟨hc, hrest⟩ := List.cons_prefix_cons.mp (List.cons_prefix_cons.mp h).2
      rw [hc, ih hrest]

/-- A deployment whose records are JSON trees. -/
noncomputable def treeDeployment : BlobDeployment Pydantic.trees where
  model := treeModel
  recordToJson := fun r => .dict (recordItems r)
  md5Hexdigest := fun id => String.ofList (digestChars id.toList)
  dataPartition := "opendes"
  deleteMissing := .ok ()
  modelValidateJson_recordToJson := constructRecord_recordItems
  hexdigest_prefix := by
    intro a b rest h
    rw [String.toList_ofList, String.toList_ofList] at h
    exact String.toList_inj.mp (eq_of_digestChars h)

namespace BlobRecords

/-- No blob at all. -/
def empty : BlobRecords Value := { blobs := [], lastUlid := 0, log := [] }

theorem initial_empty : empty.Initial treeDeployment where
  nodup := List.nodup_nil
  others := nofun
  lastUlid := le_refl 0
  log := rfl

/-- A write of one record. -/
def writeLog (ulid : Int) : RecordCall :=
  .createOrUpdateRecords
    [{ record := { id := some "log:1", kind := "osdu:wks:log:1.0.0", data := [] }
       uuidHex := ""
       ulid := ulid }]

/-- Two versions of a record, its deletion, and a version that is written after that. -/
theorem versionedStore_writeLog :
    ∃ t, run (step treeDeployment) empty
        [writeLog 1, writeLog 2, .deleteRecord "log:1", writeLog 3] = some t ∧
      t.VersionedStore treeDeployment ∧ (since "log:1" t.log).map Prod.fst = [3] := by
  obtain ⟨s, hs⟩ : ∃ s, run (step treeDeployment) empty [writeLog 1, writeLog 2] = some s :=
    Option.isSome_iff_exists.mp (by decide)
  have hlast : (run (step treeDeployment) empty [writeLog 1, writeLog 2]).map (·.lastUlid) =
      some 2 := by decide
  rw [hs, Option.map_some, Option.some.injEq] at hlast
  have hguarded : Guarded (step treeDeployment)
      (fun s call => meetsCondition treeDeployment s call = true) empty [writeLog 1, writeLog 2] :=
    guarded_of_checkRun (by decide)
  have hkept : s.Kept treeDeployment := run_invariant kept_step initial_empty.kept hguarded hs
  -- the deletion leaves no version, so that any version sorts last
  obtain ⟨r, hr, hkept', hulid, hlog⟩ : ∃ r,
      step treeDeployment s (.deleteRecord "log:1") = some r ∧ r.Kept treeDeployment ∧
        r.lastUlid = 2 ∧ r.log = s.log ++ [.deleted "log:1"] :=
    have hstep := hkept.step_deleteRecord "log:1"
    ⟨_, hstep, kept_step hkept rfl hstep, hlast, rfl⟩
  have hmeets : meetsCondition treeDeployment r (writeLog 3) = true :=
    hkept'.meetsCondition_of_absent rfl (hlog ▸ since_deleted "log:1" s.log)
  obtain ⟨t, ht, htlog⟩ : ∃ t, step treeDeployment r (writeLog 3) = some t ∧
      (since "log:1" t.log).map Prod.fst = [3] := by
    have hincreasing : increasing r.lastUlid [3] = true := by
      rw [hulid]
      decide
    refine ⟨_, if_pos hincreasing, ?_⟩
    show (since "log:1" (r.log ++ [.wrote "log:1" (3, _)])).map Prod.fst = [3]
    rw [since_wrote, hlog, since_deleted]
    rfl
  have hrun : run (step treeDeployment) empty
      ([writeLog 1, writeLog 2] ++ [.deleteRecord "log:1", writeLog 3]) = some t :=
    run_append_eq_some.mpr ⟨s, hs, run_cons_eq_some.mpr ⟨r, hr, run_cons_eq_some.mpr ⟨t, ht, rfl⟩⟩⟩
  have hguarded' : Guarded (step treeDeployment)
      (fun s call => meetsCondition treeDeployment s call = true) s
      [.deleteRecord "log:1", writeLog 3] := by
    refine ⟨rfl, fun r' hr' => ?_⟩
    cases hr.symm.trans hr'
    exact ⟨hmeets, fun _ _ => trivial⟩
  exact ⟨t, hrun, versionedStore_of_run initial_empty
    ((guarded_append hs).mpr ⟨hguarded, hguarded'⟩) hrun, htlog⟩

/-- **A deletion by id** that leaves the record: its blob is not named by the id. -/
theorem delete_records_leaves_record :
    ¬ ∀ (calls : List RecordCall) (t : BlobRecords Value),
      run (step treeDeployment) empty calls = some t → t.VersionedStore treeDeployment := by
  intro h
  obtain ⟨s, hs⟩ : ∃ s, step treeDeployment empty (writeLog 1) = some s :=
    Option.isSome_iff_exists.mp (by decide)
  have hkept : s.Kept treeDeployment := kept_step initial_empty.kept (by decide) hs
  have hkeys : (step treeDeployment empty (writeLog 1)).map (fun s =>
      (s.blobs.map Prod.fst).all fun name => decide (name ∉ ["log:1"])) = some true := by decide
  have hlive : (step treeDeployment empty (writeLog 1)).map (fun s =>
      (since "log:1" s.log).length) = some 1 := by decide
  rw [hs, Option.map_some, Option.some.injEq] at hkeys hlive
  -- nothing is named by the id, so nothing is deleted
  have hblobs : (treeDeployment.deleteRecords s.blobs ["log:1"]).2 = s.blobs := by
    rw [BlobDeployment.deleteRecords_blobs]
    exact List.filter_eq_self.mpr fun q hq =>
      List.all_eq_true.mp hkeys q.1 (List.mem_map_of_mem hq)
  have hok : (treeDeployment.deleteRecords s.blobs ["log:1"]).1 = .ok () := by
    simp only [BlobDeployment.deleteRecords]
    split <;> rfl
  let t : BlobRecords Value := { s with log := s.log ++ [.deleted "log:1"] }
  have hdelete : step treeDeployment s (.deleteRecords ["log:1"]) = some t := by
    show some { s with
      blobs := (treeDeployment.deleteRecords s.blobs ["log:1"]).2
      log := s.log ++ match (treeDeployment.deleteRecords s.blobs ["log:1"]).1 with
        | .ok _ => ["log:1"].map .deleted
        | .error _ => [] } = some t
    rw [hok, hblobs]
    rfl
  have hafter := (h [writeLog 1, .deleteRecords ["log:1"]] t
    (run_cons_eq_some.mpr ⟨s, hs, run_cons_eq_some.mpr ⟨t, hdelete, rfl⟩⟩)).getRecord "log:1"
  have hbefore := hkept.versionedStore.getRecord "log:1"
  obtain ⟨w, hw⟩ := List.length_eq_one_iff.mp hlive
  rw [hw] at hbefore
  rw [since_deleted] at hafter
  cases hbefore.symm.trans hafter

end BlobRecords

end WellboreDdms
