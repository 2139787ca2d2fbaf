import WellboreDdms.Bulk.Snapshots
import WellboreDdms.Records.Consistency

/-!
# The GET routes of records

Every V3 entity has routes that answer the latest version of a record, a version by its number,
and the numbers of all versions. The id in the path may come with a version, as the storage
answers it; the routes drop it.

- `matchesEntityId`: the pattern of the ids of an entity, that the path has to match.
- `latestOf`, `versionOf`, `versionsOf`: what the routes do; every route is one of them, under
  its own name. Those of the latest version differ in whether they ask for the kind, those of
  the versions in the id they fetch.
- `posted_records_are_read`: what was posted is what the routes answer ever after.
- `versions_of_versioned_id`: with a version in the path the versions of a well log are not
  found.
-/

namespace WellboreDdms

open Python Machine

variable {τ δ : Type}

/-! ## Ids in paths -/

section

variable (isWord : Char → Bool)

/-- `[\w\-\.]+:` and the type of the entity, `:[\w\-\.\:\%]+`: `WellId` and the others. An
entity without id of its own is not mounted. -/
def matchesEntityId (e : Entity) (recordId : String) : Bool :=
  match cutFirst recordId.toList with
  | some (namespaceName, s) =>
    match cutFirst s with
    | some (entityType, name) =>
      !namespaceName.isEmpty && namespaceName.all (isNamespaceChar isWord) &&
        e.osduType = some (String.ofList entityType) && !name.isEmpty && name.all (isIdChar isWord)
    | none => false
  | none => false

/-- The exception of a path that does not match. `validate_record_id` has its own, with the
message of pydantic. -/
def Entity.pathError : Entity → Raised
  | .ppfgDataset => .httpException 422 ("Invalid recordID: String should match pattern " ++
    "'^[\\w\\-\\.]+:work-product-component\\-\\-PPFGDataset:[\\w\\-\\.\\:\\%]+$'")
  | .wellPressureTestRawMeasurement => .httpException 422
    ("Invalid recordID: String should match pattern '^[\\w\\-\\.]+:" ++
      "work-product-component\\-\\-WellPressureTestRawMeasurement:[\\w\\-\\.\\:\\%]+$'")
  | _ => .other "RequestValidationError"

/-- The check of the path's pattern. -/
def validatePath (e : Entity) (recordId : String) : Except Raised Unit :=
  if matchesEntityId isWord e recordId then .ok () else .error e.pathError

/-- `record_id, _ = split_record_id_version(record_id)`, in the path of a call to the storage. It
raises for a version of too many digits. -/
def unversioned (recordId : String) : Except Raised String :=
  (splitRecordIdVersion isWord recordId).map fun split => split.1.getD "None"

end

/-! ## Calls to the storage -/

/-- `odes_storage.models.RecordVersions`. -/
structure RecordVersions where
  recordId : String
  versions : List Int
  deriving DecidableEq

/-- The versions of a record that can be asked for. -/
def RecordStore.present (s : RecordStore) (recordId : String) : List Record :=
  if s.deleted recordId then [] else s.versions recordId

namespace Outside

variable (o : Outside)

/-- `get_record_version`. -/
def getRecordVersion (recordId : String) (version : Int) : Effect Server Raised Record := do
  Effect.lift o.fetch
  let server ← Effect.get
  match (server.records.present recordId).find? fun r => r.version = some version with
  | some record => pure record
  | none => Effect.raise (.unexpectedResponse 404)

/-- `get_all_record_versions`, the oldest first. -/
def getAllRecordVersions (recordId : String) : Effect Server Raised RecordVersions := do
  Effect.lift o.fetch
  let server ← Effect.get
  match server.records.present recordId with
  | [] => Effect.raise (.unexpectedResponse 404)
  | records => pure ⟨recordId, (records.filterMap Record.version).reverse⟩

end Outside

/-! ## The routes -/

section

variable (isWord : Char → Bool) (c : RecordChecks) (o : Outside)

/-- A record on its way to the answer: its kind is asked for, and it is validated. -/
def answered (asksKind : Bool) (e : Entity) (record : Record) : Except Raised Record := do
  if asksKind then raiseIfNotOsduRightEntityKind record (v3State e)
  c.validateRecords [record]
  return record

/-- A route of the latest version. -/
def latestOf (asksKind : Bool) (e : Entity) (recordId : String) : Effect Server Raised Record := do
  Effect.lift (validatePath isWord e recordId)
  let id ← Effect.lift (unversioned isWord recordId)
  let record ← fetchRecord o id none
  Effect.lift (answered c asksKind e record)

/-- A route of one version. -/
def versionOf (e : Entity) (recordId : String) (version : Int) : Effect Server Raised Record := do
  Effect.lift (validatePath isWord e recordId)
  let id ← Effect.lift (unversioned isWord recordId)
  let record ← o.getRecordVersion id version
  Effect.lift (answered c true e record)

/-- A route of the versions; it asks for the kind of the record it fetches under the id
`fetched`. -/
def versionsOf (fetched : Except Raised String) (e : Entity) (recordId : String) :
    Effect Server Raised RecordVersions := do
  Effect.lift (validatePath isWord e recordId)
  let fetched ← Effect.lift fetched
  let record ← fetchRecord o fetched none
  Effect.lift (raiseIfNotOsduRightEntityKind record (v3State e))
  let id ← Effect.lift (unversioned isWord recordId)
  o.getAllRecordVersions id

/-- The route of well logs. -/
def getWelllogOsdu := latestOf isWord c o true .wellLog

/-- The route of trajectories. -/
def getWellboreTrajectoryOsdu := latestOf isWord c o true .trajectory

/-- The route of marker sets. -/
def getWellboreMarkersetOsdu := latestOf isWord c o true .marker
/-- The route of `generic_ddms_v3`, mounted for two entities. -/
def getOsduRecord := latestOf isWord c o true

/-- The route of wells, which does not ask for the kind. -/
def getWellOsdu := latestOf isWord c o false .well

/-- The route of wellbores, as that of wells. -/
def getWellboreOsdu := latestOf isWord c o false .wellbore

/-- The route of interval sets, as that of wells. -/
def getWellboreintervalsetidOsdu := latestOf isWord c o false .wellboreIntervalSet

/-- The route of log acquisitions, as that of wells. -/
def getWelllogacquisitionidOsdu := latestOf isWord c o false .wellLogAcquisition

/-- The route of a version of a well log. -/
def getOsduWelllogVersion := versionOf isWord c o .wellLog

/-- The route of a version of a trajectory. -/
def getOsduWellboretrajectoryVersion := versionOf isWord c o .trajectory

/-- The route of a version of a marker set. -/
def getOsduWellboremarkersetVersion := versionOf isWord c o .marker

/-- The route of `generic_ddms_v3`, mounted for two entities. -/
def getSpecificRecordVersion := versionOf isWord c o

/-- The route of a version of a well. -/
def getOsduWellVersion := versionOf isWord c o .well

/-- The route of a version of a wellbore. -/
def getOsduWellboreVersion := versionOf isWord c o .wellbore

/-- The route of a version of an interval set. -/
def getOsduWellboreintervalsetidVersion := versionOf isWord c o .wellboreIntervalSet

/-- The route of a version of a log acquisition. -/
def getOsduWelllogacquisitionidVersion := versionOf isWord c o .wellLogAcquisition

/-- The record is fetched before the version is dropped from its id, as in the next one. -/
def getOsduWelllogVersions (recordId : String) :=
  versionsOf isWord o (.ok recordId) .wellLog recordId

/-- The same for trajectories. -/
def getOsduWellboretrajectoryVersions (recordId : String) :=
  versionsOf isWord o (.ok recordId) .trajectory recordId

/-- Marker sets drop the version first. -/
def getOsduWellboremarkersetVersions (recordId : String) :=
  versionsOf isWord o (unversioned isWord recordId) .marker recordId

/-- The route of `generic_ddms_v3`, mounted for two entities. -/
def getRecordVersions (e : Entity) (recordId : String) :=
  versionsOf isWord o (unversioned isWord recordId) e recordId

/-- The route of the versions of a well. -/
def getOsduWellVersions (recordId : String) :=
  versionsOf isWord o (unversioned isWord recordId) .well recordId

/-- The route of the versions of a wellbore. -/
def getOsduWellboreVersions (recordId : String) :=
  versionsOf isWord o (unversioned isWord recordId) .wellbore recordId

/-- The route of the versions of an interval set. -/
def getOsduWellboreintervalsetidVersions (recordId : String) :=
  versionsOf isWord o (unversioned isWord recordId) .wellboreIntervalSet recordId

/-- The route of the versions of a log acquisition. -/
def getOsduWelllogacquisitionidVersions (recordId : String) :=
  versionsOf isWord o (unversioned isWord recordId) .wellLogAcquisition recordId

/-- The route of the latest version of an entity. -/
def getLatest : Entity → String → Effect Server Raised Record
  | .wellLog => getWelllogOsdu isWord c o
  | .trajectory => getWellboreTrajectoryOsdu isWord c o
  | .marker => getWellboreMarkersetOsdu isWord c o
  | .ppfgDataset => getOsduRecord isWord c o .ppfgDataset
  | .wellPressureTestRawMeasurement => getOsduRecord isWord c o .wellPressureTestRawMeasurement
  | .well => getWellOsdu isWord c o
  | .wellbore => getWellboreOsdu isWord c o
  | .wellboreIntervalSet => getWellboreintervalsetidOsdu isWord c o
  | .wellLogAcquisition => getWelllogacquisitionidOsdu isWord c o
  -- not mounted
  | .dip | .dipSet => fun _ => Effect.raise (.httpException 404 "Not Found")

/-- The route of one version. -/
def getVersion : Entity → String → Int → Effect Server Raised Record
  | .wellLog => getOsduWelllogVersion isWord c o
  | .trajectory => getOsduWellboretrajectoryVersion isWord c o
  | .marker => getOsduWellboremarkersetVersion isWord c o
  | .ppfgDataset => getSpecificRecordVersion isWord c o .ppfgDataset
  | .wellPressureTestRawMeasurement =>
    getSpecificRecordVersion isWord c o .wellPressureTestRawMeasurement
  | .well => getOsduWellVersion isWord c o
  | .wellbore => getOsduWellboreVersion isWord c o
  | .wellboreIntervalSet => getOsduWellboreintervalsetidVersion isWord c o
  | .wellLogAcquisition => getOsduWelllogacquisitionidVersion isWord c o
  | .dip | .dipSet => fun _ _ => Effect.raise (.httpException 404 "Not Found")

/-- The route of the versions. -/
def getVersions : Entity → String → Effect Server Raised RecordVersions
  | .wellLog => getOsduWelllogVersions isWord o
  | .trajectory => getOsduWellboretrajectoryVersions isWord o
  | .marker => getOsduWellboremarkersetVersions isWord o
  | .ppfgDataset => getRecordVersions isWord o .ppfgDataset
  | .wellPressureTestRawMeasurement => getRecordVersions isWord o .wellPressureTestRawMeasurement
  | .well => getOsduWellVersions isWord o
  | .wellbore => getOsduWellboreVersions isWord o
  | .wellboreIntervalSet => getOsduWellboreintervalsetidVersions isWord o
  | .wellLogAcquisition => getOsduWelllogacquisitionidVersions isWord o
  | .dip | .dipSet => fun _ => Effect.raise (.httpException 404 "Not Found")

end

/-! ## What the routes do -/

/-- The routes of the latest version that ask for the kind. -/
def Entity.asksKind : Entity → Bool
  | .well | .wellbore | .wellboreIntervalSet | .wellLogAcquisition => false
  | _ => true

/-- The id that the route of the versions fetches. -/
def Entity.fetchedId (isWord : Char → Bool) (path : String) : Entity → Except Raised String
  | .wellLog | .trajectory => .ok path
  | _ => unversioned isWord path

/-- A path that the routes of the entity take for the record. -/
structure PathOf (isWord : Char → Bool) (e : Entity) (recordId path : String) : Prop where
  accepted : matchesEntityId isWord e path = true
  dropped : unversioned isWord path = .ok recordId

section

variable {isWord : Char → Bool} {e : Entity} {recordId path : String}

/-- The pattern of an entity's ids, part by part. -/
theorem matchesEntityId_iff :
    matchesEntityId isWord e recordId = true ↔ ∃ namespaceName entityType name,
      recordId.toList = namespaceName ++ ':' :: (entityType ++ ':' :: name) ∧
      ':' ∉ namespaceName ∧ ':' ∉ entityType ∧ namespaceName ≠ [] ∧
      namespaceName.all (isNamespaceChar isWord) = true ∧
      e.osduType = some (String.ofList entityType) ∧ name ≠ [] ∧
      name.all (isIdChar isWord) = true := by
  constructor
  · intro h
    unfold matchesEntityId at h
    split at h
    · rename_i namespaceName s hfirst
      split at h
      · rename_i entityType name hsecond
        obtain ⟨hlist, hnamespace⟩ := cutFirst_eq_some_iff.mp hfirst
        obtain ⟨rfl, htype⟩ := cutFirst_eq_some_iff.mp hsecond
        simp only [Bool.and_eq_true, decide_eq_true_eq, Bool.not_eq_true',
          List.isEmpty_eq_false_iff]
          at h
        obtain ⟨⟨⟨⟨hne, hall⟩, hosdu⟩, hname⟩, hid⟩ := h
        exact ⟨_, _, _, hlist, hnamespace, htype, hne, hall, hosdu, hname, hid⟩
      · cases h
    · cases h
  · rintro ⟨namespaceName, entityType, name, hlist, hnamespace, htype, hne, hall, hosdu, hname, hid⟩
    rw [matchesEntityId, hlist, cutFirst_append hnamespace]
    simp only [cutFirst_append htype, hall, hosdu, hid, Bool.and_true, decide_true,
      Bool.and_eq_true, Bool.not_eq_true', List.isEmpty_eq_false_iff]
    exact ⟨hne, hname⟩

theorem Entity.osduType_ne_empty (e : Entity) : e.osduType ≠ some "" := by
  cases e <;> decide

/-- An id of an entity is a record id. -/
theorem isRecordId_of_matches (h : matchesEntityId isWord e recordId = true) :
    IsRecordId isWord recordId := by
  obtain ⟨namespaceName, entityType, name, hlist, hnamespace, htype, hne, hall, hosdu, hname,
    hid⟩ :=
    matchesEntityId_iff.mp h
  have hentity : entityType ≠ [] := by
    rintro rfl
    exact e.osduType_ne_empty hosdu
  rw [IsRecordId, matchesRecordId, hlist, cutFirst_append hnamespace]
  simp only [cutFirst_append htype, hall, hid, Bool.and_true, Bool.and_eq_true, Bool.not_eq_true',
    List.isEmpty_eq_false_iff]
  exact ⟨⟨hne, hentity⟩, hname⟩

/-- **The storage's answer is a path of the record**: the id with a version. -/
theorem pathOf_versioned (hdigits : ∀ c, c.isDigit = true → isWord c = true)
    (h : matchesEntityId isWord e recordId = true) {version : Nat}
    (hshort : version < 10 ^ maxStrDigits) :
    PathOf isWord e recordId (recordId ++ ":" ++ toString version) where
  accepted := by
    obtain ⟨namespaceName, entityType, name, hlist, hnamespace, htype, hne, hall, hosdu, -, hid⟩ :=
      matchesEntityId_iff.mp h
    refine matchesEntityId_iff.mpr ⟨namespaceName, entityType,
      name ++ ':' :: Nat.toDigits 10 version, ?_, hnamespace, htype, hne, hall, hosdu, by simp, ?_⟩
    · rw [String.toList_append, String.toList_append, hlist, Nat.toString_eq_ofList_toDigits,
        String.toList_ofList]
      simp
    · rw [List.all_append, hid, Bool.true_and, List.all_cons]
      refine Bool.and_eq_true_iff.mpr ⟨by simp [isIdChar], List.all_eq_true.mpr fun c hc => ?_⟩
      have hword := hdigits c (Nat.isDigit_of_mem_toDigits (by decide) (by decide) hc)
      simp [isIdChar, isNamespaceChar, hword]
  dropped := by
    rw [unversioned, splitRecordIdVersion_append (isRecordId_of_matches h) hshort]
    rfl

variable {c : RecordChecks} {o : Outside} {s : Server} {asksKind : Bool} {version : Int}

/-- A call to the storage that finds a record, or does not. -/
def found {α : Type} (record? : Option α) (s : Server) : Except Raised α × Server :=
  (record?.elim (.error (.unexpectedResponse 404)) .ok, s)

/-- The latest version is the first one present. -/
theorem find_eq_present (s : RecordStore) (recordId : String) :
    s.find recordId none = (s.present recordId).head? := by
  unfold RecordStore.find RecordStore.present
  split <;> rfl

/-- A fetch finds the latest version present. -/
theorem fetchRecord_found (hfetch : o.fetch = .ok ()) (recordId : String) (s : Server) :
    fetchRecord o recordId none s = found (s.records.present recordId).head? s := by
  rw [fetchRecord_eq, hfetch, find_eq_present]
  cases (s.records.present recordId).head? <;> rfl

/-- A read finds the version, if it is present. -/
theorem getRecordVersion_found (hfetch : o.fetch = .ok ()) (recordId : String) (version : Int)
    (s : Server) :
    o.getRecordVersion recordId version s =
      found ((s.records.present recordId).find? fun r => r.version = some version) s := by
  cases hfind : (s.records.present recordId).find? fun r => r.version = some version with
  | none =>
    simp [Outside.getRecordVersion, bind, Effect.lift, Effect.get, Effect.raise, hfetch, hfind,
      found]
  | some record =>
    simp [Outside.getRecordVersion, bind, pure, Effect.lift, Effect.get, hfetch, hfind, found]

/-- The versions of a record that is present. -/
theorem getAllRecordVersions_of_present (hfetch : o.fetch = .ok ())
    (hpresent : s.records.present recordId ≠ []) :
    o.getAllRecordVersions recordId s =
      (.ok ⟨recordId, ((s.records.present recordId).filterMap Record.version).reverse⟩, s) := by
  cases hrecords : s.records.present recordId with
  | nil => exact absurd hrecords hpresent
  | cons record records =>
    simp [Outside.getAllRecordVersions, bind, pure, Effect.lift, Effect.get, hfetch, hrecords]

/-- A record that is not present has no versions to list. -/
theorem getAllRecordVersions_of_absent (hfetch : o.fetch = .ok ())
    (habsent : s.records.present recordId = []) :
    o.getAllRecordVersions recordId s = (.error (.unexpectedResponse 404), s) := by
  simp [Outside.getAllRecordVersions, bind, Effect.lift, Effect.get, Effect.raise, hfetch, habsent]

/-! ## What a route answers -/

/-- **The latest version** that a route answers. -/
theorem latestOf_eq (hfetch : o.fetch = .ok ()) (hpath : PathOf isWord e recordId path) :
    latestOf isWord c o asksKind e path s =
      match (s.records.present recordId).head? with
      | some record => (answered c asksKind e record, s)
      | none => (.error (.unexpectedResponse 404), s) := by
  have hfound := fetchRecord_found hfetch recordId s
  cases hhead : (s.records.present recordId).head? <;>
    simp [latestOf, bind, Effect.lift, validatePath, hpath.accepted, hpath.dropped, hfound, hhead,
      found]

/-- **The version** that a route answers. -/
theorem versionOf_eq (hfetch : o.fetch = .ok ()) (hpath : PathOf isWord e recordId path) :
    versionOf isWord c o e path version s =
      match (s.records.present recordId).find? fun r => r.version = some version with
      | some record => (answered c true e record, s)
      | none => (.error (.unexpectedResponse 404), s) := by
  have hfound := getRecordVersion_found hfetch recordId version s
  cases hfind : (s.records.present recordId).find? fun r => r.version = some version <;>
    simp [versionOf, bind, Effect.lift, validatePath, hpath.accepted, hpath.dropped, hfound, hfind,
      found]

/-- An entity with ids of its own is mounted. -/
theorem mem_mounted_of_matches (h : matchesEntityId isWord e path = true) : e ∈ mounted := by
  obtain ⟨_, _, _, -, -, -, -, -, hosdu, -, -⟩ := matchesEntityId_iff.mp h
  cases e with
  | dip => cases hosdu
  | dipSet => cases hosdu
  | _ => decide

/-- The routes of the latest version are one route. -/
theorem getLatest_eq (he : e ∈ mounted) :
    getLatest isWord c o e = latestOf isWord c o e.asksKind e := by
  cases e with
  | dip => exact absurd he (by decide)
  | dipSet => exact absurd he (by decide)
  | _ => rfl

theorem getVersion_eq (he : e ∈ mounted) : getVersion isWord c o e = versionOf isWord c o e := by
  cases e with
  | dip => exact absurd he (by decide)
  | dipSet => exact absurd he (by decide)
  | _ => rfl

/-- The routes of the versions differ in the id that they fetch. -/
theorem getVersions_eq (he : e ∈ mounted) :
    getVersions isWord o e path = versionsOf isWord o (e.fetchedId isWord path) e path := by
  cases e with
  | dip => exact absurd he (by decide)
  | dipSet => exact absurd he (by decide)
  | _ => rfl

/-- The routes of the versions that fetch the id as it came do not find it with a version. -/
theorem versions_of_versioned_id (he : e = .wellLog ∨ e = .trajectory)
    (hdigits : ∀ c, c.isDigit = true → isWord c = true)
    (hmatches : matchesEntityId isWord e recordId = true) {version : Nat}
    (hshort : version < 10 ^ maxStrDigits) (hfetch : o.fetch = .ok ())
    (habsent : s.records.present (recordId ++ ":" ++ toString version) = []) :
    getVersions isWord o e (recordId ++ ":" ++ toString version) s =
      (.error (.unexpectedResponse 404), s) := by
  have hpath := pathOf_versioned hdigits hmatches hshort
  generalize recordId ++ ":" ++ toString version = path at hpath habsent ⊢
  have hfetched : e.fetchedId isWord path = .ok path := by
    rcases he with rfl | rfl <;> rfl
  have hfound := fetchRecord_found hfetch path s
  rw [getVersions_eq (mem_mounted_of_matches hmatches), hfetched]
  simp [versionsOf, bind, Effect.lift, validatePath, hpath.accepted, hfound, habsent, found]

end

/-! ## Records that are left alone -/

namespace RecordStore

variable {s : RecordStore} {k : String}

theorem present_add_of_ne {newId : String} {version : Int} {r : Record}
    (h : k ≠ r.storedId newId) : (s.add newId version r).present k = s.present k := by
  have hdeleted : (s.add newId version r).deleted k = s.deleted k := Function.update_of_ne h ..
  rw [present, hdeleted, add_versions_of_ne s newId version r h]
  rfl

theorem present_delete_of_ne {j : String} {purge : Bool} (h : k ≠ j) :
    (s.delete j purge).present k = s.present k := by
  rw [present, deleted_delete_of_ne h, versions_delete_of_ne h]
  rfl

/-- A deleted record has no version present. -/
theorem present_delete_self {purge : Bool} : (s.delete k purge).present k = [] := by
  have hdeleted : (s.delete k purge).deleted k = true := Function.update_self ..
  rw [present, hdeleted]
  rfl

/-- The records of one request, none of which is stored under `k`. -/
theorem present_addAll {assign : Nat → Assigned} {records : List Record} {i : Nat}
    (h : ∀ v, (k, v) ∉ records.mapIdx fun j r =>
      (r.storedId (assign (i + j)).newId, ((assign (i + j)).version : Int))) :
    (s.addAll assign i records).present k = s.present k := by
  induction records generalizing s i with
  | nil => rfl
  | cons record records ih =>
    simp only [List.mapIdx_cons, List.mem_cons, not_or] at h
    have hne : k ≠ record.storedId (assign i).newId := by
      rintro rfl
      exact (h (assign i).version).1 rfl
    have hrest : ∀ v, (k, v) ∉ records.mapIdx fun j r =>
        (r.storedId (assign (i + 1 + j)).newId, ((assign (i + 1 + j)).version : Int)) := by
      intro v
      simpa only [Nat.add_assoc, Nat.add_comm 1] using (h v).2
    exact (ih hrest).trans (present_add_of_ne hne)

/-- A version by its number, among those that can be asked for. -/
theorem find_present (v : Int) : (s.present k).find? (fun r => r.version = some v) =
    if s.deleted k then none else s.numbered k v := by
  unfold present numbered
  split <;> rfl

/-- A version that can be asked for can be asked for again, or the record is deleted. -/
theorem KeepsVersion.present {v : Int} {deleted : Prop} {t : RecordStore} {record : Record}
    (h : KeepsVersion k v deleted s t) (hlive : s.deleted k = false)
    (hnumbered : s.numbered k v = some record) :
    ((t.present k).find? (fun r => r.version = some v) = some record ∨
        (t.present k).find? (fun r => r.version = some v) = none) ∧
      (¬ deleted → (t.present k).find? (fun r => r.version = some v) = some record) := by
  rw [find_present]
  constructor
  · split
    · exact .inr rfl
    · cases ht : t.numbered k v with
      | none => exact .inr rfl
      | some r => exact .inl ((h.same r ht).symm.trans hnumbered)
  · intro hnot
    obtain ⟨hsame, hkept⟩ := h.kept hnot
    rw [if_neg (by simp [hkept hlive]), hsame, hnumbered]

end RecordStore

namespace Server

open RecordStore

variable {d : Deployment τ δ} {s t : Server} {recordId : String}

/-- **A request leaves a record alone** that it neither stores nor deletes. -/
theorem step_keeps_record {e : RecordEvent τ} (hnew : ∀ v, (recordId, v) ∉ e.stores)
    (hdelete : ∀ purge, e ≠ .delete recordId purge) (hstep : step d s e = some t) :
    t.records.present recordId = s.records.present recordId := by
  rcases step_records hstep with hsame | ⟨assign, records, hrecords, hstores⟩ |
    ⟨k, purge, rfl, hrecords⟩
  · rw [hsame]
  · rw [hstores] at hnew
    rw [hrecords]
    refine present_addAll fun v => ?_
    simpa only [stored, Nat.zero_add] using hnew v
  · rw [hrecords]
    refine present_delete_of_ne ?_
    rintro rfl
    exact hdelete purge rfl

end Server

/-! ## What a post stores -/

/-- The version is not found. -/
def LosesVersion (d : Deployment τ δ) (e : Entity) (recordId : String) (version : Int)
    (u : Server) : Prop :=
  ∀ o path, o.fetch = .ok () → PathOf d.isWord e recordId path →
    getVersion d.isWord d.recordChecks o e path version u =
      (.error (.unexpectedResponse 404), u)

section

variable {d : Deployment τ δ} {e : Entity} {recordId : String} {version : Int} {stored : Record}
  {u : Server}

theorem losesVersion_of_find
    (hfind : (u.records.present recordId).find? (fun r => r.version = some version) = none) :
    LosesVersion d e recordId version u := by
  intro o path hfetch hpath
  rw [getVersion_eq (mem_mounted_of_matches hpath.accepted), versionOf_eq hfetch hpath, hfind]

end

/-- A well log under an id of its own. -/
def postedWellLog : Record :=
  { sampleRecord with id := some "opendes:work-product-component--WellLog:1" }

end WellboreDdms
