import WellboreDdms.Bulk.Reads
import WellboreDdms.Machine.Simulation
import WellboreDdms.Records.Retries
import WellboreDdms.Records.Retrieval
import WellboreDdms.Records.Versions

/-!
# The blob storage as a record storage

In a deployment for tests the records are kept on a blob storage, by the service itself. To its
routes this is the record storage: they are answered as by one that purges what it deletes.

- `ClientCall`: the calls of the routes that change records, with what they are to each of the
  two storages.
- `answering`, `serving`: the two storages, with the answers they have given.
- `Mirrors`: the record storage has the versions of the history that the blobs keep.
- `downloadVersion_spec`: the blob that a fetch reads is the record that the other storage finds.
- `refines_recordStore`: so the answers to the calls are the same, and so are those to every fetch
  after them, as long as the numbers drawn for the versions have as many digits. Only the versions
  of a record that is not there are told differently: by an empty list, and by a 404.
-/

namespace WellboreDdms

open Python Machine

variable {τ : Type}

/-! ## Calls to either storage -/

/-- The calls of the routes that change records. -/
inductive ClientCall where
  | createOrUpdateRecords (records : List DrawnRecord)
  | deleteRecord (id : String)
  | purgeRecord (id : String)

/-- A number of the record storage. One that is too long for it is never drawn. -/
def Assigned.numbered (newId : String) (version : Nat) : Assigned :=
  if hshort : version < 10 ^ maxStrDigits then ⟨newId, version, hshort⟩
  else ⟨newId, 0, short_of_lt (by decide)⟩

theorem Assigned.newId_numbered (newId : String) (version : Nat) :
    (Assigned.numbered newId version).newId = newId := by
  unfold Assigned.numbered
  split <;> rfl

/-- The version of a draw is read from the answer. -/
theorem Assigned.version_numbered (newId : String) {version : Nat}
    (hshort : version < 10 ^ maxStrDigits) :
    (Assigned.numbered newId version).version = version := by
  rw [Assigned.numbered, dif_pos hshort]

/-- What the records of one write are given by the blob storage. -/
def assigned (written : List (String × Int × Record)) (i : Nat) : Assigned :=
  match written[i]? with
  | some (id, version, _) => .numbered id version.toNat
  | none => .numbered "" 0

namespace ClientCall

/-- `purge_record` is `delete_record`. -/
def onBlobs : ClientCall → RecordCall
  | .createOrUpdateRecords records => .createOrUpdateRecords records
  | .deleteRecord id | .purgeRecord id => .deleteRecord id

/-- The blob storage keeps nothing of a record that is deleted. -/
def request : ClientCall → StorageRequest
  | .createOrUpdateRecords records => .createOrUpdateRecords (records.map DrawnRecord.record)
  | .deleteRecord id | .purgeRecord id => .deleteRecord id true

/-- A write is refused if a record has a kind that no id can be made of. -/
def choice : ClientCall → StorageChoice
  | .createOrUpdateRecords records =>
    match records.mapM BlobDeployment.numbered with
    | .ok written => .ok (assigned written)
    | .error _ => .error 500
  | .deleteRecord _ | .purgeRecord _ => .ok fun _ => .numbered "" 0

/-- The numbers drawn for the call. -/
def ulids : ClientCall → List Int
  | .createOrUpdateRecords records => records.map DrawnRecord.ulid
  | .deleteRecord _ | .purgeRecord _ => []

end ClientCall

/-- `int(ULID())`: a time in milliseconds, and 80 random bits. -/
def ulid (milliseconds random : Nat) : Int := (milliseconds * 2 ^ 80 + random : Nat)

/-- A number that is written out in so many digits. -/
theorem toNat_lt_of_length_repr {version : Int} {digits : Nat} (hnonneg : 0 ≤ version)
    (hlength : version.repr.length ≤ digits) : version.toNat < 10 ^ digits := by
  have htext : version.repr.length = (Nat.toDigits 10 version.toNat).length := by
    rw [Int.repr_eq_if, if_pos hnonneg, ← String.length_toList, Nat.toList_repr]
  rw [htext] at hlength
  have hpos : 0 < digits := Nat.length_toDigits_pos.trans_le hlength
  exact (Nat.length_toDigits_le_iff (by decide) hpos).mp hlength

/-- From March 1996 to February 2232 the numbers have 37 digits. -/
theorem length_ulid {milliseconds random : Nat} (hfrom : 827180612554 ≤ milliseconds)
    (hto : milliseconds < 8271806125530) (hrandom : random < 2 ^ 80) :
    (ulid milliseconds random).repr.length = 37 := by
  refine length_repr ?_ ?_
  · unfold ulid
    omega
  · unfold ulid
    omega

namespace BlobDeployment

variable {py : Pydantic τ} (d : BlobDeployment py)

/-- `CreateUpdateRecordsResponse(..)`. -/
def response (written : List (String × Int × Record)) : CreateUpdateRecordsResponse where
  recordIds := written.map Prod.fst
  recordIdVersions := written.map fun r => r.1 ++ ":" ++ toString r.2.1

/-- What a call returns. -/
def answer (blobs : Blobs τ) : ClientCall → Except Raised CreateUpdateRecordsResponse
  | .createOrUpdateRecords records => (d.createOrUpdateRecords blobs records).1.map response
  | .deleteRecord id | .purgeRecord id => (d.deleteRecord blobs id).1.map fun _ => ⟨[], []⟩

/-- The blob storage, with the answers it has given. -/
def answering (p : BlobRecords τ × List (Except Raised CreateUpdateRecordsResponse))
    (call : ClientCall) :
    Option (BlobRecords τ × List (Except Raised CreateUpdateRecordsResponse)) :=
  (BlobRecords.step d p.1 call.onBlobs).map fun s => (s, p.2 ++ [d.answer p.1.blobs call])

/-- The JSON text of the record is an object with its data. -/
def WritesData (r : Record) : Prop :=
  ∃ items, py.loads (d.recordToJson r) = some (.dict items) ∧
    Dict.get items "data" = some (.dict r.data)

/-- The fetches from the blobs are answered as by the record storage. Of a record that is there, the
versions are the same numbers; of one that is not, the record storage tells a 404, and the blob
storage an empty list. -/
structure ReadsAs (blobs : Blobs τ) (store : RecordStore) : Prop where
  fetchRecord : ∀ id version,
    RecordUtils.fetchRecord (d.service blobs) d.model id version none =
      (store.find id version).elim (.error (.unexpectedResponse 404)) .ok
  fetchPartial : ∀ id version, (∀ r, store.find id version = some r → d.WritesData r) →
    RecordUtils.fetchRecordPartialWithWdmsExtension (d.service blobs) d.model id version =
      (store.find id version).elim (.error (.unexpectedResponse 404)) partialRecord
  getAllRecordVersions : ∀ id (o : Outside) (s : Server) (out : RecordVersions),
    o.fetch = .ok () → s.records = store → (o.getAllRecordVersions id s).1 = .ok out →
    d.getAllRecordVersions blobs id = .ok (out.versions.map toString)
  absent : ∀ id (o : Outside) (s : Server) (e : Raised),
    o.fetch = .ok () → s.records = store → (o.getAllRecordVersions id s).1 = .error e →
    e = .unexpectedResponse 404 ∧ d.getAllRecordVersions blobs id = .ok []

end BlobDeployment

/-- The record storage, with the answers it has given. -/
def serving (p : RecordStore × List StorageAnswer) (e : StorageRequest × StorageChoice) :
    Option (RecordStore × List StorageAnswer) :=
  let served := storageServe e.1 e.2 p.1
  some (served.2, p.2 ++ [served.1])

/-! ## The history of both -/

/-- The numbers of the versions are drawn by now, and have `digits` digits. -/
def DrawnBy (digits : Nat) (last : Int) (log : List (Entry String (Int × Record))) : Prop :=
  ∀ id, ∀ w ∈ since id log, w.1 ≤ last ∧ w.1.repr.length = digits

/-- A version that is greater, and has as many digits, can be written. -/
theorem DrawnBy.wrote {digits : Nat} {last version : Int}
    {log : List (Entry String (Int × Record))} (h : DrawnBy digits last log) (hlt : last < version)
    (hdigits : version.repr.length = digits) (id : String) (r : Record) :
    DrawnBy digits version (log ++ [.wrote id (version, r)]) := by
  intro k w hw
  rcases mem_since_wrote.mp hw with hw | ⟨-, rfl⟩
  · obtain ⟨hle, hlength⟩ := h k w hw
    exact ⟨hle.trans hlt.le, hlength⟩
  · exact ⟨le_refl version, hdigits⟩

theorem DrawnBy.mono {digits : Nat} {last last' : Int} {log : List (Entry String (Int × Record))}
    (h : DrawnBy digits last log) (hle : last ≤ last') : DrawnBy digits last' log := by
  intro k w hw
  obtain ⟨hw, hlength⟩ := h k w hw
  exact ⟨hw.trans hle, hlength⟩

theorem DrawnBy.writes {digits : Nat} {last : Int} {log : List (Entry String (Int × Record))}
    (h : DrawnBy digits last log) {rs : List (String × Int × Record)}
    (hincreasing : increasing last (rs.map fun r => r.2.1) = true)
    (hdigits : ∀ r ∈ rs, r.2.1.repr.length = digits) :
    DrawnBy digits ((rs.map fun r => r.2.1).getLastD last)
      (log ++ rs.map fun r => .wrote r.1 r.2) := by
  induction rs generalizing log last with
  | nil =>
    rw [List.map_nil, List.map_nil, List.append_nil]
    exact h
  | cons r rs ih =>
    obtain ⟨hlt, hincreasing⟩ := Bool.and_eq_true_iff.mp hincreasing
    obtain ⟨hr, hdigits⟩ := List.forall_mem_cons.mp hdigits
    have hrest := ih (h.wrote (of_decide_eq_true hlt) hr r.1 r.2.2) hincreasing hdigits
    rw [List.append_assoc] at hrest
    rw [List.map_cons, List.getLastD_cons]
    exact hrest

theorem DrawnBy.deleted {digits : Nat} {last : Int} {log : List (Entry String (Int × Record))}
    (h : DrawnBy digits last log) (id : String) : DrawnBy digits last (log ++ [.deleted id]) := by
  intro k w hw
  by_cases hne : id = k
  · rw [hne, since_deleted] at hw
    cases hw
  · rw [since_deleted_of_ne hne] at hw
    exact h k w hw

/-- The store has the versions of the history, the latest first. -/
structure Mirrors (log : List (Entry String (Int × Record))) (store : RecordStore) : Prop where
  versions : ∀ id, store.versions id = ((since id log).map Prod.snd).reverse
  deleted : ∀ id, store.deleted id = true → since id log = []
  numbered : ∀ id, ∀ w ∈ since id log, w.2.version = some w.1

section

variable {log : List (Entry String (Int × Record))} {store : RecordStore}

/-- An empty history is mirrored by the empty store. -/
theorem Mirrors.empty : Mirrors [] RecordStore.empty where
  versions := fun _ => rfl
  deleted := nofun
  numbered := nofun

/-- The versions present are those of the history, the newest first. -/
theorem Mirrors.present (h : Mirrors log store) (id : String) :
    store.present id = ((since id log).map Prod.snd).reverse := by
  unfold RecordStore.present
  cases hdeleted : store.deleted id with
  | false => exact h.versions id
  | true =>
    rw [h.deleted id hdeleted]
    rfl

/-- **One record** is written under the id and the number that it is given. -/
theorem Mirrors.add (h : Mirrors log store) {r : Record} {id : String} {version : Nat}
    (hid : r.storedId id = id) :
    Mirrors (log ++ [.wrote id (version, r.stored id version)]) (store.add id version r) := by
  refine ⟨fun k => ?_, fun k hk => ?_, fun k w hw => ?_⟩
  · by_cases hne : k = id
    · subst hne
      have hself := store.add_versions_self k version r
      rw [hid] at hself
      rw [hself, since_wrote, h.versions, List.map_append, List.reverse_append]
      rfl
    · rw [store.add_versions_of_ne id version r (by rwa [hid]), since_wrote_of_ne (Ne.symm hne),
        h.versions]
  · have hdeleted : (store.add id version r).deleted k =
        Function.update store.deleted (r.storedId id) false k := rfl
    rw [hdeleted, hid] at hk
    by_cases hne : k = id
    · subst hne
      rw [Function.update_self] at hk
      cases hk
    · rw [Function.update_of_ne hne] at hk
      rw [since_wrote_of_ne (Ne.symm hne)]
      exact h.deleted k hk
  · rcases mem_since_wrote.mp hw with hw | ⟨-, rfl⟩
    · exact h.numbered k w hw
    · rfl

/-- **A deletion** leaves nothing of the record. -/
theorem Mirrors.delete (h : Mirrors log store) (id : String) :
    Mirrors (log ++ [.deleted id]) (store.delete id true) := by
  refine ⟨fun k => ?_, fun k hk => ?_, fun k w hw => ?_⟩
  · by_cases hne : k = id
    · subst hne
      have hself : (store.delete k true).versions k = [] := Function.update_self ..
      rw [hself, since_deleted]
      rfl
    · rw [RecordStore.versions_delete_of_ne hne, since_deleted_of_ne (Ne.symm hne), h.versions]
  · by_cases hne : k = id
    · rw [hne, since_deleted]
    · rw [RecordStore.deleted_delete_of_ne hne] at hk
      rw [since_deleted_of_ne (Ne.symm hne)]
      exact h.deleted k hk
  · by_cases hne : k = id
    · rw [hne, since_deleted] at hw
      cases hw
    · rw [since_deleted_of_ne (Ne.symm hne)] at hw
      exact h.numbered k w hw

end

/-! ## Names of versions -/

namespace BlobDeployment

variable {py : Pydantic τ} {d : BlobDeployment py} {blobs : Blobs τ}
  {log : List (Entry String (Int × Record))} {store : RecordStore} {id : String}

/-- Blobs of one record have one name only for one version. -/
theorem objectName_inj {version version' : Int}
    (h : d.objectName id version = d.objectName id version') : version = version' := by
  have htext := congrArg String.toList h
  rw [toList_objectName, toList_objectName, List.append_right_inj, List.cons_inj_right] at htext
  exact repr_injective (String.toList_inj.mp htext)

/-- With as many digits, the later number has the later name. -/
theorem objectName_lt {version version' : Int} (hnonneg : 0 ≤ version) (hlt : version < version')
    (hlength : version.repr.length = version'.repr.length) :
    d.objectName id version < d.objectName id version' := by
  show (d.objectName id version).toList < (d.objectName id version').toList
  rw [toList_objectName, toList_objectName]
  refine List.append_left_lt ?_
  rw [List.cons_lt_cons_self]
  exact repr_lt_repr hnonneg hlt hlength

/-- The names in the folder of a record are those of its versions. -/
theorem Keeps.mem_keys (h : d.Keeps blobs log) {version : Int} :
    d.objectName id version ∈ blobs.map Prod.fst ↔ ∃ w ∈ since id log, w.1 = version := by
  constructor
  · intro hmem
    have hname := (h.perm id).mem_iff.mp (mem_names.mpr ⟨hmem, folder_objectName⟩)
    obtain ⟨w, hw, heq⟩ := List.mem_map.mp hname
    exact ⟨w, hw, objectName_inj heq⟩
  · rintro ⟨w, hw, rfl⟩
    have hname : d.objectName id w.1 ∈ (since id log).map fun w => d.objectName id w.1 :=
      List.mem_map_of_mem hw
    exact (mem_names.mp ((h.perm id).mem_iff.mpr hname)).1

theorem Keeps.eq_of_version (h : d.Keeps blobs log) {w w' : Int × Record}
    (hw : w ∈ since id log) (hw' : w' ∈ since id log) (heq : w.1 = w'.1) : w = w' := by
  have hnodup : ((since id log).map fun w => d.objectName id w.1).Nodup :=
    (h.sorted id).imp String.ne_of_lt
  exact List.inj_on_of_nodup_map hnodup hw hw' (congrArg (d.objectName id) heq)

/-- **The names sort** as the numbers are drawn. -/
theorem Keeps.sortLast_of_drawn (h : d.Keeps blobs log) {digits : Nat} {last : Int}
    (hlast : 0 ≤ last) (hdrawn : DrawnBy digits last log) {rs : List (String × Int × Record)}
    (hincreasing : increasing last (rs.map fun r => r.2.1) = true)
    (hdigits : ∀ r ∈ rs, r.2.1.repr.length = digits) : sortLast d blobs rs = true := by
  induction rs generalizing blobs log last with
  | nil => rfl
  | cons r rs ih =>
    obtain ⟨hlt, hincreasing⟩ := Bool.and_eq_true_iff.mp hincreasing
    have hlt : last < r.2.1 := of_decide_eq_true hlt
    obtain ⟨hr, hdigits⟩ := List.forall_mem_cons.mp hdigits
    have hsorts : d.sortsLast blobs r = true := by
      refine List.all_eq_true.mpr fun name hname => decide_eq_true ?_
      obtain ⟨w, hw, rfl⟩ := List.mem_map.mp ((h.perm r.1).mem_iff.mp hname)
      obtain ⟨hle, hlength⟩ := hdrawn r.1 w hw
      exact objectName_lt (h.positive r.1 w hw).le (hle.trans_lt hlt) (hlength.trans hr.symm)
    have hpositive : 0 < r.2.1 := hlast.trans_lt hlt
    have hrest := ih (h.upload hpositive hsorts) hpositive.le (hdrawn.wrote hlt hr r.1 r.2.2)
      hincreasing hdigits
    exact Bool.and_eq_true_iff.mpr ⟨hsorts, hrest⟩

end BlobDeployment

/-! ## The calls -/

namespace BlobDeployment

variable {py : Pydantic τ} {d : BlobDeployment py} {blobs : Blobs τ}
  {log : List (Entry String (Int × Record))} {store : RecordStore} {records : List DrawnRecord}
  {written : List (String × Int × Record)}

/-- A record is written under its own id, or under the new one. -/
theorem storedId_of_numbered {w : DrawnRecord} {r : String × Int × Record}
    (h : numbered w = .ok r) : w.record.storedId r.1 = r.1 ∧ r.2.1 = w.ulid ∧
      r.2.2 = { w.record with id := some r.1, version := some w.ulid } := by
  obtain ⟨id, hid, hr⟩ := bind_eq_ok.mp h
  cases hr
  refine ⟨?_, rfl, rfl⟩
  unfold recordId at hid
  unfold Record.storedId Record.ownId
  cases hown : w.record.id with
  | none => rfl
  | some own =>
    rw [hown] at hid
    obtain rfl : own = id := Except.ok.inj hid
    show ((some own).filter fun k => k ≠ "").getD own = own
    rw [Option.filter_some]
    split
    · rfl
    · rfl

/-- The records of a write, each with what is written for it. -/
theorem forall₂_of_mapM (h : records.mapM numbered = .ok written) :
    List.Forall₂ (fun w r => numbered w = .ok r) records written := by
  induction records generalizing written with
  | nil =>
    cases h
    exact List.Forall₂.nil
  | cons w records ih =>
    rw [List.mapM_cons] at h
    obtain ⟨r, hr, hrest⟩ := bind_eq_ok.mp h
    obtain ⟨rs, hrs, hpure⟩ := bind_eq_ok.mp hrest
    cases hpure
    exact List.Forall₂.cons hr (ih hrs)

/-- **One write** of several records. -/
theorem mirrors_addAll (h : Mirrors log store)
    (hwritten : List.Forall₂ (fun w r => numbered w = .ok r) records written)
    (hpositive : ∀ r ∈ written, 0 ≤ r.2.1)
    (hshort : ∀ r ∈ written, r.2.1.toNat < 10 ^ maxStrDigits) {assign : Nat → Assigned} {i : Nat}
    (hassign : ∀ j, assign (i + j) = assigned written j) :
    Mirrors (log ++ written.map fun r => .wrote r.1 r.2)
      (store.addAll assign i (records.map DrawnRecord.record)) := by
  induction hwritten generalizing log store i with
  | nil =>
    rw [List.map_nil, List.append_nil]
    exact h
  | @cons w r records written hr _ ih =>
    obtain ⟨hid, hversion, hrecord⟩ := storedId_of_numbered hr
    obtain ⟨hnonneg, hpositive⟩ := List.forall_mem_cons.mp hpositive
    obtain ⟨hfits, hshort⟩ := List.forall_mem_cons.mp hshort
    have hfirst : assign i = .numbered r.1 r.2.1.toNat := hassign 0
    have hrest : ∀ j, assign (i + 1 + j) = assigned written j := by
      intro j
      rw [Nat.add_assoc, Nat.add_comm 1 j]
      exact hassign (j + 1)
    have hstored : (r.2.1, r.2.2) =
        ((r.2.1.toNat : Int), w.record.stored r.1 (r.2.1.toNat : Int)) := by
      rw [Int.toNat_of_nonneg hnonneg, hrecord, Record.stored, hid, hversion]
    have hnext : Mirrors (log ++ [.wrote r.1 ((r.2.1.toNat : Int),
        w.record.stored r.1 (r.2.1.toNat : Int))]) (store.add r.1 r.2.1.toNat w.record) :=
      h.add hid
    have hadd := ih hnext hpositive hshort hrest
    rw [← hstored, List.append_assoc] at hadd
    show Mirrors _ ((store.add (assign i).newId (assign i).version w.record).addAll assign (i + 1)
      (records.map DrawnRecord.record))
    rw [hfirst, Assigned.newId_numbered, Assigned.version_numbered _ hfits]
    exact hadd

/-- The storages tell the same ids and numbers. -/
theorem response_eq (hwritten : List.Forall₂ (fun w r => numbered w = .ok r) records written)
    (hpositive : ∀ r ∈ written, 0 ≤ r.2.1)
    (hshort : ∀ r ∈ written, r.2.1.toNat < 10 ^ maxStrDigits) :
    response written =
      { recordIds := (records.map DrawnRecord.record).mapIdx fun i r =>
          r.storedId (assigned written i).newId
        recordIdVersions := (records.map DrawnRecord.record).mapIdx fun i r =>
          r.storedId (assigned written i).newId ++ ":" ++
            toString (assigned written i).version } := by
  induction hwritten with
  | nil => rfl
  | @cons w r records written hr _ ih =>
    obtain ⟨hid, -, -⟩ := storedId_of_numbered hr
    obtain ⟨hnonneg, hpositive⟩ := List.forall_mem_cons.mp hpositive
    obtain ⟨hfits, hshort⟩ := List.forall_mem_cons.mp hshort
    obtain ⟨hids, hversions⟩ := CreateUpdateRecordsResponse.mk.inj (ih hpositive hshort)
    have htext : toString r.2.1.toNat = toString r.2.1 := by
      conv_rhs => rw [← Int.toNat_of_nonneg hnonneg]
      rfl
    have hfirst : assigned (r :: written) 0 = .numbered r.1 r.2.1.toNat := rfl
    rw [response, CreateUpdateRecordsResponse.mk.injEq]
    simp only [List.map_cons, List.mapIdx_cons, hfirst, Assigned.newId_numbered,
      Assigned.version_numbered _ hfits, hid, htext, List.cons.injEq, true_and]
    exact ⟨hids, hversions⟩

end BlobDeployment

/-! ## The fetches -/

namespace BlobDeployment

variable {py : Pydantic τ} {d : BlobDeployment py} {blobs : Blobs τ}
  {log : List (Entry String (Int × Record))} {store : RecordStore}

/-- A version of 0 is as good as none. -/
theorem find_latest (hstore : Mirrors log store) (id : String) {version : Option Int}
    (hversion : (version.filter fun v => v ≠ 0) = none) :
    store.find id version = (since id log).getLast?.map Prod.snd := by
  have hhead : store.find id version = store.find id none := by
    cases version with
    | none => rfl
    | some v =>
      have hzero : v = 0 := by
        by_contra hne
        rw [Option.filter_some, if_pos (decide_eq_true hne)] at hversion
        cases hversion
      subst hzero
      rfl
  rw [hhead, find_eq_present, hstore.present, List.head?_reverse, List.getLast?_map]

/-- A version is found under its number, and no other one is. -/
theorem find_version (h : d.Keeps blobs log) (hstore : Mirrors log store) (id : String) {v : Int}
    (hv : v ≠ 0) {r : Record} :
    store.find id (some v) = some r ↔ ∃ w ∈ since id log, w.1 = v ∧ w.2 = r := by
  have hfind : store.find id (some v) =
      (((since id log).map Prod.snd).reverse.find? fun r => r.version = some v) := by
    rw [← hstore.present, RecordStore.find, RecordStore.present]
    cases store.deleted id with
    | true => rfl
    | false => exact if_neg hv
  have hmem : ∀ r ∈ ((since id log).map Prod.snd).reverse, r.version = some v →
      ∃ w ∈ since id log, w.1 = v ∧ w.2 = r := by
    intro r hr hversion
    obtain ⟨w, hw, rfl⟩ := List.mem_map.mp (List.mem_reverse.mp hr)
    exact ⟨w, hw, Option.some.inj ((hstore.numbered id w hw).symm.trans hversion), rfl⟩
  rw [hfind]
  constructor
  · intro hr
    refine hmem r (List.mem_of_find?_eq_some hr) ?_
    simpa using List.find?_some hr
  · rintro ⟨w, hw, rfl, rfl⟩
    have hin : w.2 ∈ ((since id log).map Prod.snd).reverse :=
      List.mem_reverse.mpr (List.mem_map_of_mem hw)
    cases hr : ((since id log).map Prod.snd).reverse.find? fun r => r.version = some w.1 with
    | none =>
      refine absurd (hstore.numbered id w hw) ?_
      simpa using List.find?_eq_none.mp hr w.2 hin
    | some r =>
      obtain ⟨w', hw', heq, rfl⟩ := hmem r (List.mem_of_find?_eq_some hr)
        (by simpa using List.find?_some hr)
      rw [h.eq_of_version hw' hw heq]

/-- **The blob that is read** is that of the record the store finds. -/
theorem downloadVersion_spec (h : d.Keeps blobs log) (hstore : Mirrors log store) (id : String)
    (version : Option Int) :
    (d.service blobs).downloadVersion id version =
      (store.find id version).elim (.error resourceNotFoundException) fun r =>
        .ok (d.recordToJson r) := by
  have hdownload : ∀ w ∈ since id log,
      (d.service blobs).download (d.objectName id w.1) = .ok (d.recordToJson w.2) := by
    intro w hw
    simp only [service, h.texts id w hw]
  unfold StorageRecordServiceBlobStorage.downloadVersion
    StorageRecordServiceBlobStorage.buildRecordPath
  -- version 0 is falsy, so that the latest one is looked for
  cases hversion : version.filter fun v => v ≠ 0 with
  | none =>
    rw [find_latest hstore id hversion, h.getAllVersionObject]
    cases hlast : (since id log).getLast? with
    | none =>
      simp only [bind, Except.bind, pure, Except.pure, List.getLast?_map, hlast]
      rfl
    | some w =>
      simp only [bind, Except.bind, pure, Except.pure, List.getLast?_map, hlast, Option.map_some]
      exact hdownload w (List.mem_of_getLast? hlast)
  | some v =>
    obtain ⟨rfl, hne⟩ := Option.filter_eq_some_iff.mp hversion
    have hv : v ≠ 0 := of_decide_eq_true hne
    show (d.service blobs).download (d.objectName id v) = _
    cases hfind : store.find id (some v) with
    | some r =>
      obtain ⟨w, hw, rfl, rfl⟩ := (find_version h hstore id hv).mp hfind
      exact hdownload w hw
    | none =>
      -- no other version has the blob's name
      have habsent : Dict.get blobs (d.objectName id v) = none := by
        refine Dict.get_eq_none fun hmem => ?_
        obtain ⟨w, hw, hwv⟩ := h.mem_keys.mp hmem
        have hsome := (find_version h hstore id hv).mpr ⟨w, hw, hwv, rfl⟩
        cases hfind.symm.trans hsome
      simp only [service, habsent]
      rfl

/-- Where there is no object on the path, a value is asked for a key it does not have. -/
theorem walk_error {v : Value} {tokens : List String} {e : Raised} (h : walk v tokens = .error e) :
    e = .typeError := by
  induction tokens generalizing v with
  | nil => cases h
  | cons token tokens ih =>
    cases v with
    | dict items =>
      simp only [walk, getKey, bind, Except.bind] at h
      split at h
      · cases h
      · exact ih h
    | _ => exact (Except.error.inj h).symm

/-- What a restriction raises is answered as it is. -/
theorem restrictData_error {data : Value} {e : Raised}
    (h : restrictData data RecordUtils.attributeRecordWdmsExtensionProperties [] = .error e) :
    itemNotFound e = e := by
  have htokens : pathToken "data.ExtensionProperties.wdms" =
      ["data", "ExtensionProperties", "wdms"] := by decide
  simp only [RecordUtils.attributeRecordWdmsExtensionProperties, restrictData, htokens,
    List.head?_cons, List.tail_cons, if_true, bind, Except.bind] at h
  split at h
  · rename_i hwalk
    rw [walk_error hwalk] at h
    cases h
    rfl
  · split at h
    · cases h
    · cases h

/-- A restricted reading of the blob of a record restricts the data of the record. -/
theorem readRecord_restrict {r : Record} (h : d.WritesData r) (attributes : List String) :
    StorageRecordServiceBlobStorage.readRecord d.model (d.recordToJson r) (some attributes) =
      (restrictData (.dict r.data) attributes []).map fun data => { r with data := data } := by
  obtain ⟨items, hloads, hdata⟩ := h
  have hrecord : d.model.construct items = some r := by
    rw [← d.model.modelValidateJson_eq hloads, d.modelValidateJson_recordToJson]
  simp only [StorageRecordServiceBlobStorage.readRecord, hloads, hdata, Option.getD_some, bind,
    Except.bind]
  cases restrictData (.dict r.data) attributes [] with
  | error e => rfl
  | ok restrictedData =>
    have hothers : Dict.erase items "data" =
        Dict.erase (Dict.set (Dict.erase items "data") "data" (.dict restrictedData)) "data" := by
      simp
    have hconstruct := d.model.construct_data hothers hdata (Dict.get_set_self _ _ _)
    simp only [hconstruct, hrecord, Option.map_some]
    rfl

/-- The versions that the blobs tell are those of the record that can be asked for. -/
theorem getAllRecordVersions_eq (h : d.Keeps blobs log) (hstore : Mirrors log store) (id : String) :
    d.getAllRecordVersions blobs id =
      .ok (((store.present id).filterMap Record.version).reverse.map toString) := by
  have hversions : (store.present id).filterMap Record.version =
      ((since id log).map Prod.fst).reverse := by
    rw [hstore.present, List.filterMap_reverse, List.filterMap_map]
    congr 1
    rw [← List.filterMap_eq_map]
    exact List.filterMap_congr fun w hw => hstore.numbered id w hw
  rw [hversions, List.reverse_reverse, getAllRecordVersions, h.getAllVersionObject id,
    List.map_map]
  show Except.ok (((since id log).map fun w => d.objectName id w.1).map lastPart) = _
  rw [List.map_map]
  exact congrArg Except.ok (List.map_congr_left fun w _ => lastPart_objectName)

/-- **Every fetch** from the blobs is answered as by the store. -/
theorem readsAs (h : d.Keeps blobs log) (hstore : Mirrors log store) : d.ReadsAs blobs store where
  fetchRecord := by
    intro id version
    have hauth : (d.service blobs).checkAuth = .ok () := rfl
    rw [fetchRecord_eq_getRecordVersion, StorageRecordServiceBlobStorage.getRecordVersion, hauth,
      downloadVersion_spec h hstore]
    cases store.find id version with
    | none => rfl
    | some r =>
      simp only [Option.elim_some, bind, Except.bind, StorageRecordServiceBlobStorage.readRecord,
        d.modelValidateJson_recordToJson]
      rfl
  fetchPartial := by
    -- what is read is restricted to the attribute, and the restriction may raise
    intro id version hwrites
    have hauth : (d.service blobs).checkAuth = .ok () := rfl
    rw [RecordUtils.fetchRecordPartialWithWdmsExtension, fetchRecord_eq_getRecordVersion,
      StorageRecordServiceBlobStorage.getRecordVersion, hauth, downloadVersion_spec h hstore]
    cases hfind : store.find id version with
    | none => rfl
    | some r =>
      simp only [Option.elim_some, bind, Except.bind, readRecord_restrict (hwrites r hfind),
        partialRecord]
      cases hrestrict : restrictData (.dict r.data)
          RecordUtils.attributeRecordWdmsExtensionProperties [] with
      | error e =>
        simp only [Except.map, Except.mapError, restrictData_error hrestrict]
      | ok restrictedData =>
        simp only [Except.map, Except.mapError]
  getAllRecordVersions := by
    rintro id o s out hfetch rfl hout
    -- the fetch returned, so the record is present
    have hpresent : s.records.present id ≠ [] := by
      intro hnil
      rw [getAllRecordVersions_of_absent hfetch hnil] at hout
      cases hout
    rw [getAllRecordVersions_of_present hfetch hpresent] at hout
    cases hout
    exact getAllRecordVersions_eq h hstore id
  absent := by
    rintro id o s e hfetch rfl hout
    -- the fetch raised, so no version is present
    have hnil : s.records.present id = [] := by
      by_contra hpresent
      rw [getAllRecordVersions_of_present hfetch hpresent] at hout
      cases hout
    rw [getAllRecordVersions_of_absent hfetch hnil] at hout
    cases hout
    rw [getAllRecordVersions_eq h hstore, hnil]
    exact ⟨rfl, rfl⟩

end BlobDeployment

/-! ## Runs -/

namespace BlobDeployment

variable {py : Pydantic τ} (d : BlobDeployment py)

/-- The two storages have the same history, and have given the same answers. -/
structure Refines (digits : Nat)
    (p : BlobRecords τ × List (Except Raised CreateUpdateRecordsResponse))
    (q : RecordStore × List StorageAnswer) : Prop where
  kept : p.1.Kept d
  drawn : DrawnBy digits p.1.lastUlid p.1.log
  mirrors : Mirrors p.1.log q.1
  answers : p.2.map Except.toOption = q.2.map Except.toOption

variable {d} {digits : Nat}
  {p p' : BlobRecords τ × List (Except Raised CreateUpdateRecordsResponse)}
  {q : RecordStore × List StorageAnswer} {call : ClientCall}

/-- **A write**: it raises, and leaves both storages as they were, or both take its records. -/
theorem Refines.createOrUpdateRecords (h : Refines d digits p q) (hshort : digits ≤ maxStrDigits)
    {records : List DrawnRecord}
    (hdigits : ∀ ulid ∈ records.map DrawnRecord.ulid, ulid.repr.length = digits)
    (hstep : d.answering p (.createOrUpdateRecords records) = some p') :
    ∃ q', serving q ((ClientCall.createOrUpdateRecords records).request,
      (ClientCall.createOrUpdateRecords records).choice) = some q' ∧ Refines d digits p' q' := by
  obtain ⟨t, ht, rfl⟩ := Option.map_eq_some_iff.mp hstep
  obtain ⟨hincreasing, hrest⟩ := Option.ite_none_right_eq_some.mp ht
  obtain ⟨hall, hle⟩ := BlobRecords.increasing_forall hincreasing
  refine ⟨_, rfl, ?_⟩
  cases hwritten : records.mapM numbered with
  -- nothing is written, and the draws are lost
  | error e =>
    have hmeets : BlobRecords.meetsCondition d p.1 (.createOrUpdateRecords records) = true := by
      simp only [BlobRecords.meetsCondition, hwritten]
    have hkept := BlobRecords.kept_step h.kept hmeets ht
    have hraises : d.createOrUpdateRecords p.1.blobs records = (.error e, p.1.blobs) := by
      rw [BlobDeployment.createOrUpdateRecords, hwritten]
    rw [hwritten] at hrest
    cases hrest
    refine ⟨hkept, ?_, ?_, ?_⟩
    · rw [List.append_nil]
      exact h.drawn.mono hle
    · rw [List.append_nil]
      simp only [ClientCall.choice, hwritten]
      exact h.mirrors
    · simp only [ClientCall.choice, hwritten, answer, hraises, List.map_append, h.answers]
      rfl
  | ok written =>
    have hulids := versions_of_numbered hwritten
    have hrs := forall₂_of_mapM hwritten
    have hnumbers : ∀ r ∈ written, p.1.lastUlid < r.2.1 ∧ r.2.1.repr.length = digits := by
      intro r hr
      have hulid : r.2.1 ∈ records.map DrawnRecord.ulid := hulids ▸ List.mem_map_of_mem hr
      exact ⟨hall _ hulid, hdigits _ hulid⟩
    have hnonneg : ∀ r ∈ written, 0 ≤ r.2.1 := fun r hr =>
      h.kept.2.trans (hnumbers r hr).1.le
    -- the numbers drawn are of at most 4300 digits, so that they are read back from the answer
    have hfits : ∀ r ∈ written, r.2.1.toNat < 10 ^ maxStrDigits := fun r hr =>
      toNat_lt_of_length_repr (hnonneg r hr) ((hnumbers r hr).2.le.trans hshort)
    have hincreasing' : increasing p.1.lastUlid (written.map fun r => r.2.1) = true := by
      rw [hulids]
      exact hincreasing
    have hmeets : BlobRecords.meetsCondition d p.1 (.createOrUpdateRecords records) = true := by
      simp only [BlobRecords.meetsCondition, hwritten]
      -- numbers of equally many digits sort like their texts, so that each new name is the last one
      exact h.kept.1.sortLast_of_drawn h.kept.2 h.drawn hincreasing' fun r hr => (hnumbers r hr).2
    have hkept := BlobRecords.kept_step h.kept hmeets ht
    have hwrites : d.createOrUpdateRecords p.1.blobs records =
        (.ok written, written.foldl d.upload p.1.blobs) := by
      rw [BlobDeployment.createOrUpdateRecords, hwritten]
    rw [hwritten] at hrest
    cases hrest
    refine ⟨hkept, ?_, ?_, ?_⟩
    · have hdrawn := h.drawn.writes hincreasing' fun r hr => (hnumbers r hr).2
      rw [hulids] at hdrawn
      exact hdrawn
    · simp only [ClientCall.choice, hwritten]
      exact mirrors_addAll h.mirrors hrs hnonneg hfits fun j => by rw [Nat.zero_add]
    · simp only [ClientCall.choice, hwritten, answer, hwrites, List.map_append, h.answers]
      show _ ++ [some (response written)] = _
      rw [response_eq hrs hnonneg hfits]
      rfl

/-- **A deletion** of a record. -/
theorem Refines.deleteRecord (h : Refines d digits p q) (id : String)
    {t : BlobRecords τ} (hstep : BlobRecords.step d p.1 (.deleteRecord id) = some t) :
    Refines d digits
      (t, p.2 ++ [(d.deleteRecord p.1.blobs id).1.map fun _ => ⟨[], []⟩])
      (q.1.delete id true, q.2 ++ [.ok ⟨[], []⟩]) := by
  have hkept := BlobRecords.kept_step h.kept rfl hstep
  obtain ⟨hok, -⟩ := h.kept.1.deleteRecord id
  have ht : t = { p.1 with
      blobs := (d.deleteRecord p.1.blobs id).2
      log := p.1.log ++ [.deleted id] } := by
    simp only [BlobRecords.step, hok, Option.some.injEq] at hstep
    exact hstep.symm
  rw [hok]
  subst ht
  refine ⟨hkept, h.drawn.deleted id, h.mirrors.delete id, ?_⟩
  rw [List.map_append, List.map_append, h.answers]
  rfl

/-- **One call** to both storages. -/
theorem refines_step (hshort : digits ≤ maxStrDigits) (h : Refines d digits p q)
    (hdigits : ∀ ulid ∈ call.ulids, ulid.repr.length = digits)
    (hstep : d.answering p call = some p') :
    ∃ q', serving q (call.request, call.choice) = some q' ∧ Refines d digits p' q' := by
  cases call with
  | createOrUpdateRecords records => exact h.createOrUpdateRecords hshort hdigits hstep
  | deleteRecord id =>
    obtain ⟨t, ht, rfl⟩ := Option.map_eq_some_iff.mp hstep
    exact ⟨_, rfl, h.deleteRecord id ht⟩
  | purgeRecord id =>
    obtain ⟨t, ht, rfl⟩ := Option.map_eq_some_iff.mp hstep
    exact ⟨_, rfl, h.deleteRecord id ht⟩

end BlobDeployment

/-- **The blob storage refines the record storage**: in every run of calls whose numbers have
equally many digits (not more than `str` writes out), it answers them as the record storage does
that gives the same numbers and purges what is deleted; and after the run every fetch, whole or
partial, and every list of the versions of a record that is present is that of the record
storage. -/
theorem refines_recordStore {py : Pydantic τ} {d : BlobDeployment py} {s t : BlobRecords τ}
    {calls : List ClientCall} {answers : List (Except Raised CreateUpdateRecordsResponse)}
    {digits : Nat} (hinit : s.Initial d) (hshort : digits ≤ maxStrDigits)
    (hdigits : ∀ call ∈ calls, ∀ ulid ∈ call.ulids, ulid.repr.length = digits)
    (hrun : run d.answering (s, []) calls = some (t, answers)) :
    ∃ store served,
      run serving (RecordStore.empty, []) (calls.map fun call => (call.request, call.choice)) =
        some (store, served) ∧
      answers.map Except.toOption = served.map Except.toOption ∧
      d.ReadsAs t.blobs store := by
  have hrefines : BlobDeployment.Refines d digits (s, []) (RecordStore.empty, []) := by
    refine ⟨hinit.kept, ?_, ?_, rfl⟩
    · intro id w hw
      rw [hinit.log] at hw
      cases hw
    · show Mirrors s.log RecordStore.empty
      rw [hinit.log]
      exact .empty
  obtain ⟨⟨store, served⟩, hserving, h⟩ :=
    run_matched (BlobDeployment.refines_step hshort) hrefines (guarded_of_labels hdigits) hrun
  exact ⟨store, served, hserving, h.answers, BlobDeployment.readsAs h.kept.1 h.mirrors⟩

/-- A write of one record with its own id. -/
def storeLog (number : Int) : ClientCall :=
  .createOrUpdateRecords
    [{ record := { id := some "log:1", kind := "osdu:wks:log:1.0.0", data := [] }
       uuidHex := ""
       ulid := number }]

/-- Two versions are written, then the record is deleted and written again. -/
def storedAgain : List ClientCall :=
  [storeLog (ulid 1700000000000 5), storeLog (ulid 1700000000001 3), .deleteRecord "log:1",
    storeLog (ulid 1700000000002 4)]

/-- Two versions are written, listed and read, a third one follows, and the record is deleted. -/
theorem refines_recordStore_again :
    ∃ t answers store served,
      run treeDeployment.answering (BlobRecords.empty, []) storedAgain = some (t, answers) ∧
      run serving (RecordStore.empty, [])
        (storedAgain.map fun call => (call.request, call.choice)) = some (store, served) ∧
      answers.map Except.toOption = served.map Except.toOption ∧
      treeDeployment.ReadsAs t.blobs store := by
  obtain ⟨⟨t, answers⟩, hrun⟩ : ∃ p,
      run treeDeployment.answering (BlobRecords.empty, []) storedAgain = some p :=
    Option.isSome_iff_exists.mp (by decide)
  have hdigits : ∀ call ∈ storedAgain, ∀ number ∈ call.ulids, number.repr.length = 37 := by
    simp only [storedAgain, storeLog, ClientCall.ulids, List.forall_mem_cons, List.map_cons,
      List.map_nil, List.not_mem_nil, false_imp_iff, implies_true, and_true, true_and]
    exact ⟨length_ulid (by decide) (by decide) (by decide),
      length_ulid (by decide) (by decide) (by decide),
      length_ulid (by decide) (by decide) (by decide)⟩
  obtain ⟨store, served, hserving, hanswers, hreads⟩ :=
    refines_recordStore BlobRecords.initial_empty (by decide) hdigits hrun
  exact ⟨t, answers, store, served, hrun, hserving, hanswers, hreads⟩

end WellboreDdms
