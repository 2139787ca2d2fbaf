import WellboreDdms.Bulk.Purge
import WellboreDdms.Records.Retrieval

/-!
# The DELETE routes

Every V3 entity has a route that deletes a record. Those of the entities with bulk data can also
purge it, and then delete its bulks.

- `deleteWithBulk`, `deleteOnly`: what the routes do; every route is one of them, under its own
  name.
- `deleteRoute_spec`: a route that returns has deleted the record of its path, and no other one.
- `deleted_records_are_not_found`: a deleted record is not answered by the GET routes until it is
  stored again, and of a purged one no version from before is answered after that either.
-/

namespace WellboreDdms

open Python Machine

variable {τ δ : Type}

/-! ## The routes -/

/-- What the storage does on a request that it accepts. -/
def DeletionRequest.apply (o : DeletionAnswers) (s : RecordStore) : DeletionRequest → RecordStore
  | .deleteRecord id => if o.deleteRecord.isOk then s.delete id false else s
  | .purgeRecord id => if o.purgeRecord.isOk then s.delete id true else s
  | .deleteBlob _ => s

/-- The requests that a computation issues reach the record storage. -/
def issuing (o : DeletionAnswers) (x : Effect (List DeletionRequest) Raised Unit) :
    Effect Server Raised Unit := fun s =>
  ((x []).1, { s with records := (x []).2.foldl (DeletionRequest.apply o) s.records })

section

variable (isWord : Char → Bool) (hashRecordId : String → String) (o : DeletionAnswers)

/-- `storage_client.delete_record`. -/
def storageDelete (recordId : String) : Effect (List DeletionRequest) Raised Unit := do
  Effect.modify fun issued => issued ++ [.deleteRecord recordId]
  Effect.lift o.deleteRecord

/-- A route of an entity with bulk data. -/
def deleteWithBulk (e : Entity) (recordId : String) (purge : Bool) :
    Effect Server Raised Unit := do
  Effect.lift (validatePath isWord e recordId)
  let id ← Effect.lift (unversioned isWord recordId)
  issuing o (deleteRecord hashRecordId OsduBulkIdAccess.getBulkUri o id purge)

/-- A route of an entity without bulk data. -/
def deleteOnly (e : Entity) (recordId : String) : Effect Server Raised Unit := do
  Effect.lift (validatePath isWord e recordId)
  let id ← Effect.lift (unversioned isWord recordId)
  issuing o (storageDelete o id)

/-- The route of well logs. -/
def delOsduWelllog := deleteWithBulk isWord hashRecordId o .wellLog

/-- The route of trajectories. -/
def delOsduWellboretrajectory := deleteWithBulk isWord hashRecordId o .trajectory
/-- The route of `generic_ddms_v3`, mounted for two entities. -/
def deleteOsduRecord := deleteWithBulk isWord hashRecordId o

/-- The route of marker sets. -/
def delOsduWellboremarkerset := deleteOnly isWord o .marker

/-- The route of wells. -/
def delOsduWell := deleteOnly isWord o .well

/-- The route of wellbores. -/
def delOsduWellbore := deleteOnly isWord o .wellbore

/-- The route of interval sets. -/
def delOsduWellboreintervalsetid := deleteOnly isWord o .wellboreIntervalSet

/-- The route of log acquisitions. -/
def delOsduWelllogacquisitionid := deleteOnly isWord o .wellLogAcquisition

/-- The DELETE route of an entity. A `purge` that a route does not have is ignored. -/
def deleteRoute (e : Entity) (recordId : String) (purge : Bool) : Effect Server Raised Unit :=
  match e with
  | .wellLog => delOsduWelllog isWord hashRecordId o recordId purge
  | .trajectory => delOsduWellboretrajectory isWord hashRecordId o recordId purge
  | .ppfgDataset => deleteOsduRecord isWord hashRecordId o .ppfgDataset recordId purge
  | .wellPressureTestRawMeasurement =>
    deleteOsduRecord isWord hashRecordId o .wellPressureTestRawMeasurement recordId purge
  | .marker => delOsduWellboremarkerset isWord o recordId
  | .well => delOsduWell isWord o recordId
  | .wellbore => delOsduWellbore isWord o recordId
  | .wellboreIntervalSet => delOsduWellboreintervalsetid isWord o recordId
  | .wellLogAcquisition => delOsduWelllogacquisitionid isWord o recordId
  -- not mounted
  | .dip | .dipSet => Effect.raise (.httpException 404 "Not Found")

end

/-! ## What a route deletes -/

section

variable {isWord : Char → Bool} {hashRecordId : String → String} {o : DeletionAnswers} {e : Entity}
  {recordId path : String} {purge : Bool} {s t : Server}

/-- The blobs are not in the record storage. -/
theorem foldl_apply_deleteBlob (names : List String) (r : RecordStore) :
    (names.map DeletionRequest.deleteBlob).foldl (DeletionRequest.apply o) r = r := by
  induction names with
  | nil => rfl
  | cons name names ih => exact ih

/-- What becomes of a record: it is deleted if the requests are answered; else it may be left. -/
structure Deletes (o : DeletionAnswers) (recordId : String) (purge : Bool)
    (out : Except Raised Unit)
    (issued : List DeletionRequest) : Prop where
  returned : out = .ok () → ∀ r, issued.foldl (DeletionRequest.apply o) r = r.delete recordId purge
  raised : (∀ r, issued.foldl (DeletionRequest.apply o) r = r) ∨
    ∀ r, issued.foldl (DeletionRequest.apply o) r = r.delete recordId purge

/-- The storage's deletion is the one that is issued. -/
theorem deletes_storageDelete (recordId : String) :
    Effect.Post (storageDelete o recordId) [] (Deletes o recordId false) := by
  refine Effect.post_modify_bind ?_
  cases hanswer : o.deleteRecord with
  | ok u =>
    have hdelete : ∀ r, DeletionRequest.apply o r (.deleteRecord recordId) =
        r.delete recordId false := fun r => if_pos (by rw [hanswer]; rfl)
    exact ⟨fun _ => hdelete, .inr hdelete⟩
  | error error =>
    have hsame : ∀ r, DeletionRequest.apply o r (.deleteRecord recordId) = r :=
      fun r => if_neg (by rw [hanswer]; exact Bool.false_ne_true)
    exact ⟨nofun, .inl hsame⟩

/-- The record is deleted after its bulk data. -/
theorem deletes_deleteRecord (getBulkUri : Record → Except Raised BulkURI) (recordId : String)
    (purge : Bool) :
    Effect.Post (deleteRecord hashRecordId getBulkUri o recordId purge) []
      (Deletes o recordId purge) := by
  cases purge with
  | false => exact deletes_storageDelete recordId
  | true =>
    refine Effect.post_lift_bind (fun e _ => ⟨nofun, .inl fun _ => rfl⟩) fun uris _ => ?_
    refine Effect.post_modify_bind ?_
    cases hanswer : o.purgeRecord with
    | error error =>
      have hsame : ∀ r, DeletionRequest.apply o r (.purgeRecord recordId) = r :=
        fun r => if_neg (by rw [hanswer]; exact Bool.false_ne_true)
      exact ⟨nofun, .inl hsame⟩
    | ok u =>
      have hpurge : ∀ r, DeletionRequest.apply o r (.purgeRecord recordId) =
          r.delete recordId true := fun r => if_pos (by rw [hanswer]; rfl)
      -- the record is purged, whatever becomes of its blobs
      refine Effect.post_lift_bind (fun e _ => ⟨nofun, .inr hpurge⟩) fun _ _ => ?_
      refine Effect.post_lift_bind (fun e _ => ⟨nofun, .inr hpurge⟩) fun _ _ => ?_
      refine Effect.post_lift_bind (fun e _ => ⟨nofun, .inr hpurge⟩) fun names _ => ?_
      have hall : ∀ r, (DeletionRequest.purgeRecord recordId ::
          (bulkDeletions names uris).map DeletionRequest.deleteBlob).foldl
            (DeletionRequest.apply o) r = r.delete recordId true := by
        intro r
        rw [List.foldl_cons, hpurge, foldl_apply_deleteBlob]
      exact ⟨fun _ => hall, .inr hall⟩

/-- The record that a path means is deleted, and it alone. -/
structure DeletesRecord (recordId : String) (purge : Bool) (s t : Server)
    (out : Except Raised Unit) :
    Prop where
  returned : out = .ok () → t = { s with records := s.records.delete recordId purge }
  raised : t = s ∨ t = { s with records := s.records.delete recordId purge }

/-- What is issued is carried out on the server. -/
theorem DeletesRecord.of_deletes {x : Effect (List DeletionRequest) Raised Unit}
    (h : Effect.Post x [] (Deletes o recordId purge)) (s : Server) :
    Effect.Post (issuing o x) s fun out t => DeletesRecord recordId purge s t out where
  returned := fun hout => congrArg (fun r => { s with records := r }) (h.returned hout s.records)
  raised := by
    rcases h.raised with hsame | hdelete
    · exact .inl (congrArg (fun r => { s with records := r }) (hsame s.records))
    · exact .inr (congrArg (fun r => { s with records := r }) (hdelete s.records))

/-- The routes that can purge. -/
def Entity.purges (e : Entity) (purge : Bool) : Bool := e.checksBulkUri && purge

/-- **A DELETE route** that returns has deleted the record of its path, and changed nothing else;
one that raises may have purged it. -/
theorem deleteRoute_spec (hashRecordId : String → String) (o : DeletionAnswers)
    (hpath : PathOf isWord e recordId path) (purge : Bool) (s : Server) :
    Effect.Post (deleteRoute isWord hashRecordId o e path purge) s fun out t =>
      DeletesRecord recordId (e.purges purge) s t out := by
  have hwith : Effect.Post (deleteWithBulk isWord hashRecordId o e path purge) s fun out t =>
      DeletesRecord recordId purge s t out := by
    refine Effect.post_lift_bind (fun e _ => ⟨nofun, .inl rfl⟩) fun _ _ => ?_
    rw [hpath.dropped]
    refine Effect.post_lift_bind (fun e _ => ⟨nofun, .inl rfl⟩) fun id hid => ?_
    obtain rfl : recordId = id := Except.ok.inj hid
    exact .of_deletes (deletes_deleteRecord _ recordId purge) s
  have honly : Effect.Post (deleteOnly isWord o e path) s fun out t =>
      DeletesRecord recordId false s t out := by
    refine Effect.post_lift_bind (fun e _ => ⟨nofun, .inl rfl⟩) fun _ _ => ?_
    rw [hpath.dropped]
    refine Effect.post_lift_bind (fun e _ => ⟨nofun, .inl rfl⟩) fun id hid => ?_
    obtain rfl : recordId = id := Except.ok.inj hid
    exact .of_deletes (deletes_storageDelete recordId) s
  have he := mem_mounted_of_matches hpath.accepted
  cases e with
  | wellLog => exact hwith
  | trajectory => exact hwith
  | ppfgDataset => exact hwith
  | wellPressureTestRawMeasurement => exact hwith
  | well => exact honly
  | wellbore => exact honly
  | marker => exact honly
  | wellboreIntervalSet => exact honly
  | wellLogAcquisition => exact honly
  -- these two have no routes
  | dip => exact absurd he (by decide)
  | dipSet => exact absurd he (by decide)

end

/-! ## What is not there -/

/-- The routes of the entity do not find the record. -/
structure NotFound (d : Deployment τ δ) (e : Entity) (recordId : String) (u : Server) : Prop where
  latest : ∀ o path, o.fetch = .ok () → PathOf d.isWord e recordId path →
    getLatest d.isWord d.recordChecks o e path u = (.error (.unexpectedResponse 404), u)
  version : ∀ version, LosesVersion d e recordId version u
  versions : ∀ o path, o.fetch = .ok () → PathOf d.isWord e recordId path →
    e.fetchedId d.isWord path = .ok recordId →
    getVersions d.isWord o e path u = (.error (.unexpectedResponse 404), u)

/-- A record that is not present is not found. -/
theorem notFound_of_absent {d : Deployment τ δ} {e : Entity} {recordId : String} {u : Server}
    (habsent : u.records.present recordId = []) : NotFound d e recordId u where
  latest := by
    intro o path hfetch hpath
    rw [getLatest_eq (mem_mounted_of_matches hpath.accepted), latestOf_eq hfetch hpath, habsent]
    rfl
  version := by
    intro version
    refine losesVersion_of_find ?_
    rw [habsent]
    rfl
  versions := by
    intro o path hfetch hpath hfetched
    have hfound := fetchRecord_found hfetch recordId u
    rw [getVersions_eq (mem_mounted_of_matches hpath.accepted), hfetched]
    simp [versionsOf, bind, Effect.lift, validatePath, hpath.accepted, hfound, habsent, found]

namespace RecordStore

variable {s : RecordStore} {k : String} {record : Record}

/-- The versions of a record after one is added. -/
theorem versions_add {newId : String} {version : Int} {r : Record}
    (h : record ∈ (s.add newId version r).versions k) :
    record ∈ s.versions k ∨ k = r.storedId newId ∧ record.version = some version := by
  by_cases hk : k = r.storedId newId
  · subst hk
    rw [add_versions_self] at h
    rcases List.mem_cons.mp h with rfl | h
    · exact .inr ⟨rfl, rfl⟩
    · exact .inl h
  · rw [add_versions_of_ne s newId version r hk] at h
    exact .inl h

/-- The versions of a record after several are added. -/
theorem versions_addAll {assign : Nat → Assigned} {records : List Record} {i : Nat}
    (h : record ∈ (s.addAll assign i records).versions k) :
    record ∈ s.versions k ∨ ∃ v, record.version = some v ∧
      (k, v) ∈ records.mapIdx fun j r =>
        (r.storedId (assign (i + j)).newId, ((assign (i + j)).version : Int)) := by
  induction records generalizing s i with
  | nil => exact .inl h
  | cons r rs ih =>
    rw [List.mapIdx_cons]
    rcases ih h with h | ⟨v, hversion, hmem⟩
    · rcases versions_add h with h | ⟨rfl, hversion⟩
      · exact .inl h
      · exact .inr ⟨_, hversion, List.mem_cons_self⟩
    · refine .inr ⟨v, hversion, List.mem_cons_of_mem _ ?_⟩
      simpa only [Nat.add_assoc, Nat.add_comm 1] using hmem

theorem versions_delete {j : String} {purge : Bool} (h : record ∈ (s.delete j purge).versions k) :
    record ∈ s.versions k := by
  cases purge with
  | false => exact h
  | true =>
    by_cases hk : k = j
    · subst hk
      rw [versions_purge] at h
      cases h
    · rwa [versions_delete_of_ne hk] at h

end RecordStore

namespace Server

variable {d : Deployment τ δ} {s t : Server} {recordId : String}

/-- A record that is not there is there again when it is stored. -/
theorem step_keeps_absent {e : RecordEvent τ} (hnew : ∀ v, (recordId, v) ∉ e.stores)
    (habsent : s.records.present recordId = []) (hstep : step d s e = some t) :
    t.records.present recordId = [] := by
  by_cases hdelete : ∃ purge, e = .delete recordId purge
  · obtain ⟨purge, rfl⟩ := hdelete
    cases hstep
    exact RecordStore.present_delete_self
  · rw [step_keeps_record hnew (fun purge he => hdelete ⟨purge, he⟩) hstep, habsent]

/-- **A run** that stores no version of the record again keeps it absent. -/
theorem run_keeps_absent {es : List (RecordEvent τ)}
    (hnew : ∀ e ∈ es, ∀ v, (recordId, v) ∉ e.stores) (habsent : s.records.present recordId = [])
    (hrun : run (step d) s es = some t) : t.records.present recordId = [] := by
  let Inv : Server → Prop := fun s => s.records.present recordId = []
  suffices hinv : Inv t from hinv
  refine run_invariant ?_ habsent (guarded_of_labels hnew) hrun
  intro s e t hs hnew hstep
  exact step_keeps_absent hnew hs hstep

/-- The versions after a request: those before, and those it stores. -/
theorem step_versions {e : RecordEvent τ} (hstep : step d s e = some t) {record : Record}
    (hrecord : record ∈ t.records.versions recordId) :
    record ∈ s.records.versions recordId ∨
      ∃ v, record.version = some v ∧ (recordId, v) ∈ e.stores := by
  rcases step_records hstep with hsame | ⟨assign, records, hrecords, hstores⟩ |
    ⟨k, purge, rfl, hrecords⟩
  · rw [hsame] at hrecord
    exact .inl hrecord
  · rw [hrecords] at hrecord
    rw [hstores]
    rcases RecordStore.versions_addAll hrecord with hold | ⟨v, hversion, hmem⟩
    · exact .inl hold
    · refine .inr ⟨v, hversion, ?_⟩
      simpa only [stored, Nat.zero_add] using hmem
  · rw [hrecords] at hrecord
    exact .inl (RecordStore.versions_delete hrecord)

/-- The versions after a run that were not there before were stored in it. -/
theorem run_versions {es : List (RecordEvent τ)} (hrun : run (step d) s es = some t)
    {record : Record} (hrecord : record ∈ t.records.versions recordId) :
    record ∈ s.records.versions recordId ∨
      ∃ v, record.version = some v ∧ (recordId, v) ∈ es.flatMap RecordEvent.stores := by
  induction es generalizing s with
  | nil =>
    cases hrun
    exact .inl hrecord
  | cons e es ih =>
    obtain ⟨r, hstep, hrun⟩ := run_cons_eq_some.mp hrun
    rw [List.flatMap_cons]
    rcases ih hrun with hmem | ⟨v, hversion, hstored⟩
    · rcases step_versions hstep hmem with hmem | ⟨v, hversion, hstored⟩
      · exact .inl hmem
      · exact .inr ⟨v, hversion, List.mem_append_left _ hstored⟩
    · exact .inr ⟨v, hversion, List.mem_append_right _ hstored⟩

end Server

/-- **Deleted records are not found**: once a DELETE route has returned, the routes of the entity
do not find the record in any run that does not store it again; and of a record that was purged
they do not find any version that is not stored in the run. -/
theorem deleted_records_are_not_found {d : Deployment τ δ} {s t u : Server} {e : Entity}
    {recordId path : String} {purge : Bool} {hashRecordId : String → String} {o : DeletionAnswers}
    {es : List (RecordEvent τ)} (hpath : PathOf d.isWord e recordId path)
    (hdelete : deleteRoute d.isWord hashRecordId o e path purge s = (.ok (), t))
    (hrun : run (Server.step d) t es = some u) :
    ((∀ v, (recordId, v) ∉ es.flatMap RecordEvent.stores) → NotFound d e recordId u) ∧
    (e.purges purge = true → ∀ version, (recordId, version) ∉ es.flatMap RecordEvent.stores →
      LosesVersion d e recordId version u) := by
  have hspec := deleteRoute_spec hashRecordId o hpath purge s
  rw [Effect.Post, hdelete] at hspec
  obtain rfl := hspec.returned rfl
  constructor
  · intro hnew
    refine notFound_of_absent (Server.run_keeps_absent ?_ RecordStore.present_delete_self hrun)
    exact fun event hevent v hmem => hnew v (List.mem_flatMap.mpr ⟨event, hevent, hmem⟩)
  · intro hpurges version hnew
    refine losesVersion_of_find (List.find?_eq_none.mpr fun record hrecord hversion => ?_)
    have hrecord : record ∈ u.records.versions recordId := by
      unfold RecordStore.present at hrecord
      split at hrecord
      · cases hrecord
      · exact hrecord
    rcases Server.run_versions hrun hrecord with hold | ⟨v, hv, hstored⟩
    · -- the purge has left nothing
      rw [hpurges] at hold
      rw [RecordStore.versions_purge] at hold
      cases hold
    · rw [hv] at hversion
      cases of_decide_eq_true hversion
      exact hnew hstored

/-- The record has no version with a bulk. -/
def bulklessAnswers : DeletionAnswers :=
  { purgeAnswers "" with getAllRecordVersions := .ok [] }

/-- A well log is purged by the id of a version, and another one is asked to get a bulk. -/
theorem deleted_records_are_not_found_purged :
    ∃ t u, deleteRoute asciiWord (fun _ => purgedHash) bulklessAnswers .wellLog
        ("opendes:work-product-component--WellLog:1" ++ ":" ++ toString 1) true
        { records := RecordStore.empty.add "" 1 postedWellLog } = (.ok (), t) ∧
      run (Server.step Server.sampleDeployment) t
        [.postData .wellLog "opendes:work-product-component--WellLog:2" sampleOutside] = some u ∧
      NotFound Server.sampleDeployment .wellLog "opendes:work-product-component--WellLog:1" u := by
  -- the path of the deletion has a version, which is dropped
  have hdigits : ∀ c, c.isDigit = true → asciiWord c = true := by
    intro c hc
    simp [asciiWord, Char.isAlphanum, hc]
  have hpath : PathOf Server.sampleDeployment.isWord .wellLog
      "opendes:work-product-component--WellLog:1"
      ("opendes:work-product-component--WellLog:1" ++ ":" ++ toString 1) :=
    pathOf_versioned hdigits (by decide) (short_of_lt (by decide))
  have hok : (deleteRoute asciiWord (fun _ => purgedHash) bulklessAnswers .wellLog
      ("opendes:work-product-component--WellLog:1" ++ ":" ++ toString 1) true
      { records := RecordStore.empty.add "" 1 postedWellLog }).1 = .ok () := by decide
  cases hdelete : deleteRoute asciiWord (fun _ => purgedHash) bulklessAnswers .wellLog
      ("opendes:work-product-component--WellLog:1" ++ ":" ++ toString 1) true
      { records := RecordStore.empty.add "" 1 postedWellLog } with
  | mk out t =>
    rw [hdelete] at hok
    cases hok
    obtain ⟨u, hu⟩ : ∃ u, run (Server.step Server.sampleDeployment) t
        [.postData .wellLog "opendes:work-product-component--WellLog:2" sampleOutside] = some u :=
      ⟨_, rfl⟩
    refine ⟨t, u, rfl, hu, (deleted_records_are_not_found hpath hdelete hu).1 fun v hmem => ?_⟩
    -- the later request stores another record
    have hstores : [RecordEvent.postData (τ := Value) .wellLog
        "opendes:work-product-component--WellLog:2" sampleOutside].flatMap RecordEvent.stores =
          [("opendes:work-product-component--WellLog:2", 1562066009929332)] := by decide
    rw [hstores] at hmem
    have hid : "opendes:work-product-component--WellLog:1" =
        "opendes:work-product-component--WellLog:2" :=
      congrArg Prod.fst (List.mem_singleton.mp hmem)
    exact absurd hid (by decide)

end WellboreDdms
