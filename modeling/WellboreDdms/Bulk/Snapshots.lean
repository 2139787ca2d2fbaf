import WellboreDdms.Bulk.Reads

/-!
# What reads see of the writes

Runs of posts, bulk writes, completed sessions and deletions, with reads in between.
The storage numbers the versions of a record; a number that is never given again names
one version, and so one bulk.

- `WritesBulk`, `Server.step_bulk`: all that a bulk write can do to the records.
- `RecordEvent.stores`: the versions a request may store, under which numbers.
- `version_reads_stable`: a version that was read is read the same ever after, or it is
  not found.
- `acknowledged_bulk_is_read`: a bulk write that is answered is what every later read of
  the answered version asks for, and every read of the latest one until the next bulk.
- `purged_bulks_are_gone`: no read of a purged record asks for a bulk from before.
-/

namespace WellboreDdms

open Python Machine

variable {τ δ : Type}

/-! ## What a bulk write does -/

/-- A version of a record that was there is stored, with the URI of a bulk the worker has
answered; the identifier is returned. -/
def WritesBulk (pk : Packaging) (o : Outside) (recordId : String) (s t : Server) : Prop :=
  ∃ response json bulkId sent record assign, o.worker = .ok response ∧ response.json = .ok json ∧
    getItem json "bulkid" = .ok bulkId ∧ sent.id = some recordId ∧
    OsduBulkIdAccess.setBulkUri pk sent bulkId = .ok record ∧ o.write = .ok assign ∧
    t.records = s.records.add (assign 0).newId (assign 0).version record ∧
    t.returned = (some recordId, bulkId) :: s.returned ∧ s.records.versions recordId ≠ []

/-- The records are as they were, or one version has been added; what was returned comes
before what had been. -/
def BulkStep (pk : Packaging) (o : Outside) (recordId : String) (s t : Server) : Prop :=
  (t.records = s.records ∧ ∃ new, t.returned = new ++ s.returned) ∨
    WritesBulk pk o recordId s t

theorem BulkStep.refl (pk : Packaging) (o : Outside) (recordId : String) (s : Server) :
    BulkStep pk o recordId s s :=
  Or.inl ⟨rfl, [], rfl⟩

section

variable {pk : Packaging} {checks : DataConsistencyChecks δ} {o : Outside} {recordId : String}
  {base : Record} {P : WorkerRequest → Prop} {s t : Server}

theorem BulkStep.of_called {bulkId : Option Value} (h : Called checks o base P s t bulkId) :
    BulkStep pk o recordId s t :=
  Or.inl ⟨h.records, _, h.returned⟩

/-- The URI of a bulk that was set. -/
theorem validBulkUri_setBulkUri {sent record : Record} {u : UUID}
    (h : OsduBulkIdAccess.setBulkUri pk sent (.str u.text) = .ok record) :
    validBulkUri record = .ok (some (.ofUuid u .v1 (by decide))) := by
  rw [validBulkUri, OsduBulkIdAccess.getBulkUri_setBulkUri h, Except.map,
    if_pos (BulkURI.isValid_ofUuid u _)]

/-- The publication of a bulk that has been returned. -/
theorem setBulkFieldAndSendRecord_step {bulkId : Value} {sent : Record}
    (hfound : base ∈ s.records.versions recordId) (hsent : sent.id = base.id)
    (hcalled : Called checks o base P s t (some bulkId)) :
    Effect.Post (setBulkFieldAndSendRecord pk o bulkId sent) t fun _ u =>
      BulkStep pk o recordId s u := by
  have hbase := s.records.keyed recordId base hfound
  refine Effect.post_lift_bind (fun e _ => .of_called hcalled) fun record hrecord => ?_
  refine (createOrUpdateRecords_spec o record t).mono ?_
  rintro out u ⟨hfailed, hended⟩
  cases out with
  | error e =>
    rw [hfailed e rfl]
    exact .of_called hcalled
  | ok answer =>
    obtain ⟨assign, hassign, rfl, -, -⟩ := hended answer rfl
    obtain ⟨response, json, -, -, hworker, -, hjson, hbulkId, -⟩ := hcalled.checked bulkId rfl
    have hreturned : t.returned = (some recordId, bulkId) :: s.returned := by
      rw [hcalled.returned, hbase]
      rfl
    refine Or.inr ⟨response, json, bulkId, sent, record, assign, hworker, hjson, hbulkId,
      hsent.trans hbase, hrecord, hassign, ?_, hreturned, List.ne_nil_of_mem hfound⟩
    show t.records.add _ _ _ = _
    rw [hcalled.records]

variable (pk) (checks) (o) (state : RequestState)

/-- **The POST of data** is such a step. -/
theorem postData_step (recordId : String) (s : Server) :
    Effect.Post (postData pk checks state o recordId) s fun _ t => BulkStep pk o recordId s t := by
  refine Effect.post_bind (fetchRecord_spec o recordId none s) ?_ ?_
  · rintro e t ⟨rfl, -⟩
    exact .refl ..
  rintro base t ⟨rfl, hfind⟩
  have hfound := RecordStore.mem_of_find (hfind base rfl)
  refine Effect.post_lift_bind (fun e _ => .refl ..) fun _ _ => ?_
  refine Effect.post_bind (Effect.post_mapError (writeBulk_spec checks o base t)
    (Q := fun out u => Called checks o base (fun q => Dict.get q.params "from_bulk" = none) t u
      (out.toOption.map Prod.fst)) (fun _ _ h => h) (fun _ _ h => h)) ?_ ?_
  · intro e u hcalled
    exact .of_called hcalled
  · intro bulk u hcalled
    exact setBulkFieldAndSendRecord_step hfound rfl hcalled

/-- **The body of a commit** is such a step. -/
theorem commitBody_step (recordId : String) (guard : SessionInternal) (s : Server) :
    Effect.Post (commitBody pk checks state o recordId guard) s fun _ t =>
      BulkStep pk o recordId s t := by
  refine Effect.post_bind (fetchRecord_spec o recordId _ s) ?_ ?_
  · rintro e t ⟨rfl, -⟩
    exact .refl ..
  rintro base t ⟨rfl, hfind⟩
  have hfound := RecordStore.mem_of_find (hfind base rfl)
  refine Effect.post_lift_bind (fun e _ => .refl ..) fun _ _ => ?_
  refine Effect.post_lift_bind (fun e _ => .refl ..) fun previous _ => ?_
  refine Effect.post_lift_bind (fun e _ => .refl ..) fun reference _ => ?_
  refine Effect.post_bind
    (writeCompleteSession_spec checks o base guard.session previous reference t) ?_ ?_
  · intro e u hcalled
    exact .of_called hcalled
  · intro bulkId u hcalled
    exact setBulkFieldAndSendRecord_step hfound
      (editedBy_completeExtendedLoad guard.session base).id hcalled

end

/-! ## What one request does -/

/-- The id a record is stored under that has the id `recordId`. -/
def storedUnder (recordId newId : String) : String :=
  ((some recordId).filter fun k => k ≠ "").getD newId

/-- A record with the id is stored under it. -/
theorem storedId_eq {r : Record} {recordId : String} (h : r.id = some recordId) (newId : String) :
    r.storedId newId = storedUnder recordId newId := by
  rw [Record.storedId, Record.ownId, h]
  rfl

/-- The versions that a request may store: the id of the record, and the number. -/
def RecordEvent.stores : RecordEvent τ → List (String × Int)
  | .post _ records o =>
    match o.write with
    | .ok assign => records.mapIdx fun i r => (r.storedId (assign i).newId, (assign i).version)
    | .error _ => []
  | .postData _ recordId o | .complete _ recordId _ _ _ _ o =>
    match o.write with
    | .ok assign => [(storedUnder recordId (assign 0).newId, (assign 0).version)]
    | .error _ => []
  | .delete _ _ => []

/-- The record whose bulk a request writes. -/
def RecordEvent.bulkOf : RecordEvent τ → Option String
  | .postData _ recordId _ | .complete _ recordId _ _ _ _ _ => some recordId
  | .post _ _ _ | .delete _ _ => none

namespace Server

/-- A request that writes the bulk of a record. -/
theorem step_bulk {d : Deployment τ δ} {s t : Server} {e : RecordEvent τ} {recordId : String}
    (hbulk : e.bulkOf = some recordId) (hstep : step d s e = some t) :
    ∃ o ∈ e.outside, BulkStep d.pk o recordId s t := by
  cases e with
  | post e records o => cases hbulk
  | delete k purge => cases hbulk
  | postData e k o =>
    cases hbulk
    cases hstep
    exact ⟨o, rfl, postData_step d.pk (d.dataChecks e) o (v3State e) recordId s⟩
  | complete e k sessionId clock update session o =>
    cases hbulk
    cases hstep
    refine ⟨o, rfl, ?_⟩
    rcases completeSession_server d.pk (d.dataChecks e)
      (v3State e) o d.py d.isWord recordId sessionId
      clock update session with hsame | ⟨guard, hbody⟩
    · rw [hsame]
      exact .refl ..
    · rw [hbody]
      exact commitBody_step d.pk (d.dataChecks e) o (v3State e) recordId guard s

/-- The versions that a write stores, by the ids and the numbers that it is answered. -/
def stored (assign : Nat → Assigned) (records : List Record) : List (String × Int) :=
  records.mapIdx fun i r => (r.storedId (assign i).newId, ((assign i).version : Int))

/-- **What a request does to the records**: nothing, or one write, or it is a deletion. -/
theorem step_records {d : Deployment τ δ} {s t : Server} {e : RecordEvent τ}
    (hstep : step d s e = some t) :
    t.records = s.records ∨
    (∃ assign records, t.records = s.records.addAll assign 0 records ∧
      e.stores = stored assign records) ∨
    ∃ k purge, e = .delete k purge ∧ t.records = s.records.delete k purge := by
  -- the two bulk writes store under the id of the record that they fetched
  have hbulk : ∀ {o : Outside} {k : String}, BulkStep d.pk o k s t →
      (∀ assign, o.write = .ok assign →
        e.stores = [(storedUnder k (assign 0).newId, ((assign 0).version : Int))]) →
      t.records = s.records ∨ ∃ assign records,
        t.records = s.records.addAll assign 0 records ∧ e.stores = stored assign records := by
    rintro o k (⟨hsame, -⟩ | ⟨-, -, bulkId, sent, record, assign, -, -, -, hsent, hset, hassign,
      hrecords, -, -⟩) hstores
    · exact .inl hsame
    · refine .inr ⟨assign, [record], hrecords, ?_⟩
      rw [hstores assign hassign, stored, List.mapIdx_singleton,
        storedId_eq ((OsduBulkIdAccess.setBulkUri_frame hset).1.trans hsent)]
  cases e with
  | post e records o =>
    obtain ⟨-, hstep⟩ := Option.ite_none_right_eq_some.mp hstep
    have hspec := postRecords_written d.recordChecks o records s e
    rw [Effect.Post, Option.some.inj hstep] at hspec
    rcases hspec with rfl | ⟨⟨assign, hassign, rfl⟩, -⟩
    · exact .inl rfl
    · exact .inr (.inl ⟨assign, records, rfl, by rw [RecordEvent.stores, hassign]; rfl⟩)
  | postData e k o =>
    have hbulkOf : RecordEvent.bulkOf (τ := τ) (.postData e k o) = some k := rfl
    obtain ⟨o', ho', hstep⟩ := step_bulk hbulkOf hstep
    cases ho'
    rw [← or_assoc]
    exact .inl (hbulk hstep fun assign hassign => by rw [RecordEvent.stores, hassign])
  | complete e k sessionId clock update session o =>
    have hbulkOf : RecordEvent.bulkOf (.complete e k sessionId clock update session o) = some k :=
      rfl
    obtain ⟨o', ho', hstep⟩ := step_bulk hbulkOf hstep
    cases ho'
    rw [← or_assoc]
    exact .inl (hbulk hstep fun assign hassign => by rw [RecordEvent.stores, hassign])
  | delete k purge =>
    cases hstep
    exact .inr (.inr ⟨k, purge, rfl, rfl⟩)

end Server

/-! ## Versions that stay -/

namespace RecordStore

/-- A write under another id, or another number. -/
theorem numbered_add_of_not_stored {s : RecordStore} {newId : String} {version : Int} {r : Record}
    {k : String} {v : Int} (h : (k, v) ≠ (r.storedId newId, version)) :
    (s.add newId version r).numbered k v = s.numbered k v := by
  by_cases hversion : version = v
  · have hk : k ≠ r.storedId newId := by
      rintro rfl
      exact h (by rw [hversion])
    rw [numbered, add_versions_of_ne s newId version r hk]
    rfl
  · exact numbered_add_of_ne hversion s newId r k

theorem deleted_add {s : RecordStore} {newId : String} {version : Int} {r : Record} {k : String}
    (h : s.deleted k = false) : (s.add newId version r).deleted k = false := by
  by_cases hk : k = r.storedId newId
  · subst hk
    exact Function.update_self ..
  · rw [← h]
    exact Function.update_of_ne hk ..

/-- A deletion leaves the other records live. -/
theorem deleted_delete_of_ne {s : RecordStore} {j k : String} {purge : Bool} (h : k ≠ j) :
    (s.delete j purge).deleted k = s.deleted k := Function.update_of_ne h ..

theorem versions_delete_of_ne {s : RecordStore} {j k : String} {purge : Bool} (h : k ≠ j) :
    (s.delete j purge).versions k = s.versions k := by
  cases purge with
  | false => rfl
  | true => exact Function.update_of_ne h ..

theorem versions_purge (s : RecordStore) (k : String) : (s.delete k true).versions k = [] :=
  Function.update_self ..

/-- What a store was, and what it has become: the version `v` of `k` is what it was, if it
is still there; and unless `k` may have been `deleted`, it is still there. -/
structure KeepsVersion (k : String) (v : Int) (deleted : Prop) (s t : RecordStore) : Prop where
  same : ∀ r, t.numbered k v = some r → s.numbered k v = some r
  kept : ¬ deleted → t.numbered k v = s.numbered k v ∧ (s.deleted k = false → t.deleted k = false)

section

variable {k : String} {v : Int} {deleted deleted' : Prop} {s t u : RecordStore}

theorem KeepsVersion.refl : KeepsVersion k v deleted s s where
  same := fun _ h => h
  kept := fun _ => ⟨rfl, fun h => h⟩

theorem KeepsVersion.trans (h : KeepsVersion k v deleted s t) (h' : KeepsVersion k v deleted' t u) :
    KeepsVersion k v (deleted ∨ deleted') s u where
  same := by
    intro r hr
    exact h.same r (h'.same r hr)
  kept := by
    intro hnot
    obtain ⟨hsame, hlive⟩ := h.kept fun hd => hnot (.inl hd)
    obtain ⟨hsame', hlive'⟩ := h'.kept fun hd => hnot (.inr hd)
    exact ⟨hsame'.trans hsame, fun hs => hlive' (hlive hs)⟩

/-- A new version of another number leaves it. -/
theorem KeepsVersion.add {newId : String} {version : Int} {r : Record}
    (h : (k, v) ≠ (r.storedId newId, version)) :
    KeepsVersion k v deleted s (s.add newId version r) where
  same := by
    intro r' hr'
    rwa [numbered_add_of_not_stored h] at hr'
  kept := fun _ => ⟨numbered_add_of_not_stored h, deleted_add⟩

theorem KeepsVersion.delete (j : String) (purge : Bool) :
    KeepsVersion k v (k = j) s (s.delete j purge) where
  same := fun _ hr => numbered_of_delete hr
  kept := by
    intro hne
    refine ⟨?_, ?_⟩
    · rw [numbered, versions_delete_of_ne hne]
      rfl
    · rw [deleted_delete_of_ne hne]
      exact fun h => h

/-- The records of one request, none of which is stored as version `v` of `k`. -/
theorem KeepsVersion.addAll {assign : Nat → Assigned} {records : List Record} {i : Nat}
    (h : (k, v) ∉ records.mapIdx fun j r =>
      (r.storedId (assign (i + j)).newId, ((assign (i + j)).version : Int))) :
    KeepsVersion k v False s (s.addAll assign i records) := by
  induction records generalizing s i with
  | nil => exact .refl
  | cons record records ih =>
    rw [List.mapIdx_cons, List.mem_cons, not_or] at h
    obtain ⟨hhead, htail⟩ := h
    have hrest : KeepsVersion k v False (s.add (assign i).newId (assign i).version record)
        ((s.add (assign i).newId (assign i).version record).addAll assign (i + 1) records) := by
      refine ih ?_
      simpa only [Nat.add_assoc, Nat.add_comm 1] using htail
    have hfirst : KeepsVersion k v False s _ := .add hhead
    have hboth := hfirst.trans hrest
    exact ⟨hboth.same, fun _ => hboth.kept (by simp)⟩

/-- A version that is found is found again, or the record is deleted. -/
theorem KeepsVersion.find (h : KeepsVersion k v deleted s t) (hv : v ≠ 0) {record : Record}
    (hfind : s.find k (some v) = some record) :
    (t.find k (some v) = some record ∨ t.find k (some v) = none) ∧
      (¬ deleted → t.find k (some v) = some record) := by
  rw [find_eq_numbered hv] at hfind ⊢
  obtain ⟨hlive, hnumbered⟩ : s.deleted k = false ∧ s.numbered k v = some record := by
    cases hs : s.deleted k with
    | true =>
      rw [hs] at hfind
      cases hfind
    | false =>
      rw [hs] at hfind
      exact ⟨rfl, hfind⟩
  constructor
  · cases ht : t.deleted k with
    | true => exact Or.inr rfl
    | false =>
      cases hr : t.numbered k v with
      | none => exact Or.inr rfl
      | some r =>
        have hsame := h.same r hr
        rw [hnumbered] at hsame
        exact Or.inl hsame.symm
  · intro hdeleted
    obtain ⟨hsame, hstill⟩ := h.kept hdeleted
    rw [hstill hlive, hsame, hnumbered]
    rfl

end

end RecordStore

namespace Server

open RecordStore

section

variable {d : Deployment τ δ} {s t : Server} {recordId : String} {v : Int}

/-- **A request keeps every version it does not store.** -/
theorem step_keeps_version {e : RecordEvent τ} (hnew : (recordId, v) ∉ e.stores)
    (hstep : step d s e = some t) :
    KeepsVersion recordId v (∃ purge, e = .delete recordId purge) s.records t.records := by
  rcases step_records hstep with hsame | ⟨assign, records, hrecords, hstores⟩ |
    ⟨k, purge, rfl, hrecords⟩
  · rw [hsame]
    exact .refl
  · rw [hstores] at hnew
    rw [hrecords]
    have hall : KeepsVersion recordId v False s.records (s.records.addAll assign 0 records) := by
      refine .addAll ?_
      simpa only [stored, Nat.zero_add] using hnew
    exact ⟨hall.same, fun _ => hall.kept id⟩
  · rw [hrecords]
    have hdelete := KeepsVersion.delete (k := recordId) (v := v) (s := s.records) k purge
    refine ⟨hdelete.same, fun hnot => hdelete.kept ?_⟩
    rintro rfl
    exact hnot ⟨purge, rfl⟩

/-- A run keeps a version whose number is not given again. -/
theorem run_keeps_version {es : List (RecordEvent τ)} (hnew : ∀ e ∈ es, (recordId, v) ∉ e.stores)
    (hrun : run (step d) s es = some t) :
    KeepsVersion recordId v (∃ purge, .delete recordId purge ∈ es) s.records t.records := by
  induction es generalizing s with
  | nil =>
    cases hrun
    exact .refl
  | cons e es ih =>
    obtain ⟨r, hstep, hrun⟩ := run_cons_eq_some.mp hrun
    obtain ⟨he, hes⟩ := List.forall_mem_cons.mp hnew
    have hboth := (step_keeps_version he hstep).trans (ih hes hrun)
    refine ⟨hboth.same, fun hnot => hboth.kept ?_⟩
    rintro (⟨purge, rfl⟩ | ⟨purge, hmem⟩)
    · exact hnot ⟨purge, List.mem_cons_self⟩
    · exact hnot ⟨purge, List.mem_cons_of_mem _ hmem⟩

end

/-- **A version that was read is read the same ever after**, whatever is posted, written,
committed and deleted, as long as its number is not given again: each later read of it
answers the same and asks the worker the same, or the record has been deleted and the version
is not found. -/
theorem version_reads_stable {d : Deployment τ δ} {s t : Server} {recordId : String} {v : Int}
    {es : List (RecordEvent τ)} (hv : v ≠ 0) (hnew : ∀ e ∈ es, (recordId, v) ∉ e.stores)
    (hrun : run (step d) s es = some t) (o : Outside)
    (worker : WorkerRequest → Except Raised BulkResponse) (r : BulkRead) (hr : r.version = some v)
    {response : Response} (hread : (r.run o worker recordId s).1 = .ok response) :
    (ReadsAlike (r.run o worker recordId) s t ∨
        r.run o worker recordId t = (.error (.unexpectedResponse 404), t)) ∧
      ((∀ purge, .delete recordId purge ∉ es) → ReadsAlike (r.run o worker recordId) s t) := by
  cases hfetch : o.fetch with
  | error e =>
    rw [r.run_of_fetch_error worker o hfetch] at hread
    cases hread
  | ok u =>
    cases hfind : s.records.find recordId r.version with
    | none =>
      rw [BulkRead.run_of_not_found worker o hfetch hfind] at hread
      cases hread
    | some record =>
      have hkeeps := run_keeps_version hnew hrun
      rw [hr] at hfind
      -- the version is the same after the run, or hidden by a deletion
      obtain ⟨hfound, hstill⟩ := hkeeps.find hv hfind
      have halike : t.records.find recordId (some v) = some record →
          ReadsAlike (r.run o worker recordId) s t := by
        intro hagain
        refine r.run_alike o worker ?_
        rw [hr, hagain, hfind]
      refine ⟨?_, fun hnot => halike (hstill fun ⟨purge, hmem⟩ => hnot purge hmem)⟩
      rcases hfound with hagain | hgone
      · exact Or.inl (halike hagain)
      · refine Or.inr (BulkRead.run_of_not_found worker o hfetch ?_)
        rw [hr]
        exact hgone

/-- The same services, later: another bulk is written, under the next number. -/
def laterOutside : Outside :=
  { sampleOutside with
    worker := .ok
      { statusCode := 200
        text := ""
        json := .ok (.dict [("bulkid", .str (UUID.ofNat 6).text), ("describe", .dict [])]) }
    write := .ok fun _ => ⟨"", 1562066009929333, short_of_lt (by decide)⟩ }

theorem answersUuids_laterOutside : laterOutside.AnswersUuids := by
  intro response json bulkId hworker hjson hbulkId
  cases hworker
  cases hjson
  exact ⟨⟨6, by decide⟩, (Except.ok.inj hbulkId).symm⟩

/-- A worker that answers every request with its path. -/
def pathWorker (request : WorkerRequest) : Except Raised BulkResponse := .ok ⟨200, "", request.path⟩

/-- The read of the first version. -/
def readFirst : BulkRead :=
  .getDataVersion .wellLog 1562066009929332 {} "application/x-parquet" (some .split)

/-- The sample record gets a bulk, and then another one; the first is read again. -/
theorem version_reads_stable_rewritten :
    ∃ s t, run (step sampleDeployment) sampleServer
        [.postData .wellLog sampleSession.session.recordId sampleOutside] = some s ∧
      run (step sampleDeployment) s
        [.postData .wellLog sampleSession.session.recordId laterOutside] = some t ∧
      ReadsAlike (readFirst.run sampleOutside pathWorker sampleSession.session.recordId) s t := by
  have hfirst : (run (step sampleDeployment) sampleServer
      [.postData .wellLog sampleSession.session.recordId sampleOutside]).map (fun s =>
        (readFirst.run sampleOutside pathWorker
          sampleSession.session.recordId s).1.toOption.isSome) =
      some true := by decide
  obtain ⟨s, hs, hread⟩ := Option.map_eq_some_iff.mp hfirst
  obtain ⟨t, ht⟩ : ∃ t, run (step sampleDeployment) s
      [.postData .wellLog sampleSession.session.recordId laterOutside] = some t := ⟨_, rfl⟩
  refine ⟨s, t, hs, ht, ?_⟩
  cases hout : (readFirst.run sampleOutside pathWorker sampleSession.session.recordId s).1 with
  | error e =>
    rw [hout] at hread
    cases hread
  | ok response =>
    refine (version_reads_stable (v := 1562066009929332) (by decide) ?_ ht sampleOutside pathWorker
      readFirst rfl hout).2 ?_
    · exact List.forall_mem_singleton.mpr (by decide)
    · intro purge hmem
      cases List.mem_singleton.mp hmem

end Server

/-! ## What an acknowledged write leaves -/

/-- The worker has answered the bulk. -/
def Outside.Wrote (o : Outside) (bulkId : UUID) : Prop :=
  ∃ response json, o.worker = .ok response ∧ response.json = .ok json ∧
    getItem json "bulkid" = .ok (.str bulkId.text)

/-- On `u`, `r` asks the worker for the bulk, if its route admits the version that is found;
else it fails and asks nothing. -/
structure ReadsBulk (recordId : String) (bulkId : UUID) (r : BulkRead) (u : Server) : Prop where
  asked : ∀ o worker record, o.fetch = .ok () → u.records.find recordId r.version = some record →
    r.Admits record → ∃ out, r.run o worker recordId u =
      (out, { u with requests := u.requests ++ [r.request recordId bulkId.text record.version] })
  refused : ∀ o worker, (∀ record, o.fetch = .ok () →
    u.records.find recordId r.version = some record → ¬ r.Admits record) →
    ∃ e, r.run o worker recordId u = (.error e, u)

/-- A record in which a bulk URI is found has objects on the path to it. -/
theorem wellNested_of_validBulkUri {record : Record} {uri : BulkURI}
    (h : validBulkUri record = .ok (some uri)) : WellNested record.data := by
  obtain ⟨hget, hvalid⟩ := validBulkUri_eq_some h
  obtain ⟨v, hfield, hdecode⟩ := bind_eq_ok.mp hget
  -- the value of the field is not the one of an absent path
  have hne : v ≠ .none := by
    rintro rfl
    cases Except.ok.inj hdecode
    exact absurd hvalid (by decide)
  unfold OsduBulkIdAccess.fieldValue at hfield
  split at hfield
  · rename_i ext hext
    obtain ⟨wdms, hwdms, hfield⟩ := bind_eq_ok.mp hfield
    have hext := (OsduBulkIdAccess.truthyValue_eq_some hext).1
    cases ext with
    | dict items =>
      cases hwdms
      split at hfield
      · rename_i wdms hget
        have hget := (OsduBulkIdAccess.truthyValue_eq_some hget).1
        obtain ⟨w, hw, -⟩ := bind_eq_ok.mp hfield
        cases wdms with
        | dict wdmsItems =>
          refine ⟨Or.inr (Or.inr ⟨items, hext⟩), Or.inr (Or.inr ⟨wdmsItems, ?_⟩)⟩
          rw [hext]
          exact hget
        | _ => cases hw
      · exact absurd (Except.ok.inj hfield).symm hne
    | _ => cases hwdms
  · exact absurd (Except.ok.inj hfield).symm hne

/-- A version with the URI of the bulk is read as it should be. -/
theorem readsBulk_of_find {recordId : String} {bulkId : UUID} {uri : BulkURI} {u : Server}
    {r : BulkRead} (huri : uri.bulkId = bulkId.text)
    (hfound : ∀ record, u.records.find recordId r.version = some record →
      validBulkUri record = .ok (some uri))
    (hjson : ∀ record ∈ u.records.versions recordId, (Value.dict record.data).IsJson) :
    ReadsBulk recordId bulkId r u := by
  have hasks : ∀ worker record, u.records.find recordId r.version = some record →
      AsksForBulk record (r.Admits record)
        (fun bulkId => r.request recordId bulkId record.version)
        (r.ofRecord worker recordId record) := by
    intro worker record hfind
    exact r.asks worker (RecordStore.storedId_of_find hfind) (.of_json
      (wellNested_of_validBulkUri (hfound record hfind))
      (hjson record (RecordStore.mem_of_find hfind)))
  constructor
  · intro o worker record hfetch hfind hadmits
    obtain ⟨out, hout⟩ := (hasks worker record hfind).asked uri hadmits (hfound record hfind)
    rw [huri] at hout
    exact ⟨out, (BulkRead.run_of_find worker o hfetch hfind).trans (hout u)⟩
  · intro o worker hrefused
    cases hfetch : o.fetch with
    | error e => exact ⟨e, r.run_of_fetch_error worker o hfetch⟩
    | ok x =>
      cases hfind : u.records.find recordId r.version with
      | none => exact ⟨_, BulkRead.run_of_not_found worker o hfetch hfind⟩
      | some record =>
        obtain ⟨e, he⟩ := (hasks worker record hfind).refused fun hboth =>
          hrefused record hfetch hfind hboth.1
        refine ⟨e, (BulkRead.run_of_find worker o hfetch hfind).trans ?_⟩
        have hu := he u
        rwa [List.append_nil] at hu

namespace Server

/-- The request is answered with the version it has published. -/
def Acknowledges (d : Deployment τ δ) (s : Server) (recordId : String) (version : Nat) :
    RecordEvent τ → Prop
  | .postData e k o => k = recordId ∧ ∃ answer,
    (postData d.pk (d.dataChecks e) (v3State e) o k s).1 = .ok answer ∧
      TellsVersion recordId answer version
  | .complete e k sessionId clock .commit session o => k = recordId ∧ ∃ response,
    (completeSession d.py d.pk d.isWord (d.dataChecks e) (v3State e) o k sessionId clock .commit
      (session, s)).1 = .ok response ∧ response.version = some (version : Int)
  | .complete _ _ _ _ .abandon _ _ | .post _ _ _ | .delete _ _ => False

theorem tellsVersion_inj {recordId : String} {answer : CreateUpdateRecordsResponse}
    {version version' : Nat} (h : TellsVersion recordId answer version)
    (h' : TellsVersion recordId answer version') : version = version' := by
  have heq := (List.cons.inj (h.symm.trans h')).1
  have htext : toString version = toString version' := by
    have hlist := congrArg String.toList heq
    simp only [String.toList_append] at hlist
    exact String.toList_inj.mp (List.append_cancel_left hlist)
  have hrepr : (version : Int).repr = (version' : Int).repr := htext
  exact Int.ofNat.inj (repr_injective hrepr)

/-- The version `version` of a record, which is also the latest, has the URI of the bulk. -/
structure PublishedBulk (s : RecordStore) (recordId : String) (version : Nat) (bulkId : UUID) :
    Prop where
  numbered : ∃ record, s.find recordId (some (version : Int)) = some record ∧
    validBulkUri record = .ok (some (.ofUuid bulkId .v1 (by decide)))
  latest : s.latestBulkUri recordId = .ok (some (.ofUuid bulkId .v1 (by decide)))

/-- What is published once is the record's bulk from then on. -/
theorem publishedBulk_of_publishedOnce {d : Deployment τ δ} {checks : DataConsistencyChecks δ}
    {o : Outside} {base : Record} {edited : Record → Record → Prop} {version : Nat} {s t : Server}
    {recordId : String} (hne : recordId ≠ "") (hbase : base.id = some recordId)
    (hedited : ∀ sent, edited base sent → sent.id = base.id) (hworker : o.AnswersUuids)
    (h : PublishedOnce d.pk checks o base edited version s t) :
    ∃ bulkId, o.Wrote bulkId ∧ PublishedBulk t.records recordId version bulkId := by
  obtain ⟨v, sent, record, assign, hchecked, -, hsent, hset, -, rfl, hrecords⟩ := h
  obtain ⟨response, json, -, -, hresponse, -, hjson, hbulkId, -⟩ := hchecked
  obtain ⟨bulkId, rfl⟩ := hworker response json v hresponse hjson hbulkId
  refine ⟨bulkId, ⟨response, json, hresponse, hjson, hbulkId⟩, ?_⟩
  have hid : record.id = some recordId :=
    (OsduBulkIdAccess.setBulkUri_frame hset).1.trans ((hedited sent hsent).trans hbase)
  have hvalid := validBulkUri_setBulkUri hset
  have hlatest : t.records.find recordId none =
      some (record.stored (assign 0).newId (assign 0).version) := by
    rw [hrecords]
    have hfind := RecordStore.find_add_self s.records (assign 0).newId (assign 0).version record
    rwa [Record.storedId_of_id hid hne] at hfind
  refine ⟨⟨_, RecordStore.find_version_of_latest hlatest rfl, hvalid⟩, ?_⟩
  rw [RecordStore.latestBulkUri_of_find hlatest]
  exact hvalid

/-- **An acknowledged write** has published its bulk under the version it tells. -/
theorem Acknowledges.published {d : Deployment τ δ} {s t : Server} {recordId : String}
    {version : Nat} {e : RecordEvent τ} (hack : Acknowledges d s recordId version e)
    (hids : StoresRecordIds d.isWord s.records) (hworker : ∀ o ∈ e.outside, o.AnswersUuids)
    (hstep : step d s e = some t) :
    ∃ o ∈ e.outside, ∃ bulkId, o.Wrote bulkId ∧
      PublishedBulk t.records recordId version bulkId := by
  cases e with
  | post e records o => cases hack
  | delete k purge => cases hack
  | postData e k o =>
    obtain ⟨rfl, answer, hanswer, htells⟩ := hack
    cases hstep
    -- `postData` has published the version that its answer tells
    have hspec := (bulk_write_publishes_once d.pk (d.dataChecks e) (v3State e) o d.py hids k).1
    obtain ⟨base, version', hfind, hpublished, htells'⟩ := hspec.ended answer hanswer
    obtain rfl := tellsVersion_inj htells htells'
    refine ⟨o, rfl, publishedBulk_of_publishedOnce (hids _ _ _ hfind).ne_empty
      (RecordStore.storedId_of_find hfind) ?_ (hworker o rfl) hpublished⟩
    rintro sent rfl
    rfl
  | complete e k sessionId clock update session o =>
    cases update with
    | abandon => cases hack
    | commit =>
      obtain ⟨rfl, response, hresponse, hversion⟩ := hack
      cases hstep
      have hspec := (bulk_write_publishes_once d.pk (d.dataChecks e) (v3State e) o d.py hids k).2
        sessionId clock session
      rw [Effect.Post] at hspec
      cases hsession : session.bind fun b => (getSession d.py b).toOption with
      | none =>
        -- without a readable session, the guard raises and nothing is acknowledged
        rw [hsession] at hspec
        obtain ⟨⟨error, herror⟩, -⟩ := hspec
        rw [herror] at hresponse
        cases hresponse
      | some i =>
        rw [hsession] at hspec
        obtain ⟨base, version', hfind, hpublished, hversion'⟩ := hspec.ended response hresponse
        obtain rfl := Int.ofNat.inj (Option.some.inj (hversion.symm.trans hversion'))
        exact ⟨o, rfl, publishedBulk_of_publishedOnce (hids _ _ _ hfind).ne_empty
          (RecordStore.storedId_of_find hfind) (fun sent hsent => hsent.id) (hworker o rfl)
          hpublished⟩

end Server

/-! ## The latest bulk -/

/-- The request writes no bulk of the record and does not delete it. -/
def RecordEvent.LeavesBulk (recordId : String) (e : RecordEvent τ) : Prop :=
  (∀ k, e.bulkOf = some k → ∀ v, (recordId, v) ∉ e.stores) ∧ ∀ purge, e ≠ .delete recordId purge

namespace Server

/-- A deletion leaves the other records as they are found. -/
theorem find_delete_of_ne {s : RecordStore} {j k : String} {purge : Bool} (h : k ≠ j) :
    (s.delete j purge).find k none = s.find k none := by
  rw [RecordStore.find, RecordStore.deleted_delete_of_ne h, RecordStore.versions_delete_of_ne h]
  rfl

/-- **A request keeps the latest URI** of a record whose bulk it does not write. -/
theorem step_keeps_latest {d : Deployment τ δ} {s t : Server} {e : RecordEvent τ}
    {recordId : String} (hok : s.KeepsUnchecked e) (hleaves : e.LeavesBulk recordId)
    (hstep : step d s e = some t) :
    t.records.latestBulkUri recordId = s.records.latestBulkUri recordId := by
  -- a bulk write stores under its own record, which is another one
  have hbulk : ∀ {k : String}, e.bulkOf = some k →
      t.records.latestBulkUri recordId = s.records.latestBulkUri recordId := by
    intro k hk
    obtain ⟨o, ho, hstep⟩ := step_bulk hk hstep
    rcases hstep with ⟨hsame, -⟩ |
      ⟨-, -, bulkId, sent, record, assign, -, -, -, hsent, hset, hassign, hrecords, -, -⟩
    · rw [hsame]
    · have hstored :=
        storedId_eq ((OsduBulkIdAccess.setBulkUri_frame hset).1.trans hsent) (assign 0).newId
      -- a version stored under `recordId` would be one of those that the event stores
      have hne : recordId ≠ record.storedId (assign 0).newId := by
        intro heq
        refine hleaves.1 k hk (assign 0).version ?_
        cases e with
        | post e records o => cases hk
        | delete j purge => cases hk
        | postData e j o =>
          cases hk
          cases ho
          simp only [RecordEvent.stores, hassign, heq, hstored, List.mem_singleton]
        | complete e j sessionId clock update session o =>
          cases hk
          cases ho
          simp only [RecordEvent.stores, hassign, heq, hstored, List.mem_singleton]
      rw [hrecords, RecordStore.latestBulkUri, RecordStore.latestBulkUri,
        RecordStore.find_add_of_ne _ _ _ _ hne]
  cases e with
  | post e records o =>
    obtain ⟨hnew, hstep⟩ := Option.ite_none_right_eq_some.mp hstep
    have hspec := postRecords_written d.recordChecks o records s e
    rw [Effect.Post, Option.some.inj hstep] at hspec
    rcases hspec with rfl | ⟨⟨assign, hassign, rfl⟩, hchecked⟩
    · rfl
    -- a POST keeps the URIs, by its check or by the condition
    · have hkeeps : ∀ record ∈ records, KeepsBulkUri s.records record := by
        cases he : e.checksBulkUri with
        | true => exact hchecked.keeps he
        | false => exact hok he
      rw [Outside.assignsNewIds, hassign] at hnew
      refine latest_addAll hkeeps (fun j hj => ?_) recordId
      rw [Nat.zero_add] at hj
      exact (RecordStore.of_areNew hnew hj).2
  | postData e k o => exact hbulk rfl
  | complete e k sessionId clock update session o => exact hbulk rfl
  | delete k purge =>
    cases hstep
    have hne : recordId ≠ k := by
      rintro rfl
      exact hleaves.2 purge rfl
    show (s.records.delete k purge).latestBulkUri recordId = _
    rw [RecordStore.latestBulkUri, RecordStore.latestBulkUri, find_delete_of_ne hne]

/-- **A run** of requests that leave the bulk keeps the latest URI. -/
theorem run_keeps_latest {d : Deployment τ δ} {s t : Server} {es : List (RecordEvent τ)}
    {recordId : String} (hok : Guarded (step d) KeepsUnchecked s es)
    (hleaves : ∀ e ∈ es, e.LeavesBulk recordId) (hrun : run (step d) s es = some t) :
    t.records.latestBulkUri recordId = s.records.latestBulkUri recordId := by
  let Inv : Server → Prop := fun x =>
    x.records.latestBulkUri recordId = s.records.latestBulkUri recordId
  have hinv : Inv t := run_invariant (fun hx he hstep =>
    (step_keeps_latest he.1 he.2 hstep).trans hx) rfl (hok.and_forall hleaves) hrun
  exact hinv

/-- **Reads see what was written.** The bulk of an answered write is what every later read of
the answered version asks for, in every run that does not give its number again; and it is what
every read of the latest version asks for, in every such run that neither writes another bulk of
the record nor deletes it, and that is given only records that keep their URIs on the routes
that do not check them. -/
theorem acknowledged_bulk_is_read {d : Deployment τ δ} {s t u : Server} {e : RecordEvent τ}
    {es : List (RecordEvent τ)} {recordId : String} {version : Nat}
    (hids : StoresRecordIds d.isWord s.records) (hworker : ∀ o ∈ e.outside, o.AnswersUuids)
    (hack : Acknowledges d s recordId version e) (hstep : step d s e = some t)
    (hrun : run (step d) t es = some u) (hversion : version ≠ 0)
    (hjson : ∀ record ∈ u.records.versions recordId, (Value.dict record.data).IsJson) :
    ∃ o ∈ e.outside, ∃ bulkId, o.Wrote bulkId ∧
      ((∀ e' ∈ es, (recordId, (version : Int)) ∉ e'.stores) →
        ∀ r : BulkRead, r.version = some (version : Int) → ReadsBulk recordId bulkId r u) ∧
      (Guarded (step d) KeepsUnchecked t es → (∀ e' ∈ es, e'.LeavesBulk recordId) →
        ∀ r : BulkRead, r.version = none → ReadsBulk recordId bulkId r u) := by
  obtain ⟨o, ho, bulkId, hwrote, hpublished⟩ := hack.published hids hworker hstep
  refine ⟨o, ho, bulkId, hwrote, ?_, ?_⟩
  · intro hnew r hr
    -- the version itself stays: it is there, or the record was deleted meanwhile
    obtain ⟨stored, hfind, hvalid⟩ := hpublished.numbered
    have hne : (version : Int) ≠ 0 := by omega
    have htext : (BulkURI.ofUuid bulkId .v1 (by decide)).bulkId = bulkId.text := rfl
    refine readsBulk_of_find htext ?_ hjson
    intro record hrecord
    rw [hr] at hrecord
    rcases ((run_keeps_version hnew hrun).find hne hfind).1 with hsame | hgone
    · rw [hsame] at hrecord
      cases hrecord
      exact hvalid
    · rw [hgone] at hrecord
      cases hrecord
  · intro hok hleaves r hr
    -- the latest URI stays, whatever version it is read from
    have hlatest := (run_keeps_latest hok hleaves hrun).trans hpublished.latest
    have htext : (BulkURI.ofUuid bulkId .v1 (by decide)).bulkId = bulkId.text := rfl
    refine readsBulk_of_find htext ?_ hjson
    intro record hrecord
    rw [hr] at hrecord
    rwa [RecordStore.latestBulkUri_of_find hrecord] at hlatest

end Server

namespace Server

/-- The data of a record with a bulk, as the samples have it. -/
def bulkData (u : UUID) (datasets : Dict String Value) : Dict String Value :=
  ("ExtensionProperties", .dict [("wdms", .dict
    [("bulkURI", .str ("urn:wdms-1:uuid:" ++ u.text))])]) :: datasets

theorem isJson_bulkData (u : UUID) {datasets : Dict String Value}
    (hkeys : "ExtensionProperties" ∉ datasets.map Prod.fst)
    (h : (Value.dict datasets).IsJson) : (Value.dict (bulkData u datasets)).IsJson := by
  have hwdms : (Value.dict [("bulkURI", Value.str ("urn:wdms-1:uuid:" ++ u.text))]).IsJson :=
    .dict (List.nodup_singleton _) (List.forall_mem_singleton.mpr (.str _))
  have hext : (Value.dict [("wdms", Value.dict
      [("bulkURI", Value.str ("urn:wdms-1:uuid:" ++ u.text))])]).IsJson :=
    .dict (List.nodup_singleton _) (List.forall_mem_singleton.mpr hwdms)
  cases h with
  | dict hnodup hall =>
    exact .dict (List.nodup_cons.mpr ⟨hkeys, hnodup⟩) (List.forall_mem_cons.mpr ⟨hext, hall⟩)

/-- The datasets of a record with a bulk, for kinds that have them. -/
def ddmsDatasets (u : UUID) : Dict String Value :=
  [("DDMSDatasets", .list [.str ("urn://wdms-1/uuid:" ++ u.text)])]

theorem isJson_nil : (Value.dict []).IsJson := .dict List.nodup_nil nofun

theorem isJson_ddmsDatasets (u : UUID) : (Value.dict (ddmsDatasets u)).IsJson :=
  .dict (List.nodup_singleton _) (List.forall_mem_singleton.mpr
    (.list (List.forall_mem_singleton.mpr (.str _))))

theorem isJson_of_data {records : List Record} {datas : List (Dict String Value)}
    (h : records.map Record.data = datas) (hall : ∀ data ∈ datas, (Value.dict data).IsJson) :
    ∀ record ∈ records, (Value.dict record.data).IsJson := by
  subst h
  exact fun record hrecord => hall _ (List.mem_map_of_mem hrecord)

/-- A well log gets a bulk, and is posted again with its URI. -/
theorem acknowledged_bulk_is_read_posted :
    ∃ t u, step sampleDeployment sampleServer (.postData .wellLog sampleSession.session.recordId
        sampleOutside) = some t ∧
      run (step sampleDeployment) t
        [.post .wellLog [recordWithBulkUri ⟨5, by decide⟩] postedOnly] = some u ∧
      ReadsBulk sampleSession.session.recordId ⟨5, by decide⟩ readFirst u ∧
      ReadsBulk sampleSession.session.recordId ⟨5, by decide⟩ (.getBulkStatistics none) u := by
  obtain ⟨t, ht⟩ : ∃ t, step sampleDeployment sampleServer (.postData .wellLog
      sampleSession.session.recordId sampleOutside) = some t := ⟨_, rfl⟩
  have hdata : ((step sampleDeployment sampleServer (.postData .wellLog
      sampleSession.session.recordId sampleOutside)).bind fun t => (run (step sampleDeployment) t
        [.post .wellLog [recordWithBulkUri ⟨5, by decide⟩] postedOnly])).map (fun u =>
        (u.records.versions sampleSession.session.recordId).map Record.data) =
      some [bulkData ⟨5, by decide⟩ [], bulkData ⟨5, by decide⟩ (ddmsDatasets ⟨5, by decide⟩),
        []] := by
    rfl
  -- what the run stores is evaluated once, and the rest follows from its data
  rw [ht, Option.bind_some] at hdata
  obtain ⟨u, hu, hdata⟩ := Option.map_eq_some_iff.mp hdata
  have hjson : ∀ record ∈ u.records.versions sampleSession.session.recordId,
      (Value.dict record.data).IsJson := by
    refine isJson_of_data hdata ?_
    exact List.forall_mem_cons.mpr ⟨isJson_bulkData _ (by decide) isJson_nil,
      List.forall_mem_cons.mpr ⟨isJson_bulkData _ (by decide) (isJson_ddmsDatasets _),
        List.forall_mem_singleton.mpr isJson_nil⟩⟩
  have hids : StoresRecordIds sampleDeployment.isWord sampleServer.records :=
    storesRecordIds_sampleServer
  have hack : Acknowledges sampleDeployment sampleServer sampleSession.session.recordId
      1562066009929332 (.postData .wellLog sampleSession.session.recordId sampleOutside) :=
    ⟨rfl, _, rfl, rfl⟩
  have hworker : ∀ o ∈ (RecordEvent.postData (τ := Value) .wellLog sampleSession.session.recordId
      sampleOutside).outside, o.AnswersUuids := by
    rintro o ⟨⟩
    exact answersUuids_sampleOutside
  obtain ⟨o, ho, bulkId, hwrote, hversion, hlatest⟩ :=
    acknowledged_bulk_is_read hids hworker hack ht hu (by decide) hjson
  cases ho
  obtain rfl : bulkId = ⟨5, by decide⟩ := by
    obtain ⟨response, json, hresponse, hjson, hbulkId⟩ := hwrote
    cases hresponse
    cases hjson
    exact UUID.text_injective (Value.str.inj (Except.ok.inj hbulkId)).symm
  refine ⟨t, u, ht, hu, hversion ?_ readFirst rfl, hlatest ?_ ?_ _ rfl⟩
  · exact List.forall_mem_singleton.mpr (by decide)
  · cases ht
    exact guarded_of_checkRun (by decide)
  · refine List.forall_mem_singleton.mpr ⟨?_, ?_⟩
    · intro k hk
      cases hk
    · intro purge h
      cases h

end Server

/-! ## After a purge -/

/-- Every bulk URI in every version of `k` is among those `new` has for it. -/
def SourcedOf (k : String) (new : List (Option String × Value)) (s : RecordStore) : Prop :=
  ∀ record ∈ s.versions k, ∃ uri, validBulkUri record = .ok uri ∧
    ∀ u ∈ uri, (some k, Value.str u.bulkId) ∈ new

/-- What a purge leaves, and keeps true: the record has the bulks returned since, and no
record has the empty id. -/
structure Renewed (k : String) (new : List (Option String × Value)) (s : RecordStore) : Prop where
  named : s.versions "" = []
  sourced : SourcedOf k new s

section

variable {k : String} {new new' : List (Option String × Value)} {s : RecordStore}

theorem Renewed.mono (h : Renewed k new s) (hsub : ∀ x ∈ new, x ∈ new') : Renewed k new' s where
  named := h.named
  sourced := by
    intro record hrecord
    obtain ⟨uri, huri, hall⟩ := h.sourced record hrecord
    exact ⟨uri, huri, fun u hu => hsub _ (hall u hu)⟩

/-- The latest URI of the record. -/
theorem Renewed.latest (h : Renewed k new s) {u : BulkURI}
    (hu : s.latestBulkUri k = .ok (some u)) : (some k, Value.str u.bulkId) ∈ new := by
  cases hfind : s.find k none with
  | none =>
    rw [RecordStore.latestBulkUri_of_not_found hfind] at hu
    cases hu
  | some record =>
    rw [RecordStore.latestBulkUri_of_find hfind] at hu
    obtain ⟨uri, huri, hall⟩ := h.sourced record (RecordStore.mem_of_find hfind)
    obtain rfl := Except.ok.inj (hu.symm.trans huri)
    exact hall u rfl

theorem Renewed.add (h : Renewed k new s) {newId : String} (version : Int) {r : Record}
    (hne : r.storedId newId ≠ "")
    (hr : r.storedId newId = k → ∃ uri, validBulkUri r = .ok uri ∧
      ∀ u ∈ uri, (some k, Value.str u.bulkId) ∈ new) : Renewed k new (s.add newId version r) where
  named := (RecordStore.add_versions_of_ne s newId version r hne.symm).trans h.named
  sourced := by
    intro record hrecord
    by_cases hk : k = r.storedId newId
    · subst hk
      rw [RecordStore.add_versions_self] at hrecord
      rcases List.mem_cons.mp hrecord with rfl | hrecord
      · exact hr rfl
      · exact h.sourced record hrecord
    · rw [RecordStore.add_versions_of_ne s newId version r hk] at hrecord
      exact h.sourced record hrecord

theorem Renewed.delete (h : Renewed k new s) (j : String) (purge : Bool) :
    Renewed k new (s.delete j purge) := by
  have hsub : ∀ i, ∀ record ∈ (s.delete j purge).versions i, record ∈ s.versions i := by
    intro i record hrecord
    by_cases hi : i = j
    · subst hi
      cases purge with
      | false => exact hrecord
      | true =>
        rw [RecordStore.versions_purge] at hrecord
        cases hrecord
    · rwa [RecordStore.versions_delete_of_ne hi] at hrecord
  constructor
  · refine List.eq_nil_iff_forall_not_mem.mpr fun record hrecord => ?_
    have hmem := hsub "" record hrecord
    rw [h.named] at hmem
    cases hmem
  · intro record hrecord
    exact h.sourced record (hsub k record hrecord)

/-- The records of one request, which keep their URIs. -/
theorem Renewed.addAll {assign : Nat → Assigned} {records : List Record} {i : Nat}
    (h : Renewed k new s) (hkeeps : ∀ record ∈ records, KeepsBulkUri s record)
    (hids : ∀ j < i + records.length,
      (assign j).newId ≠ "" ∧ s.latestBulkUri (assign j).newId = .ok none) :
    Renewed k new (s.addAll assign i records) := by
  induction records generalizing s i with
  | nil => exact h
  | cons record records ih =>
    obtain ⟨hrecord, hrest⟩ := List.forall_mem_cons.mp hkeeps
    obtain ⟨hne, hnone⟩ := hids i (by simp)
    have hlatest := hrecord.latest_add hnone (assign i).version
    have hadd : Renewed k new (s.add (assign i).newId (assign i).version record) := by
      refine h.add _ (storedId_ne_empty hne) ?_
      rintro rfl
      cases hvalid : validBulkUri record with
      | error e =>
        have hok := hrecord.2
        rw [hvalid] at hok
        cases hok
      | ok uri =>
        refine ⟨uri, rfl, fun u hu => h.latest ?_⟩
        rw [← hrecord.latest hnone, hvalid, Option.mem_def.mp hu]
    refine ih hadd (fun r hr => (hrest r hr).congr hlatest) fun j hj => ?_
    rw [List.length_cons] at hids
    obtain ⟨hnej, hnonej⟩ := hids j (by omega)
    exact ⟨hnej, (hlatest _).trans hnonej⟩

end

namespace Server

/-- What is returned grows, and what a purge leaves stays true of what is new. -/
theorem renewed_step {d : Deployment τ δ} {s t : Server} {e : RecordEvent τ} {k : String}
    {old new : List (Option String × Value)} (hreturned : s.returned = new ++ old)
    (h : Renewed k new s.records) (hok : s.KeepsUnchecked e ∧ ∀ o ∈ e.outside, o.AnswersUuids)
    (hstep : step d s e = some t) :
    ∃ new', t.returned = new' ++ old ∧ Renewed k new' t.records := by
  have hbulk : ∀ {j : String}, e.bulkOf = some j →
      ∃ new', t.returned = new' ++ old ∧ Renewed k new' t.records := by
    intro j hj
    obtain ⟨o, ho, hstep⟩ := step_bulk hj hstep
    rcases hstep with ⟨hsame, more, hmore⟩ | ⟨response, json, v, sent, record, assign, hresponse,
      hjson, hv, hsent, hset, -, hrecords, hreturned', hfound⟩
    · refine ⟨more ++ new, ?_, ?_⟩
      · rw [hmore, hreturned, List.append_assoc]
      · rw [hsame]
        exact h.mono fun x hx => List.mem_append_right _ hx
    · obtain ⟨u, rfl⟩ := hok.2 o ho response json v hresponse hjson hv
      refine ⟨(some j, .str u.text) :: new, ?_, ?_⟩
      · rw [hreturned', hreturned]
        rfl
      -- the version goes to the record it was made from, which has an id
      have hne : j ≠ "" := by
        rintro rfl
        exact hfound h.named
      have hid : record.id = some j := (OsduBulkIdAccess.setBulkUri_frame hset).1.trans hsent
      have hstored := Record.storedId_of_id hid hne (assign 0).newId
      rw [hrecords]
      have hmono := h.mono fun x hx => List.mem_cons_of_mem (some j, Value.str u.text) hx
      refine hmono.add _ (by rwa [hstored]) fun hk => ⟨_, validBulkUri_setBulkUri hset, ?_⟩
      intro uri huri
      rw [← hk, hstored, ← Option.some.inj huri]
      exact List.mem_cons_self
  cases e with
  | post e records o =>
    obtain ⟨hnew, hstep⟩ := Option.ite_none_right_eq_some.mp hstep
    have hspec := postRecords_written d.recordChecks o records s e
    rw [Effect.Post, Option.some.inj hstep] at hspec
    rcases hspec with rfl | ⟨⟨assign, hassign, rfl⟩, hchecked⟩
    · exact ⟨new, hreturned, h⟩
    · have hkeeps : ∀ record ∈ records, KeepsBulkUri s.records record := by
        cases he : e.checksBulkUri with
        | true => exact hchecked.keeps he
        | false => exact hok.1 he
      rw [Outside.assignsNewIds, hassign] at hnew
      refine ⟨new, hreturned, h.addAll hkeeps fun j hj => ?_⟩
      rw [Nat.zero_add] at hj
      exact RecordStore.of_areNew hnew hj
  | postData e j o => exact hbulk rfl
  | complete e j sessionId clock update session o => exact hbulk rfl
  | delete j purge =>
    cases hstep
    exact ⟨new, hreturned, h.delete j purge⟩

/-- **Purged bulks are gone.** After a purge, in every run that is given only records that keep
their URIs on the routes that do not check them, no read of the record, of whatever version, asks
the worker for a bulk other than those returned for the record since the purge. -/
theorem purged_bulks_are_gone {d : Deployment τ δ} {s t u : Server} {es : List (RecordEvent τ)}
    {recordId : String} (hnamed : s.records.versions "" = [])
    (hpurge : step d s (.delete recordId true) = some t) (hrun : run (step d) t es = some u)
    (hok : Guarded (step d) KeepsUnchecked t es)
    (hworker : ∀ e ∈ es, ∀ o ∈ e.outside, o.AnswersUuids)
    (hjson : ∀ record ∈ u.records.versions recordId, (Value.dict record.data).IsJson) :
    ∃ new, u.returned = new ++ s.returned ∧ ∀ o worker (r : BulkRead), ∃ out sent,
      r.run o worker recordId u = (out, { u with requests := u.requests ++ sent }) ∧
      ∀ q ∈ sent, ∃ bulkId version, (some recordId, .str bulkId) ∈ new ∧
        q = r.request recordId bulkId version := by
  -- the invariant of the run after the purge: what is found was returned since
  let Inv : Server → Prop := fun x =>
    ∃ new, x.returned = new ++ s.returned ∧ Renewed recordId new x.records
  have hinit : Inv t := by
    cases hpurge
    refine ⟨[], rfl, ?_, ?_⟩
    · refine List.eq_nil_iff_forall_not_mem.mpr fun record hrecord => ?_
      -- no version is stored under the empty id
      by_cases hid : "" = recordId
      · subst hid
        rw [RecordStore.versions_purge] at hrecord
        cases hrecord
      · rw [RecordStore.versions_delete_of_ne hid, hnamed] at hrecord
        cases hrecord
    · intro record hrecord
      rw [RecordStore.versions_purge] at hrecord
      cases hrecord
  have hinv : Inv u := by
    refine run_invariant (fun hx he hstep => ?_) hinit (hok.and_forall hworker) hrun
    obtain ⟨new, hreturned, hrenewed⟩ := hx
    exact renewed_step hreturned hrenewed he hstep
  obtain ⟨new, hreturned, hrenewed⟩ := hinv
  refine ⟨new, hreturned, fun o worker r => ?_⟩
  -- a read that finds nothing sends nothing
  have hnothing : ∀ {x : Except Raised Response × Server} {e : Raised}, x = (.error e, u) →
      ∃ out sent, x = (out, { u with requests := u.requests ++ sent }) ∧
        ∀ q ∈ sent, ∃ bulkId version, (some recordId, .str bulkId) ∈ new ∧
          q = r.request recordId bulkId version := by
    rintro x e rfl
    refine ⟨.error e, [], ?_, nofun⟩
    rw [List.append_nil]
  cases hfetch : o.fetch with
  | error e => exact hnothing (r.run_of_fetch_error worker o hfetch)
  | ok x =>
    cases hfind : u.records.find recordId r.version with
    | none => exact hnothing (BulkRead.run_of_not_found worker o hfetch hfind)
    | some record =>
      have hmem := RecordStore.mem_of_find hfind
      obtain ⟨out, sent, hasks, honly⟩ := r.asks_only worker (RecordStore.storedId_of_find hfind)
        (hjson record hmem)
      refine ⟨out, sent, (BulkRead.run_of_find worker o hfetch hfind).trans (hasks u), ?_⟩
      rcases honly with rfl | ⟨uri, huri, rfl⟩
      · nofun
      -- the URI that is read is valid, so the worker returned it after the purge
      · obtain ⟨uri', huri', hall⟩ := hrenewed.sourced record hmem
        rw [huri] at huri'
        cases huri'
        exact List.forall_mem_singleton.mpr ⟨uri.bulkId, record.version, hall uri rfl, rfl⟩

/-- A well log is purged, posted again, and gets a bulk. -/
theorem purged_bulks_are_gone_posted :
    ∃ t u, step sampleDeployment sampleServer (.delete sampleSession.session.recordId true) =
      some t ∧
      run (step sampleDeployment) t [.post .wellLog [sampleRecord] postedOnly,
        .postData .wellLog sampleSession.session.recordId laterOutside] = some u ∧
      ∃ new, u.returned = new ++ sampleServer.returned ∧ ∀ o worker (r : BulkRead), ∃ out sent,
        r.run o worker sampleSession.session.recordId u =
          (out, { u with requests := u.requests ++ sent }) ∧
        ∀ q ∈ sent, ∃ bulkId version,
          (some sampleSession.session.recordId, .str bulkId) ∈ new ∧
            q = r.request sampleSession.session.recordId bulkId version := by
  obtain ⟨t, ht⟩ : ∃ t, step sampleDeployment sampleServer
      (.delete sampleSession.session.recordId true) = some t := ⟨_, rfl⟩
  have hdata : ((step sampleDeployment sampleServer
      (.delete sampleSession.session.recordId true)).bind fun t => run (step sampleDeployment) t
        [.post .wellLog [sampleRecord] postedOnly,
          .postData .wellLog sampleSession.session.recordId laterOutside]).map (fun u =>
        (u.records.versions sampleSession.session.recordId).map Record.data) =
      some [bulkData ⟨6, by decide⟩ (ddmsDatasets ⟨6, by decide⟩), []] := by rfl
  rw [ht, Option.bind_some] at hdata
  obtain ⟨u, hu, hdata⟩ := Option.map_eq_some_iff.mp hdata
  refine ⟨t, u, ht, hu, purged_bulks_are_gone ?_ ht hu ?_ ?_ (isJson_of_data hdata ?_)⟩
  · have hne : "" ≠ sampleRecord.storedId "" := by decide
    exact RecordStore.add_versions_of_ne _ _ _ _ hne
  · cases ht
    exact guarded_of_checkRun (by decide)
  · intro e he o ho
    simp only [List.mem_cons, List.not_mem_nil, or_false] at he
    rcases he with rfl | rfl
    · cases ho
      exact answersUuids_postedOnly
    · cases ho
      exact answersUuids_laterOutside
  · exact List.forall_mem_cons.mpr ⟨isJson_bulkData _ (by decide) (isJson_ddmsDatasets _),
      List.forall_mem_singleton.mpr isJson_nil⟩

end Server

end WellboreDdms
