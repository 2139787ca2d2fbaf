import WellboreDdms.Bulk.Routes
import WellboreDdms.Machine.Run
import WellboreDdms.Records.Routes

/-!
# Where bulk URIs come from

The service gives out a bulk identifier for every bulk the worker has written. We
follow the bulk URIs in the record store through runs of requests, one after the
other: posted records, whole bulks, completed sessions and deletions.

- `RecordEvent`, `step`: the requests, with what the other services answer to each.
- `Provenance`: every bulk URI in every version of a record is one the worker client
  has returned for that record.
- `bulk_uri_provenance`: it holds in every run in which the routes that do not check
  the bulk URIs are given only records that would pass the check (`KeepsUnchecked`),
  and no POST changes the latest bulk URI of a record.
- `posted_bulk_uri_is_stored`: the run that shows the condition is needed. A well log
  posted through the route of another entity brings a bulk URI of its own.
-/

namespace WellboreDdms

open Python Machine

variable {τ δ : Type}

/-- The requests that write or delete records. -/
inductive RecordEvent (τ : Type) where
  | post (e : Entity) (records : List Record) (o : Outside)
  | postData (e : Entity) (recordId : String) (o : Outside)
  | complete (e : Entity) (recordId : String) (sessionId : UUID) (clock : CompletionClock)
    (update : UpdateSessionStateValue) (session : Option (SessionBlob τ)) (o : Outside)
  | delete (recordId : String) (purge : Bool)

/-- The answers that a request gets from other services. -/
def RecordEvent.outside : RecordEvent τ → Option Outside
  | .post _ _ o | .postData _ _ o | .complete _ _ _ _ _ _ o => some o
  | .delete _ _ => none

/-- The worker names bulks by the canonical texts of UUIDs. -/
def Outside.AnswersUuids (o : Outside) : Prop :=
  ∀ response json bulkId, o.worker = .ok response → response.json = .ok json →
    getItem json "bulkid" = .ok bulkId → ∃ u : UUID, bulkId = .str u.text

/-- The storage gives the new records of a request ids that it does not use. -/
def Outside.assignsNewIds (o : Outside) (s : RecordStore) (records : List Record) : Bool :=
  match o.write with
  | .ok assign => s.areNew assign records.length
  | .error _ => true

/-- What the routers inject. -/
structure Deployment (τ δ : Type) where
  py : Pydantic τ
  pk : Packaging
  isWord : Char → Bool
  recordChecks : RecordChecks
  dataChecks : Entity → DataConsistencyChecks δ

namespace Server

/-- A server without records. -/
def empty : Server where
  records := RecordStore.empty

/-- A request is handled, whatever its outcome. -/
def step (d : Deployment τ δ) (s : Server) : RecordEvent τ → Option Server
  | .post e records o =>
    if o.assignsNewIds s.records records then some (postRecords d.recordChecks o e records s).2
    else none
  | .postData e recordId o =>
    some (postData d.pk (d.dataChecks e) (v3State e) o recordId s).2
  | .complete e recordId sessionId clock update session o =>
    some (completeSession d.py d.pk d.isWord (d.dataChecks e) (v3State e) o recordId sessionId clock
      update (session, s)).2.2
  | .delete recordId purge => some { s with records := s.records.delete recordId purge }

/-- The records posted on a route that does not check bulk URIs would pass the check. -/
def KeepsUnchecked (s : Server) : RecordEvent τ → Prop
  | .post e records _ => e.checksBulkUri = false → ∀ record ∈ records, KeepsBulkUri s.records record
  | _ => True

instance (s : Server) (e : RecordEvent τ) : Decidable (s.KeepsUnchecked e) :=
  match e with
  | .post e records _ => inferInstanceAs (Decidable
    (e.checksBulkUri = false → ∀ record ∈ records, KeepsBulkUri s.records record))
  | .postData _ _ _ => isTrue trivial
  | .complete _ _ _ _ _ _ _ => isTrue trivial
  | .delete _ _ => isTrue trivial

end Server

/-! ## The invariant -/

/-- Every bulk URI in every version of a record was returned for it. -/
def Sourced (returned : List (Option String × Value)) (s : RecordStore) : Prop :=
  ∀ k, ∀ record ∈ s.versions k, ∃ uri, validBulkUri record = .ok uri ∧
    ∀ u ∈ uri, (some k, Value.str u.bulkId) ∈ returned

/-- The invariant of the runs; no record has the empty id. -/
structure Provenance (returned : List (Option String × Value)) (s : RecordStore) : Prop where
  named : s.versions "" = []
  sourced : Sourced returned s

theorem provenance_empty : Provenance [] RecordStore.empty where
  named := rfl
  sourced := nofun

theorem Provenance.mono {returned returned' : List (Option String × Value)} {s : RecordStore}
    (h : Provenance returned s) (hsub : ∀ x ∈ returned, x ∈ returned') :
    Provenance returned' s where
  named := h.named
  sourced := by
    intro k record hrecord
    obtain ⟨uri, huri, hall⟩ := h.sourced k record hrecord
    exact ⟨uri, huri, fun u hu => hsub _ (hall u hu)⟩

/-- A record that is found has an id. -/
theorem Provenance.ne_empty {returned : List (Option String × Value)} {s : RecordStore}
    (h : Provenance returned s) {recordId : String} {version : Option Int} {record : Record}
    (hfind : s.find recordId version = some record) : recordId ≠ "" := by
  rintro rfl
  have hmem := RecordStore.mem_of_find hfind
  rw [h.named] at hmem
  cases hmem

/-- The latest URI of a record was returned for it. -/
theorem Provenance.latest {returned : List (Option String × Value)} {s : RecordStore}
    (h : Provenance returned s) {k : String} {u : BulkURI} (hu : s.latestBulkUri k = .ok (some u)) :
    (some k, Value.str u.bulkId) ∈ returned := by
  cases hfind : s.find k none with
  | none =>
    rw [RecordStore.latestBulkUri_of_not_found hfind] at hu
    cases hu
  | some record =>
    rw [RecordStore.latestBulkUri_of_find hfind] at hu
    obtain ⟨uri, huri, hall⟩ := h.sourced k record (RecordStore.mem_of_find hfind)
    rw [huri] at hu
    cases hu
    exact hall u rfl

theorem Provenance.delete {returned : List (Option String × Value)} {s : RecordStore}
    (h : Provenance returned s) (recordId : String) (purge : Bool) :
    Provenance returned (s.delete recordId purge) := by
  -- a purge takes versions away, and the other deletions hide them
  have hsub : ∀ k, ∀ record ∈ (s.delete recordId purge).versions k, record ∈ s.versions k := by
    intro k record hrecord
    cases purge with
    | false => exact hrecord
    | true =>
      by_cases hk : k = recordId
      · subst hk
        have hnil : (s.delete k true).versions k = [] := Function.update_self ..
        rw [hnil] at hrecord
        cases hrecord
      · have hsame : (s.delete recordId true).versions k = s.versions k :=
          Function.update_of_ne hk ..
        exact hsame ▸ hrecord
  constructor
  · refine List.eq_nil_iff_forall_not_mem.mpr fun record hrecord => ?_
    have hmem := hsub "" record hrecord
    rw [h.named] at hmem
    cases hmem
  · intro k record hrecord
    exact h.sourced k record (hsub k record hrecord)

/-- A version is added whose URI, if it has one, was returned for its record. -/
theorem Provenance.add {returned : List (Option String × Value)} {s : RecordStore}
    (h : Provenance returned s) {newId : String} (version : Int) {r : Record}
    (hne : r.storedId newId ≠ "") {uri : Option BulkURI} (huri : validBulkUri r = .ok uri)
    (hreturned : ∀ u ∈ uri, (some (r.storedId newId), Value.str u.bulkId) ∈ returned) :
    Provenance returned (s.add newId version r) := by
  constructor
  · rw [RecordStore.add_versions_of_ne s newId version r hne.symm]
    exact h.named
  · intro k record hrecord
    by_cases hk : k = r.storedId newId
    · subst hk
      rw [RecordStore.add_versions_self] at hrecord
      rcases List.mem_cons.mp hrecord with rfl | hrecord
      · exact ⟨uri, huri, hreturned⟩
      · exact h.sourced _ record hrecord
    · rw [RecordStore.add_versions_of_ne s newId version r hk] at hrecord
      exact h.sourced k record hrecord

/-! ## Posted records -/

theorem storedId_ne_empty {r : Record} {newId : String} (h : newId ≠ "") :
    r.storedId newId ≠ "" := by
  rw [Record.storedId]
  cases hown : r.ownId with
  | none => exact h
  | some k => exact of_decide_eq_true (Option.filter_eq_some_iff.mp hown).2

/-- The records of one request, one after the other. -/
theorem Provenance.addAll {returned : List (Option String × Value)} {assign : Nat → Assigned}
    {records : List Record} {s : RecordStore} {i : Nat} (h : Provenance returned s)
    (hkeeps : ∀ record ∈ records, KeepsBulkUri s record)
    (hnew : ∀ j < i + records.length,
      (assign j).newId ≠ "" ∧ s.latestBulkUri (assign j).newId = .ok none) :
    Provenance returned (s.addAll assign i records) := by
  induction records generalizing s i with
  | nil => exact h
  | cons record records ih =>
    obtain ⟨hrecord, hrest⟩ := List.forall_mem_cons.mp hkeeps
    obtain ⟨hne, hnone⟩ := hnew i (by simp)
    have hlatest := hrecord.latest_add hnone (assign i).version
    obtain ⟨uri, huri⟩ : ∃ uri, validBulkUri record = .ok uri := by
      cases hvalid : validBulkUri record with
      | ok uri => exact ⟨uri, rfl⟩
      | error e =>
        have hok := hrecord.2
        rw [hvalid] at hok
        cases hok
    have hadd : Provenance returned (s.add (assign i).newId (assign i).version record) := by
      refine h.add _ (storedId_ne_empty hne) huri fun u hu => h.latest ?_
      rw [← hrecord.latest hnone, huri, Option.mem_def.mp hu]
    -- the others still keep their URIs, as no latest URI has changed
    refine ih hadd (fun r hr => (hrest r hr).congr hlatest) fun j hj => ?_
    rw [List.length_cons] at hnew
    obtain ⟨hnej, hnonej⟩ := hnew j (by omega)
    exact ⟨hnej, (hlatest _).trans hnonej⟩

/-- A request whose records keep their URIs. -/
theorem Provenance.written {o : Outside} {records : List Record} {s t : Server}
    (h : Provenance s.returned s.records) (hnew : o.assignsNewIds s.records records = true)
    (hkeeps : ∀ record ∈ records, KeepsBulkUri s.records record)
    (hwritten : Written o records s t) :
    Provenance t.returned t.records ∧
      ∀ k, t.records.latestBulkUri k = s.records.latestBulkUri k := by
  obtain ⟨assign, hassign, rfl⟩ := hwritten
  rw [Outside.assignsNewIds, hassign] at hnew
  have hids : ∀ j < 0 + records.length,
      (assign j).newId ≠ "" ∧ s.records.latestBulkUri (assign j).newId = .ok none := by
    intro j hj
    rw [Nat.zero_add] at hj
    exact RecordStore.of_areNew hnew hj
  exact ⟨h.addAll hkeeps hids, latest_addAll hkeeps fun j hj => (hids j hj).2⟩

/-! ## Bulk writes -/

/-- The URI of a bulk that was written comes from the worker client. -/
theorem Provenance.published {pk : Packaging} {checks : DataConsistencyChecks δ} {o : Outside}
    {base : Record} {edited : Record → Record → Prop} {version : Nat} {s t : Server}
    {recordId : String} {v : Option Int} (h : Provenance s.returned s.records)
    (ho : o.AnswersUuids) (hfind : s.records.find recordId v = some base)
    (hedited : ∀ sent, edited base sent → sent.id = base.id)
    (hreturned : ∀ x ∈ s.returned, x ∈ t.returned)
    (hpublished : PublishedOnce pk checks o base edited version s t) :
    Provenance t.returned t.records := by
  obtain ⟨bulkId, sent, record, assign, hchecked, hmem, hsent, hset, -, -, hrecords⟩ := hpublished
  obtain ⟨response, json, -, -, hworker, -, hjson, hbulkId, -⟩ := hchecked
  obtain ⟨u, rfl⟩ := ho response json bulkId hworker hjson hbulkId
  -- the version goes to the record that was read
  have hbase : base.id = some recordId := RecordStore.storedId_of_find hfind
  have hid : record.id = some recordId :=
    (OsduBulkIdAccess.setBulkUri_frame hset).1.trans ((hedited sent hsent).trans hbase)
  have hne : recordId ≠ "" := h.ne_empty hfind
  have hstored := Record.storedId_of_id hid hne (assign 0).newId
  have hvalid : validBulkUri record = .ok (some (.ofUuid u .v1 (by decide))) := by
    rw [validBulkUri, OsduBulkIdAccess.getBulkUri_setBulkUri hset, Except.map,
      if_pos (BulkURI.isValid_ofUuid u _)]
  rw [hrecords]
  refine (h.mono hreturned).add version (by rwa [hstored]) hvalid ?_
  intro uri huri
  rw [hstored, ← hbase, ← Option.some.inj huri]
  exact hmem

/-- Whatever a bulk write answers, the URIs it leaves were returned. -/
theorem Provenance.publishes {α : Type} {pk : Packaging} {checks : DataConsistencyChecks δ}
    {o : Outside} {edited : Record → Record → Prop} {previous : Record → Value → Prop}
    {tells : α → Nat → Prop} {out : Except Raised α} {s t : Server} {recordId : String}
    {v : Option Int} (h : Provenance s.returned s.records) (ho : o.AnswersUuids)
    (hedited : ∀ base sent, edited base sent → sent.id = base.id)
    (hp : Publishes pk checks o (s.records.find recordId v) edited previous tells s t out) :
    Provenance t.returned t.records := by
  cases out with
  | error e =>
    rw [hp.failed e rfl]
    exact h.mono hp.returned
  | ok a =>
    obtain ⟨base, version, hfind, hpublished, -⟩ := hp.ended a rfl
    exact h.published ho hfind (hedited base) hp.returned hpublished

namespace Server

/-- A POST keeps every latest URI. -/
theorem post_step {d : Deployment τ δ} {s t : Server} {e : Entity} {records : List Record}
    {o : Outside} (h : Provenance s.returned s.records)
    (hok : s.KeepsUnchecked (RecordEvent.post (τ := τ) e records o))
    (hstep : step d s (.post e records o) = some t) :
    Provenance t.returned t.records ∧
      ∀ k, t.records.latestBulkUri k = s.records.latestBulkUri k := by
  obtain ⟨hnew, hstep⟩ := Option.ite_none_right_eq_some.mp hstep
  have hspec := postRecords_written d.recordChecks o records s e
  rw [Effect.Post, Option.some.inj hstep] at hspec
  rcases hspec with rfl | ⟨hwritten, hchecked⟩
  · exact ⟨h, fun _ => rfl⟩
  · -- the route has checked the rule, or the run was given records that keep it
    have hkeeps : ∀ record ∈ records, KeepsBulkUri s.records record := by
      cases he : e.checksBulkUri with
      | true => exact hchecked.keeps he
      | false => exact hok he
    exact h.written hnew hkeeps hwritten

/-- **One request** stores only bulk URIs that a worker returned. -/
theorem provenance_step {d : Deployment τ δ} {s t : Server} {e : RecordEvent τ}
    (h : Provenance s.returned s.records)
    (hok : s.KeepsUnchecked e ∧ ∀ o ∈ e.outside, o.AnswersUuids) (hstep : step d s e = some t) :
    Provenance t.returned t.records := by
  cases e with
  | post e records o => exact (post_step h hok.1 hstep).1
  | postData e recordId o =>
    cases hstep
    refine h.publishes (hok.2 o rfl) ?_ (postData_spec d.pk (d.dataChecks e) (v3State e) o recordId)
    rintro base sent rfl
    rfl
  | complete e recordId sessionId clock update session o =>
    cases hstep
    rcases completeSession_server d.pk (d.dataChecks e)
      (v3State e) o d.py d.isWord recordId sessionId
      clock update session with hsame | ⟨guard, hbody⟩
    · rw [hsame]
      exact h
    · rw [hbody]
      exact h.publishes (hok.2 o rfl) (fun _ _ hedited => hedited.id)
        (commitBody_spec d.pk (d.dataChecks e) (v3State e) o recordId guard)
  | delete recordId purge =>
    cases hstep
    exact h.delete recordId purge

/-- **Bulk URIs come from the worker client**: in every run from the empty store, of
any requests, in which every record posted on a route that does not check the bulk
URIs would pass the check, every version of every record has a bulk URI that was
returned for that record, or none; and whatever is posted next under that condition,
no latest bulk URI changes. -/
theorem bulk_uri_provenance {d : Deployment τ δ} {t : Server} {es : List (RecordEvent τ)}
    (hworker : ∀ e ∈ es, ∀ o ∈ e.outside, o.AnswersUuids)
    (hok : Guarded (step d) KeepsUnchecked empty es) (ht : run (step d) empty es = some t) :
    Sourced t.returned t.records ∧
      ∀ e records o u, t.KeepsUnchecked (RecordEvent.post (τ := τ) e records o) →
        step d t (.post e records o) = some u →
        ∀ k, u.records.latestBulkUri k = t.records.latestBulkUri k := by
  let Inv : Server → Prop := fun s => Provenance s.returned s.records
  have hprov : Inv t := run_invariant (fun hs he hstep => provenance_step hs he hstep)
    provenance_empty (hok.and_forall hworker) ht
  refine ⟨hprov.sourced, ?_⟩
  intro e records o u hkeeps hstep
  exact (post_step hprov hkeeps hstep).2

/-! ## The posted bulk URI -/

/-- Schemas and consistency checks that accept every record. -/
noncomputable def sampleDeployment : Deployment Value Unit where
  py := .trees
  pk := samplePackaging
  isWord := asciiWord
  recordChecks := { validateRecords := fun _ => .ok (), checkConsistency := fun _ _ _ => .ok () }
  dataChecks := fun _ => noConsistencyChecks

/-- The sample record with the URI of a bulk. -/
def recordWithBulkUri (u : UUID) : Record :=
  { sampleRecord with data := [("ExtensionProperties", .dict [("wdms", .dict
    [("bulkURI", .str ("urn:wdms-1:uuid:" ++ u.text))])])] }

/-- No request has reached the worker yet. -/
def postedOnly : Outside where
  fetch := .ok ()
  body := .ok ()
  worker := .error (.other "ConnectError")
  write := .ok fun i => ⟨"opendes:log:" ++ toString i, 1, short_of_lt (by decide)⟩
  served := Outside.served_ok

theorem answersUuids_postedOnly : postedOnly.AnswersUuids := by
  intro response json bulkId hworker
  cases hworker

theorem answersUuids_sampleOutside : sampleOutside.AnswersUuids := by
  intro response json bulkId hworker hjson hbulkId
  cases hworker
  cases hjson
  exact ⟨⟨5, by decide⟩, (Except.ok.inj hbulkId).symm⟩

/-- **The posted bulk URI is stored**: a well log that the route of acquisitions takes
brings a bulk URI nobody has returned. -/
theorem posted_bulk_uri_is_stored :
    ¬ ∀ (es : List (RecordEvent Value)) (t : Server),
      (∀ e ∈ es, ∀ o ∈ e.outside, o.AnswersUuids) →
      run (step sampleDeployment) empty es = some t → Sourced t.returned t.records := by
  intro h
  have hrun : (run (step sampleDeployment) empty
      [.post .wellLogAcquisition [recordWithBulkUri ⟨7, by decide⟩] postedOnly]).map (fun t =>
        (t.returned.isEmpty,
          (t.records.versions sampleSession.session.recordId).map validBulkUri)) =
      some (true, [.ok (some (.ofUuid ⟨7, by decide⟩ .v1 (by decide)))]) := by decide
  obtain ⟨t, ht, hpair⟩ := Option.map_eq_some_iff.mp hrun
  obtain ⟨hreturned, hversions⟩ := Prod.mk.inj hpair
  have hworker : ∀ e ∈ [RecordEvent.post (τ := Value) .wellLogAcquisition
      [recordWithBulkUri ⟨7, by decide⟩] postedOnly], ∀ o ∈ e.outside, o.AnswersUuids := by
    intro e he o ho
    cases List.mem_singleton.mp he
    cases ho
    exact answersUuids_postedOnly
  have hmem : Except.ok (some (BulkURI.ofUuid ⟨7, by decide⟩ .v1 (by decide))) ∈
      (t.records.versions sampleSession.session.recordId).map validBulkUri := by
    rw [hversions]
    exact List.mem_singleton_self _
  obtain ⟨record, hrecord, hvalid⟩ := List.mem_map.mp hmem
  obtain ⟨uri, huri, hall⟩ := h _ t hworker ht _ record hrecord
  rw [hvalid] at huri
  have hin := hall _ (Except.ok.inj huri).symm
  rw [List.isEmpty_iff.mp hreturned] at hin
  cases hin

/-- A well log is posted, gets a bulk, and is posted twice with its URI, the second time
on the route of acquisitions. -/
theorem bulk_uri_provenance_posts :
    ∃ t, run (step sampleDeployment) empty
        [.post .wellLog [sampleRecord] postedOnly,
          .postData .wellLog sampleSession.session.recordId sampleOutside,
          .post .wellLog [recordWithBulkUri ⟨5, by decide⟩] postedOnly,
          .post .wellLogAcquisition [recordWithBulkUri ⟨5, by decide⟩] postedOnly] = some t ∧
      (t.records.versions sampleSession.session.recordId).length = 4 ∧
      Sourced t.returned t.records := by
  have hrun : (run (step sampleDeployment) empty
      [.post .wellLog [sampleRecord] postedOnly,
        .postData .wellLog sampleSession.session.recordId sampleOutside,
        .post .wellLog [recordWithBulkUri ⟨5, by decide⟩] postedOnly,
        .post .wellLogAcquisition [recordWithBulkUri ⟨5, by decide⟩] postedOnly]).map
      (fun t => (t.records.versions sampleSession.session.recordId).length) = some 4 := by decide
  obtain ⟨t, ht, hlength⟩ := Option.map_eq_some_iff.mp hrun
  refine ⟨t, ht, hlength, (bulk_uri_provenance ?_ (guarded_of_checkRun (by decide)) ht).1⟩
  intro e he o ho
  simp only [List.mem_cons, List.not_mem_nil, or_false] at he
  rcases he with rfl | rfl | rfl | rfl
  · cases ho
    exact answersUuids_postedOnly
  · cases ho
    exact answersUuids_sampleOutside
  · cases ho
    exact answersUuids_postedOnly
  · cases ho
    exact answersUuids_postedOnly

end Server

end WellboreDdms
