import WellboreDdms.Bulk.Reference

/-!
# The version a session is on

A session is created on a version of a record. Its commits read that version again, and
not the latest one, whatever has been posted, written and committed in between.

- `SessionHeld`: the invariant of the runs of a session. It is stored with the version and
  the mode it was created with, and the version is what it was.
- `CommitOf`: what one commit may do to the records and ask the worker.
- `commits_start_from_created_version`: in every run of a created session each commit starts
  from the bulk of the version the session was created on, and publishes that version,
  edited, or nothing.
-/

namespace WellboreDdms

open Python Machine

variable {τ δ β : Type}

/-- What a commit of `session` tells the worker of a previous bulk, on the version `base`. -/
def Session.fromBulk (session : Session) (base : Record) : Option Value :=
  match previousBulkUri session base with
  | .ok previous => previous.map fun uri => .str uri.bulkId
  | .error _ => none

/-- What a commit does that starts from `base`: it leaves the records as they are, or adds
`base`, edited, with a bulk URI. Each request names the bulk of `base` as the previous one in
update mode, and none in overwrite mode. -/
structure CommitOf (pk : Packaging) (o : Outside) (session : Session) (base : Record)
    (s t : Server) : Prop where
  records : t.records = s.records ∨ ∃ sent bulkId record assign, EditedBy session base sent ∧
    OsduBulkIdAccess.setBulkUri pk sent bulkId = .ok record ∧ o.write = .ok assign ∧
    t.records = s.records.add (assign 0).newId (assign 0).version record
  requests : Sends (fun q => Dict.get q.params "from_bulk" = session.fromBulk base) False s t

theorem CommitOf.refl (pk : Packaging) (o : Outside) (session : Session) (base : Record)
    (s : Server) : CommitOf pk o session base s s where
  records := Or.inl rfl
  requests := .of_none id

/-- The body of a commit that has read `base`. -/
theorem commitBody_commitOf (pk : Packaging) (checks : DataConsistencyChecks δ)
    (state : RequestState) (o : Outside) (recordId : String) (guard : SessionInternal)
    {s : Server} {base : Record}
    (hbase : ∀ r, s.records.find recordId (some guard.session.fromVersion) = some r → r = base) :
    Effect.Post (commitBody pk checks state o recordId guard) s fun _ t =>
      CommitOf pk o guard.session base s t := by
  -- the records: nothing, or one version edited from the base
  have hrecords : Effect.Post (commitBody pk checks state o recordId guard) s fun _ t =>
      t.records = s.records ∨ ∃ sent bulkId record assign, EditedBy guard.session base sent ∧
        OsduBulkIdAccess.setBulkUri pk sent bulkId = .ok record ∧ o.write = .ok assign ∧
        t.records = s.records.add (assign 0).newId (assign 0).version record := by
    refine (commitBody_spec pk checks state o recordId guard).mono fun out t h => ?_
    cases out with
    | error e => exact Or.inl (h.failed e rfl)
    | ok answer =>
      obtain ⟨base', version, hfind, hpublished, -⟩ := h.ended answer rfl
      obtain rfl := hbase base' hfind
      obtain ⟨bulkId, sent, record, assign, -, -, hedited, hset, hassign, rfl, ht⟩ := hpublished
      exact Or.inr ⟨sent, bulkId, record, assign, hedited, hset, hassign, ht⟩
  -- the calls: at most one, which tells the bulk that the session starts from
  have hrequests : Effect.Post (commitBody pk checks state o recordId guard) s fun _ t =>
      Sends (fun q => Dict.get q.params "from_bulk" = guard.session.fromBulk base) False s t := by
    refine Effect.post_bind (fetchRecord_spec o recordId _ s) ?_ ?_
    · rintro e t ⟨rfl, -⟩
      exact .of_none id
    rintro base' t ⟨rfl, hfind⟩
    obtain rfl := hbase base' (hfind base' rfl)
    refine Effect.post_lift_bind (fun e _ => .of_none id) fun _ _ => ?_
    refine Effect.post_lift_bind (fun e _ => .of_none id) fun previous hprevious => ?_
    refine Effect.post_lift_bind (fun e _ => .of_none id) fun reference _ => ?_
    have hfrom : ∀ q : WorkerRequest,
        q.params = completionParams guard.session previous reference →
        Dict.get q.params "from_bulk" = guard.session.fromBulk base' := by
      intro q hq
      rw [hq, completionParams_from_bulk, Session.fromBulk, hprevious]
    refine Effect.post_bind
      (writeCompleteSession_requests checks o base' guard.session previous reference t) ?_ ?_
    · rintro e u ⟨q, hu, hq⟩
      exact .of_one hu (hfrom q hq)
    · rintro bulkId u ⟨q, hu, hq⟩
      refine (setBulkFieldAndSendRecord_requests pk o bulkId _ u).mono fun _ v hv => ?_
      exact .of_one (hv.trans hu) (hfrom q hq)
  exact ⟨hrecords, hrequests⟩

/-- A session that is alike commits alike. -/
theorem CommitOf.congr {pk : Packaging} {o : Outside} {session session' : Session} {base : Record}
    {s t : Server} (halike : session.Alike session') (h : CommitOf pk o session' base s t) :
    CommitOf pk o session base s t := by
  have hedited : EditedBy session' base = EditedBy session base := by
    funext sent
    simp only [EditedBy, LoadCompleted, halike.sessionMeta]
  have hfrom : session'.fromBulk base = session.fromBulk base := by
    simp only [Session.fromBulk, previousBulkUri, halike.mode, halike.fromVersion]
  obtain ⟨hrecords, hrequests⟩ := h
  rw [hedited] at hrecords
  rw [hfrom] at hrequests
  exact ⟨hrecords, hrequests⟩

/-! ## The runs of a session -/

/-- The session is stored as it was created, as far as its requests depend on it; the version
it is on is what it was, if it is still there. -/
structure SessionHeld (py : Pydantic τ) (recordId : String) (base : Record) (session : Session)
    (p : SessionServer τ) : Prop where
  held : ∃ b stored, p.1 = some b ∧ Holds py b stored ∧ session.Alike stored.session
  base : ∀ r, p.2.records.numbered recordId session.fromVersion = some r → r = base

section

variable {d : Deployment τ δ} {describe : Value → Except Raised β} {recordId : String}
  {sessionId : UUID} {base : Record} {session : Session} {p p' : SessionServer τ}

/-- The version that a commit reads. -/
theorem SessionHeld.find (h : SessionHeld d.py recordId base session p)
    (hversion : session.fromVersion ≠ 0) {guard : Session} (halike : session.Alike guard)
    {r : Record}
    (hr : p.2.records.find recordId (some guard.fromVersion) = some r) : r = base := by
  rw [halike.fromVersion, RecordStore.find_eq_numbered hversion] at hr
  split at hr
  · cases hr
  · exact h.base r hr

/-- A completion is that of the version of the session, or it leaves the server alone. -/
theorem SessionHeld.complete (h : SessionHeld d.py recordId base session p)
    (hversion : session.fromVersion ≠ 0) {e : Entity} {clock : CompletionClock}
    {update : UpdateSessionStateValue} {o : Outside}
    (hstep : sessionStep d describe recordId sessionId p (.complete e clock update o) = some p') :
    (∃ b stored, p'.1 = some b ∧ Holds d.py b stored ∧ session.Alike stored.session) ∧
      CommitOf d.pk o session base p.2 p'.2 := by
  obtain rfl := Option.some.inj hstep
  obtain ⟨b, stored, hb, hs, halike⟩ := h.held
  obtain ⟨blob, server⟩ := p
  obtain rfl : blob = some b := hb
  obtain ⟨⟨b', stored', hb', hs', halike'⟩, hran⟩ := completeSession_alike d.pk
    d.isWord (d.dataChecks e) (v3State e) o hs recordId sessionId clock update server
  refine ⟨⟨b', stored', hb', hs', halike.trans halike'⟩, ?_⟩
  rcases hran with hidle | ⟨-, guard, hguard, hbody⟩
  · rw [hidle]
    exact .refl ..
  · have halike := halike.trans hguard
    have hcommit := commitBody_commitOf d.pk (d.dataChecks e) (v3State e) o recordId guard
      (s := server) fun r hr => h.find hversion halike hr
    rw [hbody]
    exact CommitOf.congr halike hcommit

/-- What one event leaves of the invariant. -/
theorem SessionHeld.step {event : SessionEvent} (h : SessionHeld d.py recordId base session p)
    (hversion : session.fromVersion ≠ 0) (hnumbers : event.NumbersAnew session.fromVersion)
    (hstep : sessionStep d describe recordId sessionId p event = some p') :
    SessionHeld d.py recordId base session p' := by
  cases event with
  | chunk o =>
    obtain rfl := Option.some.inj hstep
    obtain ⟨b, stored, hb, hs, halike⟩ := h.held
    obtain ⟨blob, server⟩ := p
    obtain rfl : blob = some b := hb
    obtain ⟨hblob, hrecords, -⟩ := postChunkData_spec describe o recordId sessionId hs server
    refine ⟨⟨b, stored, hblob, hs, halike⟩, ?_⟩
    rw [hrecords]
    exact h.base
  | complete e clock update o =>
    obtain ⟨hheld, hcommit⟩ := h.complete hversion hstep
    refine ⟨hheld, fun r hr => h.base r ?_⟩
    rcases hcommit.records with hsame | ⟨_, _, record, assign, -, -, hassign, hadd⟩
    · rwa [hsame] at hr
    · rwa [hadd, RecordStore.numbered_add_of_ne (hnumbers assign hassign)] at hr
  | newVersion newId version record =>
    obtain rfl := Option.some.inj hstep
    refine ⟨h.held, fun r hr => h.base r ?_⟩
    rwa [RecordStore.numbered_add_of_ne hnumbers] at hr
  | delete k purge =>
    obtain rfl := Option.some.inj hstep
    exact ⟨h.held, fun r hr => h.base r (RecordStore.numbered_of_delete hr)⟩

/-- **A session is isolated from later versions.** In every run of a created session, whatever
is posted, written, committed and deleted meanwhile, each commit starts from the bulk of the
version that the session was created on (in update mode; from none in overwrite mode), and
publishes that version, edited, with a bulk URI, or nothing. The version is the one the request
has named, or the latest at the creation. -/
theorem commits_start_from_created_version {s : Server} {e : Entity} {o : Outside} {stamp : Stamp}
    {b₀ : Option (SessionBlob τ)} {rq : CreateDataSessionRequest}
    (hnumbers : ∀ r ∈ s.records.versions recordId, r.version ≠ some 0)
    (hcreate : createSession d.py (d.dataChecks e) (v3State e) o recordId sessionId stamp rq
      (b₀, s) =
      (.ok session, p)) :
    ∃ latest base, s.records.find recordId none = some latest ∧
      s.records.find recordId (rq.baseVersion latest) = some base ∧ session.mode = rq.mode ∧
      ∀ es t, (∀ event ∈ es, event.NumbersAnew session.fromVersion) →
        run (sessionStep d describe recordId sessionId) p es = some t →
        ∀ e' clock o' t',
          sessionStep d describe recordId sessionId t (.complete e' clock .commit o') = some t' →
          CommitOf d.pk o' session base t.2 t'.2 := by
  obtain ⟨b, stored, latest, reference, rfl, hs, rfl, hcreated⟩ := createSession_ok hcreate
  have hversion := hcreated.version_ne_zero hnumbers
  obtain ⟨base, hbase⟩ := hcreated.base
  refine ⟨latest, base, hcreated.found, ?_, hcreated.mode, ?_⟩
  · rw [hcreated.version]
    exact hbase
  intro es t hevents hrun e' clock o' t' hstep
  -- the session holds its base: a version number is given once
  have hinit : SessionHeld d.py recordId base stored.session (some b, s) := by
    refine ⟨⟨b, stored, rfl, hs, ⟨rfl, rfl, rfl⟩⟩, fun r hr => ?_⟩
    rw [RecordStore.find_eq_numbered hversion] at hbase
    split at hbase
    · cases hbase
    · exact Option.some.inj (hr.symm.trans hbase)
  have hinv : SessionHeld d.py recordId base stored.session t :=
    run_invariant (fun hp hok hstep => hp.step hversion hok hstep) hinit
      (guarded_of_labels hevents) hrun
  exact (hinv.complete hversion hstep).2

end

/-- A well log with a bulk. -/
def bulkServer : Server where
  records := RecordStore.empty.add "" 1 (Server.recordWithBulkUri ⟨7, by decide⟩)

theorem nodup_keys_none :
    ∀ items ∈ (none : Option (Dict String String)), (items.map Prod.fst).Nodup := by
  simp

/-- A session that updates the latest version. -/
def updateLatest : CreateDataSessionRequest where
  mode := .update
  keys := nodup_keys_none

/-- The record gets a version without a bulk after the session is created: the commit is still
that of the first version. -/
theorem commits_start_from_created_version_update :
    ∃ session p base t t', createSample updateLatest bulkServer = (.ok session, p) ∧
      session.fromBulk base = some (.str (UUID.ofNat 7).text) ∧
      run (sessionStep wellLogDeployment ignoreDescription sampleSession.session.recordId
        sampleSession.session.id) p [.newVersion "" 2 sampleRecord] = some t ∧
      sessionStep wellLogDeployment ignoreDescription sampleSession.session.recordId
        sampleSession.session.id t (.complete .wellLog sampleClock .commit readsOnly) = some t' ∧
      CommitOf wellLogDeployment.pk readsOnly session base t.2 t'.2 := by
  obtain ⟨session, p, hcreate⟩ :
    ∃ session p, createSample updateLatest bulkServer = (.ok session, p) :=
    exists_createSample rfl
  have hnumbers : ∀ r ∈ bulkServer.records.versions sampleSession.session.recordId,
      r.version ≠ some 0 := by
    -- the one version of the sample has the number 1
    intro r hr
    obtain rfl := List.mem_singleton.mp
      (show r ∈ [(Server.recordWithBulkUri ⟨7, by decide⟩).stored "" 1] from hr)
    decide
  have hversion : session.fromVersion = 1 := by
    obtain ⟨b, stored, latest, reference, -, -, rfl, hcreated⟩ := createSession_ok hcreate
    obtain rfl := Option.some.inj hcreated.found
    exact (Option.some.inj hcreated.version).symm
  obtain ⟨latest, base, hlatest, hbase, hmode, hcommits⟩ :=
    commits_start_from_created_version hnumbers hcreate
  obtain rfl := Option.some.inj hlatest
  obtain rfl := Option.some.inj hbase
  obtain ⟨t, ht⟩ : ∃ t, run (sessionStep wellLogDeployment ignoreDescription
      sampleSession.session.recordId sampleSession.session.id) p [.newVersion "" 2 sampleRecord] =
      some t := ⟨_, rfl⟩
  obtain ⟨t', ht'⟩ : ∃ t', sessionStep wellLogDeployment ignoreDescription
      sampleSession.session.recordId sampleSession.session.id t
      (.complete .wellLog sampleClock .commit readsOnly) = some t' := ⟨_, rfl⟩
  refine ⟨session, p, _, t, t', hcreate, ?_, ht, ht', hcommits _ t ?_ ht _ _ _ _ ht'⟩
  -- the sample's session updates, so that it starts from the bulk of its base
  · have hupdate : session.mode = .update := hmode
    rw [Session.fromBulk, previousBulkUri, if_pos hupdate]
    rfl
  · rw [hversion]
    exact List.forall_mem_singleton.mpr (by decide : (2 : Int) ≠ 1)

end WellboreDdms
