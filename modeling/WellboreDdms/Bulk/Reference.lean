import WellboreDdms.Bulk.Provenance
import WellboreDdms.Bulk.SessionCalls
import WellboreDdms.Consistency.Checks

/-!
# The reference curve of a session

Chunks carry the reference curve that the session has kept since its creation, where the
latest version of the record was read. The commit reads the version the session is on.

- `SessionEvent`, `sessionStep`: the calls on one session, and what anyone does to the
  records meanwhile.
- `OneReference`: all requests the worker has got name one reference curve.
- `SameCurve`: the curve kept is that of the version the session is on.
- `one_reference_iff`: the runs of a session have one reference curve exactly under that
  condition, because no event changes the kept curve or the version (`SessionOn`).
- `latest_reference_kept`: a session on an old version keeps the curve of the latest one.
-/

namespace WellboreDdms

open Python Machine

universe u

variable {τ δ β : Type}

/-! ## The runs of a session -/

/-- A call on the session, or a change of the records by anyone. -/
inductive SessionEvent where
  | chunk (o : Outside)
  | complete (e : Entity) (clock : CompletionClock) (update : UpdateSessionStateValue) (o : Outside)
  | newVersion (newId : String) (version : Int) (record : Record)
  | delete (recordId : String) (purge : Bool)

/-- A chunk or a completion of the session. -/
def sessionStep (d : Deployment τ δ) (describe : Value → Except Raised β) (recordId : String)
    (sessionId : UUID) (p : SessionServer τ) : SessionEvent → Option (SessionServer τ)
  | .chunk o => some (postChunkData d.py describe o recordId sessionId p).2
  | .complete e clock update o =>
    some (completeSession d.py d.pk d.isWord (d.dataChecks e) (v3State e) o recordId sessionId clock
      update p).2
  | .newVersion newId version record =>
    some (p.1, { p.2 with records := p.2.records.add newId version record })
  | .delete k purge => some (p.1, { p.2 with records := p.2.records.delete k purge })

/-- The storage gives no new version the number `v`, which a version has had. -/
def SessionEvent.NumbersAnew (v : Int) : SessionEvent → Prop
  | .chunk _ => True
  | .complete _ _ _ o => ∀ assign, o.write = .ok assign → ((assign 0).version : Int) ≠ v
  | .newVersion _ version _ => version ≠ v
  | .delete _ _ => True

/-- The session is committed on these routes only. -/
def SessionEvent.CommitsOn (routes : Set Entity) : SessionEvent → Prop
  | .complete e _ .commit _ => e ∈ routes
  | _ => True

/-- All requests sent since `s`, chunks and commits alike, name one reference curve. -/
def OneReference {ρ : Type u} (query : Value → ρ) (s t : Server) : Prop :=
  ∃ sent, t.requests = s.requests ++ sent ∧
    ∀ q ∈ sent, ∀ q' ∈ sent, q.reference query = q'.reference query

/-- A commit on the routes of `e`, from the version `base`, gets to the worker. -/
def Committable (e : Entity) (mode : SessionUpdateMode) (base : Record) : Prop :=
  raiseIfNotOsduRightEntityKind base (v3State e) = .ok () ∧
    (mode = .update → ∃ uri, OsduBulkIdAccess.getBulkUri base = .ok uri)

/-- The curve kept by a session that is created on the routes of `e` is the curve that
the checks of `e'` find in the version the session is on. -/
def SameCurve {ρ : Type u} (query : Value → ρ) (d : Deployment τ δ) (records : RecordStore)
    (recordId : String) (rq : CreateDataSessionRequest) (e e' : Entity) : Prop :=
  ∀ latest reference base curve, records.find recordId none = some latest →
    (d.dataChecks e).getReferenceCurve latest = .ok reference →
    records.find recordId (rq.baseVersion latest) = some base → Committable e' rq.mode base →
    (d.dataChecks e').getReferenceCurve base = .ok curve →
    curveSent query (((keptCurve d.py rq reference).map Value.str).getD .none) =
      curveSent query curve

/-! ## One reference curve -/

section

variable {ρ : Type u} {query : Value → ρ} {d : Deployment τ δ} {describe : Value → Except Raised β}
  {recordId : String} {sessionId : UUID} {rq : CreateDataSessionRequest} {e : Entity} {s : Server}
  {latest : Record} {reference : Value} {session : Session}

/-- The curve sent with the chunks of a session. -/
def Session.chunkCurve (query : Value → ρ) (session : Session) : Option ρ :=
  curveSent query (((session.getMetaValue "reference_curve").map Value.str).getD .none)

/-- A request that names the curve of the chunks. -/
def Keeps (query : Value → ρ) (session : Session) (q : WorkerRequest) : Prop :=
  q.reference query = session.chunkCurve query

/-- The invariant of the runs of `session`, created in `s`: the stored session is like it,
its version is the one it was, and every request has named the curve of the chunks. -/
structure SessionOn (query : Value → ρ) (py : Pydantic τ) (recordId : String) (s : Server)
    (session : Session) (p : SessionServer τ) : Prop where
  held : ∃ b stored, p.1 = some b ∧ Holds py b stored ∧ session.Alike stored.session
  base : ∀ r, p.2.records.numbered recordId session.fromVersion = some r →
    s.records.numbered recordId session.fromVersion = some r
  sent : Sends (Keeps query session) False s p.2

/-- The records are as they were, as far as the session is concerned. -/
theorem SessionOn.of_records {p p' : SessionServer τ}
    (h : SessionOn query d.py recordId s session p)
    (hsession : p'.1 = p.1) (hrequests : p'.2.requests = p.2.requests)
    (hbase : ∀ r, p'.2.records.numbered recordId session.fromVersion = some r →
      p.2.records.numbered recordId session.fromVersion = some r) :
    SessionOn query d.py recordId s session p' where
  held := by
    rw [hsession]
    exact h.held
  base := fun r hr => h.base r (hbase r hr)
  sent := by
    obtain ⟨sent, hsent, hall⟩ := h.sent
    exact ⟨sent, hrequests.trans hsent, hall⟩

/-- The curve of the chunks is the one the checks of `e` find in the version of the session. -/
def CommitsSame (query : Value → ρ) (d : Deployment τ δ) (s : Server) (recordId : String)
    (session : Session) (e : Entity) : Prop :=
  ∀ base curve, CommitsWith (d.dataChecks e) (v3State e) s recordId session base curve →
    session.chunkCurve query = curveSent query curve

/-- The body of a commit starts from the version the session was created on. -/
theorem SessionOn.commitsWith {p : SessionServer τ} (h : SessionOn query d.py recordId s session p)
    (hbase : ∃ base, s.records.find recordId (some session.fromVersion) = some base)
    (hversion : session.fromVersion ≠ 0) {checks : DataConsistencyChecks δ} {state : RequestState}
    {base : Record} {curve : Value}
    (hcommits : CommitsWith checks state p.2 recordId session base curve) :
    CommitsWith checks state s recordId session base curve := by
  obtain ⟨hfind, hcommits⟩ := hcommits
  refine ⟨?_, hcommits⟩
  obtain ⟨base', hbase'⟩ := hbase
  rw [RecordStore.find_eq_numbered hversion] at hfind hbase' ⊢
  split at hfind
  · cases hfind
  · split at hbase'
    · cases hbase'
    · rename_i hdeleted
      rw [if_neg hdeleted]
      exact h.base base hfind

/-- A chunk keeps the invariant. -/
theorem SessionOn.chunk {p : SessionServer τ} (h : SessionOn query d.py recordId s session p)
    (o : Outside) :
    SessionOn query d.py recordId s session
      (postChunkData d.py describe o recordId sessionId p).2 := by
  obtain ⟨b, stored, hb, hs, halike⟩ := h.held
  obtain ⟨blob, server⟩ := p
  obtain rfl : blob = some b := hb
  obtain ⟨hblob, hrecords, hsends⟩ := postChunkData_spec describe o recordId sessionId hs server
  refine { held := ⟨b, stored, hblob, hs, halike⟩, base := ?_, sent := ?_ }
  · rw [hrecords]
    exact h.base
  · refine h.sent.trans (hsends.mono ?_)
    intro q hq
    rw [Keeps, reference_of_chunkParams query hq, halike.getMetaValue]
    rfl

/-- The body of a commit keeps what the invariant says of the server: it starts from the
version of the session, and adds another one. -/
theorem SessionOn.commit {p : SessionServer τ} (h : SessionOn query d.py recordId s session p)
    (hbase : ∃ base, s.records.find recordId (some session.fromVersion) = some base)
    (hversion : session.fromVersion ≠ 0) {e' : Entity} {o : Outside}
    (hnumbers : ∀ assign, o.write = .ok assign → ((assign 0).version : Int) ≠ session.fromVersion)
    (hsame : CommitsSame query d s recordId session e') {guard : SessionInternal}
    (hguard : session.Alike guard.session) :
    Effect.Post (commitBody d.pk (d.dataChecks e') (v3State e') o recordId guard) p.2 fun _ t =>
      (∀ r, t.records.numbered recordId session.fromVersion = some r →
        s.records.numbered recordId session.fromVersion = some r) ∧
      Sends (Keeps query session) False s t := by
  have hsends := commitBody_sends d.pk (d.dataChecks e') (v3State e') o query recordId guard p.2
  refine ⟨fun r hr => h.base r ?_, h.sent.trans (Sends.mono hsends ?_)⟩
  · rcases commitBody_records d.pk (d.dataChecks e') (v3State e') o recordId guard p.2 with
      hrecords | ⟨assign, record, hassign, hrecords⟩
    · rw [hrecords] at hr
      exact hr
    · rw [hrecords, RecordStore.numbered_add_of_ne (hnumbers assign hassign)] at hr
      exact hr
  · rintro q ⟨base, curve, hcommits, hq⟩
    have hcommits := h.commitsWith hbase hversion ((CommitsWith.congr hguard).mp hcommits)
    rw [Keeps, hq]
    exact (hsame base curve hcommits).symm

/-- What one event leaves of the invariant. -/
theorem SessionOn.step {p p' : SessionServer τ} {event : SessionEvent}
    (hbase : ∃ base, s.records.find recordId (some session.fromVersion) = some base)
    (hversion : session.fromVersion ≠ 0) (h : SessionOn query d.py recordId s session p)
    (hnumbers : event.NumbersAnew session.fromVersion)
    (hsame : ∀ e' clock o, event = .complete e' clock .commit o →
      CommitsSame query d s recordId session e')
    (hstep : sessionStep d describe recordId sessionId p event = some p') :
    SessionOn query d.py recordId s session p' := by
  cases event with
  | chunk o =>
    obtain rfl := Option.some.inj hstep
    exact h.chunk o
  | complete e' clock update o =>
    obtain rfl := Option.some.inj hstep
    obtain ⟨b, stored, hb, hs, halike⟩ := h.held
    obtain ⟨blob, server⟩ := p
    obtain rfl : blob = some b := hb
    obtain ⟨⟨b', stored', hb', hs', halike'⟩, hran⟩ := completeSession_alike d.pk
      d.isWord (d.dataChecks e') (v3State e') o hs recordId sessionId clock update server
    refine { held := ⟨b', stored', hb', hs', halike.trans halike'⟩, base := ?_, sent := ?_ }
    -- the body of a commit runs, or the server is not touched
    all_goals
      rcases hran with hidle | ⟨rfl, guard, hguard, hbody⟩
    · rw [hidle]
      exact h.base
    · rw [hbody]
      exact (h.commit hbase hversion hnumbers (hsame e' clock o rfl) (halike.trans hguard)).1
    · rw [hidle]
      exact h.sent
    · rw [hbody]
      exact (h.commit hbase hversion hnumbers (hsame e' clock o rfl) (halike.trans hguard)).2
  | newVersion newId version record =>
    obtain rfl := Option.some.inj hstep
    refine h.of_records rfl rfl fun r hr => ?_
    rwa [RecordStore.numbered_add_of_ne hnumbers] at hr
  | delete k purge =>
    obtain rfl := Option.some.inj hstep
    exact h.of_records rfl rfl fun r hr => RecordStore.numbered_of_delete hr

/-- To a created session, the condition on what it was created from. -/
theorem Created.commitsSame_iff
    (h : Created d.py (d.dataChecks e) s.records recordId rq latest reference session)
    (e' : Entity) :
    CommitsSame query d s recordId session e' ↔ SameCurve query d s.records recordId rq e e' := by
  have hcommits : ∀ base curve,
      CommitsWith (d.dataChecks e') (v3State e') s recordId session base curve ↔
        s.records.find recordId (rq.baseVersion latest) = some base ∧ Committable e' rq.mode base ∧
          (d.dataChecks e').getReferenceCurve base = .ok curve := by
    intro base curve
    rw [CommitsWith, previousBulkUri_eq_ok, h.version, h.mode, Committable, and_assoc]
  have hchunk : session.chunkCurve query =
      curveSent query (((keptCurve d.py rq reference).map Value.str).getD .none) := by
    rw [Session.chunkCurve, h.kept]
  constructor
  · intro hsame latest' reference' base curve hfound hnamed hbase hcommittable hcurve
    obtain rfl := Option.some.inj (hfound.symm.trans h.found)
    obtain rfl := Except.ok.inj (hnamed.symm.trans h.named)
    rw [← hchunk]
    exact hsame base curve ((hcommits base curve).mpr ⟨hbase, hcommittable, hcurve⟩)
  · intro hsame base curve hwith
    obtain ⟨hbase, hcommittable, hcurve⟩ := (hcommits base curve).mp hwith
    rw [hchunk]
    exact hsame latest reference base curve h.found h.named hbase hcommittable hcurve

/-- The storage counts versions from 1, and so no session is on version 0. -/
theorem Created.version_ne_zero {py : Pydantic τ} {checks : DataConsistencyChecks δ}
    (hnumbers : ∀ r ∈ s.records.versions recordId, r.version ≠ some 0)
    (h : Created py checks s.records recordId rq latest reference session) :
    session.fromVersion ≠ 0 := by
  intro hzero
  have hversion := h.version
  rw [hzero, CreateDataSessionRequest.baseVersion] at hversion
  split at hversion
  · exact hnumbers latest (RecordStore.mem_of_find h.found) hversion
  · rename_i hne
    exact hne (Option.some.inj hversion)

/-- The storages are read, and nothing is written. -/
def readsOnly : Outside where
  fetch := .ok ()
  body := .ok ()
  worker := .error (.other "ConnectError")
  write := .error (.other "ConnectError")
  served := Outside.served_ok

/-- A chunk, and a commit on the routes of `e`. -/
def chunkAndCommit (e : Entity) : List SessionEvent :=
  [.chunk readsOnly, .complete e sampleClock .commit readsOnly]

/-- Neither of the two writes a record. -/
theorem numbersAnew_chunkAndCommit (e : Entity) (v : Int) :
    ∀ event ∈ chunkAndCommit e, event.NumbersAnew v := by
  have hcommit : SessionEvent.NumbersAnew v (.complete e sampleClock .commit readsOnly) := nofun
  exact List.forall_mem_cons.mpr ⟨trivial, List.forall_mem_singleton.mpr hcommit⟩

/-- The sample's commit is of a route with a reference. -/
theorem commitsOn_chunkAndCommit {e : Entity} {routes : Set Entity} (he : e ∈ routes) :
    ∀ event ∈ chunkAndCommit e, event.CommitsOn routes :=
  List.forall_mem_cons.mpr ⟨trivial, List.forall_mem_singleton.mpr he⟩

variable (query describe sessionId) in
/-- A chunk and a commit are sent, one with the kept curve, the other with the curve of the
version the session is on. -/
theorem sends_chunkAndCommit {b : SessionBlob τ} {stored : StoredSession} (hs : Holds d.py b stored)
    (hopened : stored.session.state = .opened) {e' : Entity} {base : Record} {curve : Value}
    (hcommits : CommitsWith (d.dataChecks e') (v3State e') s recordId stored.session base curve) :
    ∃ t q q' sent,
      run (sessionStep d describe recordId sessionId) (some b, s) (chunkAndCommit e') = some t ∧
      t.2.requests = s.requests ++ sent ∧ q ∈ sent ∧ q' ∈ sent ∧
      q.reference query = stored.session.chunkCurve query ∧
      q'.reference query = curveSent query curve := by
  obtain ⟨hblob, hrecords, sent, hsent, hall, hne⟩ :=
    postChunkData_spec describe readsOnly recordId sessionId hs s
  cases hchunk : postChunkData d.py describe readsOnly recordId sessionId (some b, s) with
  | mk out p =>
    rw [hchunk] at hblob hrecords hsent
    obtain ⟨blob, server⟩ := p
    obtain rfl : blob = some b := hblob
    have hrecords : server.records = s.records := hrecords
    obtain ⟨guard, halike, hran⟩ := completeSession_opened d.pk d.isWord
      (d.dataChecks e') (v3State e') readsOnly hs hopened recordId sessionId sampleClock server
    -- the chunk has left the records as they were
    have hcommits' : ∀ base curve,
        CommitsWith (d.dataChecks e') (v3State e') server recordId guard.session base curve ↔
          CommitsWith (d.dataChecks e') (v3State e') s recordId stored.session base curve := by
      intro base curve
      rw [CommitsWith.congr halike]
      simp only [CommitsWith, hrecords]
    obtain ⟨sent', hsent', hall', hne'⟩ :=
      commitBody_sends d.pk (d.dataChecks e') (v3State e') readsOnly query recordId guard server
    obtain ⟨q, hq⟩ := List.exists_mem_of_ne_nil sent (hne ⟨rfl, hopened⟩)
    obtain ⟨q', hq'⟩ :=
      List.exists_mem_of_ne_nil sent' (hne' ⟨rfl, base, curve, (hcommits' base curve).mpr hcommits⟩)
    refine ⟨(completeSession d.py d.pk d.isWord (d.dataChecks e') (v3State e') readsOnly recordId
      sessionId sampleClock .commit (some b, server)).2, q, q', sent ++ sent', ?_, ?_,
      List.mem_append_left _ hq, List.mem_append_right _ hq',
      reference_of_chunkParams query (hall q hq), ?_⟩
    · simp only [run, chunkAndCommit, sessionStep, hchunk, Option.bind_some]
    · rw [hran, hsent', hsent, List.append_assoc]
    · obtain ⟨base', curve', hwith, href⟩ := hall' q' hq'
      obtain ⟨hfind', -, -, hcurve'⟩ := (hcommits' base' curve').mp hwith
      obtain ⟨hfind, -, -, hcurve⟩ := hcommits
      obtain rfl := Option.some.inj (hfind'.symm.trans hfind)
      obtain rfl := Except.ok.inj (hcurve'.symm.trans hcurve)
      exact href

/-- **One reference curve per session.** In every run of a created session that is committed on
certain routes, whatever is stored and deleted meanwhile, all chunks and commits name one
reference curve, if and only if on each of these routes the curve kept at creation is the curve
of the version the session is on. -/
theorem one_reference_iff {o : Outside} {stamp : Stamp} {b₀ : Option (SessionBlob τ)}
    {p : SessionServer τ} (hnumbers : ∀ r ∈ s.records.versions recordId, r.version ≠ some 0)
    (hcreate : createSession d.py (d.dataChecks e) (v3State e) o recordId sessionId stamp rq
      (b₀, s) =
      (.ok session, p)) (routes : Set Entity) :
    (∀ (es : List SessionEvent) (t : SessionServer τ),
      (∀ event ∈ es, event.NumbersAnew session.fromVersion ∧ event.CommitsOn routes) →
      run (sessionStep d describe recordId sessionId) p es = some t → OneReference query p.2 t.2) ↔
    ∀ e' ∈ routes, SameCurve query d s.records recordId rq e e' := by
  obtain ⟨b, stored, latest, reference, rfl, hs, rfl, hcreated⟩ := createSession_ok hcreate
  have hversion := hcreated.version_ne_zero hnumbers
  constructor
  · -- one chunk and one commit tell two curves apart
    intro hruns e' he'
    rw [← hcreated.commitsSame_iff]
    intro base curve hcommits
    obtain ⟨t, q, q', sent, hrun, hsent, hq, hq', hchunk, hcommit⟩ :=
      sends_chunkAndCommit query describe sessionId hs hcreated.opened hcommits
    have hnumbers := numbersAnew_chunkAndCommit e'
    obtain ⟨sent', hsent', hone⟩ := hruns _ t (fun event hevent =>
      ⟨hnumbers _ event hevent, commitsOn_chunkAndCommit he' event hevent⟩) hrun
    obtain rfl := List.append_cancel_left (hsent'.symm.trans hsent)
    rw [← hchunk, ← hcommit]
    exact hone q hq q' hq'
  · -- no event changes the curve of the chunks or the version of the commits
    intro hsame es t hevents hrun
    have hinit : SessionOn query d.py recordId s stored.session (some b, s) :=
      { held := ⟨b, stored, rfl, hs, ⟨rfl, rfl, rfl⟩⟩
        base := fun r hr => hr
        sent := .of_none id }
    have hinv : SessionOn query d.py recordId s stored.session t := by
      refine run_invariant (fun hinv hok hstep => ?_) hinit (guarded_of_labels hevents) hrun
      obtain ⟨hanew, hroutes⟩ := hok
      refine hinv.step hcreated.base hversion hanew ?_ hstep
      rintro e' clock o rfl
      exact (hcreated.commitsSame_iff e').mpr (hsame e' hroutes)
    obtain ⟨sent, hsent, hall, -⟩ := hinv.sent
    refine ⟨sent, hsent, fun q hq q' hq' => ?_⟩
    exact (hall q hq).trans (hall q' hq').symm

end

/-! ## A session on an old version -/

/-- The sample record with a reference curve. -/
def recordWithReference (curve : String) : Record :=
  { sampleRecord with data := [("ReferenceCurveID", .str curve)] }

/-- The texts the HTTP client makes of a parameter that is a text. -/
def queryTexts : Value → List String
  | .str s => [s]
  | _ => []

/-- The routes of well logs, with their own checks. -/
noncomputable def wellLogDeployment : Deployment Value BulkInfoForConsistency where
  py := .trees
  pk := samplePackaging
  isWord := asciiWord
  recordChecks := { validateRecords := fun _ => .ok (), checkConsistency := fun _ _ _ => .ok () }
  dataChecks := fun _ => Checker.dataConsistencyChecks FloatArithmetic.exact
    (fun _ => .error .typeError) (fun _ => "") (fun _ => "") .wellLog

/-- The first version has the reference `MD`. -/
def depthServer : Server where
  records := RecordStore.empty.add "" 1 (recordWithReference "MD")

/-- The second version has another one. -/
def timeServer : Server where
  records := depthServer.records.add "" 2 (recordWithReference "TWT")

/-- A session that overwrites a version. -/
def overwriteFrom (version : Int) : CreateDataSessionRequest where
  fromVersion := version
  mode := .overwrite

/-- The sample session is created. -/
noncomputable def createSample (rq : CreateDataSessionRequest) (s : Server) :
    Except Raised Session × SessionServer Value :=
  createSession wellLogDeployment.py (wellLogDeployment.dataChecks .wellLog) (v3State .wellLog)
    readsOnly sampleSession.session.recordId sampleSession.session.id ⟨0, "0"⟩ rq (none, s)

/-- What the worker describes of a chunk is not looked at. -/
def ignoreDescription : Value → Except Raised Unit := fun _ => .ok ()

/-- A session that can be evaluated is created. -/
theorem exists_createSample {rq : CreateDataSessionRequest} {s : Server}
    (h : (createSample rq s).1.toOption.isSome = true) :
    ∃ session p, createSample rq s = (.ok session, p) := by
  cases hrun : createSample rq s with
  | mk out p =>
    rw [hrun] at h
    cases out with
    | error e => cases h
    | ok session => exact ⟨session, p, rfl⟩

/-- **The latest reference is kept**: a session on the first version sends the reference of the
second one with its chunks, and that of the first one with its commit. -/
theorem latest_reference_kept :
    ¬ ∀ (rq : CreateDataSessionRequest) (session : Session) (p t : SessionServer Value)
      (es : List SessionEvent), createSample rq timeServer = (.ok session, p) →
      (∀ event ∈ es, event.NumbersAnew session.fromVersion) →
      run (sessionStep wellLogDeployment ignoreDescription sampleSession.session.recordId
        sampleSession.session.id) p es = some t → OneReference queryTexts p.2 t.2 := by
  intro h
  obtain ⟨session, p, hcreate⟩ :
      ∃ session p, createSample (overwriteFrom 1) timeServer = (.ok session, p) :=
    exists_createSample rfl
  obtain ⟨b, stored, latest, reference, rfl, hs, rfl, hcreated⟩ := createSession_ok hcreate
  have hversion : stored.session.fromVersion = 1 := (Option.some.inj hcreated.version).symm
  have hlatest : latest = (recordWithReference "TWT").stored "" 2 :=
    (Option.some.inj hcreated.found).symm
  -- the chunk sends the curve of the latest version, the commit that of the base
  have hreference : reference = .str "TWT" := by
    have hnamed := hcreated.named
    rw [hlatest] at hnamed
    exact (Except.ok.inj hnamed).symm
  have hcommits : CommitsWith (wellLogDeployment.dataChecks .wellLog) (v3State .wellLog) timeServer
      sampleSession.session.recordId stored.session ((recordWithReference "MD").stored "" 1)
      (.str "MD") := by
    refine ⟨?_, by decide, ⟨none, ?_⟩, rfl⟩
    · rw [hversion]
      rfl
    · rw [previousBulkUri, hcreated.mode]
      rfl
  obtain ⟨t, q, q', sent, hrun, hsent, hq, hq', hchunk, hcommit⟩ := sends_chunkAndCommit queryTexts
    ignoreDescription sampleSession.session.id hs hcreated.opened hcommits
  obtain ⟨sent', hsent', hone⟩ :=
    h _ _ _ t _ hcreate (numbersAnew_chunkAndCommit .wellLog _) hrun
  obtain rfl := List.append_cancel_left (hsent'.symm.trans hsent)
  have hcurves := hone q hq q' hq'
  rw [hchunk, hcommit, Session.chunkCurve, hcreated.kept, hreference] at hcurves
  exact absurd hcurves (by decide)

/-- A session on the latest version keeps its reference, though the record gets a version with
another one before the commit. -/
theorem one_reference_latest :
    ∃ session p t, createSample (overwriteFrom 0) depthServer = (.ok session, p) ∧
      run (sessionStep wellLogDeployment ignoreDescription sampleSession.session.recordId
        sampleSession.session.id) p
        [.chunk readsOnly, .newVersion "" 2 (recordWithReference "TWT"), .chunk readsOnly,
          .complete .wellLog sampleClock .commit readsOnly] = some t ∧
      OneReference queryTexts p.2 t.2 := by
  obtain ⟨session, p, hcreate⟩ :
      ∃ session p, createSample (overwriteFrom 0) depthServer = (.ok session, p) :=
    exists_createSample rfl
  have hnumbers : ∀ r ∈ depthServer.records.versions sampleSession.session.recordId,
      r.version ≠ some 0 := by
    intro r hr
    obtain rfl := List.mem_singleton.mp (show r ∈ [(recordWithReference "MD").stored "" 1] from hr)
    decide
  have hversion : session.fromVersion = 1 := by
    obtain ⟨b, stored, latest, reference, -, -, rfl, hcreated⟩ := createSession_ok hcreate
    obtain rfl := Option.some.inj hcreated.found
    exact (Option.some.inj hcreated.version).symm
  -- the curve of the latest version is that of the base, as both are one record
  have hsame : ∀ e' ∈ ({.wellLog} : Set Entity), SameCurve queryTexts wellLogDeployment
      depthServer.records sampleSession.session.recordId (overwriteFrom 0) .wellLog e' := by
    rintro e' he' latest reference base curve hlatest hreference hbase - hcurve
    obtain rfl := Option.some.inj hlatest
    obtain rfl := Except.ok.inj hreference
    obtain rfl := Option.some.inj hbase
    obtain rfl := Except.ok.inj hcurve
    rfl
  obtain ⟨t, hrun⟩ : ∃ t, run (sessionStep wellLogDeployment ignoreDescription
      sampleSession.session.recordId sampleSession.session.id) p
      [.chunk readsOnly, .newVersion "" 2 (recordWithReference "TWT"), .chunk readsOnly,
        .complete .wellLog sampleClock .commit readsOnly] = some t := ⟨_, rfl⟩
  refine ⟨session, p, t, hcreate, hrun, ?_⟩
  refine (one_reference_iff hnumbers hcreate {.wellLog}).mpr hsame _ t ?_ hrun
  intro event hevent
  -- the version written meanwhile is none that the session starts from
  rw [hversion]
  simp only [List.mem_cons, List.not_mem_nil, or_false] at hevent
  rcases hevent with rfl | rfl | rfl | rfl
  · exact ⟨trivial, trivial⟩
  · exact ⟨(by decide : (2 : Int) ≠ 1), trivial⟩
  · exact ⟨trivial, trivial⟩
  · exact ⟨nofun, rfl⟩

end WellboreDdms
