import WellboreDdms.Bulk.Routes

/-!
# The calls on a session

A session is created on a version of a record, takes chunks while it is `open`, and is
completed. Creation puts a reference curve in the `meta` of the session, from where
`post_chunk_data` sends it to the worker; `complete_session` sends the one of the
version the session is on.

- `createSession`, `postChunkData`: the handlers; `completeSession` is in `Bulk.Routes`.
- `Created`: what a session is created with, the curve it keeps among it.
- `postChunkData_spec`, `commitBody_sends`: which reference curve the calls send.
- `completion_alike`: a completion changes no field the requests depend on.
-/

namespace WellboreDdms

open Python Machine

universe u

variable {τ δ β : Type}

/-! ## The creation of a session -/

/-- The request; a JSON object has no key twice. -/
structure CreateDataSessionRequest where
  fromVersion : Int := 0
  timeToLive : Int := 1440
  mode : SessionUpdateMode
  sessionMeta : Option (Dict String String) := none
  keys : ∀ items ∈ sessionMeta, (items.map Prod.fst).Nodup := by nofun

/-- The version the session will be on; `latest` is the latest one of the record. -/
def CreateDataSessionRequest.baseVersion (rq : CreateDataSessionRequest) (latest : Record) :
    Option Int :=
  if rq.fromVersion = 0 then latest.version else some rq.fromVersion

/-- `create_rq.meta` as `create_session` passes it on. -/
def createdMeta (sessionMeta : Option (Dict String String)) (reference : Value) : Value :=
  if reference.truthy then
    .dict (Dict.set ((sessionMeta.getD []).map fun p => (p.1, .str p.2))
      "reference_curve" reference)
  else dumpMeta sessionMeta

/-- `SessionsStorage.create_session`: the id is new, so there is no blob yet. -/
def storeNewSession (py : Pydantic τ) (stamp : Stamp) (n : NewSession) :
    SessionInternal × SessionBlob τ :=
  let stored := n.stored stamp.now
  (⟨stored, some stamp.fresh⟩,
    { etag := stamp.fresh, content := SessionInternal.encode py stored })

/-- The session blob, and the server. -/
abbrev SessionServer (τ : Type) := Option (SessionBlob τ) × Server

section

variable (py : Pydantic τ) (checks : DataConsistencyChecks δ) (state : RequestState) (o : Outside)

/-- The version the session will be on, once it is known to exist. -/
def existingVersion (recordId : String) (rq : CreateDataSessionRequest) (latest : Record) :
    Effect Server Raised (Option Int) :=
  if rq.fromVersion = 0 then pure latest.version
  else do
    let _ ← fetchRecord o recordId (some rq.fromVersion)
    pure (some rq.fromVersion)

/-- What `create_session` passes to the storage of sessions. -/
def newSession (recordId : String) (id : UUID) (rq : CreateDataSessionRequest) :
    Effect Server Raised NewSession := do
  let record ← fetchRecord o recordId none
  Effect.lift (raiseIfNotOsduRightEntityKind record state)
  let version ← existingVersion o recordId rq record
  let reference ← Effect.lift (checks.getReferenceCurve record)
  match version, validateMeta py (some (createdMeta rq.sessionMeta reference)) with
  | some fromVersion, some sessionMeta =>
    pure
      { id, recordId, fromVersion, ttl := rq.timeToLive, mode := rq.mode, sessionMeta
        internal := .none }
  | _, _ => Effect.raise (.valueError "validation error")

/-- `create_session`; the id and the stamp are drawn. -/
def createSession (recordId : String) (id : UUID) (stamp : Stamp) (rq : CreateDataSessionRequest) :
    Effect (SessionServer τ) Raised Session := fun (b, s) =>
  match newSession py checks state o recordId id rq s with
  | (.error e, s') => (.error e, (b, s'))
  | (.ok n, s') =>
    let created := storeNewSession py stamp n
    (.ok created.1.session, (some created.2, s'))

end

/-! ## The chunks -/

/-- `f"{state}"`. -/
def SessionState.text : SessionState → String
  | .opened => "SessionState.Open"
  | .committing => "SessionState.Committing"
  | .abandoning => "SessionState.Abandoning"
  | .committed => "SessionState.Committed"
  | .abandoned => "SessionState.Abandoned"

/-- The query of `write_chunk`. -/
def chunkParams : Option String → Dict String Value
  | some referenceCurve => withReference [] (.str referenceCurve)
  | none => []

section

variable (py : Pydantic τ) (describe : Value → Except Raised β) (o : Outside)

/-- `BulkIOWdmsWorker.write_chunk`; `describe` makes a `DataframeBasicDescribe` of the answer. -/
def writeChunk (recordId : String) (sessionId : UUID) (referenceCurve : Option String) :
    Effect Server Raised β := do
  Effect.lift o.body
  let request : WorkerRequest :=
    ⟨"/data/" ++ recordId ++ "/session/" ++ sessionId.text, chunkParams referenceCurve⟩
  Effect.modify fun s => { s with requests := s.requests ++ [request] }
  let response ← Effect.lift o.worker
  let responseObj ← Effect.lift (responseAsJson response)
  Effect.lift (describe responseObj)

/-- `post_chunk_data` on a session that was read. -/
def postChunkOf (recordId : String) (session : Session) : Effect Server Raised β :=
  if session.state = .opened then
    Effect.mapError bulkErrorAsHttp
      (writeChunk describe o recordId session.id (session.getMetaValue "reference_curve"))
  else
    Effect.raise (.httpException 400 ("Session cannot accept data, state=" ++ session.state.text))

/-- `post_chunk_data`. -/
def postChunkData (recordId : String) (sessionId : UUID) :
    Effect (SessionServer τ) Raised β := fun (b, s) =>
  match b.elim (.error (.session .notFound)) (getSession py) with
  | .error e => (.error (sessionErrorAsHttp recordId sessionId e), (b, s))
  | .ok i =>
    match postChunkOf describe o recordId i.session s with
    | (out, s') => (out, (b, s'))

end

/-! ## What a session is created with -/

/-- The curve the session keeps; `reference` is that of the latest version. -/
def keptCurve (py : Pydantic τ) (rq : CreateDataSessionRequest) (reference : Value) :
    Option String :=
  if reference.truthy then some (py.str reference)
  else rq.sessionMeta.bind fun items => Dict.get items "reference_curve"

/-- The kept curve is in the `meta` of the session. -/
theorem validateMeta_createdMeta (py : Pydantic τ) (rq : CreateDataSessionRequest)
    (reference : Value) :
    ∃ m, validateMeta py (some (createdMeta rq.sessionMeta reference)) = some m ∧
      (∀ items ∈ m, (items.map Prod.fst).Nodup) ∧
      (m.bind fun items => Dict.get items "reference_curve") = keptCurve py rq reference := by
  unfold createdMeta keptCurve
  split
  · -- the texts of the request are coerced to themselves
    have hcoerced : ((rq.sessionMeta.getD []).map fun p => (p.1, Value.str p.2)).map
        (fun p => (p.1, py.str p.2)) = rq.sessionMeta.getD [] := by
      rw [List.map_map]
      exact List.map_id _
    have hkeys : ((rq.sessionMeta.getD []).map Prod.fst).Nodup := by
      cases hm : rq.sessionMeta with
      | none => exact List.nodup_nil
      | some items => exact rq.keys items hm
    refine ⟨some (Dict.set (rq.sessionMeta.getD []) "reference_curve" (py.str reference)), ?_, ?_,
      Dict.get_set_self _ _ _⟩
    · rw [validateMeta, Dict.map_set, hcoerced]
    · rintro items ⟨⟩
      exact Dict.nodup_keys_set hkeys _ _
  · exact ⟨rq.sessionMeta, validateMeta_dumpMeta py _, rq.keys, rfl⟩

/-- The session is created on a version of the record, with the kept curve; `reference` is the
curve of the latest version. -/
structure Created (py : Pydantic τ) (checks : DataConsistencyChecks δ) (records : RecordStore)
    (recordId : String) (rq : CreateDataSessionRequest) (latest : Record) (reference : Value)
    (session : Session) : Prop where
  found : records.find recordId none = some latest
  named : checks.getReferenceCurve latest = .ok reference
  version : rq.baseVersion latest = some session.fromVersion
  base : ∃ base, records.find recordId (some session.fromVersion) = some base
  opened : session.state = .opened
  mode : session.mode = rq.mode
  kept : session.getMetaValue "reference_curve" = keptCurve py rq reference

section

variable (py : Pydantic τ) (checks : DataConsistencyChecks δ) (state : RequestState) (o : Outside)

/-- **The version** that a session starts from is there. -/
theorem existingVersion_spec {recordId : String} {rq : CreateDataSessionRequest} {latest : Record}
    {s : Server} (hlatest : s.records.find recordId none = some latest) :
    Effect.Post (existingVersion o recordId rq latest) s fun out t => t = s ∧
      ∀ version, out = .ok version → version = rq.baseVersion latest ∧
        ∀ v, version = some v → ∃ base, s.records.find recordId (some v) = some base := by
  unfold existingVersion CreateDataSessionRequest.baseVersion
  split
  · refine Effect.post_pure ⟨rfl, ?_⟩
    rintro version ⟨⟩
    exact ⟨rfl, fun v hv => ⟨latest, RecordStore.find_version_of_latest hlatest hv⟩⟩
  · refine Effect.post_bind (fetchRecord_spec o recordId _ s) ?_ ?_
    · rintro e t ⟨rfl, -⟩
      exact ⟨rfl, nofun⟩
    · rintro base t ⟨rfl, hbase⟩
      refine Effect.post_pure ⟨rfl, ?_⟩
      rintro version ⟨⟩
      refine ⟨rfl, ?_⟩
      rintro v ⟨⟩
      exact ⟨base, hbase base rfl⟩

/-- **A created session** keeps the curve of the latest version, or that of its own `meta`. -/
theorem newSession_spec (recordId : String) (id : UUID) (rq : CreateDataSessionRequest)
    (s : Server) :
    Effect.Post (newSession py checks state o recordId id rq) s fun out t => t = s ∧
      ∀ n, out = .ok n → ∀ now, (n.stored now).Storable ∧
        ∃ latest reference,
          Created py checks s.records recordId rq latest reference (n.stored now).session := by
  refine Effect.post_bind (fetchRecord_spec o recordId none s) ?_ ?_
  · rintro e t ⟨rfl, -⟩
    exact ⟨rfl, nofun⟩
  rintro latest t ⟨rfl, hlatest⟩
  have hlatest := hlatest latest rfl
  refine Effect.post_lift_bind (fun e _ => ⟨rfl, nofun⟩) fun _ _ => ?_
  refine Effect.post_bind (existingVersion_spec o hlatest) ?_ ?_
  · rintro e u ⟨rfl, -⟩
    exact ⟨rfl, nofun⟩
  rintro version u ⟨rfl, hversion⟩
  obtain ⟨hversion, hbase⟩ := hversion version rfl
  refine Effect.post_lift_bind (fun e _ => ⟨rfl, nofun⟩) fun reference hreference => ?_
  obtain ⟨m, hm, hkeys, hkept⟩ := validateMeta_createdMeta py rq reference
  rw [hm]
  -- the curve can be kept, whatever it is
  cases version with
  | none => exact Effect.post_raise ⟨rfl, nofun⟩
  -- without a version there is no session
  | some v =>
    refine Effect.post_pure ⟨rfl, ?_⟩
    rintro n ⟨⟩ now
    refine ⟨{ keys := hkeys, internal := .none }, latest, reference, ?_⟩
    exact
      { found := hlatest
        named := hreference
        version := hversion.symm
        base := hbase v rfl
        opened := rfl
        mode := rfl
        kept := hkept }

variable {py checks state o}

/-- A session that was created is stored, with what it was created from. -/
theorem createSession_ok {recordId : String} {id : UUID} {stamp : Stamp}
    {rq : CreateDataSessionRequest} {b₀ : Option (SessionBlob τ)} {s : Server} {session : Session}
    {p : SessionServer τ}
    (h : createSession py checks state o recordId id stamp rq (b₀, s) = (.ok session, p)) :
    ∃ b stored latest reference, p = (some b, s) ∧ Holds py b stored ∧ stored.session = session ∧
      Created py checks s.records recordId rq latest reference session := by
  have hspec := newSession_spec py checks state o recordId id rq s
  rw [Effect.Post] at hspec
  cases hnew : newSession py checks state o recordId id rq s with
  | mk out t =>
    simp only [createSession, hnew] at h
    rw [hnew] at hspec
    obtain ⟨rfl, hok⟩ := hspec
    cases out with
    | error e => cases h
    | ok n =>
      cases h
      obtain ⟨hstorable, latest, reference, hcreated⟩ := hok n rfl stamp.now
      refine ⟨_, n.stored stamp.now, latest, reference, rfl, ?_, rfl, hcreated⟩
      rw [Holds, getSession, storeNewSession, SessionInternal.decode_encode py hstorable]

end

/-! ## What the calls send -/

/-- The reference curve in a query, as the worker gets it: `query` is the text that the
HTTP client makes of a parameter. -/
def WorkerRequest.reference {ρ : Type u} (query : Value → ρ) (q : WorkerRequest) : Option ρ :=
  (Dict.get q.params "reference").map query

/-- What is sent of a reference curve: nothing, if it is falsy. -/
def curveSent {ρ : Type u} (query : Value → ρ) (curve : Value) : Option ρ :=
  if curve.truthy then some (query curve) else none

section

variable {ρ : Type u} (query : Value → ρ)

theorem reference_of_chunkParams {q : WorkerRequest} {curve : Option String}
    (h : q.params = chunkParams curve) :
    q.reference query = curveSent query ((curve.map Value.str).getD .none) := by
  rw [WorkerRequest.reference, h]
  cases curve with
  | none => rfl
  | some curve =>
    show (Dict.get (withReference [] (.str curve)) "reference").map query =
      curveSent query (.str curve)
    rw [withReference_reference rfl, curveSent]
    split
    · rfl
    · rfl

theorem reference_of_completionParams {q : WorkerRequest} {session : Session}
    {previous : Option BulkURI} {curve : Value}
    (h : q.params = completionParams session previous curve) :
    q.reference query = curveSent query curve := by
  rw [WorkerRequest.reference, h, completionParams_reference, curveSent]
  split
  · rfl
  · rfl

end

/-- A read fails only for a version that is not there, if the storage answers. -/
theorem fetchRecord_answers (o : Outside) (recordId : String) (version : Option Int) (s : Server) :
    Effect.Post (fetchRecord o recordId version) s fun out t => t = s ∧
      (∀ record, out = .ok record → s.records.find recordId version = some record) ∧
        ∀ e, out = .error e → o.fetch = .ok () → s.records.find recordId version = none := by
  rw [Effect.Post, fetchRecord_eq]
  cases hfetch : o.fetch with
  | error e => exact ⟨rfl, by rintro _ ⟨⟩, by rintro _ _ ⟨⟩⟩
  | ok u =>
    cases hfind : s.records.find recordId version with
    | none => exact ⟨rfl, by rintro _ ⟨⟩, fun _ _ _ => rfl⟩
    | some record => exact ⟨rfl, fun _ h => congrArg some (Except.ok.inj h), by rintro _ ⟨⟩⟩

/-- The requests sent from `s` to `t` meet `P`; if `must` holds, there is one. -/
def Sends (P : WorkerRequest → Prop) (must : Prop) (s t : Server) : Prop :=
  ∃ sent, t.requests = s.requests ++ sent ∧ (∀ q ∈ sent, P q) ∧ (must → sent ≠ [])

theorem Sends.of_none {P : WorkerRequest → Prop} {must : Prop} {s : Server} (h : ¬ must) :
    Sends P must s s :=
  ⟨[], (List.append_nil _).symm, nofun, fun hmust => absurd hmust h⟩

theorem Sends.of_one {P : WorkerRequest → Prop} {must : Prop} {s t : Server} {q : WorkerRequest}
    (h : t.requests = s.requests ++ [q]) (hq : P q) : Sends P must s t := by
  refine ⟨[q], h, ?_, fun _ => List.cons_ne_nil _ _⟩
  rintro q' hq'
  rw [List.mem_singleton.mp hq']
  exact hq

theorem Sends.trans {P : WorkerRequest → Prop} {must : Prop} {s t u : Server}
    (h : Sends P False s t)
    (h' : Sends P must t u) : Sends P False s u := by
  obtain ⟨sent, hsent, hall, -⟩ := h
  obtain ⟨sent', hsent', hall', -⟩ := h'
  refine ⟨sent ++ sent', ?_, ?_, False.elim⟩
  · rw [hsent', hsent, List.append_assoc]
  · intro q hq
    rcases List.mem_append.mp hq with hq | hq
    · exact hall q hq
    · exact hall' q hq

theorem Sends.mono {P Q : WorkerRequest → Prop} {must : Prop} {s t : Server} (h : Sends P must s t)
    (himp : ∀ q, P q → Q q) : Sends Q must s t := by
  obtain ⟨sent, hsent, hall, hmust⟩ := h
  exact ⟨sent, hsent, fun q hq => himp q (hall q hq), hmust⟩

/-- A chunk is sent with the curve it was given. -/
theorem writeChunk_spec (describe : Value → Except Raised β) (o : Outside) (recordId : String)
    (sessionId : UUID) (curve : Option String) (s : Server) :
    Effect.Post (writeChunk describe o recordId sessionId curve) s fun _ t =>
      t.records = s.records ∧
        Sends (fun q => q.params = chunkParams curve) (o.body = .ok ()) s t := by
  refine Effect.post_lift_bind (fun e he => ⟨rfl, .of_none ?_⟩) fun _ _ => ?_
  · intro hbody
    rw [he] at hbody
    cases hbody
  · refine Effect.post_modify_bind ?_
    -- whatever the worker answers, the request has been sent
    refine Effect.post_lift_bind (fun _ _ => ⟨rfl, .of_one rfl rfl⟩) fun _ _ => ?_
    refine Effect.post_lift_bind (fun _ _ => ⟨rfl, .of_one rfl rfl⟩) fun _ _ => ?_
    exact ⟨rfl, .of_one rfl rfl⟩

/-- **A chunk** sends the session's curve. -/
theorem postChunkOf_spec (describe : Value → Except Raised β) (o : Outside) (recordId : String)
    (session : Session) (s : Server) :
    Effect.Post (postChunkOf describe o recordId session) s fun _ t => t.records = s.records ∧
      Sends (fun q => q.params = chunkParams (session.getMetaValue "reference_curve"))
        (o.body = .ok () ∧ session.state = .opened) s t := by
  unfold postChunkOf
  split
  · have hwrite := writeChunk_spec describe o recordId session.id
      (session.getMetaValue "reference_curve") s
    refine Effect.post_mapError hwrite ?_ ?_
    all_goals
      rintro _ t ⟨hrecords, sent, hsent, hall, hmust⟩
      exact ⟨hrecords, sent, hsent, hall, fun h => hmust h.1⟩
  · -- the session is not open any more
    rename_i hclosed
    exact ⟨rfl, .of_none fun h => hclosed h.2⟩

/-- **The chunks of a session** carry the curve in its `meta`, and change no record. -/
theorem postChunkData_spec {py : Pydantic τ} (describe : Value → Except Raised β) (o : Outside)
    (recordId : String) (sessionId : UUID) {b : SessionBlob τ} {stored : StoredSession}
    (hs : Holds py b stored) (s : Server) :
    Effect.Post (postChunkData py describe o recordId sessionId) (some b, s) fun _ p =>
      p.1 = some b ∧ p.2.records = s.records ∧
        Sends (fun q => q.params = chunkParams (stored.session.getMetaValue "reference_curve"))
          (o.body = .ok () ∧ stored.session.state = .opened) s p.2 := by
  have hget : (some b).elim (.error (.session .notFound)) (getSession py) = _ := hs
  have hspec := postChunkOf_spec describe o recordId stored.session s
  rw [Effect.Post] at hspec ⊢
  simp only [postChunkData, hget]
  exact ⟨trivial, hspec⟩

/-! ## What a commit sends -/

section

variable (pk : Packaging) (checks : DataConsistencyChecks δ) (state : RequestState) (o : Outside)

theorem sendAndCheck_requests (record : Record) (request : WorkerRequest) (s : Server) :
    Effect.Post (sendAndCheck checks o record request) s fun _ t =>
      t.requests = s.requests ++ [request] := by
  refine Effect.post_modify_bind ?_
  refine Effect.post_lift_bind (fun _ _ => rfl) fun _ _ => ?_
  refine Effect.post_lift_bind (fun _ _ => rfl) fun _ _ => ?_
  exact Effect.post_modify_bind (Effect.post_pure rfl)

theorem writeCompleteSession_requests (record : Record) (session : Session)
    (updateFromBulkUri : Option BulkURI) (reference : Value) (s : Server) :
    Effect.Post (writeCompleteSession checks o record session updateFromBulkUri reference) s
      fun _ t => ∃ q, t.requests = s.requests ++ [q] ∧
        q.params = completionParams session updateFromBulkUri reference := by
  refine Effect.post_bind (sendAndCheck_requests checks o record _ s) ?_ ?_
  · intro e t h
    exact ⟨_, h, rfl⟩
  · intro bulk t h
    exact Effect.post_pure ⟨_, h, rfl⟩

/-- A record is sent without a call to the worker. -/
theorem setBulkFieldAndSendRecord_requests (bulkId : Value) (record : Record) (s : Server) :
    Effect.Post (setBulkFieldAndSendRecord pk o bulkId record) s fun _ t =>
      t.requests = s.requests := by
  refine Effect.post_lift_bind (fun _ _ => rfl) fun record _ => ?_
  refine (createOrUpdateRecords_spec o record s).mono ?_
  rintro out t ⟨hfailed, hended⟩
  cases out with
  | error e => rw [hfailed e rfl]
  | ok answer =>
    obtain ⟨assign, -, rfl, -⟩ := hended answer rfl
    rfl

/-- An update needs a bulk URI that can be read. -/
theorem previousBulkUri_eq_ok {session : Session} {base : Record} :
    (∃ previous, previousBulkUri session base = .ok previous) ↔
      (session.mode = .update → ∃ uri, OsduBulkIdAccess.getBulkUri base = .ok uri) := by
  unfold previousBulkUri
  split
  · rename_i hmode
    cases hget : OsduBulkIdAccess.getBulkUri base with
    | ok uri => simp [hmode]
    | error e => cases e <;> simp [hmode]
  · rename_i hmode
    simp [hmode]

/-- A commit of `session` that gets to the worker, with the curve of its base. -/
def CommitsWith (s : Server) (recordId : String) (session : Session) (base : Record)
    (curve : Value) :
    Prop :=
  s.records.find recordId (some session.fromVersion) = some base ∧
    raiseIfNotOsduRightEntityKind base state = .ok () ∧
    (∃ previous, previousBulkUri session base = .ok previous) ∧
    checks.getReferenceCurve base = .ok curve

/-- **The commit of a session** names the curve of the version the session is on. -/
theorem commitBody_sends {ρ : Type u} (query : Value → ρ) (recordId : String)
    (guard : SessionInternal) (s : Server) :
    Effect.Post (commitBody pk checks state o recordId guard) s fun _ t =>
      Sends (fun q => ∃ base curve, CommitsWith checks state s recordId guard.session base curve ∧
          q.reference query = curveSent query curve)
        (o.fetch = .ok () ∧ ∃ base curve,
          CommitsWith checks state s recordId guard.session base curve)
        s t := by
  refine Effect.post_bind (fetchRecord_answers o recordId _ s) ?_ ?_
  · rintro e t ⟨rfl, -, hnone⟩
    refine .of_none ?_
    rintro ⟨hfetch, base, curve, hfind, -⟩
    rw [hnone e rfl hfetch] at hfind
    cases hfind
  rintro base t ⟨rfl, hfind, -⟩
  have hfind := hfind base rfl
  -- a commit that gets to the worker starts from the record that was read
  have hsame : ∀ {base' curve}, CommitsWith checks state t recordId guard.session base' curve →
      base' = base := by
    rintro base' curve ⟨hfind', -⟩
    exact Option.some.inj (hfind'.symm.trans hfind)
  refine Effect.post_lift_bind (fun e he => .of_none ?_) fun _ hgate => ?_
  · rintro ⟨-, base', curve, hcommits⟩
    obtain rfl := hsame hcommits
    rw [hcommits.2.1] at he
    cases he
  refine Effect.post_lift_bind (fun e he => .of_none ?_) fun previous hprevious => ?_
  · rintro ⟨-, base', curve, hcommits⟩
    obtain rfl := hsame hcommits
    obtain ⟨previous, hprevious⟩ := hcommits.2.2.1
    rw [hprevious] at he
    cases he
  refine Effect.post_lift_bind (fun e he => .of_none ?_) fun curve hcurve => ?_
  · rintro ⟨-, base', curve, hcommits⟩
    obtain rfl := hsame hcommits
    rw [hcommits.2.2.2] at he
    cases he
  have hcommits : CommitsWith checks state t recordId guard.session base curve :=
    ⟨hfind, hgate, ⟨previous, hprevious⟩, hcurve⟩
  refine Effect.post_bind
    (writeCompleteSession_requests checks o base guard.session previous curve t) ?_ ?_
  · rintro e u ⟨q, hu, hq⟩
    exact .of_one hu ⟨base, curve, hcommits, reference_of_completionParams query hq⟩
  · rintro bulkId u ⟨q, hu, hq⟩
    refine (setBulkFieldAndSendRecord_requests pk o bulkId _ u).mono fun _ v hv => ?_
    exact .of_one (hv.trans hu) ⟨base, curve, hcommits, reference_of_completionParams query hq⟩

end

/-! ## What a completion leaves of the session -/

/-- The fields of a session that its requests depend on. -/
structure Session.Alike (s t : Session) : Prop where
  fromVersion : t.fromVersion = s.fromVersion
  mode : t.mode = s.mode
  sessionMeta : t.sessionMeta = s.sessionMeta

theorem Session.Alike.trans {s t u : Session} (h : s.Alike t) (h' : t.Alike u) : s.Alike u where
  fromVersion := h'.fromVersion.trans h.fromVersion
  mode := h'.mode.trans h.mode
  sessionMeta := h'.sessionMeta.trans h.sessionMeta

theorem Session.Alike.getMetaValue {s t : Session} (h : s.Alike t) (key : String) :
    t.getMetaValue key = s.getMetaValue key := by
  rw [Session.getMetaValue, h.sessionMeta]
  rfl

/-- Sessions alike are committed alike. -/
theorem CommitsWith.congr {checks : DataConsistencyChecks δ} {state : RequestState} {s : Server}
    {recordId : String} {session t : Session} (halike : session.Alike t) {base : Record}
    {curve : Value} :
    CommitsWith checks state s recordId t base curve ↔
      CommitsWith checks state s recordId session base curve := by
  simp only [CommitsWith, previousBulkUri_eq_ok, halike.fromVersion, halike.mode]

theorem StoredSession.alike_updatedFor (s : StoredSession) (commit : Bool) (purpose : Purpose)
    (now : DateTime) : s.session.Alike (s.updatedFor commit purpose now).session :=
  ⟨rfl, rfl, rfl⟩

section

variable {σ α : Type} {py : Pydantic τ} {b : SessionBlob τ} {stored : StoredSession}

/-- A completion does nothing, or runs its body on a session like the one stored. -/
theorem completion_alike (hs : Holds py b stored) (commit : Bool) (clock : CompletionClock)
    (body : SessionInternal → Effect σ Raised α) (r : σ) :
    Effect.Post (completion py commit clock body) (b, r) fun _ p =>
      (∃ stored', Holds py p.1 stored' ∧ stored.session.Alike stored'.session) ∧
      (p.2 = r ∨ ∃ guard, stored.session.Alike guard.session ∧ p.2 = (body guard r).2) := by
  rw [Effect.Post]
  rcases completion_spec hs commit clock body r with ⟨e, hrun⟩ | ⟨-, b', hb', hrun⟩
  · rw [hrun]
    exact ⟨⟨stored, hs, ⟨rfl, rfl, rfl⟩⟩, Or.inl rfl⟩
  · rw [hrun]
    cases hbody :
      body ⟨stored.updatedFor commit .enter clock.enter.now, some clock.enter.fresh⟩ r with
    | mk out r' =>
      have hran : ∃ guard : SessionInternal, stored.session.Alike guard.session ∧
          r' = (body guard r).2 := by
        refine ⟨⟨stored.updatedFor commit .enter clock.enter.now, some clock.enter.fresh⟩,
          stored.alike_updatedFor commit .enter clock.enter.now, ?_⟩
        rw [hbody]
      -- the exit stores a state and times, after a failure too
      cases out with
      | ok a => exact ⟨⟨_, hb', ⟨rfl, rfl, rfl⟩⟩, Or.inr hran⟩
      | error ex => exact ⟨⟨_, hb', ⟨rfl, rfl, rfl⟩⟩, Or.inr hran⟩

/-- On an `open` session the body runs. -/
theorem completion_opened (hs : Holds py b stored) (hopened : stored.session.state = .opened)
    (commit : Bool) (clock : CompletionClock) (body : SessionInternal → Effect σ Raised α) (r : σ) :
    ∃ guard : SessionInternal, stored.session.Alike guard.session ∧
      (completion py commit clock body (b, r)).2.2 = (body guard r).2 := by
  obtain ⟨b', henter, -⟩ := updateFor_of_allowed hs commit .enter clock.enter
    (Or.inr (enter_allowed hopened commit clock.enter.now))
  refine ⟨⟨stored.updatedFor commit .enter clock.enter.now, some clock.enter.fresh⟩,
    stored.alike_updatedFor commit .enter clock.enter.now, ?_⟩
  rw [completion_state_of_entered henter]

end

section

variable {py : Pydantic τ} (pk : Packaging) (isWord : Char → Bool)
  (checks : DataConsistencyChecks δ)
  (state : RequestState) (o : Outside) {b : SessionBlob τ} {stored : StoredSession}

/-- The body of a commit adds no version, or the one the storage has numbered. -/
theorem commitBody_records (recordId : String) (guard : SessionInternal) (s : Server) :
    Effect.Post (commitBody pk checks state o recordId guard) s fun _ t =>
      t.records = s.records ∨ ∃ assign record, o.write = .ok assign ∧
        t.records = s.records.add (assign 0).newId (assign 0).version record := by
  refine (commitBody_spec pk checks state o recordId guard).mono fun out t h => ?_
  cases out with
  | error e => exact Or.inl (h.failed e rfl)
  | ok answer =>
    obtain ⟨base, version, -, hpublished, -⟩ := h.ended answer rfl
    obtain ⟨bulkId, sent, record, assign, -, -, -, -, hassign, rfl, hrecords⟩ := hpublished
    exact Or.inr ⟨assign, record, hassign, hrecords⟩

/-- **A completion** leaves a session like the one it found. Of the server it leaves what the
body of a commit does, or nothing is done there. -/
theorem completeSession_alike (hs : Holds py b stored) (recordId : String) (sessionId : UUID)
    (clock : CompletionClock) (update : UpdateSessionStateValue) (s : Server) :
    Effect.Post (completeSession py pk isWord checks state o recordId sessionId clock update)
      (some b, s) fun _ p =>
        (∃ b' stored', p.1 = some b' ∧ Holds py b' stored' ∧ stored.session.Alike stored'.session) ∧
        (p.2 = s ∨ update = .commit ∧ ∃ guard, stored.session.Alike guard.session ∧
          p.2 = (commitBody pk checks state o recordId guard s).2) := by
  rw [Effect.Post, completeSession_state]
  cases update with
  | commit =>
    obtain ⟨⟨stored', hs', halike⟩, hran⟩ :=
      completion_alike hs true clock (commitBody pk checks state o recordId) s
    exact ⟨⟨_, stored', rfl, hs', halike⟩, hran.imp id fun hran => ⟨rfl, hran⟩⟩
  | abandon =>
    obtain ⟨⟨stored', hs', halike⟩, hran⟩ :=
      completion_alike hs false clock (fun _ => (pure () : Effect Server Raised Unit)) s
    refine ⟨⟨_, stored', rfl, hs', halike⟩, Or.inl ?_⟩
    rcases hran with h | ⟨-, -, h⟩
    · exact h
    · exact h

/-- A commit of an `open` session runs its body. -/
theorem completeSession_opened (hs : Holds py b stored) (hopened : stored.session.state = .opened)
    (recordId : String) (sessionId : UUID) (clock : CompletionClock) (s : Server) :
    ∃ guard : SessionInternal, stored.session.Alike guard.session ∧
      (completeSession py pk isWord checks state o recordId sessionId clock .commit
        (some b, s)).2.2 =
        (commitBody pk checks state o recordId guard s).2 := by
  rw [completeSession_state]
  exact completion_opened hs hopened true clock (commitBody pk checks state o recordId) s

end

end WellboreDdms
