import WellboreDdms.Bulk.Services
import WellboreDdms.Records.Entity
import WellboreDdms.Records.RecordId
import WellboreDdms.Sessions.Rollback

/-!
# The handlers that publish a bulk

`post_data` has the worker write a whole bulk, `complete_session` has it aggregate
the chunks of a session. Both then put the bulk URI into a record and write that as
a new version.

- `postData`, `completeSession`: the two handlers, with every exit they have.
- `bulk_write_publishes_once`: a handler that fails adds no version; one that ends
  adds the base record with the URI of the bulk, and that record alone.
-/

namespace WellboreDdms

open Python Machine

variable {τ δ : Type}

/-- `except BulkError as ex: ex.raise_as_http()`. -/
def bulkErrorAsHttp : Raised → Raised
  | .bulkError status message => .httpException status message
  | e => e

/-- The text of a `SessionException`, after the session and the record it names. -/
def SessionError.message : SessionError → String
  | .updatedEtagUnmatched => "cannot update because precondition failed."
  | .invalidState message => message
  | .notFound => "not found."
  | .assertion message => message

/-- `except SessionException as ex: ex.raise_as_http()`. -/
def sessionErrorAsHttp (recordId : String) (sessionId : UUID) : Raised → Raised
  | .session e =>
    match e.httpStatus with
    | some status => .httpException status
      ("Error on session " ++ sessionId.text ++ " for record " ++ recordId ++ ": " ++ e.message)
    | none => .session e
  | e => e

/-- What a session is completed with: `UpdateSessionStateValue`. -/
inductive UpdateSessionStateValue where
  | commit
  | abandon

/-- The session with the version its commit has published. -/
structure CommitSessionResponse extends Session where
  version : Option Int

/-- `CommitSessionResponse(**session.model_dump(..), version=version)`. -/
def CommitSessionResponse.ofDump (py : Pydantic τ) (session : Session) (version : Option Int) :
    Except Raised CommitSessionResponse :=
  match Session.validate py (session.dumpWith .uuid .datetime) with
  | some s => .ok ⟨s, version⟩
  | none => .error (.valueError "validation error")

/-- `set_bulk_field_and_send_record`. -/
def setBulkFieldAndSendRecord (pk : Packaging) (o : Outside) (bulkId : Value) (record : Record) :
    Effect Server Raised CreateUpdateRecordsResponse := do
  let record ← Effect.lift (OsduBulkIdAccess.setBulkUri pk record bulkId)
  createOrUpdateRecords o [record]

/-- `session.meta.get("extendedLoadCompleted", "").lower()`. Only ASCII letters have
the lower cases of `true`. -/
def extendedLoadCompleted (session : Session) : Option String :=
  match session.sessionMeta with
  | some items =>
    if items.isEmpty then none
    else some (lower ((Dict.get items "extendedLoadCompleted").getD ""))
  | none => none

/-- The record whose load the session completes. -/
def completeExtendedLoad (session : Session) (record : Record) : Record :=
  if Dict.contains record.data "IsExtendedLoad" ∧ extendedLoadCompleted session = some "true" then
    { record with data := Dict.set record.data "IsExtendedLoad" (.bool false) }
  else record

/-- The bulk an update starts from. -/
def previousBulkUri (session : Session) (record : Record) : Except Raised (Option BulkURI) :=
  if session.mode = .update then
    match OsduBulkIdAccess.getBulkUri record with
    | .ok uri => .ok (some uri)
    | .error (.valueError _) => .error (.httpException 422
      ("Record with version " ++ toString session.fromVersion ++
        " from which update contains an invalid bulk URI"))
    | .error e => .error e
  else .ok none

section

variable (py : Pydantic τ) (pk : Packaging) (isWord : Char → Bool)
  (checks : DataConsistencyChecks δ) (state : RequestState) (o : Outside)

/-- `post_data`. -/
def postData (recordId : String) : Effect Server Raised CreateUpdateRecordsResponse := do
  let record ← fetchRecord o recordId none
  Effect.lift (raiseIfNotOsduRightEntityKind record state)
  let bulk ← Effect.mapError bulkErrorAsHttp (writeBulk checks o record)
  setBulkFieldAndSendRecord pk o bulk.1 record

/-- The body of the commit guard. -/
def commitBody (recordId : String) (guard : SessionInternal) :
    Effect Server Raised CreateUpdateRecordsResponse := do
  let record ← fetchRecord o recordId (some guard.session.fromVersion)
  Effect.lift (raiseIfNotOsduRightEntityKind record state)
  let previous ← Effect.lift (previousBulkUri guard.session record)
  let reference ← Effect.lift (checks.getReferenceCurve record)
  let bulkId ← writeCompleteSession checks o record guard.session previous reference
  setBulkFieldAndSendRecord pk o bulkId (completeExtendedLoad guard.session record)

/-- The response to a commit, from what the storage has answered. -/
def commitResponse (answer : CreateUpdateRecordsResponse) (session : Session) :
    Except Raised CommitSessionResponse :=
  match answer.recordIdVersions with
  | recordIdVersion :: _ =>
    match splitRecordIdVersion isWord recordIdVersion with
    | .ok (_, some version) => CommitSessionResponse.ofDump py
      { session with sessionMeta := some (session.sessionMeta.getD []) } (some version)
    | .ok (_, none) => .error (.runtimeError (recordIdVersion ++ " is not valid."))
    -- the version is too long for `int`
    | .error e => .error e
  | [] => .error (.other "IndexError")

/-- `complete_session` on a session that is stored, inside its `try`. -/
def completeStoredSession (recordId : String) (clock : CompletionClock) :
    UpdateSessionStateValue → Effect (SessionBlob τ × Server) Raised CommitSessionResponse
  | .commit => do
    let done ← completion py true clock (commitBody pk checks state o recordId)
    Effect.lift (commitResponse py isWord done.1 done.2.session)
  | .abandon => do
    let done ← completion py false clock fun _ => pure ()
    Effect.lift (CommitSessionResponse.ofDump py done.2.session none)

/-- `complete_session`. -/
def completeSession (recordId : String) (sessionId : UUID) (clock : CompletionClock)
    (update : UpdateSessionStateValue) :
    Effect (Option (SessionBlob τ) × Server) Raised CommitSessionResponse := fun (b, s) =>
  let asHttp := fun e => bulkErrorAsHttp (sessionErrorAsHttp recordId sessionId e)
  match b with
  | none => (.error (asHttp (.session .notFound)), (none, s))
  | some b =>
    match Effect.mapError asHttp
      (completeStoredSession py pk isWord checks state o recordId clock update) (b, s) with
    | (out, (b', s')) => (out, (some b', s'))

end

/-! ## What the handlers do -/

/-- The version published is `base`, edited, with the URI of a bulk that the worker has
written and that was consistent with `base`. -/
def PublishedOnce (pk : Packaging) (checks : DataConsistencyChecks δ) (o : Outside)
    (base : Record) (edited : Record → Record → Prop) (version : Nat) (s t : Server) : Prop :=
  ∃ bulkId sent record assign, Checked checks o base bulkId ∧ (base.id, bulkId) ∈ t.returned ∧
    edited base sent ∧ OsduBulkIdAccess.setBulkUri pk sent bulkId = .ok record ∧
    o.write = .ok assign ∧ (assign 0).version = version ∧
    t.records = s.records.add (assign 0).newId version record

/-- The requests sent since `s` name a previous bulk only as `previous` says. -/
def SentSince (base? : Option Record) (previous : Record → Value → Prop) (s t : Server) : Prop :=
  ∃ sent, t.requests = s.requests ++ sent ∧ ∀ q ∈ sent, ∀ v,
    Dict.get q.params "from_bulk" = some v → ∃ base, base? = some base ∧ previous base v

/-- What a bulk write on the record `base?` leads to: nothing published if it fails, one
version if it ends in an answer that tells it; `previous` says which bulk identifiers
the worker was told to start from. -/
structure Publishes {α : Type} (pk : Packaging) (checks : DataConsistencyChecks δ) (o : Outside)
    (base? : Option Record) (edited : Record → Record → Prop) (previous : Record → Value → Prop)
    (tells : α → Nat → Prop) (s t : Server) (out : Except Raised α) : Prop where
  failed : ∀ e, out = .error e → t.records = s.records
  ended : ∀ a, out = .ok a → ∃ base version, base? = some base ∧
    PublishedOnce pk checks o base edited version s t ∧ tells a version
  sent : SentSince base? previous s t
  returned : ∀ x ∈ s.returned, x ∈ t.returned

/-- The storage has answered with the id and the version. -/
def TellsVersion (recordId : String) (answer : CreateUpdateRecordsResponse) (version : Nat) :
    Prop :=
  answer.recordIdVersions = [recordId ++ ":" ++ toString version]

section

variable {pk : Packaging} {checks : DataConsistencyChecks δ} {o : Outside} {s t u : Server}
  {base : Record} {edited : Record → Record → Prop} {previous : Record → Value → Prop}

/-- The storage has given the version its number. -/
theorem PublishedOnce.short {version : Nat}
    (h : PublishedOnce pk checks o base edited version s t) : version < 10 ^ maxStrDigits := by
  obtain ⟨_, _, _, assign, -, -, -, -, -, rfl, -⟩ := h
  exact (assign 0).short

/-- A request that raised has published nothing. -/
theorem Publishes.of_error {α : Type} {base? : Option Record} {tells : α → Nat → Prop} {e : Raised}
    (hrecords : t.records = s.records) (hsent : SentSince base? previous s t)
    (hreturned : ∀ x ∈ s.returned, x ∈ t.returned) :
    Publishes pk checks o base? edited previous tells s t (.error e) where
  failed := fun _ _ => hrecords
  ended := by
    intro a ha
    cases ha
  sent := hsent
  returned := hreturned

/-- A handler that has failed before anything was sent. -/
theorem Publishes.of_unsent {α : Type} {base? : Option Record} {tells : α → Nat → Prop}
    {e : Raised} :
    Publishes pk checks o base? edited previous tells s s (.error e) :=
  .of_error rfl ⟨[], (List.append_nil _).symm, nofun⟩ fun _ h => h

/-- A request that returned has published once. -/
theorem Publishes.of_ok {α : Type} {base? : Option Record} {tells : α → Nat → Prop} {a : α}
    (hended : ∃ base version, base? = some base ∧
      PublishedOnce pk checks o base edited version s t ∧ tells a version)
    (hsent : SentSince base? previous s t) (hreturned : ∀ x ∈ s.returned, x ∈ t.returned) :
    Publishes pk checks o base? edited previous tells s t (.ok a) where
  failed := by
    intro e he
    cases he
  ended := by
    intro a' ha'
    cases ha'
    exact hended
  sent := hsent
  returned := hreturned

/-- A weaker reading of the answer. -/
theorem Publishes.mono {α : Type} {base? : Option Record} {tells tells' : α → Nat → Prop}
    {out : Except Raised α} (h : Publishes pk checks o base? edited previous tells s t out)
    (htells : ∀ base, base? = some base → ∀ a version, tells a version → tells' a version) :
    Publishes pk checks o base? edited previous tells' s t out where
  failed := h.failed
  ended := by
    intro a ha
    obtain ⟨base, version, hbase, hpublished, ha⟩ := h.ended a ha
    exact ⟨base, version, hbase, hpublished, htells base hbase a version ha⟩
  sent := h.sent
  returned := h.returned

/-- The one call to the worker tells the bulk before it. -/
theorem sent_of_called {bulkId : Option Value} {P : WorkerRequest → Prop}
    (hP : ∀ q, P q → ∀ v, Dict.get q.params "from_bulk" = some v → previous base v)
    (hcalled : Called checks o base P s t bulkId) : SentSince (some base) previous s t := by
  obtain ⟨sent, hsent, hall⟩ := hcalled.sent
  exact ⟨sent, hsent, fun q hq v hv => ⟨base, rfl, hP q (hall q hq) v hv⟩⟩

theorem returned_of_called {bulkId : Option Value} {P : WorkerRequest → Prop}
    (hcalled : Called checks o base P s t bulkId) : ∀ x ∈ s.returned, x ∈ t.returned := by
  intro x hx
  rw [hcalled.returned]
  exact List.mem_append_right _ hx

/-- **The publication**: what follows a call of the worker that has returned. -/
theorem setBulkFieldAndSendRecord_spec {recordId : String} {bulkId : Value} {sent : Record}
    {P : WorkerRequest → Prop} (hedited : edited base sent) (hid : sent.id = some recordId)
    (hP : ∀ q, P q → ∀ v, Dict.get q.params "from_bulk" = some v → previous base v)
    (hcalled : Called checks o base P s t (some bulkId)) :
    Effect.Post (setBulkFieldAndSendRecord pk o bulkId sent) t fun out u =>
      Publishes pk checks o (some base) edited previous
        (fun answer version => recordId ≠ "" → TellsVersion recordId answer version) s u out := by
  have hsent := sent_of_called hP hcalled
  have hreturned := returned_of_called hcalled
  refine Effect.post_lift_bind (fun e _ => .of_error hcalled.records hsent hreturned)
    fun record hrecord => ?_
  refine (createOrUpdateRecords_spec o record t).mono ?_
  rintro out u ⟨hfailed, hended⟩
  -- the write to the storage raised: nothing has been written
  cases out with
  | error e =>
    obtain rfl := hfailed e rfl
    exact .of_error hcalled.records hsent hreturned
  | ok answer =>
    obtain ⟨assign, hassign, rfl, -, hanswer⟩ := hended answer rfl
    refine .of_ok ⟨base, (assign 0).version, rfl, ?_, ?_⟩ hsent hreturned
    · refine ⟨bulkId, sent, record, assign, hcalled.checked bulkId rfl, ?_, hedited, hrecord,
        hassign,
        rfl, ?_⟩
      · show _ ∈ t.returned
        rw [hcalled.returned]
        exact List.mem_cons_self
      · rw [← hcalled.records]
    · intro hne
      have hrecordId : record.id = some recordId :=
        (OsduBulkIdAccess.setBulkUri_frame hrecord).1.trans hid
      rw [TellsVersion, hanswer, Record.storedId_of_id hrecordId hne]

end

/-- The storage keeps records under ids of the OSDU form. -/
def StoresRecordIds (isWord : Char → Bool) (store : RecordStore) : Prop :=
  ∀ recordId version record, store.find recordId version = some record → IsRecordId isWord recordId

theorem IsRecordId.ne_empty {isWord : Char → Bool} {recordId : String}
    (h : IsRecordId isWord recordId) : recordId ≠ "" := by
  rintro rfl
  cases h

/-- The `meta` of the session says that the load is completed, in whatever case. -/
def LoadCompleted (session : Session) : Prop :=
  ∃ items v, session.sessionMeta = some items ∧
    Dict.get items "extendedLoadCompleted" = some v ∧ lower v = "true"

/-- The record a commit starts the new version from: only `IsExtendedLoad` changes, if
there is one and the load is completed. -/
def EditedBy (session : Session) (base sent : Record) : Prop :=
  (Dict.contains base.data "IsExtendedLoad" = true ∧ LoadCompleted session →
      sent = { base with data := Dict.set base.data "IsExtendedLoad" (.bool false) }) ∧
    (¬ (Dict.contains base.data "IsExtendedLoad" = true ∧ LoadCompleted session) → sent = base)

/-- The load is completed if the session says so. -/
theorem extendedLoadCompleted_iff (session : Session) :
    extendedLoadCompleted session = some "true" ↔ LoadCompleted session := by
  have hempty : lower "" ≠ "true" := by decide
  unfold extendedLoadCompleted LoadCompleted
  cases session.sessionMeta with
  | none => simp
  | some items =>
    cases hget : Dict.get items "extendedLoadCompleted" with
    | none => simp [hget, hempty]
    | some v =>
      have hne : items.isEmpty = false := by
        cases items with
        | nil => cases hget
        | cons p items => rfl
      simp [hget, hne]

/-- The completion edits the base of the session. -/
theorem editedBy_completeExtendedLoad (session : Session) (base : Record) :
    EditedBy session base (completeExtendedLoad session base) := by
  have hiff := and_congr_right_iff.mpr fun (_ : Dict.contains base.data "IsExtendedLoad" = true) =>
    extendedLoadCompleted_iff session
  constructor
  · intro h
    exact if_pos (hiff.mpr h)
  · intro h
    exact if_neg fun h' => h (hiff.mp h')

theorem EditedBy.id {session : Session} {base sent : Record} (h : EditedBy session base sent) :
    sent.id = base.id := by
  by_cases hload : Dict.contains base.data "IsExtendedLoad" = true ∧ LoadCompleted session
  · rw [h.1 hload]
  · rw [h.2 hload]

section

variable (pk : Packaging) {isWord : Char → Bool} (checks : DataConsistencyChecks δ)
  (state : RequestState) (o : Outside) {s : Server}

/-- **The POST of data** publishes once. -/
theorem postData_spec (recordId : String) :
    Effect.Post (postData pk checks state o recordId) s fun out t =>
      Publishes pk checks o (s.records.find recordId none) Eq (fun _ _ => False)
        (fun answer version => recordId ≠ "" → TellsVersion recordId answer version) s t out := by
  refine Effect.post_bind (fetchRecord_spec o recordId none s) ?_ ?_
  · rintro e t ⟨rfl, -⟩
    exact .of_unsent
  · rintro base t ⟨rfl, hfind⟩
    have hfind := hfind base rfl
    rw [hfind]
    refine Effect.post_lift_bind (fun e _ => .of_unsent) fun _ _ => ?_
    have hP : ∀ q : WorkerRequest, Dict.get q.params "from_bulk" = none →
        ∀ v, Dict.get q.params "from_bulk" = some v → False := by
      intro q hq v hv
      rw [hq] at hv
      cases hv
    refine Effect.post_bind (Effect.post_mapError (writeBulk_spec checks o base t)
      (Q := fun out u => Called checks o base (fun q => Dict.get q.params "from_bulk" = none) t u
        (out.toOption.map Prod.fst)) (fun _ _ h => h) (fun _ _ h => h)) ?_ ?_
    · intro e u hcalled
      exact .of_error hcalled.records (sent_of_called hP hcalled) (returned_of_called hcalled)
    · intro bulk u hcalled
      exact setBulkFieldAndSendRecord_spec rfl (RecordStore.storedId_of_find hfind) hP hcalled

/-- An update starts from the bulk of the base record, an overwrite from none. -/
def StartsFrom (session : Session) (base : Record) (v : Value) : Prop :=
  session.mode = .update ∧
    ∃ uri, OsduBulkIdAccess.getBulkUri base = .ok uri ∧ v = .str uri.bulkId

/-- The URI that is read is the one that the session starts from. -/
theorem startsFrom_of_previousBulkUri {session : Session} {base : Record} {uri : BulkURI}
    (h : previousBulkUri session base = .ok (some uri)) :
    StartsFrom session base (.str uri.bulkId) := by
  unfold previousBulkUri at h
  split at h
  · refine ⟨‹_›, uri, ?_, rfl⟩
    cases hget : OsduBulkIdAccess.getBulkUri base with
    | ok uri' =>
      rw [hget] at h
      cases h
      rfl
    | error e =>
      rw [hget] at h
      cases e <;> cases h
  · cases h

/-- **The body of a commit** publishes once. -/
theorem commitBody_spec (recordId : String) (guard : SessionInternal) :
    Effect.Post (commitBody pk checks state o recordId guard) s fun out t =>
      Publishes pk checks o (s.records.find recordId (some guard.session.fromVersion))
        (EditedBy guard.session) (StartsFrom guard.session)
        (fun answer version => recordId ≠ "" → TellsVersion recordId answer version) s t out := by
  refine Effect.post_bind (fetchRecord_spec o recordId _ s) ?_ ?_
  · rintro e t ⟨rfl, -⟩
    exact .of_unsent
  · rintro base t ⟨rfl, hfind⟩
    have hfind := hfind base rfl
    rw [hfind]
    refine Effect.post_lift_bind (fun e _ => .of_unsent) fun _ _ => ?_
    refine Effect.post_lift_bind (fun e _ => .of_unsent) fun previous hprevious => ?_
    refine Effect.post_lift_bind (fun e _ => .of_unsent) fun reference _ => ?_
    -- the request tells the bulk that was read of the base
    have hP : ∀ q : WorkerRequest, q.params = completionParams guard.session previous reference →
        ∀ v, Dict.get q.params "from_bulk" = some v → StartsFrom guard.session base v := by
      intro q hq v hv
      rw [hq, completionParams_from_bulk] at hv
      obtain ⟨uri, rfl, rfl⟩ := Option.map_eq_some_iff.mp hv
      exact startsFrom_of_previousBulkUri hprevious
    refine Effect.post_bind
      (writeCompleteSession_spec checks o base guard.session previous reference t) ?_ ?_
    · intro e u hcalled
      exact .of_error hcalled.records (sent_of_called hP hcalled) (returned_of_called hcalled)
    · intro bulkId u hcalled
      have hedited := editedBy_completeExtendedLoad guard.session base
      refine setBulkFieldAndSendRecord_spec hedited ?_ hP hcalled
      rw [hedited.id]
      exact RecordStore.storedId_of_find hfind

/-- The response to a commit names the version the storage has answered with. -/
theorem commitResponse_of_tellsVersion (py : Pydantic τ) {recordId : String}
    (hid : IsRecordId isWord recordId) {answer : CreateUpdateRecordsResponse} {version : Nat}
    (hshort : version < 10 ^ maxStrDigits) (h : TellsVersion recordId answer version)
    (session : Session) :
    commitResponse py isWord answer session =
      .ok ⟨{ session with sessionMeta := some (session.sessionMeta.getD []) }, some version⟩ := by
  have hanswer : answer.recordIdVersions = [recordId ++ ":" ++ toString version] := h
  have hdump : ∀ done : Session, Session.validate py (done.dumpWith .uuid .datetime) = some done :=
    Session.validate_dumpWith py py.uuid_uuid py.datetime_datetime
  simp only [commitResponse, hanswer, splitRecordIdVersion_append hid hshort,
    CommitSessionResponse.ofDump, hdump]

/-- What the commit of `session` leads to: its response tells the version. -/
def CommitPublishes (recordId : String) (session : Session) (s t : Server)
    (out : Except Raised CommitSessionResponse) : Prop :=
  Publishes pk checks o (s.records.find recordId (some session.fromVersion)) (EditedBy session)
    (StartsFrom session) (fun response version => response.version = some (version : Int)) s t out

/-- The commit of a session publishes as its body does. -/
theorem completeStoredSession_spec {py : Pydantic τ} (hids : StoresRecordIds isWord s.records)
    {b : SessionBlob τ} {stored : StoredSession} (hs : Holds py b stored) (recordId : String)
    (clock : CompletionClock) :
    Effect.Post (completeStoredSession py pk isWord checks state o recordId clock .commit) (b, s)
      fun out p => CommitPublishes pk checks o recordId stored.session s p.2 out := by
  have hguarded : Effect.Post
      (completion py true clock (commitBody pk checks state o recordId)) (b, s) fun out p =>
        Publishes pk checks o (s.records.find recordId (some stored.session.fromVersion))
          (EditedBy stored.session) (StartsFrom stored.session)
          (fun done version => recordId ≠ "" → TellsVersion recordId done.1 version) s p.2 out := by
    rcases completion_spec hs true clock (commitBody pk checks state o recordId) s with
      ⟨e, hrun⟩ | ⟨-, b', -, hrun⟩
    · rw [Effect.Post, hrun]
      exact .of_unsent
    · have hbody := commitBody_spec pk checks state o (s := s) recordId
        ⟨stored.updatedFor true .enter clock.enter.now, some clock.enter.fresh⟩
      -- the guard has changed nothing the publication depends on
      have hedited : EditedBy (stored.updatedFor true .enter clock.enter.now).session =
          EditedBy stored.session := rfl
      have hstarts : StartsFrom (stored.updatedFor true .enter clock.enter.now).session =
          StartsFrom stored.session := rfl
      have hversion : (stored.updatedFor true .enter clock.enter.now).session.fromVersion =
          stored.session.fromVersion := rfl
      rw [hedited, hstarts, hversion] at hbody
      rw [Effect.Post] at hbody ⊢
      rw [hrun]
      cases hout : commitBody pk checks state o recordId
          ⟨stored.updatedFor true .enter clock.enter.now, some clock.enter.fresh⟩ s with
      | mk out t =>
        rw [hout] at hbody
        cases out with
        | error e => exact .of_error (hbody.failed e rfl) hbody.sent hbody.returned
        | ok answer => exact .of_ok (hbody.ended answer rfl) hbody.sent hbody.returned
  refine Effect.post_bind hguarded ?_ ?_
  · intro e p h
    exact .of_error (h.failed e rfl) h.sent h.returned
  · intro done p h
    -- the response takes the version from the text that names the record and the version
    obtain ⟨base, version, hfind, hpublished, htells⟩ := h.ended done rfl
    show Publishes _ _ _ _ _ _ _ _ _ (commitResponse py isWord done.1 done.2.session)
    have hid := hids _ _ _ hfind
    rw [commitResponse_of_tellsVersion py hid hpublished.short (htells hid.ne_empty)]
    exact .of_ok ⟨base, version, hfind, hpublished, rfl⟩ h.sent h.returned

/-- `complete_session` leaves of the session and the server what its guard does. -/
theorem completeSession_state (py : Pydantic τ) (isWord : Char → Bool) (recordId : String)
    (sessionId : UUID) (clock : CompletionClock) (update : UpdateSessionStateValue)
    (b : SessionBlob τ) (s : Server) :
    (completeSession py pk isWord checks state o recordId sessionId clock update (some b, s)).2 =
      (match update with
        | .commit => (completion py true clock (commitBody pk checks state o recordId) (b, s)).2
        | .abandon =>
          (completion py false clock (fun _ => (pure () : Effect Server Raised Unit)) (b, s)).2).map
        some id := by
  have hstored :
      (completeStoredSession py pk isWord checks state o recordId clock update (b, s)).2 =
      match update with
      | .commit => (completion py true clock (commitBody pk checks state o recordId) (b, s)).2
      | .abandon =>
        (completion py false clock (fun _ => (pure () : Effect Server Raised Unit)) (b, s)).2 := by
    cases update with
    | commit => exact Effect.bind_lift_state _ _ _
    | abandon => exact Effect.bind_lift_state _ _ _
  -- the exceptions are only renamed on their way out
  have hrenamed := Effect.mapError_state
    (fun e => bulkErrorAsHttp (sessionErrorAsHttp recordId sessionId e))
    (completeStoredSession py pk isWord checks state o recordId clock update) (b, s)
  rw [← hstored, ← hrenamed]
  rfl

/-- To the server, a completion does nothing or what the body of a commit does. -/
theorem completeSession_server (py : Pydantic τ) (isWord : Char → Bool) (recordId : String)
    (sessionId : UUID) (clock : CompletionClock) (update : UpdateSessionStateValue)
    (b : Option (SessionBlob τ)) :
    Effect.Post (completeSession py pk isWord checks state o recordId sessionId clock update) (b, s)
      fun _ p => p.2 = s ∨ ∃ guard, p.2 = (commitBody pk checks state o recordId guard s).2 := by
  cases b with
  | none => exact Or.inl rfl
  | some b =>
    rw [Effect.Post, completeSession_state]
    cases update with
    | commit => exact completion_state py true clock (commitBody pk checks state o recordId) b s
    | abandon =>
      -- the body of an abandon does nothing
      have hstate := completion_state py false clock
        (fun _ => (pure () : Effect Server Raised Unit)) b s
      rcases hstate with h | ⟨-, h⟩
      · exact Or.inl h
      · exact Or.inl h

/-- **A bulk write publishes at most once**, for every base record, every session and
every answer of the storage and of the worker. If the handler fails, no version is
added. If it ends, one is: the base record, edited by the session, with the URI of a
bulk whose description has passed the checks against that record; a commit answers the
version the storage has assigned. The worker is told a previous bulk in update mode only. -/
theorem bulk_write_publishes_once (py : Pydantic τ) (hids : StoresRecordIds isWord s.records)
    (recordId : String) :
    Effect.Post (postData pk checks state o recordId) s (fun out t =>
      Publishes pk checks o (s.records.find recordId none) Eq (fun _ _ => False)
        (TellsVersion recordId) s t out) ∧
    ∀ sessionId clock (b : Option (SessionBlob τ)),
      Effect.Post (completeSession py pk isWord checks state o recordId sessionId clock .commit)
        (b, s) fun out p =>
          match b.bind fun b => (getSession py b).toOption with
          | some i => CommitPublishes pk checks o recordId i.session s p.2 out
          | none => (∃ e, out = .error e) ∧ p.2 = s := by
  refine ⟨(postData_spec pk checks state o recordId).mono fun out t h => h.mono ?_, ?_⟩
  · intro base hfind a version htells
    exact htells (hids _ _ _ hfind).ne_empty
  intro sessionId clock b
  cases b with
  | none => exact ⟨⟨_, rfl⟩, rfl⟩
  | some b =>
    rw [Option.bind_some]
    cases hget : getSession py b with
    | ok i =>
      -- the exceptions are only renamed on their way out
      refine Effect.post_mapError
        (Q := fun out p => CommitPublishes pk checks o recordId i.session s p.2 out)
        (completeStoredSession_spec pk checks state o hids
          (holds_of_getSession hget) recordId clock)
        ?_ ?_
      · intro e p h
        exact .of_error (h.failed e rfl) h.sent h.returned
      · intro a p h
        exact h
    | error e =>
      -- a session that cannot be read keeps the guard from entering
      have hrun :=
        completion_of_unreadable hget true clock (commitBody pk checks state o recordId) s
      have hguard : Effect.Post
          (completion py true clock (commitBody pk checks state o recordId)) (b, s)
          fun out p => (∃ e, out = .error e) ∧ p.2 = s := by
        rw [Effect.Post, hrun]
        exact ⟨⟨e, rfl⟩, rfl⟩
      have hstored : Effect.Post
          (completeStoredSession py pk isWord checks state o recordId clock .commit) (b, s)
          fun out p => (∃ e, out = .error e) ∧ p.2 = s := by
        refine Effect.post_bind hguard ?_ ?_
        · rintro e p ⟨-, hp⟩
          exact ⟨⟨e, rfl⟩, hp⟩
        · rintro done p ⟨⟨e, he⟩, -⟩
          cases he
      refine Effect.post_mapError (Q := fun out p => (∃ e, out = .error e) ∧ p.2 = s) hstored ?_ ?_
      · rintro e p ⟨-, hp⟩
        exact ⟨⟨_, rfl⟩, hp⟩
      · rintro a p ⟨⟨e, he⟩, -⟩
        cases he

end

/-! ## A bulk write -/

/-- The well log the sample session is on. -/
def sampleRecord : Record where
  id := some sampleSession.session.recordId
  kind := "osdu:wks:work-product-component--WellLog:1.3.0"
  data := []

/-- A server with one record. -/
def sampleServer : Server where
  records := RecordStore.empty.add "" sampleSession.session.fromVersion sampleRecord

/-- The word characters among the ASCII ones. -/
def asciiWord (c : Char) : Bool := c.isAlphanum || c = '_'

/-- Equal versions are in order. -/
def samplePackaging : Packaging := ⟨fun a b => if a = b then some true else none⟩

/-- No check of the data. -/
def noConsistencyChecks : DataConsistencyChecks Unit where
  bulkInfo := fun _ => .ok ()
  getReferenceCurve := fun _ => .ok .none
  checkBulkConsistency := fun _ _ => .ok ()

/-- Every service answers, and the worker has written one bulk. -/
def sampleOutside : Outside where
  fetch := .ok ()
  body := .ok ()
  worker := .ok
    { statusCode := 200
      text := ""
      json := .ok (.dict [("bulkid", .str (UUID.ofNat 5).text), ("describe", .dict [])]) }
  write := .ok fun _ => ⟨"", 1562066009929332, short_of_lt (by decide)⟩
  served := Outside.served_ok

theorem storesRecordIds_sampleServer : StoresRecordIds asciiWord sampleServer.records := by
  intro recordId version record hfind
  have hmem := RecordStore.mem_of_find hfind
  by_cases hid : recordId = sampleSession.session.recordId
  · subst hid
    show matchesRecordId asciiWord _ = true
    decide
  · have hnil : sampleServer.records.versions recordId = [] := Function.update_of_ne hid ..
    rw [hnil] at hmem
    cases hmem

/-- The body of the commit of the sample session. -/
def sampleCommitBody : Except Raised CreateUpdateRecordsResponse × Server :=
  commitBody samplePackaging noConsistencyChecks (v3State .wellLog) sampleOutside
    sampleSession.session.recordId
    ⟨sampleSession.updatedFor true .enter sampleClock.enter.now, some sampleClock.enter.fresh⟩
    sampleServer

/-- The commit of the sample session leaves of the server what its body does. -/
theorem completeSession_sample {b : SessionBlob Value} (hs : Holds .trees b sampleSession) :
    (completeSession .trees samplePackaging asciiWord noConsistencyChecks (v3State .wellLog)
      sampleOutside sampleSession.session.recordId sampleSession.session.id sampleClock .commit
      (some b, sampleServer)).2.2 = sampleCommitBody.2 := by
  rw [completeSession_state]
  obtain ⟨b', henter, -⟩ := updateFor_of_allowed hs true .enter sampleClock.enter
    (Or.inr (enter_allowed rfl true sampleClock.enter.now))
  exact completion_state_of_entered henter

/-- A whole bulk is written for the sample record, and its session is committed: each publishes
one version. -/
theorem bulk_write_publishes_once_sample :
    (∃ base version, sampleServer.records.find sampleSession.session.recordId none = some base ∧
      PublishedOnce samplePackaging noConsistencyChecks sampleOutside base Eq version sampleServer
        (postData samplePackaging noConsistencyChecks (v3State .wellLog) sampleOutside
          sampleSession.session.recordId sampleServer).2) ∧
    ∃ b response p, Holds .trees b sampleSession ∧
      completeSession .trees samplePackaging asciiWord noConsistencyChecks (v3State .wellLog)
        sampleOutside sampleSession.session.recordId sampleSession.session.id sampleClock .commit
        (some b, sampleServer) = (.ok response, p) ∧
      CommitPublishes samplePackaging noConsistencyChecks sampleOutside
        sampleSession.session.recordId sampleSession.session sampleServer p.2 (.ok response) := by
  have hpublishes := bulk_write_publishes_once samplePackaging noConsistencyChecks
    (v3State .wellLog) sampleOutside .trees storesRecordIds_sampleServer
    sampleSession.session.recordId
  constructor
  · have hok : (postData samplePackaging noConsistencyChecks (v3State .wellLog) sampleOutside
        sampleSession.session.recordId sampleServer).1.toOption.isSome = true := by decide
    cases hout : (postData samplePackaging noConsistencyChecks (v3State .wellLog) sampleOutside
        sampleSession.session.recordId sampleServer).1 with
    | error e =>
      rw [hout] at hok
      cases hok
    | ok answer =>
      obtain ⟨base, version, hfind, hpublished, -⟩ := hpublishes.1.ended answer hout
      exact ⟨base, version, hfind, hpublished⟩
  · obtain ⟨b, hs⟩ := exists_holds_sampleSession
    have hserver := completeSession_sample hs
    have hcommit := hpublishes.2 sampleSession.session.id sampleClock (some b)
    rw [Option.bind_some, hs, Effect.Post] at hcommit
    generalize hrun : completeSession .trees samplePackaging asciiWord noConsistencyChecks
      (v3State .wellLog) sampleOutside sampleSession.session.recordId sampleSession.session.id
      sampleClock .commit (some b, sampleServer) = ran at hserver hcommit
    obtain ⟨out, p⟩ := ran
    cases out with
    | ok response => exact ⟨b, response, p, hs, hrun, hcommit⟩
    | error e =>
      -- a commit that fails adds no version, but the body has added one
      have hsame : p.2.records = sampleServer.records := hcommit.failed e rfl
      have hbody : p.2 = sampleCommitBody.2 := hserver
      have hadded : (sampleCommitBody.2.records.versions sampleSession.session.recordId).length =
          2 := by decide
      have hbefore : (sampleServer.records.versions sampleSession.session.recordId).length = 1 := by
        decide
      rw [← hbody, hsame, hbefore] at hadded
      cases hadded

end WellboreDdms
