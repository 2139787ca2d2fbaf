import WellboreDdms.Bulk.Provenance

/-!
# Requests that interleave

The handlers of records and of bulks await the storage and the worker between their
parts, and there other requests go on. A POST reads the versions its records replace,
and writes the records some awaits later.

- `postStart`, `fetchBase`, `postDataVersion`, `commitVersion`, `postWrite`: the parts
  of the handlers. `postChecked_eq`, `postData_eq` and `commitBody_eq` put them together.
- `Race.step`: any number of requests, each part a step on the one record store.
- `last_acknowledged_bulk`: once all requests have ended, the latest bulk URI of every
  record is the one of its last acknowledged bulk write, in every run in which no POST
  writes on a check that a bulk write has outrun, and no commit fails after its write.
- `acknowledged_bulk_is_reverted`: the run that shows the first condition is needed.
-/

namespace WellboreDdms

open Python Machine

variable {τ δ ι : Type}

/-! ## The parts of the handlers -/

section

variable (c : RecordChecks) (pk : Packaging) (checks : DataConsistencyChecks δ) (o : Outside)

/-- A POST until it checks the bulk URIs. -/
def postStart (e : Entity) (records : List Record) : Effect Server Raised Unit := do
  Effect.lift (c.validateRecords records)
  Effect.lift (raiseIfNotOsduRightEntitiesKind records (v3State e))

/-- A POST once it has checked them. -/
def postWrite (e : Entity) (records : List Record) :
    Effect Server Raised CreateUpdateRecordsResponse := do
  Effect.lift (checkEach (c.checkConsistency e) 0 records)
  createOrUpdateRecords o records

/-- The record a bulk write starts from. -/
def fetchBase (e : Entity) (recordId : String) (version : Option Int) :
    Effect Server Raised Record := do
  let record ← fetchRecord o recordId version
  Effect.lift (raiseIfNotOsduRightEntityKind record (v3State e))
  pure record

/-- The version `post_data` makes of it, once the worker has written the bulk. -/
def postDataVersion (base : Record) : Effect Server Raised Record := do
  let bulk ← Effect.mapError bulkErrorAsHttp (writeBulk checks o base)
  Effect.lift (OsduBulkIdAccess.setBulkUri pk base bulk.1)

/-- The version a commit makes of it. -/
def commitVersion (guard : SessionInternal) (base : Record) : Effect Server Raised Record := do
  let previous ← Effect.lift (previousBulkUri guard.session base)
  let reference ← Effect.lift (checks.getReferenceCurve base)
  let bulkId ← writeCompleteSession checks o base guard.session previous reference
  Effect.lift (OsduBulkIdAccess.setBulkUri pk (completeExtendedLoad guard.session base) bulkId)

/-- A checked POST is its start, its check and its write. -/
theorem postChecked_eq (e : Entity) (records : List Record) :
    postChecked c o e records = (do
      postStart c e records
      raiseIfInvalidBulkUri o 0 records
      postWrite c o e records) := by
  simp only [postChecked, postStart, postWrite, bind_assoc]

/-- A bulk write is a fetch and a version made of it. -/
theorem postData_eq (e : Entity) (recordId : String) :
    postData pk checks (v3State e) o recordId = (do
      let base ← fetchBase o e recordId none
      let record ← postDataVersion pk checks o base
      createOrUpdateRecords o [record]) := by
  simp only [postData, fetchBase, postDataVersion, setBulkFieldAndSendRecord, bind_assoc, pure_bind]

/-- A commit is a fetch and a version made of it, too. -/
theorem commitBody_eq (e : Entity) (recordId : String) (guard : SessionInternal) :
    commitBody pk checks (v3State e) o recordId guard = (do
      let base ← fetchBase o e recordId (some guard.session.fromVersion)
      let record ← commitVersion pk checks o guard base
      createOrUpdateRecords o [record]) := by
  simp only [commitBody, fetchBase, commitVersion, setBulkFieldAndSendRecord, bind_assoc, pure_bind]

end

/-! ## The requests -/

/-- A POST on a route that checks the bulk URIs, or a bulk write. A commit is its body,
under the guard of its session. -/
inductive RaceRequest where
  | post (e : Entity) (records : List Record)
  | postData (e : Entity) (recordId : String)
  | commit (e : Entity) (recordId : String) (guard : SessionInternal)

/-- The records of a POST. -/
def RaceRequest.posted : RaceRequest → List Record
  | .post _ records => records
  | .postData _ _ | .commit _ _ _ => []

/-- How far a request is. A commit that is `closing` has written its record and has
its session to update. -/
inductive RacePhase where
  | created
  | checking (unchecked : List Nat)
  | fetched (base : Record)
  | ready (record : Record)
  | closing
  | ended (acknowledged : Bool)

/-- The request has started and has not ended. -/
def RacePhase.underWay : RacePhase → Bool
  | .created | .ended _ => false
  | _ => true

/-- The request was answered with success. -/
def RacePhase.acknowledged : RacePhase → Bool
  | .ended acknowledged => acknowledged
  | _ => false

/-- Nothing but its acknowledgement is left of a bulk write. -/
def RacePhase.written : RacePhase → Bool
  | .closing => true
  | p => p.acknowledged

/-- A request that has written a bulk is acknowledged once it has ended. -/
theorem RacePhase.acknowledged_of_written {p : RacePhase} (hwritten : p.written = true)
    (hended : p.underWay = false) : p.acknowledged = true := by
  cases p with
  | closing => cases hended
  | ended acknowledged => exact hwritten
  | created | checking unchecked | fetched base | ready record => cases hwritten

/-- The write of the record of a bulk write, and the ids the storage has answered. -/
structure Publication (ι : Type) where
  request : ι
  recordIds : List String
  record : Record

/-- The requests over one server. Two fields only keep account: `published` has the
publications, the last one first, and `current` the checks made of the records of
POSTs (the request, and the index of the record) that no publication has outrun. -/
structure Race (ι : Type) where
  server : Server
  phase : ι → RacePhase
  published : List (Publication ι)
  current : List (ι × Nat)

/-- What a request does next, up to its next await. -/
inductive RaceEvent (ι : Type) where
  | start (i : ι)
  | check (i : ι) (n : Nat) (o : Outside)
  | fetch (i : ι) (o : Outside)
  | work (i : ι) (o : Outside)
  | write (i : ι) (o : Outside)
  | close (i : ι)
  | raise (i : ι)

namespace Race

/-- Nothing has started. -/
def start (server : Server) : Race ι where
  server := server
  phase := fun _ => .created
  published := []
  current := []

section

variable [DecidableEq ι]

/-- The request goes on to its next phase. -/
def enter (r : Race ι) (i : ι) (p : RacePhase) : Race ι :=
  { r with phase := Function.update r.phase i p }

/-- A part of request `i` runs; the request ends where the part raises. -/
def advance (r : Race ι) (i : ι) {α : Type} (x : Effect Server Raised α)
    (next : α → Race ι → Race ι) : Race ι :=
  match x r.server with
  | (.ok a, s) => next a { r with server := s }
  | (.error _, s) => { r with server := s }.enter i (.ended false)

variable (d : Deployment τ δ) (requests : ι → RaceRequest)

/-- The id under which the `n`-th record of a POST is looked up. -/
def checkedId (c : ι × Nat) : Option String := (requests c.1).posted[c.2]?.bind Record.ownId

/-- The record is published, and the checks of its ids are out of date. -/
def publish (r : Race ι) (i : ι) (recordIds : List String) (record : Record) : Race ι :=
  { r with
    published := ⟨i, recordIds, record⟩ :: r.published
    current := r.current.filter fun c => (checkedId requests c).all fun k => k ∉ recordIds }

/-- One part of one request. The checks of a POST come in any order. A call that fails
is an answer of `Outside`; `raise` stands for the other ends without acknowledgement,
those of the session guard among them. -/
def step (r : Race ι) : RaceEvent ι → Option (Race ι)
  | .start i =>
    match r.phase i, requests i with
    | .created, .post e records =>
      some (r.advance i (postStart d.recordChecks e records)
        fun _ r => r.enter i (.checking (List.range records.length)))
    | _, _ => none
  | .check i n o =>
    match r.phase i, (requests i).posted[n]? with
    | .checking unchecked, some record =>
      if n ∈ unchecked then
        some (r.advance i (raiseIfInvalidBulkUriTask o n record) fun _ r =>
          { r with current := (i, n) :: r.current }.enter i (.checking (unchecked.erase n)))
      else none
    | _, _ => none
  | .fetch i o =>
    match r.phase i, requests i with
    | .created, .postData e recordId =>
      some (r.advance i (fetchBase o e recordId none) fun base r => r.enter i (.fetched base))
    | .created, .commit e recordId guard =>
      some (r.advance i (fetchBase o e recordId (some guard.session.fromVersion))
        fun base r => r.enter i (.fetched base))
    | _, _ => none
  | .work i o =>
    match r.phase i, requests i with
    | .fetched base, .postData e _ =>
      some (r.advance i (postDataVersion d.pk (d.dataChecks e) o base)
        fun record r => r.enter i (.ready record))
    | .fetched base, .commit e _ guard =>
      some (r.advance i (commitVersion d.pk (d.dataChecks e) o guard base)
        fun record r => r.enter i (.ready record))
    | _, _ => none
  | .write i o =>
    match r.phase i, requests i with
    | .checking [], .post e records =>
      if o.assignsNewIds r.server.records records then
        some (r.advance i (postWrite d.recordChecks o e records)
          fun _ r => r.enter i (.ended true))
      else none
    | .ready record, .postData _ _ =>
      some (r.advance i (createOrUpdateRecords o [record])
        fun answer r => (r.publish requests i answer.recordIds record).enter i (.ended true))
    | .ready record, .commit _ _ _ =>
      some (r.advance i (createOrUpdateRecords o [record])
        fun answer r => (r.publish requests i answer.recordIds record).enter i .closing)
    | _, _ => none
  | .close i =>
    match r.phase i with
    | .closing => some (r.enter i (.ended true))
    | _ => none
  | .raise i => if (r.phase i).underWay then some (r.enter i (.ended false)) else none

end

/-- The URI of the last of the publications on record `k`, the one it has in `s₀` if
there is none. -/
def lastPublished (s₀ : RecordStore) (published : List (Publication ι)) (k : String) :
    Except Raised (Option BulkURI) :=
  match published.find? fun w => k ∈ w.recordIds with
  | some w => validBulkUri w.record
  | none => s₀.latestBulkUri k

/-- The URI of the last acknowledged bulk write on `k`, by the order of the writes. -/
def lastAcknowledged (s₀ : RecordStore) (r : Race ι) (k : String) :
    Except Raised (Option BulkURI) :=
  lastPublished s₀ (r.published.filter fun w => (r.phase w.request).acknowledged) k

/-- The event does none of two things: a POST that writes a record on which a bulk has
been published since its check, and a commit that ends without acknowledgement although
it has written its record. -/
def Unraced (requests : ι → RaceRequest) (r : Race ι) : RaceEvent ι → Prop
  | .write i _ => ∀ n < (requests i).posted.length, (i, n) ∈ r.current
  | .raise i => (r.phase i).written = false
  | _ => True

instance [DecidableEq ι] (requests : ι → RaceRequest) (r : Race ι) (e : RaceEvent ι) :
    Decidable (Unraced requests r e) :=
  match e with
  | .write i _ => inferInstanceAs (Decidable
    (∀ n < (requests i).posted.length, (i, n) ∈ r.current))
  | .raise i => inferInstanceAs (Decidable ((r.phase i).written = false))
  | .start _ | .check _ _ _ | .fetch _ _ | .work _ _ | .close _ => isTrue trivial

/-! ## The invariant -/

/-- The latest URIs are those of the last publications, every publication is or will be
acknowledged, and the records of the current checks keep their URIs. -/
structure Settled (requests : ι → RaceRequest) (s₀ : RecordStore) (r : Race ι) : Prop where
  latest : ∀ k, r.server.records.latestBulkUri k = lastPublished s₀ r.published k
  written : ∀ w ∈ r.published, (r.phase w.request).written = true
  keeps : ∀ c ∈ r.current, ∀ record, (requests c.1).posted[c.2]? = some record →
    KeepsBulkUri r.server.records record

theorem settled_start (requests : ι → RaceRequest) (server : Server) :
    Settled requests server.records (start server) where
  latest := fun _ => rfl
  written := nofun
  keeps := nofun

section

variable {requests : ι → RaceRequest} {s₀ : RecordStore} {r : Race ι}

/-- What leaves the latest URIs alone keeps the invariant. -/
theorem Settled.same_latest (h : Settled requests s₀ r) {s : Server}
    (hlatest : ∀ k, s.records.latestBulkUri k = r.server.records.latestBulkUri k) :
    Settled requests s₀ { r with server := s } where
  latest := fun k => (hlatest k).trans (h.latest k)
  written := h.written
  keeps := fun c hc record hrecord => (h.keeps c hc record hrecord).congr hlatest

/-- A check that has passed is current. -/
theorem Settled.checked (h : Settled requests s₀ r) {i : ι} {n : Nat} {record : Record}
    (hrecord : (requests i).posted[n]? = some record)
    (hkeeps : KeepsBulkUri r.server.records record) :
    Settled requests s₀ { r with current := (i, n) :: r.current } where
  latest := h.latest
  written := h.written
  keeps := by
    intro c hc record' hrecord'
    rcases List.mem_cons.mp hc with rfl | hc
    · cases hrecord.symm.trans hrecord'
      exact hkeeps
    · exact h.keeps c hc record' hrecord'

variable [DecidableEq ι]

/-- A request may go on to any phase, if it has not written a bulk or stays past it. -/
theorem Settled.enter (h : Settled requests s₀ r) {i : ι} {p : RacePhase}
    (hp : (r.phase i).written = true → p.written = true) : Settled requests s₀ (r.enter i p) where
  latest := h.latest
  written := by
    intro w hw
    by_cases hi : w.request = i
    · have hsame : (r.enter i p).phase w.request = p := by
        rw [hi]
        exact Function.update_self ..
      rw [hsame]
      exact hp (hi ▸ h.written w hw)
    · have hother : (r.enter i p).phase w.request = r.phase w.request :=
        Function.update_of_ne hi ..
      rw [hother]
      exact h.written w hw
  keeps := h.keeps

/-- A request that has not written a bulk may go on to any phase. -/
theorem Settled.enter_unwritten (h : Settled requests s₀ r) {i : ι}
    (hi : (r.phase i).written = false) (p : RacePhase) : Settled requests s₀ (r.enter i p) := by
  refine h.enter fun hwritten => ?_
  cases hi.symm.trans hwritten

/-- A part that raises leaves the records as they are. -/
theorem Settled.advance (h : Settled requests s₀ r) {i : ι} (hi : (r.phase i).written = false)
    {α : Type} {x : Effect Server Raised α} {next : α → Race ι → Race ι}
    {Q : Except Raised α → Server → Prop} (hx : Effect.Post x r.server Q)
    (herror : ∀ e s, Q (.error e) s → s.records = r.server.records)
    (hok : ∀ a s, Q (.ok a) s → Settled requests s₀ (next a { r with server := s })) :
    Settled requests s₀ (r.advance i x next) := by
  unfold Race.advance
  unfold Effect.Post at hx
  cases hrun : x r.server with
  | mk out s =>
    rw [hrun] at hx
    cases out with
    | ok a => exact hok a s hx
    | error e =>
      have hrecords := herror e s hx
      have hsame : Settled requests s₀ { r with server := s } :=
        h.same_latest fun k => by rw [hrecords]
      exact hsame.enter_unwritten hi _

/-- A part that writes no record. -/
theorem Settled.advance_of_records (h : Settled requests s₀ r) {i : ι}
    (hi : (r.phase i).written = false) {α : Type} {x : Effect Server Raised α}
    (hx : Effect.Post x r.server fun _ s => s.records = r.server.records)
    (phase : α → RacePhase) :
    Settled requests s₀ (r.advance i x fun a r => r.enter i (phase a)) := by
  refine h.advance hi hx (fun _ _ hs => hs) fun a s hs => ?_
  have hsame : Settled requests s₀ { r with server := s } := h.same_latest fun k => by rw [hs]
  exact hsame.enter_unwritten hi _

/-- **A publication**: the version becomes the latest one of its record, and the checks
of that record are no longer current. -/
theorem Settled.publish (h : Settled requests s₀ r) {i : ι} {record : Record} {newId : String}
    {version : Int} {s : Server}
    (hs : s.records = r.server.records.add newId version record) {p : RacePhase}
    (hp : p.written = true) :
    Settled requests s₀
      (({ r with server := s }.publish requests i [record.storedId newId] record).enter i p) where
  latest := by
    intro k
    show s.records.latestBulkUri k = lastPublished s₀ (_ :: r.published) k
    rw [hs, lastPublished]
    by_cases hk : k = record.storedId newId
    · subst hk
      rw [RecordStore.latestBulkUri_of_find (RecordStore.find_add_self _ newId version record),
        List.find?_cons_of_pos (by simp)]
      rfl
    · rw [List.find?_cons_of_neg (by simpa using hk), RecordStore.latestBulkUri,
        RecordStore.find_add_of_ne _ newId version record hk]
      exact h.latest k
  written := by
    intro w hw
    by_cases hi : w.request = i
    · show (Function.update r.phase i p w.request).written = true
      rw [hi, Function.update_self]
      exact hp
    · show (Function.update r.phase i p w.request).written = true
      rw [Function.update_of_ne hi]
      rcases List.mem_cons.mp hw with rfl | hw
      · exact absurd rfl hi
      · exact h.written w hw
  keeps := by
    -- the checks left are those of other records
    intro c hc record' hrecord'
    obtain ⟨hc, hother⟩ := List.mem_filter.mp hc
    have hkeeps := h.keeps c hc record' hrecord'
    refine ⟨hkeeps.1.trans ?_, hkeeps.2⟩
    show _ = s.records.previousBulkUri record'
    cases hown : record'.ownId with
    | none => rw [RecordStore.previousBulkUri_of_new hown, RecordStore.previousBulkUri_of_new hown]
    | some k =>
      have hk : k ≠ record.storedId newId := by
        have hid : checkedId requests c = some k := by
          rw [checkedId, hrecord', Option.bind_some, hown]
        rw [hid] at hother
        simpa using hother
      rw [RecordStore.previousBulkUri_of_ownId hown, RecordStore.previousBulkUri_of_ownId hown, hs,
        RecordStore.latestBulkUri, RecordStore.latestBulkUri,
        RecordStore.find_add_of_ne _ newId version record hk]

/-! ## The steps -/

/-- A POST starts without touching the records. -/
theorem postStart_records (c : RecordChecks) (e : Entity) (records : List Record) (s : Server) :
    Effect.Post (postStart c e records) s fun _ t => t.records = s.records := by
  refine Effect.post_lift_bind (fun _ _ => rfl) fun _ _ => ?_
  rfl

theorem fetchBase_records (o : Outside) (e : Entity) (recordId : String) (version : Option Int)
    (s : Server) :
    Effect.Post (fetchBase o e recordId version) s fun _ t => t.records = s.records := by
  refine Effect.post_bind (fetchRecord_spec o recordId version s) ?_ ?_
  · rintro _ t ⟨rfl, -⟩
    rfl
  · rintro record t ⟨rfl, -⟩
    exact Effect.post_lift_bind (fun _ _ => rfl) fun _ _ => rfl

/-- The new version is made without touching the records. -/
theorem postDataVersion_records (pk : Packaging) (checks : DataConsistencyChecks δ) (o : Outside)
    (base : Record) (s : Server) :
    Effect.Post (postDataVersion pk checks o base) s fun _ t => t.records = s.records := by
  have hworker : Effect.Post (Effect.mapError bulkErrorAsHttp (writeBulk checks o base)) s
      fun _ t => t.records = s.records :=
    Effect.post_mapError (writeBulk_spec checks o base s) (fun _ _ h => h.records)
      fun _ _ h => h.records
  exact Effect.post_bind hworker (fun _ _ h => h) fun _ _ h => h

theorem commitVersion_records (pk : Packaging) (checks : DataConsistencyChecks δ) (o : Outside)
    (guard : SessionInternal) (base : Record) (s : Server) :
    Effect.Post (commitVersion pk checks o guard base) s fun _ t => t.records = s.records := by
  refine Effect.post_lift_bind (fun _ _ => rfl) fun previous _ => ?_
  refine Effect.post_lift_bind (fun _ _ => rfl) fun reference _ => ?_
  exact Effect.post_bind
    (writeCompleteSession_spec checks o base guard.session previous reference s)
    (fun _ _ h => h.records) fun _ _ h => h.records

/-- The record of a bulk write is written, and the request goes on as acknowledged. -/
theorem Settled.write_bulk (h : Settled requests s₀ r) {i : ι} (hi : (r.phase i).written = false)
    (o : Outside) (record : Record) {p : RacePhase} (hp : p.written = true) :
    Settled requests s₀ (r.advance i (createOrUpdateRecords o [record]) fun answer r =>
      (r.publish requests i answer.recordIds record).enter i p) := by
  refine h.advance hi (createOrUpdateRecords_spec o record r.server) ?_ ?_
  · intro e s hs
    rw [hs.1 e rfl]
  · intro answer s hs
    obtain ⟨assign, -, rfl, hids, -⟩ := hs.2 answer rfl
    rw [hids]
    exact h.publish rfl hp

/-- The task of one record is done: it is a current check if it has passed. -/
theorem Settled.check (h : Settled requests s₀ r) {i : ι} (hi : (r.phase i).written = false)
    {n : Nat} {record : Record} (hrecord : (requests i).posted[n]? = some record) (o : Outside)
    (p : RacePhase) :
    Settled requests s₀ (r.advance i (raiseIfInvalidBulkUriTask o n record) fun _ r =>
      ({ r with current := (i, n) :: r.current } : Race ι).enter i p) := by
  refine h.advance hi (raiseIfInvalidBulkUriTask_spec o n record r.server) ?_ ?_
  · rintro e s ⟨rfl, -⟩
    rfl
  · rintro u s ⟨rfl, hkeeps⟩
    exact (h.checked hrecord (hkeeps rfl)).enter_unwritten hi p

/-- The records of a POST are written, under checks that are current. -/
theorem Settled.write_post (h : Settled requests s₀ r) {i : ι} (hi : (r.phase i).written = false)
    {c : RecordChecks} {o : Outside} {e : Entity} {records : List Record}
    (hrequest : requests i = .post e records)
    (hcurrent : ∀ n < records.length, (i, n) ∈ r.current)
    (hnew : o.assignsNewIds r.server.records records = true) :
    Settled requests s₀
      (r.advance i (postWrite c o e records) fun _ r => r.enter i (.ended true)) := by
  have hkeeps : ∀ record ∈ records, KeepsBulkUri r.server.records record := by
    intro record hrecord
    obtain ⟨n, hn, rfl⟩ := List.mem_iff_getElem.mp hrecord
    refine h.keeps (i, n) (hcurrent n hn) records[n] ?_
    rw [hrequest]
    exact List.getElem?_eq_getElem hn
  have hwrite : Effect.Post (postWrite c o e records) r.server fun out s =>
      (∀ e, out = .error e → s.records = r.server.records) ∧
        ∀ k, s.records.latestBulkUri k = r.server.records.latestBulkUri k := by
    refine Effect.post_lift_bind (fun _ _ => ⟨fun _ _ => rfl, fun _ => rfl⟩) fun _ _ => ?_
    refine Effect.post_lift_bind (fun _ _ => ⟨fun _ _ => rfl, fun _ => rfl⟩)
      fun assign hassign => ?_
    refine Effect.post_modify_bind (Effect.post_pure ⟨nofun, fun k => ?_⟩)
    rw [Outside.assignsNewIds, hassign] at hnew
    refine latest_addAll hkeeps (fun j hj => ?_) k
    rw [Nat.zero_add] at hj
    exact (RecordStore.of_areNew hnew hj).2
  refine h.advance hi hwrite (fun e s hs => hs.1 e rfl) fun answer s hs => ?_
  exact (h.same_latest hs.2).enter fun _ => rfl

/-- **One event** outside the window keeps the race settled. -/
theorem settled_step {d : Deployment τ δ} {t : Race ι} {e : RaceEvent ι}
    (h : Settled requests s₀ r) (hok : Unraced requests r e)
    (hstep : step d requests r e = some t) : Settled requests s₀ t := by
  cases e with
  | start i =>
    simp only [step] at hstep
    split at hstep
    · rename_i e records hphase hrequest
      cases hstep
      exact h.advance_of_records (by rw [hphase]; rfl) (postStart_records ..) _
    · cases hstep
  | check i n o =>
    simp only [step] at hstep
    split at hstep
    · rename_i unchecked record hphase hrecord
      obtain ⟨-, hstep⟩ := Option.ite_none_right_eq_some.mp hstep
      cases hstep
      exact h.check (by rw [hphase]; rfl) hrecord o _
    · cases hstep
  | fetch i o =>
    simp only [step] at hstep
    split at hstep
    · rename_i e recordId hphase hrequest
      cases hstep
      exact h.advance_of_records (by rw [hphase]; rfl) (fetchBase_records ..) _
    · rename_i e recordId guard hphase hrequest
      cases hstep
      exact h.advance_of_records (by rw [hphase]; rfl) (fetchBase_records ..) _
    · cases hstep
  | work i o =>
    simp only [step] at hstep
    split at hstep
    · rename_i base e recordId hphase hrequest
      cases hstep
      exact h.advance_of_records (by rw [hphase]; rfl) (postDataVersion_records ..) _
    · rename_i base e recordId guard hphase hrequest
      cases hstep
      exact h.advance_of_records (by rw [hphase]; rfl) (commitVersion_records ..) _
    · cases hstep
  | write i o =>
    simp only [step] at hstep
    split at hstep
    · rename_i e records hphase hrequest
      obtain ⟨hnew, hstep⟩ := Option.ite_none_right_eq_some.mp hstep
      cases hstep
      -- the condition on the run: the checks of the POST are still current
      rw [Unraced, hrequest] at hok
      exact h.write_post (by rw [hphase]; rfl) hrequest hok hnew
    · rename_i record e recordId hphase hrequest
      cases hstep
      exact h.write_bulk (by rw [hphase]; rfl) o record rfl
    · rename_i record e recordId guard hphase hrequest
      cases hstep
      exact h.write_bulk (by rw [hphase]; rfl) o record rfl
    · cases hstep
  | close i =>
    simp only [step] at hstep
    split at hstep
    · cases hstep
      exact h.enter fun _ => rfl
    · cases hstep
  | raise i =>
    -- the request raises before its write
    obtain ⟨-, hstep⟩ := Option.ite_none_right_eq_some.mp hstep
    cases hstep
    exact h.enter_unwritten hok _

/-- **No acknowledged bulk write is reverted**: for any requests, in any order of their
parts, if no POST writes on a check that a bulk write has outrun and no commit fails
after its write, then once all have ended the latest bulk URI of every record is the
one of the last acknowledged bulk write on it. -/
theorem last_acknowledged_bulk {d : Deployment τ δ} {server : Server} {es : List (RaceEvent ι)}
    (hok : Guarded (step d requests) (Unraced requests) (start server) es)
    (hrun : run (step d requests) (start server) es = some r)
    (hended : ∀ i, (r.phase i).underWay = false) (k : String) :
    r.server.records.latestBulkUri k = lastAcknowledged server.records r k := by
  have h : Settled requests server.records r :=
    run_invariant settled_step (settled_start requests server) hok hrun
  have hall : (r.published.filter fun w => (r.phase w.request).acknowledged) = r.published := by
    refine List.filter_eq_self.mpr fun w hw => ?_
    exact RacePhase.acknowledged_of_written (h.written w hw) (hended w.request)
  rw [lastAcknowledged, hall]
  exact h.latest k

end

/-! ## A POST and bulk writes on one record -/

/-- The worker names the bulk it has written `u`. -/
def bulkWritten (u : UUID) : Outside :=
  { sampleOutside with
    worker := .ok
      { statusCode := 200
        text := ""
        json := .ok (.dict [("bulkid", .str u.text), ("describe", .dict [])]) } }

/-- The sample record is posted as it is, gets a bulk, and its session is committed. -/
def sampleRequests : Fin 3 → RaceRequest
  | 0 => .post .wellLog [sampleRecord]
  | 1 => .postData .wellLog sampleSession.session.recordId
  | 2 => .commit .wellLog sampleSession.session.recordId ⟨sampleSession, none⟩

/-- The POST is through before the first publication, which the commit then replaces. -/
def sampleRace : List (RaceEvent (Fin 3)) :=
  [.start 0, .fetch 1 sampleOutside, .check 0 0 Server.postedOnly,
    .work 1 (bulkWritten (.ofNat 5)), .write 0 Server.postedOnly, .write 1 sampleOutside,
    .fetch 2 sampleOutside, .work 2 (bulkWritten (.ofNat 6)), .write 2 sampleOutside, .close 2]

/-- A bulk write and a commit are both acknowledged. -/
theorem last_acknowledged_bulk_sample :
    ∃ r, run (step Server.sampleDeployment sampleRequests)
      (start sampleServer) sampleRace = some r ∧
      (∀ i, (r.phase i).acknowledged = true) ∧
      lastAcknowledged sampleServer.records r sampleSession.session.recordId =
        .ok (some (.ofUuid ⟨6, by decide⟩ .v1 (by decide))) ∧
      r.server.records.latestBulkUri sampleSession.session.recordId =
        lastAcknowledged sampleServer.records r sampleSession.session.recordId := by
  have hsummary : (run (step Server.sampleDeployment sampleRequests) (start sampleServer)
      sampleRace).map (fun r => (decide (∀ i, (r.phase i).underWay = false),
        decide (∀ i, (r.phase i).acknowledged = true),
        lastAcknowledged sampleServer.records r sampleSession.session.recordId)) =
      some (true, true, .ok (some (.ofUuid ⟨6, by decide⟩ .v1 (by decide)))) := by decide
  obtain ⟨r, hrun, hr⟩ := Option.map_eq_some_iff.mp hsummary
  obtain ⟨hended, hr⟩ := Prod.mk.inj hr
  obtain ⟨hacknowledged, hlast⟩ := Prod.mk.inj hr
  refine ⟨r, hrun, of_decide_eq_true hacknowledged, hlast, ?_⟩
  exact last_acknowledged_bulk (guarded_of_checkRun (by decide)) hrun (of_decide_eq_true hended) _

/-- **A metadata update reverts an acknowledged bulk write**: the bulk is published
between the check of the POST and its write. -/
theorem acknowledged_bulk_is_reverted :
    ¬ ∀ (requests : Fin 3 → RaceRequest) (server : Server) (es : List (RaceEvent (Fin 3)))
      (r : Race (Fin 3)), run (step Server.sampleDeployment requests) (start server) es = some r →
      (∀ i, (r.phase i).underWay = false) →
      ∀ k, r.server.records.latestBulkUri k = lastAcknowledged server.records r k := by
  intro h
  have hsummary : (run (step Server.sampleDeployment sampleRequests) (start sampleServer)
      [.start 0, .check 0 0 Server.postedOnly, .fetch 1 sampleOutside, .work 1 sampleOutside,
        .write 1 sampleOutside, .write 0 Server.postedOnly]).map
      (fun r => (decide (∀ i, (r.phase i).underWay = false),
        r.server.records.latestBulkUri sampleSession.session.recordId,
        lastAcknowledged sampleServer.records r sampleSession.session.recordId)) =
      some (true, .ok none, .ok (some (.ofUuid ⟨5, by decide⟩ .v1 (by decide)))) := by decide
  obtain ⟨r, hrun, hr⟩ := Option.map_eq_some_iff.mp hsummary
  obtain ⟨hended, hr⟩ := Prod.mk.inj hr
  obtain ⟨hlatest, hlast⟩ := Prod.mk.inj hr
  have hsame := h sampleRequests sampleServer _ r hrun (of_decide_eq_true hended)
    sampleSession.session.recordId
  rw [hlatest, hlast] at hsame
  cases Except.ok.inj hsame

end Race

end WellboreDdms
