import WellboreDdms.Bulk.Access
import WellboreDdms.Records.Store
import WellboreDdms.Sessions.Session

/-!
# The services behind the bulk handlers

The handlers read and write records through the client of the record storage, and
have bulks written by the worker (`BulkIOWdmsWorker`). Each awaited call may raise.

- `Server`: the records, and what has passed between the service and the worker.
- `Outside`: what the other services answer to the calls of one request.
- `fetchRecord`, `createOrUpdateRecords`: the two calls to the storage.
- `writeBulk`, `writeCompleteSession`: the two calls to the worker that write a bulk;
  `sendAndCheck_spec` says what both do after their query is built.
-/

namespace WellboreDdms

open Python Machine

/-- The checks of an entity (`DataConsistencyChecks`), with the model of the bulk they
read (`BulkInfoForConsistency(**describe)`). -/
structure DataConsistencyChecks (δ : Type) where
  bulkInfo : Value → Except Raised δ
  getReferenceCurve : Record → Except Raised Value
  checkBulkConsistency : Record → δ → Except Raised Unit

/-- A call to the worker. -/
structure WorkerRequest where
  path : String
  params : Dict String Value

/-- A response of the worker; `json` is what `response.json()` returns or raises. -/
structure WorkerResponse where
  statusCode : Nat
  text : String
  json : Except Raised Value

/-- `returned` keeps the identifiers that the worker client has returned to the
handlers, with the record each was returned for. -/
structure Server where
  records : RecordStore
  requests : List WorkerRequest := []
  returned : List (Option String × Value) := []

/-- Numbers of 19 digits, and those of `datetime` and of a clock are, can be written out. -/
theorem short_of_lt {version : Nat} (h : version < 10 ^ 19) : version < 10 ^ maxStrDigits :=
  h.trans_le (Nat.pow_le_pow_right (by decide) (by decide))

/-- What the storage assigns to a record it takes. Its number for the version is one that `str`
writes out and `int` reads. -/
structure Assigned where
  newId : String
  version : Nat
  short : version < 10 ^ maxStrDigits

/-- The answers to the calls of a request: to its reads of records, to the reading of
its own body, to the call of the worker, and to the write, record by record. A read
that fails does not fail as one of a record that is not there. -/
structure Outside where
  fetch : Except Raised Unit
  body : Except Raised Unit
  worker : Except Raised WorkerResponse
  write : Except Raised (Nat → Assigned)
  served : fetch ≠ .error (.unexpectedResponse 404)

/-- A fetch that answers. -/
theorem Outside.served_ok :
    (.ok () : Except Raised Unit) ≠ .error (.unexpectedResponse 404) := nofun

/-! ## The record storage -/

/-- `fetch_record`. -/
def fetchRecord (o : Outside) (recordId : String) (version : Option Int) :
    Effect Server Raised Record := do
  Effect.lift o.fetch
  let server ← Effect.get
  match server.records.find recordId version with
  | some record => pure record
  | none => Effect.raise (.unexpectedResponse 404)

/-- The records of one write, the `i`-th on. -/
def RecordStore.addAll (assign : Nat → Assigned) (store : RecordStore) :
    Nat → List Record → RecordStore
  | _, [] => store
  | i, r :: rs => addAll assign (store.add (assign i).newId (assign i).version r) (i + 1) rs

/-- The answer of the storage to a write. -/
structure CreateUpdateRecordsResponse where
  recordIds : List String
  recordIdVersions : List String

/-- `create_or_update_records`: it raises without effect, or takes every record. -/
def createOrUpdateRecords (o : Outside) (records : List Record) :
    Effect Server Raised CreateUpdateRecordsResponse := do
  let assign ← Effect.lift o.write
  Effect.modify fun s => { s with records := s.records.addAll assign 0 records }
  pure
    { recordIds := records.mapIdx fun i r => r.storedId (assign i).newId
      recordIdVersions := records.mapIdx fun i r =>
        r.storedId (assign i).newId ++ ":" ++ toString (assign i).version }

/-! ## The worker -/

/-- `BulkIOWdmsWorker._response_as_json`. -/
def responseAsJson (response : WorkerResponse) : Except Raised Value :=
  if response.statusCode = 200 then response.json
  else .error (.bulkError response.statusCode response.text)

/-- `v[key]`, on a value that may be no dictionary. -/
def getItem (v : Value) (key : String) : Except Raised Value :=
  match v with
  | .dict items =>
    match Dict.get items key with
    | some w => .ok w
    | none => .error (.keyError key)
  | _ => .error .typeError

/-- `f"{record.id}"`. -/
def Record.idText (r : Record) : String := r.id.getD "None"

/-- `params["reference"]`, if there is a reference curve. -/
def withReference (params : Dict String Value) (reference : Value) : Dict String Value :=
  if reference.truthy then Dict.set params "reference" reference else params

section

variable {δ : Type} (checks : DataConsistencyChecks δ) (o : Outside)

/-- The bulk that the worker's answer describes, once it is consistent with the record. -/
def checkedBulk (record : Record) (response : WorkerResponse) : Except Raised (Value × δ) := do
  let responseObj ← responseAsJson response
  let bulkId ← getItem responseObj "bulkid"
  let describe ← checks.bulkInfo (← getItem responseObj "describe")
  checks.checkBulkConsistency record describe
  return (bulkId, describe)

/-- What `write_bulk` and `write_complete_session` do once their query is built. -/
def sendAndCheck (record : Record) (request : WorkerRequest) :
    Effect Server Raised (Value × δ) := do
  Effect.modify fun s => { s with requests := s.requests ++ [request] }
  let response ← Effect.lift o.worker
  let bulk ← Effect.lift (checkedBulk checks record response)
  Effect.modify fun s => { s with returned := (record.id, bulk.1) :: s.returned }
  pure bulk

/-- `BulkIOWdmsWorker.write_bulk`. -/
def writeBulk (record : Record) : Effect Server Raised (Value × δ) := do
  let reference ← Effect.lift (checks.getReferenceCurve record)
  Effect.lift o.body
  sendAndCheck checks o record ⟨"/data/" ++ record.idText, withReference [] reference⟩

/-- The query of `write_complete_session`. -/
def completionParams (session : Session) (updateFromBulkUri : Option BulkURI) (reference : Value) :
    Dict String Value :=
  let params := withReference [("completion", .str session.mode.value)] reference
  match updateFromBulkUri with
  | some uri => Dict.set params "from_bulk" (.str uri.bulkId)
  | none => params

/-- `BulkIOWdmsWorker.write_complete_session`. -/
def writeCompleteSession (record : Record) (session : Session)
    (updateFromBulkUri : Option BulkURI) (reference : Value) : Effect Server Raised Value := do
  let bulk ← sendAndCheck checks o record
    ⟨"/data/" ++ record.idText ++ "/session/" ++ session.id.text,
      completionParams session updateFromBulkUri reference⟩
  pure bulk.1

end

/-! ## What the calls do -/

theorem withReference_get {params : Dict String Value} {reference : Value} {key : String}
    (h : key ≠ "reference") :
      Dict.get (withReference params reference) key = Dict.get params key := by
  unfold withReference
  split
  · exact Dict.get_set_of_ne _ _ h
  · rfl

/-- The reference curve a query names. -/
theorem withReference_reference {params : Dict String Value}
    (h : Dict.get params "reference" = none) (reference : Value) :
    Dict.get (withReference params reference) "reference" =
      if reference.truthy then some reference else none := by
  unfold withReference
  split
  · exact Dict.get_set_self _ _ _
  · exact h

/-- The previous bulk is named in the query iff there is one to name. -/
theorem completionParams_from_bulk (session : Session) (updateFromBulkUri : Option BulkURI)
    (reference : Value) :
    Dict.get (completionParams session updateFromBulkUri reference) "from_bulk" =
      updateFromBulkUri.map fun uri => .str uri.bulkId := by
  cases updateFromBulkUri with
  | some uri => exact Dict.get_set_self _ _ _
  | none =>
    show Dict.get (withReference _ _) "from_bulk" = none
    rw [withReference_get (by decide)]
    rfl

theorem completionParams_reference (session : Session) (updateFromBulkUri : Option BulkURI)
    (reference : Value) :
    Dict.get (completionParams session updateFromBulkUri reference) "reference" =
      if reference.truthy then some reference else none := by
  have hnone : Dict.get [("completion", Value.str session.mode.value)] "reference" = none := rfl
  cases updateFromBulkUri with
  | some uri =>
    show Dict.get (Dict.set (withReference _ _) "from_bulk" _) "reference" = _
    rw [Dict.get_set_of_ne _ _ (by decide), withReference_reference hnone]
  | none => exact withReference_reference hnone reference

/-- A read is answered by the store, if it is answered. -/
theorem fetchRecord_eq (o : Outside) (recordId : String) (version : Option Int) (s : Server) :
    fetchRecord o recordId version s =
      match o.fetch, s.records.find recordId version with
      | .error e, _ => (.error e, s)
      | .ok (), some record => (.ok record, s)
      | .ok (), none => (.error (.unexpectedResponse 404), s) := by
  cases hfetch : o.fetch with
  | error e => simp [fetchRecord, bind, Effect.lift, hfetch]
  | ok u =>
    cases u
    cases hfind : s.records.find recordId version with
    | none => simp [fetchRecord, bind, Effect.lift, Effect.get, Effect.raise, hfetch, hfind]
    | some record => simp [fetchRecord, bind, pure, Effect.lift, Effect.get, hfetch, hfind]

/-- **A fetch** finds what is stored. -/
theorem fetchRecord_spec (o : Outside) (recordId : String) (version : Option Int) (s : Server) :
    Effect.Post (fetchRecord o recordId version) s fun out t =>
      t = s ∧ ∀ record, out = .ok record → s.records.find recordId version = some record := by
  rw [Effect.Post, fetchRecord_eq]
  cases hfetch : o.fetch with
  | error e => exact ⟨rfl, nofun⟩
  | ok u =>
    cases hfind : s.records.find recordId version with
    | none => exact ⟨rfl, nofun⟩
    | some record => exact ⟨rfl, fun _ h => congrArg some (Except.ok.inj h)⟩

/-- The write of one record. -/
theorem createOrUpdateRecords_spec (o : Outside) (record : Record) (s : Server) :
    Effect.Post (createOrUpdateRecords o [record]) s fun out t =>
      (∀ e, out = .error e → t = s) ∧ ∀ answer, out = .ok answer → ∃ assign, o.write = .ok assign ∧
        t = { s with records := s.records.add (assign 0).newId (assign 0).version record } ∧
        answer.recordIds = [record.storedId (assign 0).newId] ∧
        answer.recordIdVersions =
          [record.storedId (assign 0).newId ++ ":" ++ toString (assign 0).version] := by
  refine Effect.post_lift_bind (fun e _ => ⟨fun _ _ => rfl, nofun⟩) fun assign hassign => ?_
  refine Effect.post_modify_bind (Effect.post_pure ⟨nofun, ?_⟩)
  rintro _ ⟨⟩
  exact ⟨assign, hassign, rfl, rfl, rfl⟩

/-- The worker has answered `bulkId`, with a description that passes the checks of the
entity against `record`. -/
def Checked {δ : Type} (checks : DataConsistencyChecks δ) (o : Outside) (record : Record)
    (bulkId : Value) : Prop :=
  ∃ response json described describe, o.worker = .ok response ∧ response.statusCode = 200 ∧
    response.json = .ok json ∧ getItem json "bulkid" = .ok bulkId ∧
    getItem json "describe" = .ok described ∧ checks.bulkInfo described = .ok describe ∧
    checks.checkBulkConsistency record describe = .ok ()

/-- A bulk that was checked is the one returned. -/
theorem checked_of_checkedBulk {δ : Type} {checks : DataConsistencyChecks δ} {o : Outside}
    {record : Record} {response : WorkerResponse} {bulk : Value × δ}
    (ho : o.worker = .ok response) (h : checkedBulk checks record response = .ok bulk) :
    Checked checks o record bulk.1 := by
  obtain ⟨json, hjson, h⟩ := bind_eq_ok.mp h
  obtain ⟨bulkId, hbulkId, h⟩ := bind_eq_ok.mp h
  obtain ⟨described, hdescribed, h⟩ := bind_eq_ok.mp h
  obtain ⟨describe, hdescribe, h⟩ := bind_eq_ok.mp h
  obtain ⟨u, hcheck, h⟩ := bind_eq_ok.mp h
  cases h
  cases u
  unfold responseAsJson at hjson
  split at hjson
  · exact ⟨response, json, described, describe, ho, ‹_›, hjson, hbulkId, hdescribed, hdescribe,
      hcheck⟩
  · cases hjson

/-- What a call of the worker has done to the server: it has left the records alone
and sent only requests that meet `P`; a bulk it returned has passed the checks. -/
structure Called {δ : Type} (checks : DataConsistencyChecks δ) (o : Outside) (record : Record)
    (P : WorkerRequest → Prop) (s t : Server) (bulkId : Option Value) : Prop where
  records : t.records = s.records
  sent : ∃ sent, t.requests = s.requests ++ sent ∧ ∀ q ∈ sent, P q
  returned : t.returned = (bulkId.map fun v => (record.id, v)).toList ++ s.returned
  checked : ∀ v ∈ bulkId, Checked checks o record v

/-- Nothing was sent. -/
theorem Called.refl {δ : Type} {checks : DataConsistencyChecks δ} {o : Outside} {record : Record}
    {P : WorkerRequest → Prop} {s : Server} : Called checks o record P s s none where
  records := rfl
  sent := ⟨[], (List.append_nil _).symm, nofun⟩
  returned := rfl
  checked := nofun

/-- **A call to the worker** is made once, and its bulk is checked. -/
theorem sendAndCheck_spec {δ : Type} (checks : DataConsistencyChecks δ) (o : Outside)
    (record : Record) (request : WorkerRequest) {P : WorkerRequest → Prop} (hP : P request)
    (s : Server) :
    Effect.Post (sendAndCheck checks o record request) s fun out t =>
      Called checks o record P s t (out.toOption.map Prod.fst) := by
  have hsent : ∃ sent, s.requests ++ [request] = s.requests ++ sent ∧ ∀ q ∈ sent, P q :=
    ⟨[request], rfl, fun q hq => List.mem_singleton.mp hq ▸ hP⟩
  refine Effect.post_modify_bind ?_
  refine Effect.post_lift_bind (fun e _ => ⟨rfl, hsent, rfl, nofun⟩) fun response ho => ?_
  refine Effect.post_lift_bind (fun e _ => ⟨rfl, hsent, rfl, nofun⟩) fun bulk hbulk => ?_
  refine Effect.post_modify_bind (Effect.post_pure ⟨rfl, hsent, rfl, ?_⟩)
  rintro _ ⟨⟩
  exact checked_of_checkedBulk ho hbulk

/-- **Writing a whole bulk** names no previous one. -/
theorem writeBulk_spec {δ : Type} (checks : DataConsistencyChecks δ) (o : Outside)
    (record : Record) (s : Server) :
    Effect.Post (writeBulk checks o record) s fun out t =>
      Called checks o record (fun q => Dict.get q.params "from_bulk" = none) s t
        (out.toOption.map Prod.fst) := by
  refine Effect.post_lift_bind (fun e _ => .refl) fun reference _ => ?_
  refine Effect.post_lift_bind (fun e _ => .refl) fun _ _ => ?_
  refine sendAndCheck_spec checks o record _ ?_ s
  show Dict.get (withReference [] reference) "from_bulk" = none
  rw [withReference_get (by decide)]
  rfl

/-- **Completing a session** sends the query of its arguments. -/
theorem writeCompleteSession_spec {δ : Type} (checks : DataConsistencyChecks δ) (o : Outside)
    (record : Record) (session : Session) (updateFromBulkUri : Option BulkURI) (reference : Value)
    (s : Server) :
    Effect.Post (writeCompleteSession checks o record session updateFromBulkUri reference) s
      fun out t => Called checks o record
        (fun q => q.params = completionParams session updateFromBulkUri reference) s t
        out.toOption := by
  have hsent := sendAndCheck_spec checks o record
    ⟨"/data/" ++ record.idText ++ "/session/" ++ session.id.text,
      completionParams session updateFromBulkUri reference⟩
    (P := fun q => q.params = completionParams session updateFromBulkUri reference) rfl s
  refine Effect.post_bind hsent ?_ ?_
  · intro e t h
    exact h
  · intro bulk t h
    exact Effect.post_pure h

end WellboreDdms
