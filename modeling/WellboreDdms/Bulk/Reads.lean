import WellboreDdms.Bulk.Provenance
import WellboreDdms.Bulk.Serializer
import WellboreDdms.Records.BlobStorage

/-!
# The handlers that read a bulk

A read names a record, and maybe a version. It takes the bulk URI from that version
and asks the worker for the bulk, or for its statistics.

- `getDataVersion`, `getBulkStatisticsVersion`, `computeBulkStatistics`, and the two
  handlers on the latest version: every exit they have.
- `BulkRead`: a call of one of them; `BulkRead.request` is what it may ask the worker.
- `BulkRead.run_alike`: where the storage finds the same version, a read answers the
  same and asks the same.
- `BulkRead.asks`: what a read asks, from the bulk URI of the version.
-/

namespace WellboreDdms

open Python Machine

/-! ## The calls of the worker -/

/-- The response of a handler, of starlette. -/
structure Response where
  content : String
  statusCode : Nat
  mediaType : String

/-- A response of the worker to a read. -/
structure BulkResponse where
  statusCode : Nat
  text : String
  content : String

/-- The query parameters of a read, as they are validated. -/
structure GetDataParams where
  offset : Option Nat := none
  limit : Option Nat := none
  curves : Option String := none
  describe : Option Bool := some false
  bulkFilter : Option (List String) := none
  one_le_limit : ∀ n ∈ limit, 1 ≤ n := by simp

/-- `if value: params[key] = value`. -/
def withParam (params : Dict String Value) (key : String) (value : Option Value) :
    Dict String Value :=
  match truthyValue value with
  | some value => Dict.set params key value
  | none => params

/-- The query of `read_data`. -/
def readDataParams (dataParam : GetDataParams) (orient : Option JSONOrient) : Dict String Value :=
  let params := withParam [] "limit" (dataParam.limit.map fun n => .int n)
  let params := withParam params "offset" (dataParam.offset.map fun n => .int n)
  let params := withParam params "curves" (dataParam.curves.map .str)
  let params := withParam params "filter" (dataParam.bulkFilter.map fun fs => .list (fs.map .str))
  let params := withParam params "orient" (orient.map fun orient => .str orient.value)
  if dataParam.describe = some true then Dict.set params "describe" (.str "True") else params

/-- The type of a JSON answer. -/
def mimeTypesJson : String := "application/json"

/-- `BulkRecordNotFound(record_id=.., bulk_id=None)`. -/
def bulkRecordNotFound (recordId : Option String) : Raised :=
  .bulkError 404 ("bulk " ++
    (match recordId.filter fun k => k ≠ "" with
      | some recordId => "for record " ++ recordId ++ " "
      | none => "") ++ "not found")

/-- `except ValueError` around `get_bulk_uri`. -/
def invalidUriAsHttp : Raised → Raised
  | .valueError _ => .httpException 422 "Record contains an invalid bulk URI"
  | e => e

section

variable (o : Outside) (worker : WorkerRequest → Except Raised BulkResponse)

/-- A request to the worker, and its response. -/
def askWorker (request : WorkerRequest) : Effect Server Raised BulkResponse := do
  Effect.modify fun s => { s with requests := s.requests ++ [request] }
  Effect.lift (worker request)

/-- `BulkIOWdmsWorker.read_data`. -/
def readData (recordId : String) (bulkUri : BulkURI) (dataParam : GetDataParams)
    (acceptType : String) (orient : Option JSONOrient) : Effect Server Raised Response := do
  let response ← askWorker worker
    ⟨"/data/" ++ recordId ++ "/" ++ bulkUri.bulkId, readDataParams dataParam orient⟩
  if response.statusCode ≠ 200 then Effect.raise (.bulkError response.statusCode response.text)
  else pure ⟨response.content, 200, acceptType⟩

/-- `BulkIOWdmsWorker.get_statistics`; the status of the worker is passed on. -/
def getStatistics (recordId bulkId : String) (curvesSelection : List String) :
    Effect Server Raised Response := do
  let response ← askWorker worker ⟨"/data/" ++ recordId ++ "/" ++ bulkId ++ "/statistics",
    [("curves_selection", .list (curvesSelection.map .str))]⟩
  pure ⟨response.content, response.statusCode, mimeTypesJson⟩

/-- `BulkIOWdmsWorker.post_statistics`. -/
def postStatistics (recordId bulkId : String) (recordVersion : Option Int) :
    Effect Server Raised Response := do
  let response ← askWorker worker ⟨"/data/" ++ recordId ++ "/" ++ bulkId ++ "/statistics",
    [("record_version", (recordVersion.map .int).getD .none)]⟩
  pure ⟨response.content, response.statusCode, mimeTypesJson⟩

/-! ## The handlers -/

/-- What `fetch_record_partial_with_wdms_extension` makes of the record that is stored:
the storage restricts its data, and the nesting is built again. -/
def partialRecord (record : Record) : Except Raised Record := do
  let restrictedData ←
    restrictData (.dict record.data) RecordUtils.attributeRecordWdmsExtensionProperties []
  return { record with data := ← RecordUtils.reconstruct restrictedData }

/-- `get_data_version`, after the fetch. -/
def dataOfRecord (state : RequestState) (recordId : String) (record : Record)
    (dataParam : GetDataParams) (acceptType : String) (orient : Option JSONOrient) :
    Effect Server Raised Response := do
  Effect.lift (raiseIfNotOsduRightEntityKind record state)
  let bulkUri ←
    Effect.lift ((OsduBulkIdAccess.getBulkUri record).mapError invalidUriAsHttp)
  Effect.mapError bulkErrorAsHttp
    (if bulkUri.isValid then readData worker recordId bulkUri dataParam acceptType orient
    else Effect.raise (bulkRecordNotFound (some recordId)))

/-- `get_data_version`; `get_data` calls it without a version. -/
def getDataVersion (state : RequestState) (recordId : String) (version : Option Int)
    (dataParam : GetDataParams) (acceptType : String) (orient : Option JSONOrient) :
    Effect Server Raised Response := do
  let stored ← fetchRecord o recordId version
  let record ← Effect.lift (partialRecord stored)
  dataOfRecord worker state recordId record dataParam acceptType orient

/-- `list(dict.fromkeys(filter(None, map(str.strip, curves.split(',')))))`. -/
def curvesSelection (curves : Option String) : List String :=
  match curves.filter fun curves => curves ≠ "" with
  | some curves =>
    (((splitText "," curves).map fun curve => String.ofList (strip isSpace curve.toList)).filter
      fun curve => curve ≠ "").eraseDups
  | none => []

/-- `get_bulk_statistics_version`, after the fetch. -/
def statisticsOfRecord (record : Record) (curves : Option String) :
    Effect Server Raised Response := do
  let bulkUri ←
    Effect.lift ((OsduBulkIdAccess.getBulkUri record).mapError invalidUriAsHttp)
  if bulkUri.isValid then
    getStatistics worker record.idText bulkUri.bulkId (curvesSelection curves)
  else Effect.raise (bulkErrorAsHttp (bulkRecordNotFound record.id))

/-- `get_bulk_statistics_version`; `get_bulk_statistics` is given the latest version. -/
def getBulkStatisticsVersion (recordId : String) (version : Option Int) (curves : Option String) :
    Effect Server Raised Response := do
  let record ← fetchRecord o recordId version
  statisticsOfRecord worker record curves

/-- `compute_bulk_statistics`, after the fetch. -/
def computationOfRecord (record : Record) : Effect Server Raised Response := do
  let bulkUri ←
    Effect.lift ((OsduBulkIdAccess.getBulkUri record).mapError invalidUriAsHttp)
  if bulkUri.isValid then postStatistics worker record.idText bulkUri.bulkId record.version
  else Effect.raise (.httpException 422 "Record contains an invalid bulk URI")

/-- `compute_bulk_statistics`. -/
def computeBulkStatistics (recordId : String) (version : Int) :
    Effect Server Raised Response := do
  let record ← fetchRecord o recordId (some version)
  computationOfRecord worker record

end

/-! ## Reads -/

/-- A call of one of the handlers. -/
inductive BulkRead where
  | getData (e : Entity) (dataParam : GetDataParams) (acceptType : String)
    (orient : Option JSONOrient)
  | getDataVersion (e : Entity) (version : Int) (dataParam : GetDataParams) (acceptType : String)
    (orient : Option JSONOrient)
  | getBulkStatistics (curves : Option String)
  | getBulkStatisticsVersion (version : Int) (curves : Option String)
  | computeBulkStatistics (version : Int)

namespace BulkRead

/-- The version that is read; none stands for the latest. -/
def version : BulkRead → Option Int
  | .getData _ _ _ _ | .getBulkStatistics _ => none
  | .getDataVersion _ version _ _ _ | .getBulkStatisticsVersion version _ |
    .computeBulkStatistics version => some version

section

variable (o : Outside) (worker : WorkerRequest → Except Raised BulkResponse)

/-- The route of a read. -/
def run (recordId : String) : BulkRead → Effect Server Raised Response
  | .getData e dataParam acceptType orient =>
    WellboreDdms.getDataVersion o worker (v3State e) recordId none dataParam acceptType orient
  | .getDataVersion e version dataParam acceptType orient =>
    WellboreDdms.getDataVersion o worker (v3State e) recordId (some version) dataParam acceptType
      orient
  | .getBulkStatistics curves =>
    WellboreDdms.getBulkStatisticsVersion o worker recordId none curves
  | .getBulkStatisticsVersion version curves =>
    WellboreDdms.getBulkStatisticsVersion o worker recordId (some version) curves
  | .computeBulkStatistics version => WellboreDdms.computeBulkStatistics o worker recordId version

/-- What a read does with the version it has found. -/
def ofRecord (recordId : String) (record : Record) : BulkRead → Effect Server Raised Response
  | .getData e dataParam acceptType orient | .getDataVersion e _ dataParam acceptType orient =>
    Effect.lift (partialRecord record) >>= fun record =>
      dataOfRecord worker (v3State e) recordId record dataParam acceptType orient
  | .getBulkStatistics curves | .getBulkStatisticsVersion _ curves =>
    statisticsOfRecord worker record curves
  | .computeBulkStatistics _ => computationOfRecord worker record

/-- The request for a bulk. -/
def request (recordId bulkId : String) (recordVersion : Option Int) : BulkRead → WorkerRequest
  | .getData _ dataParam _ orient | .getDataVersion _ _ dataParam _ orient =>
    ⟨"/data/" ++ recordId ++ "/" ++ bulkId, readDataParams dataParam orient⟩
  | .getBulkStatistics curves | .getBulkStatisticsVersion _ curves =>
    ⟨"/data/" ++ recordId ++ "/" ++ bulkId ++ "/statistics",
      [("curves_selection", .list ((curvesSelection curves).map .str))]⟩
  | .computeBulkStatistics _ =>
    ⟨"/data/" ++ recordId ++ "/" ++ bulkId ++ "/statistics",
      [("record_version", (recordVersion.map .int).getD .none)]⟩

end

end BulkRead

/-! ## Reads only ask -/

/-- What `x` does depends on no server: it answers `out` and sends `sent`. -/
def Asks {α : Type} (x : Effect Server Raised α) (out : Except Raised α)
    (sent : List WorkerRequest) : Prop :=
  ∀ s, x s = (out, { s with requests := s.requests ++ sent })

section

variable {α β : Type} {x : Effect Server Raised β} {f : β → Effect Server Raised α}
  {sent sent' : List WorkerRequest}

theorem asks_lift (out : Except Raised α) : Asks (Effect.lift out) out [] := by
  intro s
  show (out, s) = (out, { s with requests := s.requests ++ [] })
  rw [List.append_nil]

theorem asks_raise (e : Raised) : Asks (Effect.raise e : Effect Server Raised α) (.error e) [] :=
  asks_lift (.error e)

theorem asks_pure (a : α) : Asks (pure a) (.ok a) [] := asks_lift (.ok a)

theorem asks_bind_error {e : Raised} (h : Asks x (.error e) sent) :
    Asks (x >>= f) (.error e) sent := by
  intro s
  exact Effect.bind_of_error (h s)

theorem asks_bind_ok {b : β} {out : Except Raised α} (h : Asks x (.ok b) sent)
    (h' : Asks (f b) out sent') : Asks (x >>= f) out (sent ++ sent') := by
  intro s
  rw [Effect.bind_of_ok (h s), h', List.append_assoc]

/-- A computation that sends nothing, and what follows it. -/
theorem asks_lift_bind {b : β} {y : Except Raised β} (hy : y = .ok b) {out : Except Raised α}
    (h : Asks (f b) out sent) : Asks (Effect.lift y >>= f) out sent := by
  rw [hy]
  exact asks_bind_ok (asks_lift (.ok b)) h

theorem asks_mapError {out : Except Raised α} {x : Effect Server Raised α} (g : Raised → Raised)
    (h : Asks x out sent) : Asks (Effect.mapError g x) (out.mapError g) sent := by
  intro s
  have hs := h s
  simp only [Effect.mapError, hs]
  cases out <;> rfl

theorem asks_askWorker (worker : WorkerRequest → Except Raised BulkResponse)
    (request : WorkerRequest) : Asks (askWorker worker request) (worker request) [request] := by
  intro s
  rfl

/-- Asking the worker, and a computation on its response. -/
theorem asks_askWorker_bind (worker : WorkerRequest → Except Raised BulkResponse)
    (request : WorkerRequest) {f : BulkResponse → Effect Server Raised α}
    {g : BulkResponse → Except Raised α} (hf : ∀ response, Asks (f response) (g response) []) :
    Asks (askWorker worker request >>= f) (worker request >>= g) [request] := by
  have hask := asks_askWorker worker request
  cases hworker : worker request with
  | error e =>
    rw [hworker] at hask
    exact asks_bind_error hask
  | ok response =>
    rw [hworker] at hask
    exact asks_bind_ok hask (hf response)

end

section

variable (worker : WorkerRequest → Except Raised BulkResponse)

/-- **A read of data** asks for the bulk's data. -/
theorem asks_readData (recordId : String) (bulkUri : BulkURI) (dataParam : GetDataParams)
    (acceptType : String) (orient : Option JSONOrient) :
    ∃ out, Asks (readData worker recordId bulkUri dataParam acceptType orient) out
      [⟨"/data/" ++ recordId ++ "/" ++ bulkUri.bulkId, readDataParams dataParam orient⟩] := by
  refine ⟨_, asks_askWorker_bind worker _ (g := fun response =>
    if response.statusCode ≠ 200 then .error (.bulkError response.statusCode response.text)
    else .ok ⟨response.content, 200, acceptType⟩) fun response => ?_⟩
  split
  · exact asks_raise _
  · exact asks_pure _

/-- **A read of statistics** asks for the bulk's statistics. -/
theorem asks_getStatistics (recordId bulkId : String) (curvesSelection : List String) :
    ∃ out, Asks (getStatistics worker recordId bulkId curvesSelection) out
      [⟨"/data/" ++ recordId ++ "/" ++ bulkId ++ "/statistics",
        [("curves_selection", .list (curvesSelection.map .str))]⟩] :=
  ⟨_, asks_askWorker_bind worker _ fun _ => asks_pure _⟩

/-- **A computation of statistics** asks for it under the same path. -/
theorem asks_postStatistics (recordId bulkId : String) (recordVersion : Option Int) :
    ∃ out, Asks (postStatistics worker recordId bulkId recordVersion) out
      [⟨"/data/" ++ recordId ++ "/" ++ bulkId ++ "/statistics",
        [("record_version", (recordVersion.map .int).getD .none)]⟩] :=
  ⟨_, asks_askWorker_bind worker _ fun _ => asks_pure _⟩

end

/-! ## What a read asks -/

/-- Of the bulk of `record`, if it has one and `admitted` holds, `x` asks what `request`
makes of its identifier; else it fails and asks nothing. -/
structure AsksForBulk (record : Record) (admitted : Prop) (request : String → WorkerRequest)
    (x : Effect Server Raised Response) : Prop where
  asked : ∀ uri, admitted → validBulkUri record = .ok (some uri) →
    ∃ out, Asks x out [request uri.bulkId]
  refused : ¬ (admitted ∧ ∃ uri, validBulkUri record = .ok (some uri)) → ∃ e, Asks x (.error e) []

/-- Whatever it asks, it asks of every server. -/
theorem AsksForBulk.exists_asks {record : Record} {admitted : Prop}
    {request : String → WorkerRequest} {x : Effect Server Raised Response}
    (h : AsksForBulk record admitted request x) : ∃ out sent, Asks x out sent := by
  by_cases hasked : admitted ∧ ∃ uri, validBulkUri record = .ok (some uri)
  · obtain ⟨hadmitted, uri, huri⟩ := hasked
    obtain ⟨out, hout⟩ := h.asked uri hadmitted huri
    exact ⟨out, _, hout⟩
  · obtain ⟨e, he⟩ := h.refused hasked
    exact ⟨_, _, he⟩

/-- A handler that asks for the bulk of a record once its URI has been read. -/
theorem asksForBulk_of_uri {record : Record} {request : String → WorkerRequest}
    {f : BulkURI → Effect Server Raised Response}
    (hvalid : ∀ uri, uri.isValid = true → ∃ out, Asks (f uri) out [request uri.bulkId])
    (hinvalid : ∀ uri, uri.isValid = false → ∃ e, Asks (f uri) (.error e) []) :
    AsksForBulk record True request
      (Effect.lift ((OsduBulkIdAccess.getBulkUri record).mapError invalidUriAsHttp) >>= f) where
  asked := by
    intro uri _ huri
    obtain ⟨hget, hisValid⟩ := validBulkUri_eq_some huri
    obtain ⟨out, hout⟩ := hvalid uri hisValid
    exact ⟨out, asks_lift_bind (by rw [hget]; rfl) hout⟩
  refused := by
    intro hnone
    cases hget : OsduBulkIdAccess.getBulkUri record with
    | error e => exact ⟨_, asks_bind_error (asks_lift _)⟩
    | ok uri =>
      cases hisValid : uri.isValid with
      | false =>
        obtain ⟨e, he⟩ := hinvalid uri hisValid
        exact ⟨e, asks_lift_bind rfl he⟩
      | true =>
        refine absurd ⟨trivial, uri, ?_⟩ hnone
        rw [validBulkUri, hget, Except.map, if_pos hisValid]

section

variable (worker : WorkerRequest → Except Raised BulkResponse)

/-- The data of a record are those of its bulk. -/
theorem dataOfRecord_asksForBulk (state : RequestState) (recordId : String) (record : Record)
    (dataParam : GetDataParams) (acceptType : String) (orient : Option JSONOrient) :
    AsksForBulk record (raiseIfNotOsduRightEntityKind record state = .ok ())
      (fun bulkId => ⟨"/data/" ++ recordId ++ "/" ++ bulkId, readDataParams dataParam orient⟩)
      (dataOfRecord worker state recordId record dataParam acceptType orient) := by
  have huri : AsksForBulk record True
      (fun bulkId => ⟨"/data/" ++ recordId ++ "/" ++ bulkId, readDataParams dataParam orient⟩)
      (Effect.lift ((OsduBulkIdAccess.getBulkUri record).mapError invalidUriAsHttp) >>=
        fun bulkUri =>
        Effect.mapError bulkErrorAsHttp
          (if bulkUri.isValid then readData worker recordId bulkUri dataParam acceptType orient
          else Effect.raise (bulkRecordNotFound (some recordId)))) := by
    refine asksForBulk_of_uri (fun uri hvalid => ?_) fun uri hinvalid => ?_
    · obtain ⟨out, hout⟩ := asks_readData worker recordId uri dataParam acceptType orient
      rw [if_pos hvalid]
      exact ⟨_, asks_mapError bulkErrorAsHttp hout⟩
    · rw [if_neg (Bool.eq_false_iff.mp hinvalid)]
      exact ⟨_, asks_mapError bulkErrorAsHttp (asks_raise _)⟩
  constructor
  · intro uri hgate hvalid
    obtain ⟨out, hout⟩ := huri.asked uri trivial hvalid
    exact ⟨out, asks_lift_bind hgate hout⟩
  · intro hrefused
    cases hgate : raiseIfNotOsduRightEntityKind record state with
    | error e =>
      refine ⟨e, asks_bind_error ?_⟩
      rw [hgate]
      exact asks_lift _
    | ok u =>
      obtain ⟨e, he⟩ := huri.refused fun hvalid => hrefused ⟨hgate, hvalid.2⟩
      exact ⟨e, asks_lift_bind hgate he⟩

/-- The statistics of a record are those of its bulk. -/
theorem statisticsOfRecord_asksForBulk (record : Record) (curves : Option String) :
    AsksForBulk record True
      (fun bulkId => ⟨"/data/" ++ record.idText ++ "/" ++ bulkId ++ "/statistics",
        [("curves_selection", .list ((curvesSelection curves).map .str))]⟩)
      (statisticsOfRecord worker record curves) := by
  refine asksForBulk_of_uri (fun uri hvalid => ?_) fun uri hinvalid => ?_
  · rw [if_pos hvalid]
    exact asks_getStatistics worker record.idText uri.bulkId (curvesSelection curves)
  · rw [if_neg (Bool.eq_false_iff.mp hinvalid)]
    exact ⟨_, asks_raise _⟩

theorem computationOfRecord_asksForBulk (record : Record) :
    AsksForBulk record True
      (fun bulkId => ⟨"/data/" ++ record.idText ++ "/" ++ bulkId ++ "/statistics",
        [("record_version", (record.version.map .int).getD .none)]⟩)
      (computationOfRecord worker record) := by
  refine asksForBulk_of_uri (fun uri hvalid => ?_) fun uri hinvalid => ?_
  · rw [if_pos hvalid]
    exact asks_postStatistics worker record.idText uri.bulkId record.version
  · rw [if_neg (Bool.eq_false_iff.mp hinvalid)]
    exact ⟨_, asks_raise _⟩

end

/-! ## The partial record -/

/-- The data of a record is a JSON object, with an object or null at each level down to
`wdms`. -/
structure Readable (record : Record) : Prop where
  nested : WellNested record.data
  nodup : ((wdmsItems record.data).map Prod.fst).Nodup

theorem Readable.of_json {record : Record} (hnested : WellNested record.data)
    (hjson : (Value.dict record.data).IsJson) : Readable record :=
  ⟨hnested, nodup_wdmsItems hjson⟩

/-- Of a readable record the partial fetch keeps all but the data, and the bulk URI. -/
theorem Readable.partialRecord {record : Record} (h : Readable record) :
    ∃ part, partialRecord record = .ok part ∧ part.kind = record.kind ∧
      validBulkUri part = validBulkUri record := by
  obtain ⟨restrictedData, hrestrict, hreconstruct⟩ := reconstruct_restrictData h.nested
  refine ⟨{ record with data := rebuilt (wdmsItems record.data) }, ?_, rfl, ?_⟩
  · simp only [WellboreDdms.partialRecord, hrestrict, hreconstruct, bind, Except.bind, pure,
      Except.pure]
  · rw [validBulkUri, getBulkUri_rebuilt h.nested h.nodup, validBulkUri]

theorem gate_congr {record other : Record} (h : other.kind = record.kind) (state : RequestState) :
    raiseIfNotOsduRightEntityKind other state = raiseIfNotOsduRightEntityKind record state := by
  simp only [raiseIfNotOsduRightEntityKind, h]

/-- A record whose bulk URI is read, of a part that has the same one. -/
theorem AsksForBulk.congr {record part : Record} {admitted admitted' : Prop}
    {request : String → WorkerRequest} {x : Effect Server Raised Response}
    (h : AsksForBulk part admitted request x) (hadmitted : admitted ↔ admitted')
    (huri : validBulkUri part = validBulkUri record) :
    AsksForBulk record admitted' request x where
  asked := by
    intro uri hok hvalid
    exact h.asked uri (hadmitted.mpr hok) (huri.trans hvalid)
  refused := by
    intro hrefused
    refine h.refused fun hboth => hrefused ⟨hadmitted.mp hboth.1, ?_⟩
    obtain ⟨uri, hvalid⟩ := hboth.2
    exact ⟨uri, huri.symm.trans hvalid⟩

namespace BulkRead

/-- The kinds a read admits: the data handlers have a gate, those of the statistics have
none. -/
def Admits (record : Record) : BulkRead → Prop
  | .getData e _ _ _ | .getDataVersion e _ _ _ _ =>
    raiseIfNotOsduRightEntityKind record (v3State e) = .ok ()
  | .getBulkStatistics _ | .getBulkStatisticsVersion _ _ | .computeBulkStatistics _ => True

variable (worker : WorkerRequest → Except Raised BulkResponse)

/-- **A read asks for the bulk of the version it has found**, whole or in part. -/
theorem asks {recordId : String} {record : Record} (hid : record.id = some recordId)
    (hreadable : Readable record) (r : BulkRead) :
    AsksForBulk record (r.Admits record) (fun bulkId => r.request recordId bulkId record.version)
      (r.ofRecord worker recordId record) := by
  have htext : record.idText = recordId := by
    rw [Record.idText, hid]
    rfl
  -- the two reads of data ask alike; the version is in the request only
  have hdata : ∀ e dataParam acceptType orient,
      AsksForBulk record (raiseIfNotOsduRightEntityKind record (v3State e) = .ok ())
        (fun bulkId => ⟨"/data/" ++ recordId ++ "/" ++ bulkId, readDataParams dataParam orient⟩)
        (Effect.lift (WellboreDdms.partialRecord record) >>= fun record =>
          dataOfRecord worker (v3State e) recordId record dataParam acceptType orient) := by
    intro e dataParam acceptType orient
    obtain ⟨part, hpart, hkind, huri⟩ := hreadable.partialRecord
    have hasks : AsksForBulk record _ _ _ := (dataOfRecord_asksForBulk worker (v3State e) recordId
      part dataParam acceptType orient).congr
        (iff_of_eq (congrArg (· = .ok ()) (gate_congr hkind (v3State e)))) huri
    constructor
    · intro uri hgate hvalid
      obtain ⟨out, hout⟩ := hasks.asked uri hgate hvalid
      exact ⟨out, asks_lift_bind hpart hout⟩
    · intro hrefused
      obtain ⟨error, herror⟩ := hasks.refused hrefused
      exact ⟨error, asks_lift_bind hpart herror⟩
  cases r with
  | getData e dataParam acceptType orient => exact hdata e dataParam acceptType orient
  | getDataVersion e version dataParam acceptType orient =>
    exact hdata e dataParam acceptType orient
  | getBulkStatistics curves =>
    -- the statistics are asked for by the id in the record
    rw [← htext]
    exact statisticsOfRecord_asksForBulk worker record curves
  | getBulkStatisticsVersion version curves =>
    rw [← htext]
    exact statisticsOfRecord_asksForBulk worker record curves
  | computeBulkStatistics version =>
    rw [← htext]
    exact computationOfRecord_asksForBulk worker record

/-- The partial fetch fails on data of another shape. -/
theorem wellNested_of_partialRecord {record part : Record} (h : partialRecord record = .ok part) :
    WellNested record.data := by
  obtain ⟨restrictedData, hrestrict, h⟩ := bind_eq_ok.mp h
  obtain ⟨data, hreconstruct, -⟩ := bind_eq_ok.mp h
  have htoken : pathToken "data.ExtensionProperties.wdms" =
      ["data", "ExtensionProperties", "wdms"] := by decide
  simp only [restrictData, RecordUtils.attributeRecordWdmsExtensionProperties, htoken,
    List.head?_cons, if_true, List.tail_cons, walk, getKey, bind, Except.bind, pure, Except.pure]
    at hrestrict
  cases hext : Dict.get record.data "ExtensionProperties" with
  | none => exact ⟨Or.inl hext, by rw [hext]; exact Or.inl rfl⟩
  | some ext =>
    rw [hext] at hrestrict
    cases ext with
    | none => exact ⟨Or.inr (Or.inl hext), by rw [hext]; exact Or.inl rfl⟩
    | dict items =>
      have hnested : IsObjectOrNull (Dict.get items "wdms") →
          WellNested record.data := by
        intro hwdms
        refine ⟨Or.inr (Or.inr ⟨items, hext⟩), ?_⟩
        rw [hext]
        exact hwdms
      cases hwdms : Dict.get items "wdms" with
      | none => exact hnested (Or.inl hwdms)
      | some wdms =>
        simp only [Option.getD_some, hwdms] at hrestrict
        -- what is not null comes back under the dotted path, and must be an object
        cases wdms with
        | none => exact hnested (Or.inr (Or.inl hwdms))
        | dict wdmsItems => exact hnested (Or.inr (Or.inr ⟨wdmsItems, hwdms⟩))
        | _ =>
          cases hrestrict
          cases hreconstruct
    | _ => cases hrestrict

/-- A read asks for the bulk of the record or for nothing, whatever the shape of its data. -/
theorem asks_only {recordId : String} {record : Record} (hid : record.id = some recordId)
    (hjson : (Value.dict record.data).IsJson) (r : BulkRead) :
    ∃ out sent, Asks (r.ofRecord worker recordId record) out sent ∧ (sent = [] ∨
      ∃ uri, validBulkUri record = .ok (some uri) ∧
        sent = [r.request recordId uri.bulkId record.version]) := by
  have hcases : ∀ {admitted : Prop}, AsksForBulk record admitted
      (fun bulkId => r.request recordId bulkId record.version) (r.ofRecord worker recordId record) →
      ∃ out sent, Asks (r.ofRecord worker recordId record) out sent ∧ (sent = [] ∨
        ∃ uri, validBulkUri record = .ok (some uri) ∧
          sent = [r.request recordId uri.bulkId record.version]) := by
    intro admitted hasks
    by_cases hboth : admitted ∧ ∃ uri, validBulkUri record = .ok (some uri)
    · obtain ⟨hadmitted, uri, huri⟩ := hboth
      obtain ⟨out, hout⟩ := hasks.asked uri hadmitted huri
      exact ⟨out, _, hout, Or.inr ⟨uri, huri, rfl⟩⟩
    · obtain ⟨e, he⟩ := hasks.refused hboth
      exact ⟨_, _, he, Or.inl rfl⟩
  by_cases hnested : WellNested record.data
  · exact hcases (r.asks worker hid (.of_json hnested hjson))
  -- of data of another shape there is no partial record, and the statistics read it whole
  have hpart : ∀ {f : Record → Effect Server Raised Response},
      ∃ e, Asks (Effect.lift (WellboreDdms.partialRecord record) >>= f) (.error e) [] := by
    intro f
    cases hpart : WellboreDdms.partialRecord record with
    | error e => exact ⟨e, asks_bind_error (asks_lift _)⟩
    | ok part => exact absurd (wellNested_of_partialRecord hpart) hnested
  have htext : record.idText = recordId := by
    rw [Record.idText, hid]
    rfl
  subst htext
  cases r with
  | getData e dataParam acceptType orient =>
    obtain ⟨e, he⟩ := hpart
    exact ⟨_, _, he, Or.inl rfl⟩
  | getDataVersion e version dataParam acceptType orient =>
    obtain ⟨e, he⟩ := hpart
    exact ⟨_, _, he, Or.inl rfl⟩
  | getBulkStatistics curves => exact hcases (statisticsOfRecord_asksForBulk worker record curves)
  | getBulkStatisticsVersion version curves =>
    exact hcases (statisticsOfRecord_asksForBulk worker record curves)
  | computeBulkStatistics version => exact hcases (computationOfRecord_asksForBulk worker record)

/-- Whatever the record is, a read does the same to every server. -/
theorem exists_asks (recordId : String) (record : Record) (r : BulkRead) :
    ∃ out sent, Asks (r.ofRecord worker recordId record) out sent := by
  have hdata : ∀ e dataParam acceptType orient, ∃ out sent,
      Asks (Effect.lift (WellboreDdms.partialRecord record) >>= fun record =>
        dataOfRecord worker (v3State e) recordId record dataParam acceptType orient) out sent := by
    intro e dataParam acceptType orient
    cases hpart : WellboreDdms.partialRecord record with
    | error error => exact ⟨_, _, asks_bind_error (asks_lift _)⟩
    | ok part =>
      obtain ⟨out, sent, hout⟩ :=
        (dataOfRecord_asksForBulk worker (v3State e) recordId part dataParam
        acceptType orient).exists_asks
      exact ⟨out, sent, asks_lift_bind rfl hout⟩
  cases r with
  | getData e dataParam acceptType orient => exact hdata e dataParam acceptType orient
  | getDataVersion e version dataParam acceptType orient =>
    exact hdata e dataParam acceptType orient
  | getBulkStatistics curves =>
    exact (statisticsOfRecord_asksForBulk worker record curves).exists_asks
  | getBulkStatisticsVersion version curves =>
    exact (statisticsOfRecord_asksForBulk worker record curves).exists_asks
  | computeBulkStatistics version =>
    exact (computationOfRecord_asksForBulk worker record).exists_asks

/-! ## The two halves of a read -/

variable (o : Outside)

/-- A read fetches the record and asks for its bulk. -/
theorem run_eq_bind (recordId : String) (r : BulkRead) (s : Server) :
    r.run o worker recordId s =
      (fetchRecord o recordId r.version >>= fun record => r.ofRecord worker recordId record) s := by
  cases r <;> rfl

/-- The version that is found, and what follows. -/
theorem run_of_find {recordId : String} {r : BulkRead} {s : Server} {record : Record}
    (hfetch : o.fetch = .ok ()) (hfind : s.records.find recordId r.version = some record) :
    r.run o worker recordId s = r.ofRecord worker recordId record s := by
  rw [run_eq_bind]
  refine Effect.bind_of_ok ?_
  rw [fetchRecord_eq, hfetch, hfind]

/-- A version that is not found. -/
theorem run_of_not_found {recordId : String} {r : BulkRead} {s : Server}
    (hfetch : o.fetch = .ok ()) (hfind : s.records.find recordId r.version = none) :
    r.run o worker recordId s = (.error (.unexpectedResponse 404), s) := by
  rw [run_eq_bind]
  refine Effect.bind_of_error ?_
  rw [fetchRecord_eq, hfetch, hfind]

theorem run_of_fetch_error {recordId : String} {r : BulkRead} {s : Server} {e : Raised}
    (hfetch : o.fetch = .error e) : r.run o worker recordId s = (.error e, s) := by
  rw [run_eq_bind]
  refine Effect.bind_of_error ?_
  rw [fetchRecord_eq, hfetch]

end BulkRead

/-- On `s` and on `t`, `x` answers the same and sends the same, and it does no more. -/
def ReadsAlike (x : Effect Server Raised Response) (s t : Server) : Prop :=
  (x t).1 = (x s).1 ∧ ∃ sent, (x s).2 = { s with requests := s.requests ++ sent } ∧
    (x t).2 = { t with requests := t.requests ++ sent }

theorem readsAlike_of_asks {x y : Effect Server Raised Response} {s t : Server}
    {out : Except Raised Response} {sent : List WorkerRequest} (h : Asks y out sent)
    (hs : x s = y s) (ht : x t = y t) : ReadsAlike x s t := by
  rw [ReadsAlike, hs, ht, h s, h t]
  exact ⟨rfl, sent, rfl, rfl⟩

/-- **The version decides**: where the storage finds the same, a read answers the same and
asks the same. -/
theorem BulkRead.run_alike (o : Outside) (worker : WorkerRequest → Except Raised BulkResponse)
    {recordId : String} {s t : Server} (r : BulkRead)
    (h : t.records.find recordId r.version = s.records.find recordId r.version) :
    ReadsAlike (r.run o worker recordId) s t := by
  cases hfetch : o.fetch with
  | error e =>
    exact readsAlike_of_asks (asks_raise e) (r.run_of_fetch_error worker o hfetch)
      (r.run_of_fetch_error worker o hfetch)
  | ok u =>
    cases hfind : s.records.find recordId r.version with
    | none =>
      exact readsAlike_of_asks (asks_raise _) (run_of_not_found worker o hfetch hfind)
        (run_of_not_found worker o hfetch (h.trans hfind))
    | some record =>
      obtain ⟨out, sent, hout⟩ := r.exists_asks worker recordId record
      exact readsAlike_of_asks hout (run_of_find worker o hfetch hfind)
        (run_of_find worker o hfetch (h.trans hfind))

end WellboreDdms
