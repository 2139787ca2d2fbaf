import WellboreDdms.Bulk.Rule
import WellboreDdms.Records.Entity

/-!
# The POST routes

Every V3 entity has a route that creates or updates records. The routes of the
entities with bulk data check the bulk URI of the records, the others do not.

- `postChecked`, `postUnchecked`: what the two kinds of routes do; every route is one
  of them, under its own name.
- `postRecords`: the route of an entity.
- `PassedChecks`: what the records of a request have passed that gets to its write.
- `postRecords_spec`: a request raises and changes nothing, or it is the write of records that
  have passed the checks of the route; `postRecords_written` says what this means for the store.
-/

namespace WellboreDdms

open Python Machine

/-- What a route asks of its records besides the kind and the bulk URI: the validation
against the schemas, and the consistency of the `i`-th record in itself. -/
structure RecordChecks where
  validateRecords : List Record → Except Raised Unit
  checkConsistency : Entity → Nat → Record → Except Raised Unit

/-- The records from the `i`-th on, one after the other. -/
def checkEach (check : Nat → Record → Except Raised Unit) :
    Nat → List Record → Except Raised Unit
  | _, [] => .ok ()
  | i, record :: records => do
    check i record
    checkEach check (i + 1) records

section

variable (c : RecordChecks) (o : Outside)

/-- A route of an entity with bulk data. -/
def postChecked (e : Entity) (records : List Record) :
    Effect Server Raised CreateUpdateRecordsResponse := do
  Effect.lift (c.validateRecords records)
  Effect.lift (raiseIfNotOsduRightEntitiesKind records (v3State e))
  raiseIfInvalidBulkUri o 0 records
  Effect.lift (checkEach (c.checkConsistency e) 0 records)
  createOrUpdateRecords o records

/-- A route of an entity without bulk data. -/
def postUnchecked (e : Entity) (records : List Record) :
    Effect Server Raised CreateUpdateRecordsResponse := do
  Effect.lift (c.validateRecords records)
  Effect.lift (raiseIfNotOsduRightEntitiesKind records (v3State e))
  createOrUpdateRecords o records

/-- The route of well logs. -/
def postWelllogOsdu := postChecked c o .wellLog

/-- The route of trajectories. -/
def postWellboretrajectoryOsdu := postChecked c o .trajectory
/-- The route of `generic_ddms_v3`, mounted for two entities. -/
def createOrUpdateOsduRecord := postChecked c o

/-- The route of wells. -/
def postWellOsdu := postUnchecked c o .well

/-- The route of wellbores. -/
def postWellboreOsdu := postUnchecked c o .wellbore

/-- The route of marker sets. -/
def postWellboremarkersetOsdu := postUnchecked c o .marker

/-- The route of interval sets. -/
def postWellboreintervalsetidOsdu := postUnchecked c o .wellboreIntervalSet

/-- The route of log acquisitions. -/
def postWelllogacquisitionidOsdu := postUnchecked c o .wellLogAcquisition

/-- The POST route of an entity. -/
def postRecords : Entity → List Record → Effect Server Raised CreateUpdateRecordsResponse
  | .wellLog => postWelllogOsdu c o
  | .trajectory => postWellboretrajectoryOsdu c o
  | .ppfgDataset => createOrUpdateOsduRecord c o .ppfgDataset
  | .wellPressureTestRawMeasurement => createOrUpdateOsduRecord c o .wellPressureTestRawMeasurement
  | .well => postWellOsdu c o
  | .wellbore => postWellboreOsdu c o
  | .marker => postWellboremarkersetOsdu c o
  | .wellboreIntervalSet => postWellboreintervalsetidOsdu c o
  | .wellLogAcquisition => postWelllogacquisitionidOsdu c o
  -- not mounted
  | .dip | .dipSet => fun _ => Effect.raise (.httpException 404 "Not Found")

end

/-- The POST route of the entity checks the bulk URIs. -/
def Entity.checksBulkUri : Entity → Bool
  | .wellLog | .trajectory | .ppfgDataset | .wellPressureTestRawMeasurement => true
  | _ => false

/-- The write of the records of one request. -/
def Written (o : Outside) (records : List Record) (s t : Server) : Prop :=
  ∃ assign, o.write = .ok assign ∧ t = { s with records := s.records.addAll assign 0 records }

/-- A call to the storage writes the records or changes nothing. -/
theorem createOrUpdateRecords_written (o : Outside) (records : List Record) (s : Server) :
    Effect.Post (createOrUpdateRecords o records) s fun _ t => t = s ∨ Written o records s t := by
  refine Effect.post_lift_bind (fun e _ => Or.inl rfl) fun assign hassign => ?_
  refine Effect.post_modify_bind (Effect.post_pure ?_)
  exact Or.inr ⟨assign, hassign, rfl⟩

/-- The records have passed the gate of the kinds and, on the routes with more checks, these. -/
structure PassedChecks (c : RecordChecks) (e : Entity) (records : List Record) (s : Server) :
    Prop where
  kinds : raiseIfNotOsduRightEntitiesKind records (v3State e) = .ok ()
  keeps : e.checksBulkUri = true → ∀ record ∈ records, KeepsBulkUri s.records record
  consistent : e.checksBulkUri = true → checkEach (c.checkConsistency e) 0 records = .ok ()

/-- A request that raises before its write, or is its write. -/
def ChecksThenWrites (c : RecordChecks) (o : Outside) (e : Entity) (records : List Record)
    (s : Server) (out : Except Raised CreateUpdateRecordsResponse) (t : Server) : Prop :=
  (∃ error, out = .error error) ∧ t = s ∨
    PassedChecks c e records s ∧ createOrUpdateRecords o records s = (out, t)

section

variable (c : RecordChecks) (o : Outside) (records : List Record) (s : Server)

/-- **A route with bulk data** checks, then writes. -/
theorem postChecked_spec (e : Entity) :
    Effect.Post (postChecked c o e records) s (ChecksThenWrites c o e records s) := by
  refine Effect.post_lift_bind (fun error _ => .inl ⟨⟨error, rfl⟩, rfl⟩) fun _ _ => ?_
  refine Effect.post_lift_bind (fun error _ => .inl ⟨⟨error, rfl⟩, rfl⟩) fun _ hkinds => ?_
  refine Effect.post_bind (raiseIfInvalidBulkUri_spec o 0 records s) ?_ ?_
  · rintro error t ⟨rfl, -⟩
    exact .inl ⟨⟨error, rfl⟩, rfl⟩
  · rintro u t ⟨rfl, hkeeps⟩
    refine Effect.post_lift_bind (fun error _ => .inl ⟨⟨error, rfl⟩, rfl⟩) fun _ hconsistent => ?_
    exact .inr ⟨⟨hkinds, fun _ => hkeeps rfl, fun _ => hconsistent⟩, rfl⟩

/-- **A route without bulk data** checks less, then writes. -/
theorem postUnchecked_spec {e : Entity} (he : e.checksBulkUri = false) :
    Effect.Post (postUnchecked c o e records) s (ChecksThenWrites c o e records s) := by
  have hnot : e.checksBulkUri ≠ true := by
    rw [he]
    exact Bool.false_ne_true
  refine Effect.post_lift_bind (fun error _ => .inl ⟨⟨error, rfl⟩, rfl⟩) fun _ _ => ?_
  refine Effect.post_lift_bind (fun error _ => .inl ⟨⟨error, rfl⟩, rfl⟩) fun _ hkinds => ?_
  exact .inr ⟨⟨hkinds, fun h => absurd h hnot, fun h => absurd h hnot⟩, rfl⟩

/-- **A POST request** raises and changes nothing, or is the write of records that have passed the
checks of its route. -/
theorem postRecords_spec (e : Entity) :
    Effect.Post (postRecords c o e records) s (ChecksThenWrites c o e records s) := by
  cases e with
  | wellLog => exact postChecked_spec ..
  | trajectory => exact postChecked_spec ..
  | ppfgDataset => exact postChecked_spec ..
  | wellPressureTestRawMeasurement => exact postChecked_spec ..
  | well => exact postUnchecked_spec c o records s rfl
  | wellbore => exact postUnchecked_spec c o records s rfl
  | marker => exact postUnchecked_spec c o records s rfl
  | wellboreIntervalSet => exact postUnchecked_spec c o records s rfl
  | wellLogAcquisition => exact postUnchecked_spec c o records s rfl
  | dip => exact .inl ⟨⟨_, rfl⟩, rfl⟩
  | dipSet => exact .inl ⟨⟨_, rfl⟩, rfl⟩

/-- **A request writes all its records or none**, and only records that have passed the checks. -/
theorem postRecords_written (e : Entity) :
    Effect.Post (postRecords c o e records) s fun _ t =>
      t = s ∨ Written o records s t ∧ PassedChecks c e records s := by
  refine (postRecords_spec c o records s e).mono ?_
  rintro out t (⟨-, rfl⟩ | ⟨hpassed, hwrite⟩)
  · exact .inl rfl
  · have hwritten := createOrUpdateRecords_written o records s
    rw [Effect.Post, hwrite] at hwritten
    exact hwritten.imp_right fun hwritten => ⟨hwritten, hpassed⟩

end

end WellboreDdms
