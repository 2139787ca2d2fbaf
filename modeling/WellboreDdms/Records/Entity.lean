import WellboreDdms.Records.Record

/-!
# Entities and the kind gate

Every route is mounted for an entity. Before a handler uses a record it asks
`raise_if_not_osdu_right_entity_kind` whether the kind of the record is one of
that entity.

- `Entity`, `Entity.value`, `entityNames`, `mounted`: the three tables the gate
  depends on, as the source maintains them.
- `Entity.osduType`: the entity type the record id patterns name.
- `gate_spec`: what the gate answers, for every entity and every kind of four parts.
- `gate_decides_iff`: it decides on the type of the entity exactly when
  `entityNames` has an entry for the entity, or the type is right anyway.
-/

namespace WellboreDdms

open Python

/-- The entities of the API. -/
inductive Entity where
  | marker
  | wellboreIntervalSet
  | wellLogAcquisition
  | trajectory
  | well
  | wellLog
  | wellbore
  | dip
  | dipSet
  | ppfgDataset
  | wellPressureTestRawMeasurement
  deriving DecidableEq, Repr

/-- Their names. -/
def Entity.value : Entity → String
  | .marker => "marker"
  | .wellboreIntervalSet => "wellboreintervalset"
  | .wellLogAcquisition => "welllogacquisition"
  | .trajectory => "trajectory"
  | .well => "well"
  | .wellLog => "welllog"
  | .wellbore => "wellbore"
  | .dip => "dip"
  | .dipSet => "dipSet"
  | .ppfgDataset => "ppfgdataset"
  | .wellPressureTestRawMeasurement => "wellpressuretestrawmeasurement"

/-- The OSDU types of the names. -/
def entityNames : Dict String String :=
  [("well", "master-data--Well"),
    ("wellbore", "master-data--Wellbore"),
    ("welllog", "work-product-component--WellLog"),
    ("trajectory", "work-product-component--WellboreTrajectory"),
    ("marker", "work-product-component--WellboreMarkerSet"),
    ("wellboreintervalset", "work-product-component--WellboreIntervalSet"),
    ("ppfgdatset", "work-product-component--PPFGDataset"),
    ("wellpressuretestrawmeasurement",
      "work-product-component--WellPressureTestRawMeasurement")]

/-- The entities whose V3 routes are mounted in `wdms_app`. -/
def mounted : List Entity :=
  [.wellbore, .well, .marker, .wellboreIntervalSet, .wellLogAcquisition, .wellLog, .trajectory,
    .ppfgDataset, .wellPressureTestRawMeasurement]

/-- The type of an entity, group and name, as the pattern of its record ids has it. -/
def Entity.osduType : Entity → Option String
  | .well => some "master-data--Well"
  | .wellbore => some "master-data--Wellbore"
  | .trajectory => some "work-product-component--WellboreTrajectory"
  | .marker => some "work-product-component--WellboreMarkerSet"
  | .wellLog => some "work-product-component--WellLog"
  | .wellboreIntervalSet => some "work-product-component--WellboreIntervalSet"
  | .wellLogAcquisition => some "master-data--WellLogAcquisition"
  | .ppfgDataset => some "work-product-component--PPFGDataset"
  | .wellPressureTestRawMeasurement =>
    some "work-product-component--WellPressureTestRawMeasurement"
  | .dip | .dipSet => none

/-- The four parts of a kind. -/
structure KindMetaData where
  authority : String
  source : String
  entityType : String
  version : String
  deriving DecidableEq

/-- `get_kind_meta`. -/
def getKindMeta (kind : String) : Except Raised KindMetaData :=
  match splitMax 4 kind with
  | [authority, source, entityType, version] => .ok ⟨authority, source, entityType, version⟩
  | _ => .error (.valueError ("Invalid kind format in " ++ kind ++ "."))

/-- What the routes leave in `request.state` for the gate. -/
structure RequestState where
  entityType : Option Entity
  version : Option String

/-- `make_entity_type_dependency(entity_type, "V3")`. -/
def v3State (e : Entity) : RequestState := ⟨some e, some "V3"⟩

/-- `DMSV3RouterUtils.raise_if_not_osdu_right_entity_kind`. -/
def raiseIfNotOsduRightEntityKind (record : Record) (state : RequestState)
    (statusCode : Nat := 400) : Except Raised Unit :=
  match state.entityType with
  | some entity =>
    if state.version = some "V3" then do
      let kindElements ← getKindMeta record.kind
      match Dict.get entityNames entity.value with
      | some name =>
        if name = kindElements.entityType then return ()
        else throw (.httpException statusCode ("Record is not an OSDU " ++ entity.value))
      | none => return ()
    else return ()
  | none => return ()

/-- `DMSV3RouterUtils.raise_if_not_osdu_right_entities_kind`. -/
def raiseIfNotOsduRightEntitiesKind (records : List Record) (state : RequestState) :
    Except Raised Unit :=
  records.forM fun record => raiseIfNotOsduRightEntityKind record state 422

/-! ## What the gate lets through -/

/-- A kind of four parts is read as these. -/
theorem getKindMeta_eq {kind authority source entityType version : String}
    (h : split kind = [authority, source, entityType, version]) :
    getKindMeta kind = .ok ⟨authority, source, entityType, version⟩ := by
  have hlen : (split kind).length ≤ 4 + 1 := by
    rw [h]
    exact Nat.le_succ 4
  rw [getKindMeta, splitMax_of_le hlen, h]

/-- The gate compares the third part with the table, if the table has an entry. -/
theorem gate_spec {record : Record} {authority source entityType version : String} (e : Entity)
    (h : split record.kind = [authority, source, entityType, version]) (statusCode : Nat) :
    raiseIfNotOsduRightEntityKind record (v3State e) statusCode =
      match Dict.get entityNames e.value with
      | some name =>
        if name = entityType then .ok ()
        else .error (.httpException statusCode ("Record is not an OSDU " ++ e.value))
      | none => .ok () := by
  simp only [raiseIfNotOsduRightEntityKind, v3State, if_true, getKindMeta_eq h]
  rfl

/-- The entries of the table are right. -/
theorem entityNames_get {e : Entity} (he : e ∈ mounted) {name : String}
    (h : Dict.get entityNames e.value = some name) : e.osduType = some name := by
  have key : ∀ e ∈ mounted, ∀ name ∈ Dict.get entityNames e.value, e.osduType = some name := by
    decide
  exact key e he name h

/-- The gate of `e` decides on the type of `e`: it lets a record through iff the
third part of its kind is that type, and otherwise raises an `HTTPException`. -/
def GateDecides (e : Entity) (record : Record) (entityType : String) (statusCode : Nat) : Prop :=
  (raiseIfNotOsduRightEntityKind record (v3State e) statusCode = .ok () ↔
      e.osduType = some entityType) ∧
    (e.osduType ≠ some entityType →
      ∃ detail, raiseIfNotOsduRightEntityKind record (v3State e) statusCode =
        .error (.httpException statusCode detail))

/-- **The gate decides exactly where the table has an entry**: for every mounted
entity and every kind of four parts, it decides on the type of the entity if and
only if the value of the entity is a key of `entityNames` or the type is right. -/
theorem gate_decides_iff {e : Entity} (he : e ∈ mounted) {record : Record}
    {authority source entityType version : String}
    (h : split record.kind = [authority, source, entityType, version]) (statusCode : Nat) :
    GateDecides e record entityType statusCode ↔
      Dict.contains entityNames e.value = true ∨ e.osduType = some entityType := by
  rw [GateDecides, gate_spec e h, Dict.contains]
  cases hget : Dict.get entityNames e.value with
  | none =>
    -- no entry: everything passes, so only the right type is decided correctly
    by_cases htype : e.osduType = some entityType
    · simp [htype]
    · simp [htype]
  | some name =>
    have hname : e.osduType = some name := entityNames_get he hget
    by_cases htype : name = entityType
    · simp [hname, htype]
    · simp [hname, htype]

/-- **Another kind passes**: the gate of `PPFGDataset` takes a `WellLog`, because the
table spells the key `ppfgdatset`. -/
theorem gate_passes_other_kind :
    ¬ ∀ e ∈ mounted, ∀ (record : Record) (authority source entityType version : String)
      (statusCode : Nat), split record.kind = [authority, source, entityType, version] →
      GateDecides e record entityType statusCode := by
  intro h
  have hdecides := h .ppfgDataset (by decide)
    { id := none, kind := "osdu:wks:work-product-component--WellLog:1.3.0", data := [] }
    "osdu" "wks" "work-product-component--WellLog" "1.3.0" 400 (by decide)
  have hpass := hdecides.1.mp (by decide)
  exact absurd hpass (by decide)

theorem gate_decides_iff_wellLog :
    GateDecides .wellLog
      { id := none, kind := "osdu:wks:work-product-component--WellboreTrajectory:1.1.0",
        data := [] }
      "work-product-component--WellboreTrajectory" 400 :=
  (gate_decides_iff (by decide)
    (show split _ =
      ["osdu", "wks", "work-product-component--WellboreTrajectory", "1.1.0"] by decide)
    400).mpr (.inl (by decide))

end WellboreDdms
