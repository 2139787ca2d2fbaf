import WellboreDdms.Bulk.Access
import WellboreDdms.Python.Pydantic

/-!
# Records on a blob storage

The record service that keeps every version of a record as a blob of JSON text. A fetch
may be restricted to some attributes of the data; the read endpoints restrict theirs to
the `wdms` extension, which comes back under a flattened key.

- `StorageRecordServiceBlobStorage`: the service, with the storage it runs on.
- `getRecordVersion`: the whole record, or its restriction to a list of attributes.
- `fetchRecordPartialWithWdmsExtension`: the restricted fetch, with the nesting built
  again.
- `RecordUtils.partial_agrees`: both fetches lead to the same bulk URI, and fail alike.
-/

namespace WellboreDdms

open Python Machine

variable {τ : Type}

/-- `Record` as a pydantic model: from JSON text, or from keyword arguments. The two
validate alike, and the field `data` takes any dictionary as it is, whatever the other
fields are. -/
structure RecordModel (py : Pydantic τ) where
  modelValidateJson : τ → Option Record
  construct : Dict String Value → Option Record
  modelValidateJson_eq : ∀ {t items}, py.loads t = some (.dict items) →
    modelValidateJson t = construct items
  construct_data : ∀ {items items' : Dict String Value} {d d' : Dict String Value},
    Dict.erase items "data" = Dict.erase items' "data" → Dict.get items "data" = some (.dict d) →
    Dict.get items' "data" = some (.dict d') →
    construct items' = (construct items).map fun r => { r with data := d' }

/-- The storage is used as one tenant; each of its calls may raise. -/
structure StorageRecordServiceBlobStorage (τ : Type) where
  checkAuth : Except Raised Unit
  listObjects : String → Except Raised (List String)
  download : String → Except Raised τ
  md5Hexdigest : String → String
  dataPartition : String

/-- The exceptions of the storage for what it does not have. -/
def fileNotFoundError : Raised := .other "FileNotFoundError"

/-- The exception of a blob that is not there. -/
def resourceNotFoundException : Raised := .other "ResourceNotFoundException"

/-- A blob that is not found is a record that is not found. -/
def itemNotFound (e : Raised) : Raised :=
  if e = fileNotFoundError ∨ e = resourceNotFoundException then .unexpectedResponse 404 else e

/-- `Record(..)`. -/
def validated (record : Option Record) : Except Raised Record :=
  match record with
  | some record => .ok record
  | none => .error (.other "ValidationError")

/-! ## Attributes -/

/-- The names of an attribute's path. -/
def pathToken (attributePath : String) : List String :=
  if attributePath = "" then [""] else splitText "." attributePath

/-- The value a path leads to, `None` if there is none. -/
def walk : Value → List String → Except Raised Value
  | currentNode, [] => .ok currentNode
  | currentNode, tk :: tks => do
    match (← getKey currentNode tk).getD .none with
    | .none => return .none
    | node => walk node tks

/-- The part of the data under the attributes, each under its dotted path. -/
def restrictData (fullData : Value) :
    List String → Dict String Value → Except Raised (Dict String Value)
  | [], restrictedData => .ok restrictedData
  | attributePath :: attributes, restrictedData =>
    if (pathToken attributePath).head? = some "data" then do
      let tokens := (pathToken attributePath).tail
      match ← walk fullData tokens with
      | .none => restrictData fullData attributes restrictedData
      | node =>
        restrictData fullData attributes (Dict.set restrictedData (".".intercalate tokens) node)
    else .error (.keyError "attribute should be in form 'data.\x7bfield_path\x7d'")

namespace StorageRecordServiceBlobStorage

variable {py : Pydantic τ} (s : StorageRecordServiceBlobStorage τ) (model : RecordModel py)

/-- The start of the names of a record's blobs. -/
def getRecordFolder (recordId : String) : String :=
  (if s.dataPartition = "" then "global" else s.dataPartition) ++ "_r_" ++ s.md5Hexdigest recordId

/-- The names of the record's blobs, sorted. -/
def getAllVersionObject (id : String) : Except Raised (List String) := do
  let objects ← s.listObjects (s.getRecordFolder id)
  return objects.mergeSort fun a b => decide (a ≤ b)

/-- A version of 0 is as good as none. -/
def buildRecordPath (id : String) (version : Option Int) : Except Raised (Option String) :=
  match version.filter fun v => v ≠ 0 with
  | some version => .ok (some (s.getRecordFolder id ++ "/" ++ toString version))
  | none => do return (← s.getAllVersionObject id).getLast?

/-- The blob of a version, or of the latest one. -/
def downloadVersion (id : String) (version : Option Int) : Except Raised τ := do
  match ← s.buildRecordPath id version with
  | some objectName => s.download objectName
  | none => throw resourceNotFoundException

/-- The record in a blob, restricted to the attributes if there are any. -/
def readRecord (binData : τ) (attributes : Option (List String)) : Except Raised Record :=
  match attributes with
  | none => validated (model.modelValidateJson binData)
  | some attributes =>
    match py.loads binData with
    | none => .error (.other "JSONDecodeError")
    | some (.dict recordDict) => do
      let fullData := (Dict.get recordDict "data").getD (.dict [])
      let restrictedData ← restrictData fullData attributes []
      validated (model.construct
        (Dict.set (Dict.erase recordDict "data") "data" (.dict restrictedData)))
    | some _ => .error .typeError

/-- `get_record_version`. -/
def getRecordVersion (id : String) (version : Option Int) (attributes : Option (List String)) :
    Except Raised Record := do
  s.checkAuth
  Except.mapError itemNotFound do
    readRecord model (← s.downloadVersion id version) attributes

/-- `get_record`, of the latest version. -/
def getRecord (id : String) (attributes : Option (List String)) : Except Raised Record :=
  s.getRecordVersion model id none attributes

end StorageRecordServiceBlobStorage

/-! ## The two fetches -/

namespace RecordUtils

variable {py : Pydantic τ} (s : StorageRecordServiceBlobStorage τ) (model : RecordModel py)

/-- `fetch_record`. -/
def fetchRecord (recordId : String) (version : Option Int) (attributes : Option (List String)) :
    Except Raised Record :=
  match version.filter fun v => v ≠ 0 with
  | some version => s.getRecordVersion model recordId (some version) attributes
  | none => s.getRecord model recordId attributes

/-- The attribute that a partial fetch asks for. -/
def attributeRecordWdmsExtensionProperties : List String := ["data.ExtensionProperties.wdms"]

/-- `data.setdefault(key, {})`, which is then used as a dictionary. -/
def setdefault (data : Dict String Value) (key : String) : Except Raised (Dict String Value) :=
  match Dict.get data key with
  | some (.dict items) => .ok items
  | some _ => .error .typeError
  | none => .ok []

/-- The data with `ExtensionProperties.wdms` nested again. -/
def reconstruct (data : Dict String Value) : Except Raised (Dict String Value) := do
  let wdmsExtDict := (Dict.get data "ExtensionProperties.wdms").getD (.dict [])
  let data := Dict.erase data "ExtensionProperties.wdms"
  let extensionProperties ← setdefault data "ExtensionProperties"
  let wdms ← setdefault extensionProperties "wdms"
  match wdmsExtDict with
  | .dict wdmsExtDict =>
    let extensionProperties :=
      Dict.set extensionProperties "wdms" (.dict (Dict.update wdms wdmsExtDict))
    return Dict.set data "ExtensionProperties" (.dict extensionProperties)
  -- `update` also takes a list of pairs, which is no object
  | _ => throw .typeError

/-- `fetch_record_partial_with_wdms_extension`: the fetched attribute is put back at its place. -/
def fetchRecordPartialWithWdmsExtension (recordId : String) (version : Option Int) :
    Except Raised Record := do
  let record ← fetchRecord s model recordId version (some attributeRecordWdmsExtensionProperties)
  return { record with data := ← reconstruct record.data }

end RecordUtils

/-! ## What the restriction keeps -/

/-- An object or null, if there is a value. -/
def IsObjectOrNull (v : Option Value) : Prop :=
  v = none ∨ v = some .none ∨ ∃ items, v = some (.dict items)

/-- The members of an object, none if there is no object. -/
def members : Option Value → Dict String Value
  | some (.dict items) => items
  | _ => []

/-- The data of a record has an object or null at each level down to `wdms`. -/
structure WellNested (data : Dict String Value) : Prop where
  extensionProperties : IsObjectOrNull (Dict.get data "ExtensionProperties")
  wdms : IsObjectOrNull (Dict.get (members (Dict.get data "ExtensionProperties")) "wdms")

/-- The members of the extension's `wdms` section. -/
def wdmsItems (data : Dict String Value) : Dict String Value :=
  members (Dict.get (members (Dict.get data "ExtensionProperties")) "wdms")

/-- An object that is not there, null or empty is taken for no object. -/
theorem truthyValue_object {v : Option Value} (h : IsObjectOrNull v) :
    truthyValue v = none ∧ members v = [] ∨ truthyValue v = some (.dict (members v)) := by
  rcases h with rfl | rfl | ⟨items, rfl⟩
  · exact Or.inl ⟨rfl, rfl⟩
  · exact Or.inl ⟨rfl, rfl⟩
  · cases items with
    | nil => exact Or.inl ⟨rfl, rfl⟩
    | cons p items => exact Or.inr rfl

/-- One step of the path: it stops where there is no object. -/
theorem walk_object {node : Dict String Value} {tk : String} (h : IsObjectOrNull (Dict.get node tk))
    (tks : List String) :
    walk (.dict node) (tk :: tks) = .ok .none ∧ members (Dict.get node tk) = [] ∨
      walk (.dict node) (tk :: tks) = walk (.dict (members (Dict.get node tk))) tks := by
  rcases h with hv | hv | ⟨items, hv⟩
  · exact Or.inl ⟨by simp [walk, getKey, hv, bind, Except.bind, pure, Except.pure], by rw [hv]; rfl⟩
  · exact Or.inl ⟨by simp [walk, getKey, hv, bind, Except.bind, pure, Except.pure], by rw [hv]; rfl⟩
  · exact Or.inr (by simp [walk, getKey, hv, bind, Except.bind, members])

/-- What the path to `wdms` leads to: nothing, or the members. -/
theorem walk_wdms {data : Dict String Value} (h : WellNested data) :
    walk (.dict data) ["ExtensionProperties", "wdms"] = .ok .none ∧ wdmsItems data = [] ∨
      walk (.dict data) ["ExtensionProperties", "wdms"] = .ok (.dict (wdmsItems data)) := by
  unfold wdmsItems
  rcases walk_object h.extensionProperties ["wdms"] with ⟨hwalk, hnone⟩ | hwalk
  · rw [hwalk, hnone]
    exact Or.inl ⟨rfl, rfl⟩
  · rw [hwalk]
    exact walk_object h.wdms []

/-- The data of a partial record, from the members of `wdms`. -/
def rebuilt (wdms : Dict String Value) : Dict String Value :=
  [("ExtensionProperties", .dict [("wdms", .dict (Dict.update [] wdms))])]

/-- The nesting is built again, also where there was nothing to restrict to. -/
theorem reconstruct_restrictData {data : Dict String Value} (h : WellNested data) :
    ∃ restrictedData,
      restrictData (.dict data) RecordUtils.attributeRecordWdmsExtensionProperties [] =
        .ok restrictedData ∧
      RecordUtils.reconstruct restrictedData = .ok (rebuilt (wdmsItems data)) := by
  have htoken : pathToken "data.ExtensionProperties.wdms" =
      ["data", "ExtensionProperties", "wdms"] := by decide
  rcases walk_wdms h with ⟨hwalk, hitems⟩ | hwalk
  · refine ⟨[], ?_, ?_⟩
    · simp [restrictData, RecordUtils.attributeRecordWdmsExtensionProperties, htoken, hwalk, bind,
        Except.bind]
    · rw [hitems]
      rfl
  · refine ⟨[("ExtensionProperties.wdms", .dict (wdmsItems data))], ?_, by rfl⟩
    simp [restrictData, RecordUtils.attributeRecordWdmsExtensionProperties, htoken, hwalk, bind,
      Except.bind, Dict.set]

/-- The field of the bulk URI is looked up among the members of `wdms`. -/
theorem fieldValue_eq {record : Record} (h : WellNested record.data) :
    OsduBulkIdAccess.fieldValue record =
      .ok ((Dict.get (wdmsItems record.data) bulkUriField).getD .none) := by
  unfold OsduBulkIdAccess.fieldValue wdmsItems
  rcases truthyValue_object h.extensionProperties with ⟨hnone, hempty⟩ | hext
  · rw [hnone, hempty]
    rfl
  · rw [hext]
    rcases truthyValue_object h.wdms with ⟨hnone, hempty⟩ | hwdms
    · simp only [getKey, bind, Except.bind, hnone, hempty]
      rfl
    · simp only [getKey, bind, Except.bind, hwdms]
      rfl

/-- What is put back is nested as a record is. -/
theorem wellNested_rebuilt (wdms : Dict String Value) : WellNested (rebuilt wdms) where
  extensionProperties := Or.inr (Or.inr ⟨_, rfl⟩)
  wdms := Or.inr (Or.inr ⟨_, rfl⟩)

/-- A record of which only `wdms` is left has the same bulk URI. -/
theorem getBulkUri_rebuilt {record : Record} (h : WellNested record.data)
    (hnodup : ((wdmsItems record.data).map Prod.fst).Nodup) :
    OsduBulkIdAccess.getBulkUri { record with data := rebuilt (wdmsItems record.data) } =
      OsduBulkIdAccess.getBulkUri record := by
  have hitems : wdmsItems (rebuilt (wdmsItems record.data)) =
      Dict.update [] (wdmsItems record.data) := rfl
  have hpartial : OsduBulkIdAccess.fieldValue
      { record with data := rebuilt (wdmsItems record.data) } =
      OsduBulkIdAccess.fieldValue record := by
    rw [fieldValue_eq (wellNested_rebuilt _), fieldValue_eq h, hitems, Dict.get_update [] hnodup]
    simp
  rw [OsduBulkIdAccess.getBulkUri, hpartial, OsduBulkIdAccess.getBulkUri]

/-! ## Both fetches -/

/-- The JSON text of a record: its data has an object or null on the path to `wdms`. -/
def StoredRecord (py : Pydantic τ) (t : τ) : Prop :=
  ∃ items data, py.loads t = some (.dict items) ∧ Dict.get items "data" = some (.dict data) ∧
    WellNested data

theorem isJson_members {v : Option Value} (h : ∀ w ∈ v, w.IsJson) :
    (Value.dict (members v)).IsJson := by
  unfold members
  split
  · exact h _ rfl
  · exact .dict List.nodup_nil nofun

/-- The members of `wdms` have distinct names. -/
theorem nodup_wdmsItems {data : Dict String Value} (h : (Value.dict data).IsJson) :
    ((wdmsItems data).map Prod.fst).Nodup := by
  have hext : (Value.dict (members (Dict.get data "ExtensionProperties"))).IsJson :=
    isJson_members fun _ hv => h.get hv
  have hwdms : (Value.dict (wdmsItems data)).IsJson := isJson_members fun _ hv => hext.get hv
  exact hwdms.nodup

section

variable {py : Pydantic τ} {s : StorageRecordServiceBlobStorage τ} {model : RecordModel py}

open StorageRecordServiceBlobStorage RecordUtils

variable (model) in
/-- Both readings of a blob fail alike; else they differ in the data alone, and what is
left of it is enough to build `wdms` again. -/
theorem readRecord_restricted {t : τ} (h : StoredRecord py t) :
    (∃ e, readRecord model t none = .error e ∧
      readRecord model t (some attributeRecordWdmsExtensionProperties) = .error e) ∨
    ∃ r restrictedData, readRecord model t none = .ok r ∧
      readRecord model t (some attributeRecordWdmsExtensionProperties) =
        .ok { r with data := restrictedData } ∧
      reconstruct restrictedData = .ok (rebuilt (wdmsItems r.data)) ∧
      WellNested r.data ∧ ((wdmsItems r.data).map Prod.fst).Nodup := by
  obtain ⟨items, data, hloads, hdata, hnested⟩ := h
  obtain ⟨restrictedData, hrestrict, hreconstruct⟩ := reconstruct_restrictData hnested
  have hothers : Dict.erase items "data" =
      Dict.erase
        (Dict.set (Dict.erase items "data") "data" (.dict restrictedData)) "data" := by simp
  have hconstruct := model.construct_data hothers hdata (Dict.get_set_self _ _ _)
  have hwhole := model.construct_data rfl hdata hdata
  simp only [readRecord, hloads, hdata, Option.getD_some, hrestrict, bind, Except.bind, hconstruct,
    model.modelValidateJson_eq hloads]
  cases hr : model.construct items with
  | none => exact Or.inl ⟨_, rfl, rfl⟩
  | some r =>
    rw [hr] at hwhole
    have hrdata : r.data = data := congrArg Record.data (Option.some.inj hwhole)
    have hnodup := nodup_wdmsItems ((py.isJson_of_loads hloads).get hdata)
    rw [← hrdata] at hreconstruct hnested hnodup
    exact Or.inr ⟨r, restrictedData, rfl, rfl, hreconstruct, hnested, hnodup⟩

/-- A fetch is a read of the version that was asked for. -/
theorem fetchRecord_eq_getRecordVersion (recordId : String) (version : Option Int)
    (attributes : Option (List String)) :
    fetchRecord s model recordId version attributes =
      s.getRecordVersion model recordId version attributes := by
  cases version with
  | none => rfl
  | some v =>
    by_cases hv : v = 0
    · subst hv
      rfl
    · have hfilter : (some v).filter (fun v => v ≠ 0) = some v := by simp [Option.filter, hv]
      rw [fetchRecord, hfilter]

/-- **The partial fetch agrees with the whole one**, for every version of a record with an
object or null at each level of the path to the bulk URI: both lead to the same bulk URI or
to the same exception, and they fail alike. -/
theorem RecordUtils.partial_agrees {recordId : String} {version : Option Int}
    (hstored : ∀ t, s.downloadVersion recordId version = .ok t → StoredRecord py t) :
    (fetchRecordPartialWithWdmsExtension s model recordId version >>= OsduBulkIdAccess.getBulkUri) =
        (fetchRecord s model recordId version none >>= OsduBulkIdAccess.getBulkUri) ∧
      ∀ e, fetchRecordPartialWithWdmsExtension s model recordId version = .error e ↔
        fetchRecord s model recordId version none = .error e := by
  simp only [fetchRecordPartialWithWdmsExtension, fetchRecord_eq_getRecordVersion, getRecordVersion]
  cases hauth : s.checkAuth with
  | error e => exact ⟨rfl, fun _ => Iff.rfl⟩
  | ok u =>
    cases hdownload : s.downloadVersion recordId version with
    | error e => exact ⟨rfl, fun _ => Iff.rfl⟩
    | ok t =>
      rcases readRecord_restricted model (hstored t hdownload) with
        ⟨e, hwhole, hrestricted⟩ |
        ⟨r, restrictedData, hwhole, hrestricted, hreconstruct, hnested, hnodup⟩
      · simp only [bind, Except.bind, hwhole, hrestricted]
        exact ⟨rfl, fun _ => Iff.rfl⟩
      · simp only [bind, Except.bind, hwhole, hrestricted, Except.mapError, hreconstruct, pure,
          Except.pure]
        exact ⟨getBulkUri_rebuilt hnested hnodup, fun e => ⟨nofun, nofun⟩⟩

end

/-! ## One stored record -/

/-- The kind, if it is a string. -/
def kindOf (items : Dict String Value) : Option String :=
  match Dict.get items "kind" with
  | some (.str kind) => some kind
  | _ => none

/-- A model that asks for a kind. -/
def RecordModel.ofKind (py : Pydantic τ) : RecordModel py :=
  let construct (items : Dict String Value) : Option Record :=
    ((Dict.get items "data").bind Value.asDict).bind fun data =>
      (kindOf (Dict.erase items "data")).map fun kind => { id := none, kind := kind, data := data }
  { modelValidateJson := fun t => (py.loads t).bind fun v => v.asDict.bind construct
    construct := construct
    modelValidateJson_eq := by
      intro t items h
      simp [h, Value.asDict]
    construct_data := by
      intro items items' d d' hothers hd hd'
      simp only [construct, hothers, hd, hd', Option.bind_some, Value.asDict]
      cases kindOf (Dict.erase items' "data") <;> rfl }

/-- A well log with a bulk URI. -/
def sampleDocument : Value :=
  .dict [("kind", .str "osdu:wks:work-product-component--WellLog:1.0.0"),
    ("data", .dict [("Name", .str "log"), ("ExtensionProperties", .dict [("wdms", .dict
      [("bulkURI", .str "urn:wdms-1:uuid:38f0438e-71b8-4806-924b-9753796a77c1")])])])]

/-- One version of one record. -/
def sampleStorage : StorageRecordServiceBlobStorage Value where
  checkAuth := .ok ()
  listObjects := fun folder => .ok [folder ++ "/7"]
  download := fun objectName =>
    if objectName = "opendes_r_3d7e83ea209d7db56a9e7cfd9469df95/7" then .ok sampleDocument
    else .error fileNotFoundError
  md5Hexdigest := fun _ => "3d7e83ea209d7db56a9e7cfd9469df95"
  dataPartition := "opendes"

theorem isJson_sampleDocument : sampleDocument.IsJson := by
  refine .dict (by decide) ?_
  simp only [List.forall_mem_cons, List.not_mem_nil, false_imp_iff, implies_true, and_true]
  refine ⟨.str _, .dict (by decide) ?_⟩
  simp only [List.forall_mem_cons, List.not_mem_nil, false_imp_iff, implies_true, and_true]
  refine ⟨.str _, .dict (by decide) ?_⟩
  simp only [List.forall_mem_cons, List.not_mem_nil, false_imp_iff, implies_true, and_true]
  refine .dict (by decide) ?_
  simp only [List.forall_mem_cons, List.not_mem_nil, false_imp_iff, implies_true, and_true]
  exact .str _

theorem stored_sampleDocument : StoredRecord Pydantic.trees sampleDocument :=
  ⟨_, _, if_pos isJson_sampleDocument, rfl, Or.inr (Or.inr ⟨_, rfl⟩), Or.inr (Or.inr ⟨_, rfl⟩)⟩

/-- The partial fetch of version 7 finds the same bulk URI. -/
theorem partial_agrees_version :
    (RecordUtils.fetchRecordPartialWithWdmsExtension sampleStorage (.ofKind Pydantic.trees)
        "opendes:work-product-component--WellLog:1" (some 7) >>= OsduBulkIdAccess.getBulkUri) =
      (RecordUtils.fetchRecord sampleStorage (.ofKind Pydantic.trees)
        "opendes:work-product-component--WellLog:1" (some 7) none >>=
          OsduBulkIdAccess.getBulkUri) := by
  refine (RecordUtils.partial_agrees fun t ht => ?_).1
  have hpath : sampleStorage.downloadVersion "opendes:work-product-component--WellLog:1" (some 7) =
      .ok sampleDocument := by rfl
  rw [hpath] at ht
  cases ht
  exact stored_sampleDocument

end WellboreDdms
