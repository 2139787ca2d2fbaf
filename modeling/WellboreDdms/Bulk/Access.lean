import WellboreDdms.Bulk.Uri
import WellboreDdms.Machine.Effect

/-!
# The bulk URI in a record

`OsduBulkIdAccess` reads and writes `data.ExtensionProperties.wdms.bulkURI`. The data
of a record is whatever JSON a client has posted, so every step of the path may meet
a value of another type.

- `getBulkUri`, `setBulkUri`: the two operations, with their exceptions.
- `getBulkUri_setBulkUri`: what was set is got back.
- `setBulkUri_frame`: only the extension properties and the datasets change.
-/

namespace WellboreDdms

open Python Machine

/-- `packaging.version.Version(a) >= Version(b)`; `none` is `InvalidVersion`. -/
structure Packaging where
  versionGe : String → String → Option Bool

/-- `v.get(key, None)`, on a value that may be no dictionary. -/
def getKey (v : Value) (key : String) : Except Raised (Option Value) :=
  match v with
  | .dict items => .ok (Dict.get items key)
  | _ => .error .typeError

/-- A value, if there is one and it is not falsy. -/
def truthyValue (v : Option Value) : Option Value := v.filter Value.truthy

/-- The field that holds the bulk URI. -/
def bulkUriField : String := "bulkURI"

/-- From which version on a kind lists its datasets. -/
def earliestKindVersionIncludingDdmsDatasets : Dict String String :=
  [("WellboreIntervalSet", "1.1.0"),
    ("WellboreTrajectory", "1.2.0"),
    ("WellboreMarkerSet", "1.3.0"),
    ("WellLog", "1.3.0"),
    ("PPFGDataset", "1.1.0"),
    ("WellPressureTestRawMeasurement", "1.0.0")]

namespace OsduBulkIdAccess

/-- The value of the field, `None` where the path is absent or falsy. -/
def fieldValue (record : Record) : Except Raised Value :=
  match truthyValue (Dict.get record.data "ExtensionProperties") with
  | some extensionProperties => do
    let wdms ← getKey extensionProperties "wdms"
    match truthyValue wdms with
    | some wdms => return (← getKey wdms bulkUriField).getD .none
    | none => return .none
  | none => return .none

/-- `get_bulk_uri`. -/
def getBulkUri (record : Record) : Except Raised BulkURI :=
  fieldValue record >>= BulkURI.decode

/-- The extension properties of a record, with an empty `wdms` for a falsy one. -/
def extensionProperties (data : Dict String Value) : Except Raised (Dict String Value) :=
  match truthyValue (Dict.get data "ExtensionProperties") with
  | some (.dict ext) =>
    match truthyValue (Dict.get ext "wdms") with
    | some _ => .ok ext
    | none => .ok (Dict.set ext "wdms" (.dict []))
  | some _ => .error .typeError
  | none => .ok []

/-- `ext.setdefault("wdms", {})`, which is then assigned to. -/
def wdmsExtension (ext : Dict String Value) : Except Raised (Dict String Value) :=
  match Dict.get ext "wdms" with
  | some (.dict wdms) => .ok wdms
  | some _ => .error .typeError
  | none => .ok []

/-- The name and the version of a kind, if it has the form `..--name:version`. -/
def kindVersion (kind : String) : Option (String × String) :=
  match splitText "--" kind with
  | [_, kindVersion] =>
    match split kindVersion with
    | [name, version] => some (name, version)
    | _ => none
  | _ => none

/-- The datasets after `data["DDMSDatasets"].append(uri)`. -/
def appendDataset (data : Dict String Value) (uri : String) : Except Raised Value :=
  match truthyValue (Dict.get data "DDMSDatasets") with
  | some (.list xs) => .ok (.list (xs ++ [.str uri]))
  | some _ => .error .typeError
  | none => .ok (.list [.str uri])

/-- `_set_bulk_uri_ddms_datasets`. -/
def setBulkUriDdmsDatasets (pk : Packaging) (record : Record) (bulkUri : BulkURI) :
    Except Raised Record :=
  match kindVersion record.kind with
  | some (name, version) =>
    match Dict.get earliestKindVersionIncludingDdmsDatasets name with
    | some earliest =>
      match pk.versionGe version earliest with
      | some true => do
        let datasets ← appendDataset record.data bulkUri.encodeForDdmsDatasets
        return { record with data := Dict.set record.data "DDMSDatasets" datasets }
      | some false => .ok record
      | none => .error (.valueError ("Invalid version: '" ++ version ++ "'"))
    | none => .ok record
  | none => .ok record

/-- `set_bulk_uri`, with the identifier as the worker has sent it. -/
def setBulkUri (pk : Packaging) (record : Record) (bulkId : Value) : Except Raised Record := do
  let ext ← extensionProperties record.data
  let bulkUri ← BulkURI.fromBulkStorageV1 bulkId
  let uri ← bulkUri.encode
  let wdms ← wdmsExtension ext
  let ext := Dict.set ext "wdms" (.dict (Dict.set wdms bulkUriField (.str uri)))
  setBulkUriDdmsDatasets pk
    { record with data := Dict.set record.data "ExtensionProperties" (.dict ext) } bulkUri

/-! ## What is set is got -/

/-- A non-empty dictionary on the path is read through. -/
theorem truthyValue_dict_set (d : Dict String Value) (k : String) (v : Value) :
    truthyValue (some (.dict (Dict.set d k v))) = some (.dict (Dict.set d k v)) := by
  have hne : (Dict.set d k v).isEmpty = false := by
    cases d with
    | nil => rfl
    | cons p d =>
      obtain ⟨a, b⟩ := p
      by_cases ha : a = k <;> simp [Dict.set, ha]
  simp [truthyValue, Option.filter, Value.truthy, hne]

/-- The datasets are set next to the extension properties. -/
theorem setBulkUriDdmsDatasets_frame {pk : Packaging} {record r : Record} {bulkUri : BulkURI}
    (h : setBulkUriDdmsDatasets pk record bulkUri = .ok r) :
    r.id = record.id ∧ r.kind = record.kind ∧ r.version = record.version ∧ r.rest = record.rest ∧
      ∀ k, k ≠ "DDMSDatasets" → Dict.get r.data k = Dict.get record.data k := by
  unfold setBulkUriDdmsDatasets at h
  split at h
  · split at h
    · split at h
      · obtain ⟨datasets, -, h⟩ := bind_eq_ok.mp h
        cases h
        exact ⟨rfl, rfl, rfl, rfl, fun k hk => Dict.get_set_of_ne _ _ hk⟩
      · cases h
        exact ⟨rfl, rfl, rfl, rfl, fun _ _ => rfl⟩
      · cases h
    · cases h
      exact ⟨rfl, rfl, rfl, rfl, fun _ _ => rfl⟩
  · cases h
    exact ⟨rfl, rfl, rfl, rfl, fun _ _ => rfl⟩

/-- What `set_bulk_uri` leaves in the field. -/
theorem exists_of_setBulkUri {pk : Packaging} {record r : Record} {bulkId : Value}
    (h : setBulkUri pk record bulkId = .ok r) :
    ∃ bulkUri uri, BulkURI.fromBulkStorageV1 bulkId = .ok bulkUri ∧ bulkUri.encode = .ok uri ∧
      fieldValue r = .ok (.str uri) := by
  obtain ⟨ext, -, h⟩ := bind_eq_ok.mp h
  obtain ⟨bulkUri, hbulkUri, h⟩ := bind_eq_ok.mp h
  obtain ⟨uri, huri, h⟩ := bind_eq_ok.mp h
  obtain ⟨wdms, -, h⟩ := bind_eq_ok.mp h
  refine ⟨bulkUri, uri, hbulkUri, huri, ?_⟩
  have hframe := (setBulkUriDdmsDatasets_frame h).2.2.2.2 "ExtensionProperties" (by decide)
  rw [Dict.get_set_self] at hframe
  simp [fieldValue, hframe, truthyValue_dict_set, getKey, bind, Except.bind, pure, Except.pure]

/-- **What was set is got back**, for a canonical identifier. -/
theorem getBulkUri_setBulkUri {pk : Packaging} {record r : Record} {u : UUID}
    (h : setBulkUri pk record (.str u.text) = .ok r) :
    getBulkUri r = .ok (.ofUuid u .v1 (by decide)) := by
  obtain ⟨bulkUri, uri, hbulkUri, huri, hfield⟩ := exists_of_setBulkUri h
  have hmake : BulkURI.fromBulkStorageV1 (.str u.text) = .ok (.ofUuid u .v1 (by decide)) :=
    BulkURI.make_text u (by decide)
  obtain rfl := Except.ok.inj (hmake.symm.trans hbulkUri)
  have hv1 : BulkStorageVersion.v1 ≠ .invalid := by decide
  obtain ⟨t, ht, hdecode⟩ := BulkURI.decode_encode u hv1
  obtain rfl := Except.ok.inj (ht.symm.trans huri)
  rw [getBulkUri, hfield]
  exact hdecode

/-- Only the extension properties and the datasets change. -/
theorem setBulkUri_frame {pk : Packaging} {record r : Record} {bulkId : Value}
    (h : setBulkUri pk record bulkId = .ok r) :
    r.id = record.id ∧ r.kind = record.kind ∧ r.version = record.version ∧ r.rest = record.rest ∧
      ∀ k, k ≠ "DDMSDatasets" → k ≠ "ExtensionProperties" →
        Dict.get r.data k = Dict.get record.data k := by
  obtain ⟨ext, -, h⟩ := bind_eq_ok.mp h
  obtain ⟨bulkUri, -, h⟩ := bind_eq_ok.mp h
  obtain ⟨uri, -, h⟩ := bind_eq_ok.mp h
  obtain ⟨wdms, -, h⟩ := bind_eq_ok.mp h
  obtain ⟨hid, hkind, hversion, hrest, hdata⟩ := setBulkUriDdmsDatasets_frame h
  refine ⟨hid, hkind, hversion, hrest, fun k hk hk' => ?_⟩
  rw [hdata k hk]
  exact Dict.get_set_of_ne _ _ hk'

/-! ## Data of the usual shape -/

/-- The value is a dictionary, if it is not falsy. -/
def IsObject (v : Option Value) : Prop := ∀ w, truthyValue v = some w → ∃ items, w = .dict items

/-- The value is a text, if it is not falsy. -/
def IsText (v : Option Value) : Prop := ∀ w, truthyValue v = some w → ∃ s, w = .str s

/-- Its items; none if it is falsy. -/
def itemsOf (v : Option Value) : Dict String Value :=
  match truthyValue v with
  | some (.dict items) => items
  | _ => []

/-- The members of `ExtensionProperties`. -/
def extensionItems (data : Dict String Value) : Dict String Value :=
  itemsOf (Dict.get data "ExtensionProperties")

/-- The members of its `wdms` section. -/
def wdmsItems (data : Dict String Value) : Dict String Value :=
  itemsOf (Dict.get (extensionItems data) "wdms")

/-- The text of the bulk URI, if there is one. -/
def bulkUriText (record : Record) : Option String :=
  match truthyValue (Dict.get (wdmsItems record.data) bulkUriField) with
  | some (.str s) => some s
  | _ => none

/-- The path to the bulk URI leads through dictionaries, to a text. -/
structure Shaped (record : Record) : Prop where
  extensionProperties : IsObject (Dict.get record.data "ExtensionProperties")
  wdms : IsObject (Dict.get (extensionItems record.data) "wdms")
  bulkUri : IsText (Dict.get (wdmsItems record.data) bulkUriField)

theorem truthyValue_eq_some {v : Option Value} {w : Value} (h : truthyValue v = some w) :
    v = some w ∧ w.truthy = true :=
  Option.filter_eq_some_iff.mp h

/-- A section that is empty or missing has no members. -/
theorem itemsOf_of_falsy {v : Option Value} (h : truthyValue v = none) : itemsOf v = [] := by
  rw [itemsOf, h]

theorem itemsOf_of_truthy {v : Option Value} {items : Dict String Value}
    (h : truthyValue v = some (.dict items)) : itemsOf v = items := by
  rw [itemsOf, h]

/-- A falsy value of the field is as good as none. -/
theorem decode_getD (v : Option Value) :
    BulkURI.decode (v.getD .none) = BulkURI.decode ((truthyValue v).getD .none) := by
  cases v with
  | none => rfl
  | some w =>
    by_cases hw : w.truthy = true
    · rw [truthyValue, Option.filter_some_pos hw]
    · have hfalsy : w.truthy = false := Bool.eq_false_iff.mpr hw
      rw [truthyValue, Option.filter_some_neg hfalsy]
      exact if_pos hfalsy

theorem fieldValue_of_shaped {record : Record} (h : Shaped record) :
    fieldValue record = .ok ((Dict.get (wdmsItems record.data) bulkUriField).getD .none) := by
  unfold fieldValue
  cases hext : truthyValue (Dict.get record.data "ExtensionProperties") with
  | none => rw [wdmsItems, extensionItems, itemsOf_of_falsy hext, Dict.get_nil, itemsOf]; rfl
  | some ext =>
    obtain ⟨items, rfl⟩ := h.extensionProperties ext hext
    have hitems : extensionItems record.data = items := itemsOf_of_truthy hext
    have hwdmsShape := h.wdms
    rw [hitems] at hwdmsShape
    rw [wdmsItems, hitems]
    cases hwdms : truthyValue (Dict.get items "wdms") with
    | none =>
      rw [itemsOf_of_falsy hwdms]
      simp [getKey, hwdms, bind, Except.bind, pure, Except.pure]
    | some wdms =>
      obtain ⟨items', rfl⟩ := hwdmsShape wdms hwdms
      rw [itemsOf_of_truthy hwdms]
      simp [getKey, hwdms, bind, Except.bind, pure, Except.pure]

/-- **The URI of a shaped record** is what its text decodes to. -/
theorem getBulkUri_of_shaped {record : Record} (h : Shaped record) :
    getBulkUri record =
      match bulkUriText record with
      | some s => BulkURI.decode (.str s)
      | none => .ok .invalid := by
  have hfield : getBulkUri record =
      BulkURI.decode
        ((truthyValue (Dict.get (wdmsItems record.data) bulkUriField)).getD .none) := by
    rw [getBulkUri, fieldValue_of_shaped h, ← decode_getD]
    rfl
  rw [hfield, bulkUriText]
  cases htext : truthyValue (Dict.get (wdmsItems record.data) bulkUriField) with
  | none => rfl
  | some w =>
    obtain ⟨s, rfl⟩ := h.bulkUri w htext
    rfl

/-- The text is not empty. -/
theorem bulkUriText_ne_empty {record : Record} {s : String} (h : bulkUriText record = some s) :
    s ≠ "" := by
  unfold bulkUriText at h
  split at h
  · rename_i s' htext
    cases h
    have htruthy := (truthyValue_eq_some htext).2
    rintro rfl
    cases htruthy
  · cases h

end OsduBulkIdAccess

end WellboreDdms
