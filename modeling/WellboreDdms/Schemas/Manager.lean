import WellboreDdms.Bulk.Access
import WellboreDdms.Machine.Run

/-!
# The cache of schemas

The service validates records against the JSON schema of their kind. The schemas of the
OSDU authority are kept in four dictionaries, one for each mode, that all data partitions
share; any other schema is fetched again with the token of each caller.

- `SchemaManager.getSchema`: one call, with the answer of the schema service if it is asked.
- `SchemaManager.loadKnownSchemas`: the schemas that come with the service.
- `Conforms`: a document that is kept was asked for under the kind it names, a kind of the
  OSDU authority.
- `isolated`: in every run of such calls, what is returned for a kind was fetched for it or
  comes with the service, only OSDU schemas cross partitions, and no call changes another
  kind.
- `fetched_under_another_kind`: without the condition a partition sets the schema of another.
-/

namespace WellboreDdms

open Python Machine

/-- A JSON schema, or what the manipulator makes of one. -/
abbrev Schema := Dict String Value

/-- The forms in which a schema is kept. -/
inductive SchemaMode where
  | original
  | optimised
  | extraForbid
  | extraForbidOptimised
  deriving DecidableEq

/-- The manipulations of a schema, which are third-party code. -/
structure JSonSchemaManipulator where
  removeUnsupportedId : Schema → Except Raised Schema
  optimiseSchema : Schema → Except Raised Schema
  forbidExtra : Schema → Except Raised Schema

/-- The variants of one schema. -/
structure SchemaVersions where
  original : Schema
  optimised : Schema
  extraForbid : Schema
  extraForbidOptimised : Schema

/-- The form asked for. -/
def SchemaVersions.get (v : SchemaVersions) : SchemaMode → Schema
  | .original => v.original
  | .optimised => v.optimised
  | .extraForbid => v.extraForbid
  | .extraForbidOptimised => v.extraForbidOptimised

/-- `schemas[SchemaMode.ORIGINAL]["x-osdu-schema-source"]`. -/
def SchemaVersions.source (v : SchemaVersions) : Except Raised Value :=
  match Dict.get v.original "x-osdu-schema-source" with
  | some kind => .ok kind
  | none => .error (.keyError "x-osdu-schema-source")

/-! ## The variants of a schema -/

/-- `xs.remove(s)`, where a missing item is no error. -/
def removeItem (s : String) (xs : List Value) : List Value :=
  xs.eraseP fun v =>
    match v with
    | .str t => t = s
    | _ => false

/-- `properties` and `geometry` are removed from a list. -/
def relaxRequiredList : Value → Except Raised Value
  | .list xs => .ok (.list (removeItem "geometry" (removeItem "properties" xs)))
  | _ => .error .typeError

/-- The value under the keys, changed in place. -/
def updateIn (f : Value → Except Raised Value) : List String → Value → Except Raised Value
  | [], v => f v
  | key :: keys, .dict items => do
    let v ← updateIn f keys ((Dict.get items key).getD .none)
    return .dict (Dict.set items key v)
  | _ :: _, _ => .error .typeError

/-- The collections that are relaxed. -/
def collectionsToUpdate : List String :=
  ["osdu:wks:AbstractFeatureCollection:1.0.0", "osdu:wks:AbstractAnyCrsFeatureCollection:1.0.0",
    "osdu:wks:AbstractAnyCrsFeatureCollection:1.1.0"]

/-- A collection is relaxed if it is defined. -/
def relaxCollection (definitions : Value) (name : String) : Except Raised Value := do
  match truthyValue (← getKey definitions name) with
  | some _ =>
    updateIn relaxRequiredList [name, "properties", "features", "items", "required"] definitions
  | none => return definitions

/-- `relax_geojson_constraint`. -/
def relaxGeojsonConstraint (schema : Schema) : Except Raised Schema :=
  match Dict.get schema "definitions" with
  | some definitions => do
    let relaxed ← collectionsToUpdate.foldlM relaxCollection definitions
    return Dict.set schema "definitions" relaxed
  | none => .ok schema

section

variable (jm : JSonSchemaManipulator)

/-- `_create_versions_of_schema`. -/
def createVersionsOfSchema (schema : Schema) : Except Raised SchemaVersions := do
  let schema ← jm.removeUnsupportedId schema
  let originalSchema ← relaxGeojsonConstraint schema
  let optimised ← jm.optimiseSchema originalSchema
  let extraForbid ← jm.forbidExtra originalSchema
  let extraForbidOptimised ← jm.optimiseSchema extraForbid
  return ⟨originalSchema, optimised, extraForbid, extraForbidOptimised⟩

/-- The variants of a document of the schema service, with the kind it names. -/
def fetchedVersions (answer : Except Raised Schema) : Except Raised (String × SchemaVersions) := do
  let schema ← answer
  let schemas ← createVersionsOfSchema jm schema
  match ← schemas.source with
  | .str kind => return (kind, schemas)
  | _ => throw .typeError

end

/-! ## The libraries -/

/-- The libraries, one for each form. -/
structure SchemaManager where
  schemaLibrary : Dict String Schema
  optimisedSchemaLibrary : Dict String Schema
  schemaForbidExtraLibrary : Dict String Schema
  optimisedSchemaForbidExtraLibrary : Dict String Schema

namespace SchemaManager

/-- Nothing is known. -/
def empty : SchemaManager := ⟨[], [], [], []⟩

/-- `_get_known_schema`. -/
def getKnownSchema (m : SchemaManager) (kind : String) : SchemaMode → Option Schema
  | .original => Dict.get m.schemaLibrary kind
  | .optimised => Dict.get m.optimisedSchemaLibrary kind
  | .extraForbid => Dict.get m.schemaForbidExtraLibrary kind
  | .extraForbidOptimised => Dict.get m.optimisedSchemaForbidExtraLibrary kind

/-- All forms of a schema are kept. -/
def store (m : SchemaManager) (kind : String) (v : SchemaVersions) : SchemaManager where
  schemaLibrary := Dict.set m.schemaLibrary kind v.original
  optimisedSchemaLibrary := Dict.set m.optimisedSchemaLibrary kind v.optimised
  schemaForbidExtraLibrary := Dict.set m.schemaForbidExtraLibrary kind v.extraForbid
  optimisedSchemaForbidExtraLibrary :=
    Dict.set m.optimisedSchemaForbidExtraLibrary kind v.extraForbidOptimised

section

variable (jm : JSonSchemaManipulator) (lower : String → String)

/-- `load_known_schemas`, from the contents of the files. -/
def loadKnownSchemas (m : SchemaManager) : List Schema → Except Raised SchemaManager
  | [] => .ok m
  | content :: contents => do
    let versions ← createVersionsOfSchema jm content
    match ← versions.source with
    | .str kind => loadKnownSchemas (m.store kind versions) contents
    | .list _ | .dict _ => throw .typeError
    -- a key that is no string is never looked up
    | _ => loadKnownSchemas m contents

/-- `kind.lower().startswith("osdu:wks")`. -/
def isWellKnown (kind : String) : Bool := "osdu:wks".toList.isPrefixOf (lower kind).toList

/-- `get_schema`, with what the schema service answers if it is asked. -/
def getSchema (m : SchemaManager) (kind : String) (mode : SchemaMode)
    (answer : Except Raised Schema) : Except Raised Schema × SchemaManager :=
  match m.getKnownSchema kind mode with
  | some schema => (.ok schema, m)
  | none =>
    match fetchedVersions jm answer with
    | .ok (kind, schemas) =>
      (.ok (schemas.get mode), if isWellKnown lower kind then m.store kind schemas else m)
    | .error e => (.error e, m)

end

@[simp] theorem getKnownSchema_store_self (m : SchemaManager) (kind : String) (v : SchemaVersions)
    (mode : SchemaMode) : (m.store kind v).getKnownSchema kind mode = some (v.get mode) := by
  cases mode <;> exact Dict.get_set_self _ _ _

@[simp] theorem getKnownSchema_store_of_ne (m : SchemaManager) {kind other : String}
    (v : SchemaVersions) (mode : SchemaMode) (h : other ≠ kind) :
    (m.store kind v).getKnownSchema other mode = m.getKnownSchema other mode := by
  cases mode <;> exact Dict.get_set_of_ne _ _ h

end SchemaManager

/-! ## Calls -/

/-- A call, from one data partition, with what its schema service answers. -/
structure SchemaCall where
  kind : String
  mode : SchemaMode
  partition : String
  answer : Except Raised Schema

/-- The libraries, the documents fetched so far with the partition and the kind each was
fetched for, and what the calls have returned. -/
structure SchemaCache where
  manager : SchemaManager
  fetched : List (String × String × Schema) := []
  returned : List (SchemaCall × Schema) := []

section

variable (jm : JSonSchemaManipulator) (lower : String → String) (files : List Schema)

/-- The first two parts of the kind are `osdu` and `wks`. -/
def OsduAuthority (kind : String) : Prop := ((split kind).take 2).map lower = ["osdu", "wks"]

instance (kind : String) : Decidable (OsduAuthority lower kind) :=
  inferInstanceAs (Decidable (_ = _))

/-- The document a call fetches. -/
def SchemaCache.fetches (t : SchemaCache) (c : SchemaCall) : Option Schema :=
  match t.manager.getKnownSchema c.kind c.mode with
  | some _ => none
  | none => c.answer.toOption

/-- The documents fetched so far. -/
def SchemaCache.fetchedAfter (t : SchemaCache) (c : SchemaCall) :
    List (String × String × Schema) :=
  ((t.fetches c).map fun doc => (c.partition, c.kind, doc)).toList ++ t.fetched

/-- A call gets the schema, and may fetch it. -/
def SchemaCache.step (t : SchemaCache) (c : SchemaCall) : Option SchemaCache :=
  let r := t.manager.getSchema jm lower c.kind c.mode c.answer
  some
    { manager := r.2
      fetched := t.fetchedAfter c
      returned := (r.1.toOption.map fun schema => (c, schema)).toList ++ t.returned }

/-- A document that is kept names the kind it was asked for, one of the OSDU authority. -/
def Conforms (t : SchemaCache) (c : SchemaCall) : Prop :=
  ∀ doc ∈ t.fetches c, ∀ p ∈ (fetchedVersions jm (.ok doc)).toOption,
    SchemaManager.isWellKnown lower p.1 = true → p.1 = c.kind ∧ OsduAuthority lower c.kind

instance (t : SchemaCache) (c : SchemaCall) : Decidable (Conforms jm lower t c) :=
  inferInstanceAs (Decidable (∀ _ ∈ _, _))

/-- A document of which the schemas of a kind may be the variants: it comes with the
service, or was fetched for the kind. -/
def DocumentOf (fetched : List (String × String × Schema)) (kind : String) (v : SchemaVersions)
    (partition : Option String) : Prop :=
  ∃ doc, createVersionsOfSchema jm doc = .ok v ∧
    match partition with
    | none => doc ∈ files ∧ v.source = .ok (.str kind)
    | some partition => (partition, kind, doc) ∈ fetched

/-- What a call may return: a variant of a document of its kind, from another partition
only for a kind of the OSDU authority. -/
def MayReturn (fetched : List (String × String × Schema)) (c : SchemaCall) (schema : Schema) :
    Prop :=
  ∃ v partition, DocumentOf jm files fetched c.kind v partition ∧ schema = v.get c.mode ∧
    ∀ other ∈ partition, other ≠ c.partition → OsduAuthority lower c.kind

/-! ## The invariant -/

/-- The four libraries are in step: what they have for a kind are the variants of one
document, one that comes with the service unless the kind is of the OSDU authority. -/
def Entries (fetched : List (String × String × Schema)) (m : SchemaManager) : Prop :=
  ∀ kind, ∃ versions : Option SchemaVersions,
    (∀ mode, m.getKnownSchema kind mode = versions.map fun v => v.get mode) ∧
    ∀ v ∈ versions, ∃ partition, DocumentOf jm files fetched kind v partition ∧
      (partition.isSome = true → OsduAuthority lower kind)

/-- Every entry is of a document that was fetched for its partition. -/
structure Isolated (t : SchemaCache) : Prop where
  entries : Entries jm lower files t.fetched t.manager
  returned : ∀ p ∈ t.returned, MayReturn jm lower files t.fetched p.1 p.2

end

section

variable {jm : JSonSchemaManipulator} {lower : String → String} {files : List Schema}

theorem DocumentOf.mono {fetched fetched' : List (String × String × Schema)} {kind : String}
    {v : SchemaVersions} {partition : Option String} (hsub : ∀ x ∈ fetched, x ∈ fetched')
    (h : DocumentOf jm files fetched kind v partition) :
    DocumentOf jm files fetched' kind v partition := by
  obtain ⟨doc, hv, hdoc⟩ := h
  cases partition with
  | none => exact ⟨doc, hv, hdoc⟩
  | some partition => exact ⟨doc, hv, hsub _ hdoc⟩

theorem Entries.mono {fetched fetched' : List (String × String × Schema)} {m : SchemaManager}
    (hsub : ∀ x ∈ fetched, x ∈ fetched') (h : Entries jm lower files fetched m) :
    Entries jm lower files fetched' m := by
  intro kind
  obtain ⟨versions, hget, hall⟩ := h kind
  refine ⟨versions, hget, fun v hv => ?_⟩
  obtain ⟨partition, hdoc, hauthority⟩ := hall v hv
  exact ⟨partition, hdoc.mono hsub, hauthority⟩

/-- One kind gets the variants of a document of its own. -/
theorem Entries.store {fetched : List (String × String × Schema)} {m : SchemaManager}
    {kind : String} {v : SchemaVersions} {partition : Option String}
    (h : Entries jm lower files fetched m) (hdoc : DocumentOf jm files fetched kind v partition)
    (hauthority : partition.isSome = true → OsduAuthority lower kind) :
    Entries jm lower files fetched (m.store kind v) := by
  intro other
  by_cases hother : other = kind
  · subst hother
    refine ⟨some v, fun mode => SchemaManager.getKnownSchema_store_self m other v mode, ?_⟩
    rintro _ ⟨⟩
    exact ⟨partition, hdoc, hauthority⟩
  · obtain ⟨versions, hget, hall⟩ := h other
    refine ⟨versions, fun mode => ?_, hall⟩
    rw [SchemaManager.getKnownSchema_store_of_ne m v mode hother, hget mode]

theorem entries_empty : Entries jm lower files [] .empty := by
  intro kind
  exact ⟨none, fun mode => by cases mode <;> rfl, nofun⟩

/-- The schemas that come with the service. -/
theorem entries_loadKnownSchemas {contents : List Schema} {m m' : SchemaManager}
    (hsub : ∀ doc ∈ contents, doc ∈ files) (h : Entries jm lower files [] m)
    (hload : m.loadKnownSchemas jm contents = .ok m') : Entries jm lower files [] m' := by
  induction contents generalizing m with
  | nil =>
    cases hload
    exact h
  | cons content contents ih =>
    obtain ⟨hcontent, hcontents⟩ := List.forall_mem_cons.mp hsub
    obtain ⟨v, hv, hload⟩ := bind_eq_ok.mp hload
    obtain ⟨source, hsource, hload⟩ := bind_eq_ok.mp hload
    split at hload
    · have hdoc : DocumentOf jm files [] _ v none := ⟨content, hv, hcontent, hsource⟩
      exact ih hcontents (h.store hdoc nofun) hload
    · cases hload
    · cases hload
    · exact ih hcontents h hload

theorem createVersions_of_fetchedVersions {doc : Schema} {kind : String} {v : SchemaVersions}
    (h : fetchedVersions jm (.ok doc) = .ok (kind, v)) : createVersionsOfSchema jm doc = .ok v := by
  obtain ⟨doc', hdoc', h⟩ := bind_eq_ok.mp h
  cases hdoc'
  obtain ⟨v', hv', h⟩ := bind_eq_ok.mp h
  obtain ⟨source, -, h⟩ := bind_eq_ok.mp h
  split at h <;> cases h
  exact hv'

variable (jm lower) in
/-- What a call does: it is answered from the libraries, or by the schema service; then a
document of a well known kind is kept. -/
theorem getSchema_cases (m : SchemaManager) (c : SchemaCall) :
    (∃ schema, m.getKnownSchema c.kind c.mode = some schema ∧
      m.getSchema jm lower c.kind c.mode c.answer = (.ok schema, m)) ∨
    (m.getKnownSchema c.kind c.mode = none ∧
      ∃ e, m.getSchema jm lower c.kind c.mode c.answer = (.error e, m)) ∨
    (m.getKnownSchema c.kind c.mode = none ∧ ∃ doc source v, c.answer = .ok doc ∧
      fetchedVersions jm (.ok doc) = .ok (source, v) ∧
      m.getSchema jm lower c.kind c.mode c.answer =
        (.ok (v.get c.mode),
          if SchemaManager.isWellKnown lower source then m.store source v else m)) := by
  unfold SchemaManager.getSchema
  cases hknown : m.getKnownSchema c.kind c.mode with
  | some schema => exact Or.inl ⟨schema, rfl, rfl⟩
  | none =>
    cases hanswer : c.answer with
    | error e => exact Or.inr (Or.inl ⟨rfl, e, rfl⟩)
    | ok doc =>
      cases hfetched : fetchedVersions jm (.ok doc) with
      | error e => exact Or.inr (Or.inl ⟨rfl, e, rfl⟩)
      | ok p => exact Or.inr (Or.inr ⟨rfl, doc, p.1, p.2, rfl, hfetched, rfl⟩)

/-- A document that is kept conforms. -/
theorem Conforms.source {t : SchemaCache} {c : SchemaCall} {doc : Schema} {source : String}
    {v : SchemaVersions} (h : Conforms jm lower t c)
    (hknown : t.manager.getKnownSchema c.kind c.mode = none) (hanswer : c.answer = .ok doc)
    (hfetched : fetchedVersions jm (.ok doc) = .ok (source, v))
    (hwell : SchemaManager.isWellKnown lower source = true) :
    source = c.kind ∧ OsduAuthority lower c.kind := by
  have hfetches : doc ∈ t.fetches c := by
    rw [SchemaCache.fetches, hknown, hanswer]
    rfl
  refine h doc hfetches (source, v) ?_ hwell
  rw [hfetched]
  rfl

/-- A call leaves what the others get alone. -/
theorem getKnownSchema_other {t : SchemaCache} {c : SchemaCall} (hok : Conforms jm lower t c)
    {other : String} (hother : other ≠ c.kind) (mode : SchemaMode) :
    (t.manager.getSchema jm lower c.kind c.mode c.answer).2.getKnownSchema other mode =
      t.manager.getKnownSchema other mode := by
  rcases getSchema_cases jm lower t.manager c with
    ⟨schema, -, hget⟩ | ⟨-, e, hget⟩ | ⟨hknown, doc, source, v, hanswer, hfetched, hget⟩
  · rw [hget]
  · rw [hget]
  · rw [hget]
    cases hwell : SchemaManager.isWellKnown lower source with
    | false => rfl
    | true =>
      obtain ⟨rfl, -⟩ := hok.source hknown hanswer hfetched hwell
      exact SchemaManager.getKnownSchema_store_of_ne _ v mode hother

theorem getSchema_other {t : SchemaCache} {c d : SchemaCall} (hok : Conforms jm lower t c)
    (hother : d.kind ≠ c.kind) :
    ((t.manager.getSchema jm lower c.kind c.mode c.answer).2.getSchema jm lower d.kind d.mode
        d.answer).1 =
      (t.manager.getSchema jm lower d.kind d.mode d.answer).1 := by
  have hknown := getKnownSchema_other hok hother d.mode
  simp only [SchemaManager.getSchema] at hknown ⊢
  rw [hknown]
  cases t.manager.getKnownSchema d.kind d.mode with
  | some schema => rfl
  | none => cases fetchedVersions jm d.answer <;> rfl

/-- **One call** that conforms keeps the partitions apart. -/
theorem isolated_step {t u : SchemaCache} {c : SchemaCall} (h : Isolated jm lower files t)
    (hok : Conforms jm lower t c) (hstep : SchemaCache.step jm lower t c = some u) :
    Isolated jm lower files u := by
  obtain rfl := Option.some.inj hstep
  have hsub : ∀ x ∈ t.fetched, x ∈ t.fetchedAfter c := fun x hx => List.mem_append_right _ hx
  have hold : ∀ p ∈ t.returned, MayReturn jm lower files (t.fetchedAfter c) p.1 p.2 := by
    intro p hp
    obtain ⟨v, partition, hdoc, hschema, hauthority⟩ := h.returned p hp
    exact ⟨v, partition, hdoc.mono hsub, hschema, hauthority⟩
  rcases getSchema_cases jm lower t.manager c with
    ⟨schema, hknown, hget⟩ | ⟨-, e, hget⟩ | ⟨hknown, doc, source, v, hanswer, hfetched, hget⟩
  · -- the libraries answer
    refine { entries := ?_, returned := ?_ }
    · rw [hget]
      exact h.entries.mono hsub
    · rw [hget]
      refine List.forall_mem_cons.mpr ⟨?_, hold⟩
      obtain ⟨versions, hversions, hall⟩ := h.entries c.kind
      have hv := (hversions c.mode).symm.trans hknown
      obtain ⟨v, rfl, rfl⟩ := Option.map_eq_some_iff.mp hv
      obtain ⟨partition, hdoc, hauthority⟩ := hall v rfl
      refine ⟨v, partition, hdoc.mono hsub, rfl, ?_⟩
      rintro other rfl -
      exact hauthority rfl
  · refine { entries := ?_, returned := ?_ }
    · rw [hget]
      exact h.entries.mono hsub
    · rw [hget]
      exact hold
  · -- the schema service answers
    have hdoc : DocumentOf jm files (t.fetchedAfter c) c.kind v (some c.partition) := by
      refine ⟨doc, createVersions_of_fetchedVersions hfetched, ?_⟩
      have hfetches : t.fetches c = some doc := by
        rw [SchemaCache.fetches, hknown, hanswer]
        rfl
      rw [SchemaCache.fetchedAfter, hfetches]
      exact List.mem_cons_self
    refine { entries := ?_, returned := ?_ }
    · rw [hget]
      cases hwell : SchemaManager.isWellKnown lower source with
      | false => exact h.entries.mono hsub
      | true =>
        obtain ⟨rfl, hauthority⟩ := hok.source hknown hanswer hfetched hwell
        exact (h.entries.mono hsub).store hdoc fun _ => hauthority
    · rw [hget]
      refine List.forall_mem_cons.mpr ⟨⟨v, some c.partition, hdoc, rfl, ?_⟩, hold⟩
      rintro other ⟨⟩ hne
      exact absurd rfl hne

/-- **The schemas of partitions and kinds are isolated**, in every run of calls that fetch
only conforming documents: what a call returns comes with the service under its kind or was
fetched for its kind, from another partition only for a kind of the OSDU authority; and a
further such call changes nothing that is returned for another kind. -/
theorem isolated {m : SchemaManager} {calls : List SchemaCall} {t : SchemaCache}
    (hload : SchemaManager.empty.loadKnownSchemas jm files = .ok m)
    (hok : Guarded (SchemaCache.step jm lower) (Conforms jm lower) { manager := m } calls)
    (hrun : run (SchemaCache.step jm lower) { manager := m } calls = some t) :
    (∀ p ∈ t.returned, MayReturn jm lower files t.fetched p.1 p.2) ∧
      ∀ c d : SchemaCall, Conforms jm lower t c → d.kind ≠ c.kind →
        ((t.manager.getSchema jm lower c.kind c.mode c.answer).2.getSchema jm lower d.kind d.mode
            d.answer).1 =
          (t.manager.getSchema jm lower d.kind d.mode d.answer).1 := by
  have hinit : Isolated jm lower files { manager := m } :=
    { entries := entries_loadKnownSchemas (fun _ hdoc => hdoc) entries_empty hload
      returned := nofun }
  have hisolated : Isolated jm lower files t := run_invariant isolated_step hinit hok hrun
  exact ⟨hisolated.returned, fun c d hc hother => getSchema_other hc hother⟩

end

/-! ## Two partitions -/

/-- A manipulator that closes the top level of a schema. -/
def sampleManipulator : JSonSchemaManipulator where
  removeUnsupportedId := .ok
  optimiseSchema := .ok
  forbidExtra := fun schema => .ok (Dict.set schema "additionalProperties" (.bool false))

/-- A kind of the partner's. -/
def partnerKind : String := "partner:wks:work-product-component--WellLog:1.0.0"

/-- A kind of everybody's. -/
def welllogKind : String := "osdu:wks:work-product-component--WellLog:1.9.0"

/-- A document that names the kind of the OSDU authority. -/
def welllogDocument (title : String) : Schema :=
  [("x-osdu-schema-source", .str welllogKind), ("title", .str title)]

/-- The partner asks for its kind. -/
def partnerCall : SchemaCall :=
  ⟨partnerKind, .original, "partner", .ok (welllogDocument "partner")⟩

/-- Another partition asks for the common one. -/
def opendesCall : SchemaCall :=
  ⟨welllogKind, .original, "opendes", .ok (welllogDocument "opendes")⟩

/-- **A partition sets the schema of another**: what it has under a kind of its own is kept
under the kind the document names. -/
theorem fetched_under_another_kind :
    ¬ ∀ (files : List Schema) (m : SchemaManager) (calls : List SchemaCall) (t : SchemaCache),
      SchemaManager.empty.loadKnownSchemas sampleManipulator files = .ok m →
      run (SchemaCache.step sampleManipulator lower) { manager := m } calls = some t →
      ∀ p ∈ t.returned, MayReturn sampleManipulator lower files t.fetched p.1 p.2 := by
  intro h
  have hrun : ∃ m, run (SchemaCache.step sampleManipulator lower) { manager := .empty }
      [partnerCall, opendesCall] = some
      ⟨m, [("partner", partnerKind, welllogDocument "partner")],
        [(opendesCall, welllogDocument "partner"), (partnerCall, welllogDocument "partner")]⟩ :=
    ⟨_, rfl⟩
  obtain ⟨m, hrun⟩ := hrun
  obtain ⟨v, partition, ⟨doc, -, hdoc⟩, -⟩ :=
    h [] .empty [partnerCall, opendesCall] _ rfl hrun _ List.mem_cons_self
  cases partition with
  | none => exact absurd hdoc.1 List.not_mem_nil
  | some partition =>
    have hkind : welllogKind = partnerKind :=
      congrArg (fun x => x.2.1) (List.mem_singleton.mp hdoc)
    exact absurd hkind (by decide)

/-- The second partition gets what the first one has fetched for the same kind. -/
theorem isolated_two_partitions :
    ∃ t, run (SchemaCache.step sampleManipulator lower) { manager := .empty }
        [{ opendesCall with partition := "tenant" }, opendesCall] = some t ∧
      t.returned.length = 2 ∧
      ∀ p ∈ t.returned, MayReturn sampleManipulator lower [] t.fetched p.1 p.2 := by
  have hok : Guarded (SchemaCache.step sampleManipulator lower) (Conforms sampleManipulator lower)
      { manager := .empty } [{ opendesCall with partition := "tenant" }, opendesCall] :=
    guarded_of_checkRun (by decide)
  exact ⟨_, rfl, rfl, (isolated rfl hok rfl).1⟩

end WellboreDdms
