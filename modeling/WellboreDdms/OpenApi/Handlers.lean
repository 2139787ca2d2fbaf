import Mathlib.Data.List.Nodup
import WellboreDdms.Machine.Effect
import WellboreDdms.Python.Value
import WellboreDdms.Records.Record

/-!
# OpenAPI handlers

The specification of the service is completed by handlers, which are registered under the id of
an operation: they set its request body, add responses to it, or add schemas to the components.

- `Paths`: the operations of a specification, by path and method.
- `OpenApiHandler`: the registry; `set` registers handlers, `call` runs those of a list of ids.
- `Handler.Runs`: what a handler needs, an operation of the id or components.
- `call_keys_returns_iff`, `paths_of_call_keys`: where ids are distinct, all registered handlers
  run if and only if each has what it needs, and then they customise what has their id.
-/

namespace WellboreDdms

open Python Machine

/-- An operation of the specification, with what the handlers read and change. -/
structure OpenApiOperation where
  operationId : Option String
  requestBody : Option Value := none
  responses : Option (Dict String Value) := none

namespace OpenApiOperation

/-- `operation.get('operationId', '')`. -/
def id (operation : OpenApiOperation) : String := operation.operationId.getD ""

/-- The operation under another id. -/
def withId (operationId : String) (operation : OpenApiOperation) : OpenApiOperation :=
  { operation with operationId := some operationId }

end OpenApiOperation

/-- The place of an operation: its path, and its method in lower case. -/
abbrev Place := String × String

/-- The paths of a specification, each with its operations by their methods. -/
structure Paths where
  items : Dict String (Dict String OpenApiOperation)
  nodup_paths : (items.map Prod.fst).Nodup
  nodup_methods : ∀ p ∈ items, (p.2.map Prod.fst).Nodup

namespace Paths

variable (paths : Paths)

/-- The operation at a place. -/
def operation (place : Place) : Option OpenApiOperation :=
  (Dict.get paths.items place.1).bind fun item => Dict.get item place.2

/-- All operations, in the order of the document. -/
def operations : Dict Place OpenApiOperation :=
  paths.items.flatMap fun p => p.2.map fun m => ((p.1, m.1), m.2)

/-- The operations are replaced where they stand. -/
def mapOperations (f : Place → OpenApiOperation → OpenApiOperation) : Paths where
  items := paths.items.map fun p => (p.1, p.2.map fun m => (m.1, f (p.1, m.1) m.2))
  nodup_paths := by
    rw [List.map_map]
    exact paths.nodup_paths
  nodup_methods := by
    intro q hq
    obtain ⟨p, hp, rfl⟩ := List.mem_map.mp hq
    rw [List.map_map]
    exact paths.nodup_methods p hp

/-- A change of the operation at a place. -/
def modify (place : Place) (f : OpenApiOperation → OpenApiOperation) : Paths :=
  paths.mapOperations fun p operation => if p = place then f operation else operation

/-- The place of the first operation with an id. -/
def operationFromId (operationId : String) : Option Place :=
  (paths.operations.find? fun q => q.2.id = operationId).map Prod.fst

/-- The ids, in the order of the operations. -/
def ids : List String := paths.operations.map fun q => q.2.id

@[ext] theorem ext {paths other : Paths} (h : paths.items = other.items) : paths = other := by
  cases paths
  cases other
  cases h
  rfl

/-- An operation is found in the item of its path. -/
theorem mem_operations {place : Place} {operation : OpenApiOperation} :
    (place, operation) ∈ paths.operations ↔
      ∃ item, (place.1, item) ∈ paths.items ∧ (place.2, operation) ∈ item := by
  rw [operations, List.mem_flatMap]
  constructor
  · rintro ⟨p, hp, hmem⟩
    obtain ⟨m, hm, heq⟩ := List.mem_map.mp hmem
    cases heq
    exact ⟨p.2, hp, hm⟩
  · rintro ⟨item, hitem, hmem⟩
    exact ⟨_, hitem, List.mem_map.mpr ⟨_, hmem, rfl⟩⟩

/-- What is found at a place is what the document has there. -/
theorem operation_eq_some_iff {place : Place} {operation : OpenApiOperation} :
    paths.operation place = some operation ↔ (place, operation) ∈ paths.operations := by
  rw [mem_operations, Paths.operation, Option.bind_eq_some_iff]
  constructor
  · rintro ⟨item, hitem, hget⟩
    exact ⟨item, Dict.mem_of_get hitem, Dict.mem_of_get hget⟩
  · rintro ⟨item, hitem, hmem⟩
    exact ⟨item, Dict.get_of_mem paths.nodup_paths hitem,
      Dict.get_of_mem (paths.nodup_methods _ hitem) hmem⟩

/-- No place is there twice. -/
theorem nodup_operations : (paths.operations.map Prod.fst).Nodup := by
  rw [operations, List.map_flatMap, List.nodup_flatMap]
  constructor
  · intro p hp
    rw [List.map_map]
    have hmethods := (paths.nodup_methods p hp).map (Prod.mk_right_injective p.1)
    rwa [List.map_map] at hmethods
  · have hpaths := List.pairwise_map.mp paths.nodup_paths
    refine hpaths.imp fun {p q} hne place hp hq => hne ?_
    simp only [List.map_map, List.mem_map] at hp hq
    obtain ⟨m, -, rfl⟩ := hp
    obtain ⟨n, -, heq⟩ := hq
    exact (congrArg Prod.fst heq).symm

theorem operations_mapOperations (f : Place → OpenApiOperation → OpenApiOperation) :
    (paths.mapOperations f).operations = paths.operations.map fun q => (q.1, f q.1 q.2) := by
  simp only [operations, mapOperations, List.flatMap_map, List.map_flatMap, List.map_map]
  rfl

@[simp] theorem places_mapOperations (f : Place → OpenApiOperation → OpenApiOperation) :
    (paths.mapOperations f).operations.map Prod.fst = paths.operations.map Prod.fst := by
  rw [operations_mapOperations, List.map_map]
  rfl

theorem operation_mapOperations (f : Place → OpenApiOperation → OpenApiOperation)
    (place : Place) :
    (paths.mapOperations f).operation place = (paths.operation place).map (f place) := by
  refine Option.ext fun operation => ?_
  simp only [operation_eq_some_iff, operations_mapOperations, List.mem_map,
    Option.map_eq_some_iff]
  constructor
  · rintro ⟨q, hq, heq⟩
    cases heq
    exact ⟨q.2, hq, rfl⟩
  · rintro ⟨old, hold, rfl⟩
    exact ⟨_, hold, rfl⟩

@[simp] theorem operation_modify_self (place : Place) (f : OpenApiOperation → OpenApiOperation) :
    (paths.modify place f).operation place = (paths.operation place).map f := by
  rw [modify, operation_mapOperations]
  simp

theorem operation_modify_of_ne {place other : Place} (h : other ≠ place)
    (f : OpenApiOperation → OpenApiOperation) :
    (paths.modify place f).operation other = paths.operation other := by
  rw [modify, operation_mapOperations]
  simp [h]

/-- The ids stay if the function keeps them. -/
@[simp] theorem ids_mapOperations {f : Place → OpenApiOperation → OpenApiOperation}
    (h : ∀ place operation, (f place operation).id = operation.id) :
    (paths.mapOperations f).ids = paths.ids := by
  simp only [ids, operations_mapOperations, List.map_map]
  exact List.map_congr_left fun q _ => h q.1 q.2

/-- Every operation of the document is replaced by itself. -/
theorem mapOperations_congr {f g : Place → OpenApiOperation → OpenApiOperation}
    (h : ∀ place operation, (place, operation) ∈ paths.operations →
      f place operation = g place operation) :
    paths.mapOperations f = paths.mapOperations g := by
  refine Paths.ext (List.map_congr_left fun p hp => ?_)
  refine congrArg (Prod.mk p.1) (List.map_congr_left fun m hm => ?_)
  refine congrArg (Prod.mk m.1) (h (p.1, m.1) m.2 ?_)
  exact paths.mem_operations.mpr ⟨p.2, hp, hm⟩

theorem mapOperations_mapOperations (f g : Place → OpenApiOperation → OpenApiOperation) :
    (paths.mapOperations f).mapOperations g =
      paths.mapOperations fun place operation => g place (f place operation) := by
  refine Paths.ext ?_
  simp only [mapOperations, List.map_map, Function.comp_def]

theorem mapOperations_self : (paths.mapOperations fun _ operation => operation) = paths := by
  refine Paths.ext ?_
  simp [mapOperations]

/-- No operation is found under an id that none has. -/
theorem operationFromId_eq_none_iff {operationId : String} :
    paths.operationFromId operationId = none ↔ operationId ∉ paths.ids := by
  rw [operationFromId, Option.map_eq_none_iff, List.find?_eq_none, ids, List.mem_map]
  simp

/-- **The first operation with an id** is the only one, if ids are distinct: a change at its
place is a change of what has the id. -/
theorem modify_of_operationFromId (hnodup : paths.ids.Nodup) {operationId : String} {place : Place}
    (h : paths.operationFromId operationId = some place) (f : OpenApiOperation → OpenApiOperation) :
    paths.modify place f = paths.mapOperations fun _ operation =>
      if operation.id = operationId then f operation else operation := by
  obtain ⟨q, hfind, rfl⟩ := Option.map_eq_some_iff.mp h
  have hid : q.2.id = operationId := by simpa using List.find?_some hfind
  have hq : q ∈ paths.operations := List.mem_of_find?_eq_some hfind
  refine paths.mapOperations_congr fun place operation hmem => ?_
  have hiff : place = q.1 ↔ operation.id = operationId := by
    constructor
    · rintro rfl
      have hsame := (paths.operation_eq_some_iff.mpr hmem).symm.trans
        (paths.operation_eq_some_iff.mpr hq)
      rw [Option.some.inj hsame, hid]
    · intro heq
      have hsame : (place, operation) = q :=
        List.inj_on_of_nodup_map hnodup hmem hq (heq.trans hid.symm)
      rw [← hsame]
  simp only [hiff]

end Paths

/-- `openapi_schema`, with the sections of its components. -/
structure OpenApiSchema where
  paths : Paths
  components : Option (Dict String (Dict String Value)) := none

/-! ## The handlers -/

namespace OpenApiSchema

/-- What two of the handlers do: there may be no operation with the id. -/
def onOperation (schema : OpenApiSchema) (operationId : String)
    (f : OpenApiOperation → OpenApiOperation) : Except Raised OpenApiSchema :=
  match schema.paths.operationFromId operationId with
  | none => .error .typeError
  | some place => .ok { schema with paths := schema.paths.modify place f }

/-- `_set_request_body`. -/
def setRequestBody (schema : OpenApiSchema) (operationId : String) (requestBody : Value) :
    Except Raised OpenApiSchema :=
  schema.onOperation operationId fun operation =>
    { operation with requestBody := some requestBody }

/-- `_append_responses`. -/
def appendResponses (schema : OpenApiSchema) (operationId : String)
    (responses : Dict String Value) : Except Raised OpenApiSchema :=
  schema.onOperation operationId fun operation =>
    { operation with responses := some (Dict.update (operation.responses.getD []) responses) }

/-- `_append_schemas`. -/
def appendSchemas (schema : OpenApiSchema) (schemas : Dict String Value) :
    Except Raised OpenApiSchema :=
  match schema.components with
  | none => .error (.keyError "components")
  | some components =>
    let present := (Dict.get components "schemas").getD []
    .ok { schema with
      components := some (Dict.set components "schemas" (Dict.update present schemas)) }

end OpenApiSchema

/-- A handler, with what it was registered for. -/
inductive Handler where
  | setRequestBody (requestBody : Value)
  | appendResponses (responses : Dict String Value)
  | appendSchemas (schemas : Dict String Value)

namespace Handler

/-- What a handler does to the schema. -/
def run (schema : OpenApiSchema) (operationId : String) : Handler → Except Raised OpenApiSchema
  | setRequestBody requestBody => schema.setRequestBody operationId requestBody
  | appendResponses responses => schema.appendResponses operationId responses
  | appendSchemas schemas => schema.appendSchemas schemas

/-- What a handler makes of the operation it is registered for. -/
def customise (operation : OpenApiOperation) : Handler → OpenApiOperation
  | setRequestBody requestBody => { operation with requestBody := some requestBody }
  | appendResponses responses =>
    { operation with responses := some (Dict.update (operation.responses.getD []) responses) }
  | appendSchemas _ => operation

/-- It looks the operation up. -/
def OnOperation : Handler → Prop
  | setRequestBody _ | appendResponses _ => True
  | appendSchemas _ => False

/-- What a handler needs: an operation with the id, or components. -/
def Runs (schema : OpenApiSchema) (operationId : String) (handler : Handler) : Prop :=
  (handler.OnOperation → operationId ∈ schema.paths.ids) ∧
    (¬ handler.OnOperation → schema.components ≠ none)

/-- What a handler makes of the specification, where it runs. -/
def apply (schema : OpenApiSchema) (operationId : String) (handler : Handler) : OpenApiSchema where
  paths := schema.paths.mapOperations fun _ operation =>
    if operation.id = operationId then handler.customise operation else operation
  components :=
    match handler with
    | appendSchemas schemas => schema.components.map fun components =>
      Dict.set components "schemas"
        (Dict.update ((Dict.get components "schemas").getD []) schemas)
    | _ => schema.components

@[simp] theorem operationId_customise (operation : OpenApiOperation) (handler : Handler) :
    (handler.customise operation).operationId = operation.operationId := by
  cases handler <;> rfl

@[simp] theorem id_customise (operation : OpenApiOperation) (handler : Handler) :
    (handler.customise operation).id = operation.id :=
  congrArg (Option.getD · "") (handler.operationId_customise operation)

/-- The id of an operation makes no difference to a handler. -/
theorem customise_withId (operationId : String) (operation : OpenApiOperation) (handler : Handler) :
    handler.customise (operation.withId operationId) =
      (handler.customise operation).withId operationId := by
  cases handler <;> rfl

/-- **A handler** changes the operations of its id. -/
theorem paths_apply (schema : OpenApiSchema) (operationId : String) (handler : Handler) :
    (handler.apply schema operationId).paths = schema.paths.mapOperations fun _ operation =>
      if operation.id = operationId then handler.customise operation else operation := rfl

@[simp] theorem ids_apply (schema : OpenApiSchema) (operationId : String) (handler : Handler) :
    (handler.apply schema operationId).paths.ids = schema.paths.ids := by
  refine Paths.ids_mapOperations _ fun _ operation => ?_
  split
  · exact id_customise operation handler
  · rfl

theorem components_apply_eq_none (schema : OpenApiSchema) (operationId : String)
    (handler : Handler) :
    (handler.apply schema operationId).components = none ↔ schema.components = none := by
  cases handler with
  | appendSchemas schemas => exact Option.map_eq_none_iff
  | _ => exact Iff.rfl

/-- What a handler needs is there or not, whichever handlers run before it. -/
theorem runs_apply {schema : OpenApiSchema} {operationId other : String}
    {handler before : Handler} :
    handler.Runs (before.apply schema other) operationId ↔ handler.Runs schema operationId := by
  unfold Runs
  rw [ids_apply, Ne, components_apply_eq_none]

/-- A handler of operations leaves the components. -/
theorem apply_of_onOperation {schema : OpenApiSchema} {operationId : String} {handler : Handler}
    (h : handler.OnOperation) :
    handler.apply schema operationId = { schema with
      paths := schema.paths.mapOperations fun _ operation =>
        if operation.id = operationId then handler.customise operation else operation } := by
  cases handler with
  | appendSchemas schemas => exact h.elim
  | _ => rfl

theorem run_of_onOperation {schema : OpenApiSchema} {operationId : String} {handler : Handler}
    (h : handler.OnOperation) :
    handler.run schema operationId =
      schema.onOperation operationId fun operation => handler.customise operation := by
  cases handler with
  | appendSchemas schemas => exact h.elim
  | _ => rfl

/-- Schemas are appended where there are components. -/
theorem run_appendSchemas {schema : OpenApiSchema} {operationId : String}
    {schemas : Dict String Value} {result : OpenApiSchema} :
    (appendSchemas schemas).run schema operationId = .ok result ↔
      schema.components ≠ none ∧ result = (appendSchemas schemas).apply schema operationId := by
  have hpaths : (schema.paths.mapOperations fun _ operation =>
      if operation.id = operationId then operation else operation) = schema.paths := by
    simp only [ite_self]
    exact schema.paths.mapOperations_self
  simp only [run, OpenApiSchema.appendSchemas, apply, customise, hpaths]
  cases schema.components with
  | none => simp
  | some components =>
    rw [Except.ok.injEq]
    exact ⟨fun h => ⟨Option.some_ne_none components, h.symm⟩, fun h => h.2.symm⟩

/-- **One handler** runs if and only if it has what it needs. -/
theorem run_eq_ok {schema : OpenApiSchema} (hnodup : schema.paths.ids.Nodup)
    {operationId : String} {handler : Handler} {result : OpenApiSchema} :
    handler.run schema operationId = .ok result ↔
      handler.Runs schema operationId ∧ result = handler.apply schema operationId := by
  by_cases hon : handler.OnOperation
  · have hruns : handler.Runs schema operationId ↔ operationId ∈ schema.paths.ids :=
      ⟨fun h => h.1 hon, fun h => ⟨fun _ => h, fun hnot => absurd hon hnot⟩⟩
    rw [run_of_onOperation hon, hruns, OpenApiSchema.onOperation, apply_of_onOperation hon]
    cases hplace : schema.paths.operationFromId operationId with
    | none => simp [schema.paths.operationFromId_eq_none_iff.mp hplace]
    | some place =>
      have hmem : operationId ∈ schema.paths.ids := by
        by_contra hnot
        rw [schema.paths.operationFromId_eq_none_iff.mpr hnot] at hplace
        cases hplace
      simp only [schema.paths.modify_of_operationFromId hnodup hplace, Except.ok.injEq]
      exact ⟨fun h => ⟨hmem, h.symm⟩, fun h => h.2.symm⟩
  · cases handler with
    | appendSchemas schemas =>
      rw [run_appendSchemas]
      exact and_congr_left fun _ => ⟨fun h => ⟨fun hon => hon.elim, fun _ => h⟩, fun h => h.2 hon⟩
    | _ => exact absurd trivial hon

end Handler

/-- `OpenApiResponse`. -/
structure OpenApiResponse where
  status : Int
  name : String
  mimetype : String := "application/json"
  description : String := ""
  schema : Option (Dict String Value) := none
  example' : Option (Dict String Value) := none

namespace OpenApiResponse

/-- The entry of a response in an operation; an empty example is left out. -/
def entry (r : OpenApiResponse) : String × Value :=
  let reference := ("schema", Value.dict [("$ref", .str ("#/components/schemas/" ++ r.name))])
  let content :=
    match r.example' with
    | some (item :: items) => [reference, ("example", .dict (item :: items))]
    | _ => [reference]
  (toString r.status,
    .dict [("description", .str r.description), ("content", .dict [(r.mimetype, .dict content)])])

/-- Its schema among the components. -/
def component (r : OpenApiResponse) : String × Value :=
  (r.name, (r.schema.map Value.dict).getD .none)

end OpenApiResponse

/-- The responses to append. -/
inductive Responses where
  | dict (responses : Dict String Value)
  | list (responses : List OpenApiResponse)

/-- The registry, `_handlers`. -/
structure OpenApiHandler where
  handlers : Dict String (List Handler)
  nodup : (handlers.map Prod.fst).Nodup

namespace OpenApiHandler

variable (self : OpenApiHandler)

/-- `self[operation_id]`. -/
def get (operationId : String) : Option (List Handler) := Dict.get self.handlers operationId

/-- The handlers are registered under the id. -/
def put (operationId : String) (handlers : List Handler) : OpenApiHandler where
  handlers := Dict.set self.handlers operationId handlers
  nodup := Dict.nodup_keys_set self.nodup operationId handlers

/-- The handlers one registration adds. -/
def handlersOf (requestBody : Option Value) (schemas : Option (Dict String Value))
    (responses : Option Responses) : List Handler :=
  (requestBody.map Handler.setRequestBody).toList ++
    match responses with
    | none => (schemas.map Handler.appendSchemas).toList
    | some (.dict items) =>
      .appendResponses items :: (schemas.map Handler.appendSchemas).toList
    | some (.list rs) =>
      [.appendResponses (Dict.update [] (rs.map OpenApiResponse.entry)),
        .appendSchemas (Dict.update (schemas.getD []) (rs.map OpenApiResponse.component))]

/-- `set`, once its decorator is applied. -/
def set (operationId : String) (requestBody : Option Value) (schemas : Option (Dict String Value))
    (responses : Option Responses) : OpenApiHandler :=
  self.put operationId
    ((self.get operationId).getD [] ++ handlersOf requestBody schemas responses)

/-- `OpenApiHandler(openapi_schema, operation_ids)`. -/
def call (schema : OpenApiSchema) (operationIds : List String) : Except Raised OpenApiSchema :=
  operationIds.foldlM
    (fun schema operationId =>
      ((self.get operationId).getD []).foldlM
        (fun schema handler => handler.run schema operationId) schema)
    schema

/-- The ids handlers are registered for. -/
def keys : List String := self.handlers.map Prod.fst

/-- No handler of an id that is not registered. -/
theorem get_eq_none {operationId : String} (h : operationId ∉ self.keys) :
    self.get operationId = none :=
  Dict.get_eq_none h

theorem get_put_self (operationId : String) (handlers : List Handler) :
    (self.put operationId handlers).get operationId = some handlers :=
  Dict.get_set_self self.handlers operationId handlers

theorem get_put_of_ne {operationId other : String} (h : other ≠ operationId)
    (handlers : List Handler) :
    (self.put operationId handlers).get other = self.get other :=
  Dict.get_set_of_ne self.handlers handlers h

/-! ## The pass over the registry -/

/-- The calls of handlers for a list of ids. -/
def calls (operationIds : List String) : List (String × Handler) :=
  operationIds.flatMap fun operationId =>
    ((self.get operationId).getD []).map fun handler => (operationId, handler)

/-- A call runs the handlers one after the other. -/
theorem call_eq (schema : OpenApiSchema) (operationIds : List String) :
    self.call schema operationIds =
      (self.calls operationIds).foldlM (fun schema c => c.2.run schema c.1) schema := by
  induction operationIds generalizing schema with
  | nil => rfl
  | cons operationId operationIds ih =>
    rw [call, calls, List.flatMap_cons, List.foldlM_append, List.foldlM_map, List.foldlM_cons]
    exact bind_congr ih

/-- Calls one after the other: what each needs is there from the beginning, or never is. -/
theorem foldlM_run_eq_ok {schema : OpenApiSchema} (hnodup : schema.paths.ids.Nodup)
    {calls : List (String × Handler)} {result : OpenApiSchema} :
    calls.foldlM (fun schema c => c.2.run schema c.1) schema = .ok result ↔
      (∀ c ∈ calls, c.2.Runs schema c.1) ∧
        result = calls.foldl (fun schema c => c.2.apply schema c.1) schema := by
  induction calls generalizing schema with
  | nil =>
    simp only [List.foldlM_nil, List.foldl_nil, List.not_mem_nil, false_imp_iff, implies_true,
      true_and]
    exact ⟨fun h => (Except.ok.inj h).symm, fun h => congrArg Except.ok h.symm⟩
  | cons c calls ih =>
    rw [List.foldlM_cons, bind_eq_ok, List.foldl_cons, List.forall_mem_cons]
    have hrest : ∀ next, next = c.2.apply schema c.1 →
        (calls.foldlM (fun schema c => c.2.run schema c.1) next = .ok result ↔
          (∀ c ∈ calls, c.2.Runs schema c.1) ∧
            result = calls.foldl (fun schema c => c.2.apply schema c.1)
              (c.2.apply schema c.1)) := by
      rintro next rfl
      rw [ih (by rwa [Handler.ids_apply])]
      simp only [Handler.runs_apply]
    constructor
    · rintro ⟨next, hnext, hok⟩
      obtain ⟨hruns, heq⟩ := (Handler.run_eq_ok hnodup).mp hnext
      obtain ⟨hall, hresult⟩ := (hrest next heq).mp hok
      exact ⟨⟨hruns, hall⟩, hresult⟩
    · rintro ⟨⟨hruns, hall⟩, hresult⟩
      exact ⟨_, (Handler.run_eq_ok hnodup).mpr ⟨hruns, rfl⟩, (hrest _ rfl).mpr ⟨hall, hresult⟩⟩

end OpenApiHandler

/-- What several handlers make of an operation. -/
def customiseAll (handlers : List Handler) (operation : OpenApiOperation) : OpenApiOperation :=
  handlers.foldl Handler.customise operation

@[simp] theorem operationId_customiseAll (handlers : List Handler) (operation : OpenApiOperation) :
    (customiseAll handlers operation).operationId = operation.operationId := by
  induction handlers generalizing operation with
  | nil => rfl
  | cons handler handlers ih =>
    exact (ih _).trans (handler.operationId_customise operation)

theorem customiseAll_withId (operationId : String) (handlers : List Handler)
    (operation : OpenApiOperation) :
    customiseAll handlers (operation.withId operationId) =
      (customiseAll handlers operation).withId operationId := by
  induction handlers generalizing operation with
  | nil => rfl
  | cons handler handlers ih =>
    show customiseAll handlers (handler.customise (operation.withId operationId)) = _
    rw [handler.customise_withId, ih]
    rfl

/-- Handlers leave an operation as it is, whatever its id. -/
theorem customiseAll_withId_eq_iff {operationId : String} {handlers : List Handler}
    {operation : OpenApiOperation} :
    customiseAll handlers (operation.withId operationId) = operation.withId operationId ↔
      customiseAll handlers operation = operation := by
  rw [customiseAll_withId]
  constructor
  · intro h
    have hid := operationId_customiseAll handlers operation
    cases hc : customiseAll handlers operation with
    | mk i body responses =>
      rw [hc] at h hid
      cases h
      exact congrArg (OpenApiOperation.mk · _ _) hid
  · intro h
    rw [h]

namespace OpenApiHandler

variable (self : OpenApiHandler)

/-- Every operation is customised by the calls for its id. -/
theorem paths_foldl_apply (schema : OpenApiSchema) (calls : List (String × Handler)) :
    (calls.foldl (fun schema c => c.2.apply schema c.1) schema).paths =
      schema.paths.mapOperations fun _ operation =>
        customiseAll ((calls.filter fun c => c.1 = operation.id).map Prod.snd) operation := by
  induction calls generalizing schema with
  | nil => exact schema.paths.mapOperations_self.symm
  | cons c calls ih =>
    rw [List.foldl_cons, ih, Handler.paths_apply, Paths.mapOperations_mapOperations]
    refine congrArg _ (funext fun _ => funext fun operation => ?_)
    by_cases hc : operation.id = c.1
    · simp [hc, customiseAll]
    · simp [hc, Ne.symm hc]

/-- The calls for one of the ids, if no id is there twice. -/
theorem filter_calls {operationIds : List String} (hnodup : operationIds.Nodup)
    (operationId : String) :
    ((self.calls operationIds).filter fun c => c.1 = operationId).map Prod.snd =
      if operationId ∈ operationIds then (self.get operationId).getD [] else [] := by
  induction operationIds with
  | nil => rfl
  | cons other operationIds ih =>
    obtain ⟨hnot, hnodup⟩ := List.nodup_cons.mp hnodup
    have hcons : self.calls (other :: operationIds) =
        ((self.get other).getD []).map (fun handler => (other, handler)) ++
          self.calls operationIds := List.flatMap_cons
    rw [hcons, List.filter_append, List.map_append, ih hnodup, List.filter_map, List.map_map]
    by_cases heq : other = operationId
    · subst heq
      simp [hnot, Function.comp_def]
    · simp [heq, Ne.symm heq, Function.comp_def]

/-- **The pass returns** if and only if every registered handler has what it needs. -/
theorem call_keys_returns_iff {schema : OpenApiSchema} (hnodup : schema.paths.ids.Nodup) :
    (∃ result, self.call schema self.keys = .ok result) ↔
      ∀ operationId handlers, self.get operationId = some handlers →
        ∀ handler ∈ handlers, handler.Runs schema operationId := by
  simp only [call_eq, foldlM_run_eq_ok hnodup, exists_and_left, exists_eq, and_true]
  simp only [calls, List.mem_flatMap, List.mem_map]
  constructor
  · rintro h operationId handlers hget handler hmem
    refine h _ ⟨operationId, ?_, handler, ?_, rfl⟩
    · by_contra hnot
      rw [self.get_eq_none hnot] at hget
      cases hget
    · rw [hget]
      exact hmem
  · rintro h c ⟨operationId, -, handler, hmem, rfl⟩
    cases hget : self.get operationId with
    | none =>
      rw [hget] at hmem
      cases hmem
    | some handlers =>
      rw [hget] at hmem
      exact h operationId handlers hget handler hmem

/-- **What the pass makes** of an operation: its handlers are those registered for its id. -/
theorem paths_of_call_keys {schema result : OpenApiSchema} (hnodup : schema.paths.ids.Nodup)
    (h : self.call schema self.keys = .ok result) :
    result.paths = schema.paths.mapOperations fun _ operation =>
      customiseAll ((self.get operation.id).getD []) operation := by
  rw [call_eq] at h
  obtain ⟨-, rfl⟩ := (foldlM_run_eq_ok hnodup).mp h
  rw [paths_foldl_apply]
  refine congrArg _ (funext fun _ => funext fun operation => ?_)
  have hkeys : self.keys.Nodup := self.nodup
  rw [self.filter_calls hkeys]
  split
  · rfl
  · next hnot =>
    rw [self.get_eq_none hnot]
    rfl

end OpenApiHandler

end WellboreDdms
