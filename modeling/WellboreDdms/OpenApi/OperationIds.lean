import WellboreDdms.Machine.Naming
import WellboreDdms.OpenApi.Handlers
import WellboreDdms.Python.Text

/-!
# Operation ids

The specification is generated from routes, some of which share an operation id or have none.
Before the handlers run, every operation gets its final id: the first one that carries an id
keeps it, the others are named by their method and path.

- `normalizeOperationIds`: the loop over the routes, which also registers the handlers of an
  id under the ids of the operations that lose it.
- `foldl_normalizeRoute`: it visits the operations of the specification in the order of the
  routes; `paths_foldl_visit`, `handler_foldl_visit`: what it makes of ids and handlers.
- `OpenApiApplication`: routes, specification and registry; `customOpenapi`: the loop and the
  pass of the handlers after it.
- `Normalized`: ids are distinct, first ones are kept, and the operations whose explicit id has
  handlers are customised by them, and no other.
- `normalized_iff`: when that is so (`IdsApart`). A new id is not compared with any other one.
-/

namespace WellboreDdms

open Python Machine

/-- A route as FastAPI enumerates it; `operation_id` is that of the route it comes from. The
methods are in the order in which the set is iterated. -/
structure RouteContext where
  path : Option String
  operationId : Option String
  methods : Option (List String)

/-- `re.sub(r"[^a-zA-Z0-9.]", "_", f"{method}_{path}").lower()`. -/
def newOperationId (method path : String) : String :=
  let keep (c : Char) : Bool := c.isAlphanum || c == '.'
  lower (String.ofList ((method ++ "_" ++ path).toList.map fun c => if keep c then c else '_'))

/-- What the loop has done so far. -/
structure Normalization where
  paths : Paths
  handler : OpenApiHandler
  seen : List String := []

namespace OpenApiHandler

/-- The handlers of an id, if there are any, are those of a new id too. -/
def propagate (self : OpenApiHandler) (operationId newOperationId : String) : OpenApiHandler :=
  match self.get operationId with
  | some handlers => self.put newOperationId handlers
  | none => self

end OpenApiHandler

namespace Normalization

/-- The operation at a place has its final id. -/
def assign (st : Normalization) (place : Place) (operationId : String) : Normalization where
  paths := st.paths.modify place (OpenApiOperation.withId operationId)
  handler := st.handler
  seen := operationId :: st.seen

/-- An operation gets its final id: the explicit one, unless there is none or it was seen. -/
def rename (st : Normalization) (place : Place) (explicitId : Option String)
    (newOperationId : String) : Normalization :=
  match explicitId with
  | none => st.assign place newOperationId
  | some operationId =>
    if operationId ∈ st.seen then
      { st with handler := st.handler.propagate operationId newOperationId }.assign place
        newOperationId
    else st.assign place operationId

/-- The body of the loop over the methods of a route; an empty id counts as none. -/
def normalizeMethod (path : String) (explicitId : Option String) (st : Normalization)
    (method : String) : Normalization :=
  match (st.paths.operation (path, lower method)).bind OpenApiOperation.operationId with
  | none => st
  | some _ =>
    st.rename (path, lower method) (explicitId.filter fun operationId => operationId ≠ "")
      (newOperationId method path)

/-- The body of the loop over the routes. -/
def normalizeRoute (st : Normalization) (route : RouteContext) : Normalization :=
  match route.path with
  | none => st
  | some path =>
    if Dict.contains st.paths.items path then
      (route.methods.getD []).foldl (normalizeMethod path route.operationId) st
    else st

end Normalization

/-- `_normalize_operation_ids`. -/
def normalizeOperationIds (routes : List RouteContext) (paths : Paths) (handler : OpenApiHandler) :
    Normalization :=
  routes.foldl Normalization.normalizeRoute { paths, handler }

/-! ## The operations in the order of the routes -/

/-- A method of a route. -/
structure Visit where
  path : String
  method : String
  operationId : Option String

namespace Visit

/-- Where the operation is. -/
def place (v : Visit) : Place := (v.path, lower v.method)

/-- An empty id counts as none. -/
def explicit (v : Visit) : Option String :=
  v.operationId.filter fun operationId => operationId ≠ ""

/-- The id that is generated for it. -/
def generated (v : Visit) : String := newOperationId v.method v.path

/-- The specification has an operation at the place. -/
def hits (paths : Paths) (v : Visit) : Bool :=
  ((paths.operation v.place).bind OpenApiOperation.operationId).isSome

end Visit

/-- The methods of a route, one after the other. -/
def RouteContext.visits (route : RouteContext) : List Visit :=
  match route.path with
  | none => []
  | some path => (route.methods.getD []).map fun method => ⟨path, method, route.operationId⟩

namespace OpenApiHandler

variable (self : OpenApiHandler)

/-- The handlers registered for the explicit id of an operation. -/
def registered (v : Visit) : Option (List Handler) := v.explicit.bind self.get

/-- They are registered for its new id too. -/
def propagateTo (v : Visit) : OpenApiHandler :=
  match self.registered v with
  | some handlers => self.put v.generated handlers
  | none => self

/-- Handlers are propagated to each of the operations. -/
def propagateAll (vs : List Visit) : OpenApiHandler := vs.foldl propagateTo self

/-- An explicit id's handlers go over to the generated one. -/
theorem propagateTo_of_explicit {v : Visit} {operationId : String}
    (h : v.explicit = some operationId) :
    self.propagateTo v = self.propagate operationId v.generated := by
  rw [propagateTo, registered, h]
  rfl

/-- Without an explicit id, there is nothing to go over. -/
theorem propagateTo_of_none {v : Visit} (h : v.explicit = none) : self.propagateTo v = self := by
  rw [propagateTo, registered, h]
  rfl

/-- The handlers of the generated id are those of the explicit one. -/
theorem get_propagateTo (v : Visit) (operationId : String) :
    (self.propagateTo v).get operationId =
      if operationId = v.generated then (self.registered v).or (self.get operationId)
      else self.get operationId := by
  unfold propagateTo
  cases self.registered v with
  | none => simp
  | some handlers =>
    by_cases heq : operationId = v.generated
    · rw [if_pos heq, heq]
      exact self.get_put_self v.generated handlers
    · rw [if_neg heq]
      exact self.get_put_of_ne heq handlers

theorem registered_propagateTo {v u : Visit} (h : u.explicit ≠ some v.generated) :
    (self.propagateTo v).registered u = self.registered u := by
  unfold registered
  cases he : u.explicit with
  | none => rfl
  | some e =>
    have hne : e ≠ v.generated := fun heq => h (he.trans (congrArg some heq))
    rw [Option.bind_some, Option.bind_some, get_propagateTo, if_neg hne]

/-- Where no operation gets handlers under an id, those of the id are what they were. -/
theorem get_propagateAll_of_unregistered {vs : List Visit}
    (hexplicit : ∀ v ∈ vs, ∀ u ∈ vs, u.explicit ≠ some v.generated) {operationId : String}
    (h : ∀ v ∈ vs, v.generated = operationId → self.registered v = none) :
    (self.propagateAll vs).get operationId = self.get operationId := by
  induction vs generalizing self with
  | nil => rfl
  | cons v vs ih =>
    have hrest : ((self.propagateTo v).propagateAll vs).get operationId =
        (self.propagateTo v).get operationId := by
      refine ih (self.propagateTo v) (fun w hw u hu => ?_) fun u hu heq => ?_
      · exact hexplicit w (List.mem_cons_of_mem _ hw) u (List.mem_cons_of_mem _ hu)
      · have hu' := List.mem_cons_of_mem v hu
        rw [registered_propagateTo self (hexplicit v List.mem_cons_self u hu')]
        exact h u hu' heq
    refine hrest.trans ?_
    rw [get_propagateTo]
    split
    · next heq => rw [h v List.mem_cons_self heq.symm, Option.none_or]
    · rfl

/-- **Propagation**: every operation has its handlers under its new id, if new ids are distinct
and none is an explicit one. -/
theorem get_propagateAll_generated {vs : List Visit}
    (hexplicit : ∀ v ∈ vs, ∀ u ∈ vs, u.explicit ≠ some v.generated)
    (hnodup : (vs.map Visit.generated).Nodup) {v : Visit} (hv : v ∈ vs) {handlers : List Handler}
    (h : self.registered v = some handlers) :
    (self.propagateAll vs).get v.generated = some handlers := by
  induction vs generalizing self with
  | nil => cases hv
  | cons w vs ih =>
    obtain ⟨hnot, hnodup⟩ := List.nodup_cons.mp hnodup
    have hexplicit' : ∀ v ∈ vs, ∀ u ∈ vs, u.explicit ≠ some v.generated := fun v hv u hu =>
      hexplicit v (List.mem_cons_of_mem _ hv) u (List.mem_cons_of_mem _ hu)
    rcases List.mem_cons.mp hv with rfl | hvs
    · have hlast : ((self.propagateTo v).propagateAll vs).get v.generated =
          (self.propagateTo v).get v.generated := by
        refine get_propagateAll_of_unregistered _ hexplicit' fun u hu heq => ?_
        exact absurd (List.mem_map.mpr ⟨u, hu, heq⟩) hnot
      refine hlast.trans ?_
      rw [get_propagateTo, if_pos rfl, h, Option.some_or]
    · refine ih (self.propagateTo w) hexplicit' hnodup hvs ?_
      rw [registered_propagateTo self (hexplicit w List.mem_cons_self v hv), h]

end OpenApiHandler

/-- An operation with an id gets another one: the specification has what it had. -/
theorem Visit.hits_modify {paths : Paths} {u : Visit} (hu : u.hits paths) (operationId : String)
    (v : Visit) :
    v.hits (paths.modify u.place (OpenApiOperation.withId operationId)) = v.hits paths := by
  unfold hits at hu ⊢
  by_cases hplace : v.place = u.place
  · rw [hplace, Paths.operation_modify_self, hu]
    cases hop : paths.operation u.place with
    | none => simp [hop] at hu
    | some operation => rfl
  · rw [Paths.operation_modify_of_ne _ hplace]

open Naming (Unnamed name name_of_unnamed name_of_not_mem assigned regenerated renamed intended)

namespace Normalization

/-- The final id of an operation that the specification has. -/
def visit (st : Normalization) (v : Visit) : Normalization where
  paths := st.paths.modify v.place
    (OpenApiOperation.withId (name Visit.explicit Visit.generated st.seen v))
  handler :=
    if Unnamed Visit.explicit st.seen v then st.handler.propagateTo v else st.handler
  seen := name Visit.explicit Visit.generated st.seen v :: st.seen

theorem rename_eq (st : Normalization) (v : Visit) :
    st.rename v.place v.explicit v.generated = st.visit v := by
  by_cases hv : Unnamed Visit.explicit st.seen v
  · rw [visit, if_pos hv, name_of_unnamed hv]
    cases he : v.explicit with
    | none =>
      rw [st.handler.propagateTo_of_none he]
      rfl
    | some e =>
      rw [st.handler.propagateTo_of_explicit he, rename, if_pos (hv e he)]
      rfl
  · obtain ⟨e, he, hnot⟩ := Naming.exists_of_not_unnamed hv
    rw [visit, if_neg hv, name_of_not_mem he hnot, he, rename, if_neg hnot]
    rfl

/-- A visit of what the specification has. -/
def check (st : Normalization) (v : Visit) : Normalization :=
  if v.hits st.paths then st.visit v else st

/-- A method is visited if it is in the specification. -/
theorem normalizeMethod_eq (st : Normalization) (v : Visit) :
    st.normalizeMethod v.path v.operationId v.method = st.check v := by
  unfold normalizeMethod check Visit.hits
  show (match (st.paths.operation v.place).bind OpenApiOperation.operationId with
    | none => st
    | some _ => st.rename v.place v.explicit v.generated) = _
  rw [rename_eq]
  cases (st.paths.operation v.place).bind OpenApiOperation.operationId with
  | none => rfl
  | some _ => rfl

/-- Only the methods that are there are visited. -/
theorem foldl_check (st : Normalization) (vs : List Visit) :
    vs.foldl check st = (vs.filter (Visit.hits st.paths)).foldl visit st := by
  induction vs generalizing st with
  | nil => rfl
  | cons v vs ih =>
    rw [List.foldl_cons, ih, check, List.filter_cons]
    by_cases hv : v.hits st.paths = true
    · have hsame : Visit.hits (st.visit v).paths = Visit.hits st.paths :=
        funext fun u => Visit.hits_modify hv _ u
      rw [if_pos hv, if_pos hv, hsame]
      rfl
    · rw [if_neg hv, if_neg hv]

theorem normalizeRoute_eq (st : Normalization) (route : RouteContext) :
    st.normalizeRoute route = route.visits.foldl check st := by
  unfold normalizeRoute RouteContext.visits
  cases route.path with
  | none => rfl
  | some path =>
    have hmethods : (route.methods.getD []).foldl (normalizeMethod path route.operationId) st =
        ((route.methods.getD []).map fun method => Visit.mk path method route.operationId).foldl
          check st := by
      rw [List.foldl_map]
      congr 1
      funext st method
      exact st.normalizeMethod_eq ⟨path, method, route.operationId⟩
    show (if Dict.contains st.paths.items path then _ else st) = _
    split
    · exact hmethods
    · next hnot =>
      -- no operation has this path
      rw [foldl_check, List.filter_eq_nil_iff.mpr]
      · rfl
      · rintro v hv
        obtain ⟨method, -, rfl⟩ := List.mem_map.mp hv
        have hget : Dict.get st.paths.items path = none := by
          simpa [Dict.contains] using hnot
        simp [Visit.hits, Visit.place, Paths.operation, hget]

/-- **The loop** names the operations of the specification in the order of the routes. -/
theorem foldl_normalizeRoute (st : Normalization) (routes : List RouteContext) :
    routes.foldl normalizeRoute st =
      ((routes.flatMap RouteContext.visits).filter (Visit.hits st.paths)).foldl visit st := by
  have hroute : normalizeRoute = fun st route => route.visits.foldl check st :=
    funext fun st => funext fun route => st.normalizeRoute_eq route
  rw [← foldl_check, List.foldl_flatMap, hroute]

/-! ## What the loop makes of the ids and of the handlers -/

/-- **The operations** get the ids assigned. -/
theorem paths_foldl_visit (st : Normalization) (vs : List Visit) :
    (vs.foldl visit st).paths =
      (assigned Visit.explicit Visit.generated st.seen vs).foldl
        (fun paths p => paths.modify p.1.place (OpenApiOperation.withId p.2)) st.paths := by
  induction vs generalizing st with
  | nil => rfl
  | cons v vs ih => exact ih (st.visit v)

/-- **The handlers** go over to the generated ids. -/
theorem handler_foldl_visit (st : Normalization) (vs : List Visit) :
    (vs.foldl visit st).handler =
      st.handler.propagateAll (regenerated Visit.explicit Visit.generated st.seen vs) := by
  induction vs generalizing st with
  | nil => rfl
  | cons v vs ih =>
    rw [List.foldl_cons, ih, regenerated, visit]
    split
    · rfl
    · rfl

end Normalization

/-- Changes at other places. -/
theorem Paths.operation_foldl_modify_of_ne {place : Place} {ps : List (Visit × String)}
    (h : ∀ p ∈ ps, p.1.place ≠ place) (paths : Paths) :
    (ps.foldl (fun paths p => paths.modify p.1.place (OpenApiOperation.withId p.2)) paths).operation
      place = paths.operation place := by
  induction ps generalizing paths with
  | nil => rfl
  | cons p ps ih =>
    obtain ⟨hp, hps⟩ := List.forall_mem_cons.mp h
    rw [List.foldl_cons, ih hps, Paths.operation_modify_of_ne _ (Ne.symm hp)]

/-- Each place gets its own id. -/
theorem Paths.operation_foldl_modify {ps : List (Visit × String)}
    (hnodup : (ps.map fun p => p.1.place).Nodup) {v : Visit} {a : String} (hmem : (v, a) ∈ ps)
    (paths : Paths) :
    (ps.foldl (fun paths p => paths.modify p.1.place (OpenApiOperation.withId p.2)) paths).operation
      v.place = (paths.operation v.place).map (OpenApiOperation.withId a) := by
  induction ps generalizing paths with
  | nil => cases hmem
  | cons p ps ih =>
    obtain ⟨hnot, hnodup⟩ := List.nodup_cons.mp hnodup
    have hother : ∀ q ∈ ps, q.1.place ≠ p.1.place := fun q hq heq =>
      hnot (List.mem_map.mpr ⟨q, hq, heq⟩)
    rw [List.foldl_cons]
    rcases List.mem_cons.mp hmem with rfl | hmem
    · rw [Paths.operation_foldl_modify_of_ne hother, Paths.operation_modify_self]
    · rw [ih hnodup hmem, Paths.operation_modify_of_ne _ (hother _ hmem)]

theorem Paths.places_foldl_modify (ps : List (Visit × String)) (paths : Paths) :
    (ps.foldl (fun paths p => paths.modify p.1.place (OpenApiOperation.withId p.2))
      paths).operations.map Prod.fst = paths.operations.map Prod.fst := by
  induction ps generalizing paths with
  | nil => rfl
  | cons p ps ih => exact (ih _).trans (paths.places_mapOperations _)

/-! ## The application -/

/-- The routes, the specification generated from them and the registry. Every operation of the
specification is enumerated once. -/
structure OpenApiApplication where
  routes : List RouteContext
  schema : OpenApiSchema
  handler : OpenApiHandler
  enumerated :
    (((routes.flatMap RouteContext.visits).filter (Visit.hits schema.paths)).map Visit.place).Perm
      (schema.paths.operations.map Prod.fst)

namespace OpenApiApplication

variable (app : OpenApiApplication)

/-- The operations, as the loop comes to them. -/
def visits : List Visit :=
  (app.routes.flatMap RouteContext.visits).filter (Visit.hits app.schema.paths)

/-- The app after its normalization. -/
def normalized : Normalization :=
  normalizeOperationIds app.routes app.schema.paths app.handler

/-- `custom_openapi` as far as ids and handlers are concerned. -/
def customOpenapi : Except Raised OpenApiSchema :=
  app.normalized.handler.call { app.schema with paths := app.normalized.paths }
    app.normalized.handler.keys

/-- What the loop and the pass after it are for. -/
structure Normalized : Prop where
  distinct : app.normalized.paths.ids.Nodup
  keepsFirst : ∀ before v rest, app.visits = before ++ v :: rest →
    ∀ operationId, v.explicit = some operationId →
      (∀ u ∈ before, u.explicit ≠ some operationId) →
        (app.normalized.paths.operation v.place).map OpenApiOperation.id = some operationId
  registered : ∀ v ∈ app.visits, ∀ handlers, app.handler.registered v = some handlers →
    ∃ operation, app.normalized.paths.operation v.place = some operation ∧
      app.normalized.handler.get operation.id = some handlers
  customised : ∃ schema, app.customOpenapi = .ok schema ∧ ∀ v ∈ app.visits,
    schema.paths.operation v.place = (app.normalized.paths.operation v.place).map
      (customiseAll ((app.handler.registered v).getD []))

/-- The operations without an explicit id of their own. -/
def renamed : List Visit := Naming.renamed Visit.explicit [] app.visits

/-- The handlers of an id are replaced by those of an operation that gets the id. -/
def Replaced (operationId : String) : Prop :=
  ∃ v ∈ app.renamed, v.generated = operationId ∧ app.handler.registered v ≠ none

/-- Generated ids are distinct and no explicit ones, and what is registered for them changes
nothing; handlers find the operation or the components that they are for. -/
structure IdsApart : Prop where
  unambiguous : Naming.Unambiguous Visit.explicit Visit.generated app.visits
  unaffected : ∀ v ∈ app.renamed, app.handler.registered v = none →
    ∀ handlers, app.handler.get v.generated = some handlers →
      ∀ operation, app.schema.paths.operation v.place = some operation →
        customiseAll handlers operation = operation
  addressed : ∀ operationId handlers, app.handler.get operationId = some handlers →
    ∀ handler ∈ handlers, handler.OnOperation →
      operationId ∈ app.visits.filterMap Visit.explicit ∨
        operationId ∈ app.renamed.map Visit.generated
  components : ∀ operationId handlers, app.handler.get operationId = some handlers →
    ∀ handler ∈ handlers, ¬ handler.OnOperation →
      app.schema.components ≠ none ∨ app.Replaced operationId

/-- The final ids. -/
def finalIds : List (Visit × String) := assigned Visit.explicit Visit.generated [] app.visits

theorem nodup_places : (app.visits.map Visit.place).Nodup :=
  app.enumerated.nodup_iff.mpr app.schema.paths.nodup_operations

theorem map_fst_finalIds : app.finalIds.map Prod.fst = app.visits :=
  Naming.map_fst_assigned [] app.visits

/-- The normalization visits the methods one after the other. -/
theorem normalized_eq :
    app.normalized = app.visits.foldl Normalization.visit
      { paths := app.schema.paths, handler := app.handler } :=
  Normalization.foldl_normalizeRoute _ app.routes

/-- A visited operation is in the specification. -/
theorem exists_operation {v : Visit} (hv : v ∈ app.visits) :
    ∃ operation, app.schema.paths.operation v.place = some operation := by
  have hhits := (List.mem_filter.mp hv).2
  unfold Visit.hits at hhits
  cases hop : app.schema.paths.operation v.place with
  | none => simp [hop] at hhits
  | some operation => exact ⟨operation, rfl⟩

/-- The operation of a visit has its final id. -/
theorem operation_normalized {v : Visit} {a : String} (hmem : (v, a) ∈ app.finalIds) :
    app.normalized.paths.operation v.place =
      (app.schema.paths.operation v.place).map (OpenApiOperation.withId a) := by
  rw [normalized_eq, Normalization.paths_foldl_visit]
  refine Paths.operation_foldl_modify ?_ hmem _
  have hplaces := app.nodup_places
  rwa [← app.map_fst_finalIds, List.map_map] at hplaces

theorem mem_visits_of_mem_finalIds {v : Visit} {a : String} (hmem : (v, a) ∈ app.finalIds) :
    v ∈ app.visits := by
  rw [← app.map_fst_finalIds]
  exact List.mem_map_of_mem hmem

/-- The id that is looked up is the final one. -/
theorem id_normalized {v : Visit} {a : String} (hmem : (v, a) ∈ app.finalIds) :
    (app.normalized.paths.operation v.place).map OpenApiOperation.id = some a := by
  obtain ⟨operation, hop⟩ := app.exists_operation (app.mem_visits_of_mem_finalIds hmem)
  rw [app.operation_normalized hmem, hop]
  rfl

theorem exists_finalId {v : Visit} (hv : v ∈ app.visits) : ∃ a, (v, a) ∈ app.finalIds := by
  rw [← app.map_fst_finalIds] at hv
  obtain ⟨p, hp, rfl⟩ := List.mem_map.mp hv
  exact ⟨p.2, hp⟩

/-- The ids of the specification are the final ones, in the order of the document. -/
theorem ids_perm : app.normalized.paths.ids.Perm (app.finalIds.map Prod.snd) := by
  let idAt (place : Place) : String :=
    ((app.normalized.paths.operation place).map OpenApiOperation.id).getD ""
  have hids : app.normalized.paths.ids =
      (app.normalized.paths.operations.map Prod.fst).map idAt := by
    rw [List.map_map]
    refine List.map_congr_left fun q hq => ?_
    have hop := app.normalized.paths.operation_eq_some_iff.mpr hq
    show q.2.id = ((app.normalized.paths.operation q.1).map OpenApiOperation.id).getD ""
    rw [hop]
    rfl
  have hplaces : app.normalized.paths.operations.map Prod.fst =
      app.schema.paths.operations.map Prod.fst := by
    rw [normalized_eq, Normalization.paths_foldl_visit, Paths.places_foldl_modify]
  have hfinal : (app.visits.map Visit.place).map idAt = app.finalIds.map Prod.snd := by
    rw [← app.map_fst_finalIds, List.map_map, List.map_map]
    refine List.map_congr_left fun p hp => ?_
    show ((app.normalized.paths.operation p.1.place).map OpenApiOperation.id).getD "" = p.2
    rw [app.id_normalized hp]
    rfl
  rw [hids, hplaces, ← hfinal]
  exact (app.enumerated.map idAt).symm

/-- **Ids**: they are distinct and first ones are kept if and only if the generated ids are
not ambiguous. -/
theorem unambiguous_iff :
    app.normalized.paths.ids.Nodup ∧
        (∀ before v rest, app.visits = before ++ v :: rest →
          ∀ operationId, v.explicit = some operationId →
            (∀ u ∈ before, u.explicit ≠ some operationId) →
              (app.normalized.paths.operation v.place).map OpenApiOperation.id = some operationId) ↔
      Naming.Unambiguous Visit.explicit Visit.generated app.visits := by
  have hvisits : (app.finalIds.map Prod.fst).Nodup := by
    rw [app.map_fst_finalIds]
    exact app.nodup_places.of_map
  rw [← Naming.unambiguous_iff, app.ids_perm.nodup_iff]
  refine and_congr_right fun _ => ?_
  rw [← finalIds, Naming.keepsFirst_iff_mem hvisits, app.map_fst_finalIds]
  have hid : ∀ {v operationId}, v ∈ app.visits →
      ((app.normalized.paths.operation v.place).map OpenApiOperation.id = some operationId ↔
        (v, operationId) ∈ app.finalIds) := by
    intro v operationId hv
    refine ⟨fun h => ?_, app.id_normalized⟩
    obtain ⟨a, hmem⟩ := app.exists_finalId hv
    rw [app.id_normalized hmem] at h
    cases h
    exact hmem
  constructor
  · intro h before v rest heq operationId he hfirst
    refine (hid ?_).mp (h before v rest heq operationId he hfirst)
    rw [heq]
    exact List.mem_append_right before List.mem_cons_self
  · intro h before v rest heq operationId he hfirst
    exact app.id_normalized (h before v rest heq operationId he hfirst)

/-! ### The registry, for ids that are not ambiguous -/

section

variable {app}
variable (hunambiguous : Naming.Unambiguous Visit.explicit Visit.generated app.visits)

include hunambiguous

/-- **Normalized ids** are the intended ones. -/
theorem finalIds_eq : app.finalIds = intended Visit.explicit Visit.generated [] app.visits :=
  Naming.assigned_eq_intended hunambiguous

/-- And the handlers go over to the renamed methods. -/
theorem handler_normalized : app.normalized.handler = app.handler.propagateAll app.renamed := by
  rw [normalized_eq, Normalization.handler_foldl_visit]
  exact congrArg _ (Naming.regenerated_eq_renamed hunambiguous)

/-- No explicit id is generated for another method. -/
theorem explicit_ne_generated {v u : Visit} (hv : v ∈ app.renamed) (hu : u ∈ app.visits) :
    u.explicit ≠ some v.generated := fun he =>
  hunambiguous.not_carried v hv (List.mem_filterMap.mpr ⟨u, hu, he⟩)

/-- An id that no operation gets handlers under. -/
theorem get_of_not_replaced {operationId : String} (h : ¬ app.Replaced operationId) :
    app.normalized.handler.get operationId = app.handler.get operationId := by
  rw [handler_normalized hunambiguous]
  refine app.handler.get_propagateAll_of_unregistered ?_ fun v hv heq => ?_
  · exact fun v hv u hu =>
      explicit_ne_generated hunambiguous hv (Naming.mem_of_mem_renamed hu)
  · by_contra hregistered
    exact h ⟨v, hv, heq, hregistered⟩

theorem get_generated {v : Visit} (hv : v ∈ app.renamed) {handlers : List Handler}
    (h : app.handler.registered v = some handlers) :
    app.normalized.handler.get v.generated = some handlers := by
  rw [handler_normalized hunambiguous]
  refine app.handler.get_propagateAll_generated ?_ hunambiguous.distinct hv h
  exact fun v hv u hu => explicit_ne_generated hunambiguous hv (Naming.mem_of_mem_renamed hu)

theorem not_replaced_explicit {v : Visit} (hv : v ∈ app.visits) {operationId : String}
    (he : v.explicit = some operationId) : ¬ app.Replaced operationId := by
  rintro ⟨u, hu, rfl, -⟩
  exact explicit_ne_generated hunambiguous hu hv he

/-- Two operations do not get the same new id. -/
theorem not_replaced_generated {v : Visit} (hv : v ∈ app.renamed)
    (h : app.handler.registered v = none) : ¬ app.Replaced v.generated := by
  rintro ⟨u, hu, heq, hregistered⟩
  have hsame : u = v := List.inj_on_of_nodup_map hunambiguous.distinct hu hv heq
  exact hregistered (hsame ▸ h)

/-- **The handlers of a final id** are those of the explicit id, if there are any. -/
theorem get_finalId_of_registered {v : Visit} {a : String} (hmem : (v, a) ∈ app.finalIds)
    {handlers : List Handler} (h : app.handler.registered v = some handlers) :
    app.normalized.handler.get a = some handlers := by
  have hv : v ∈ app.visits := app.mem_visits_of_mem_finalIds hmem
  rw [finalIds_eq hunambiguous] at hmem
  rcases Naming.mem_intended hmem with he | ⟨hrenamed, rfl⟩
  · rw [get_of_not_replaced hunambiguous (not_replaced_explicit hunambiguous hv he), ← h,
      OpenApiHandler.registered, he]
    rfl
  · exact get_generated hunambiguous hrenamed h

/-- Else they are those that were registered for a generated id, if it is one. -/
theorem get_finalId_of_unregistered {v : Visit} {a : String} (hmem : (v, a) ∈ app.finalIds)
    (h : app.handler.registered v = none) :
    app.normalized.handler.get a = none ∨
      (v ∈ app.renamed ∧ app.normalized.handler.get a = app.handler.get v.generated) := by
  have hv : v ∈ app.visits := app.mem_visits_of_mem_finalIds hmem
  rw [finalIds_eq hunambiguous] at hmem
  rcases Naming.mem_intended hmem with he | ⟨hrenamed, rfl⟩
  · rw [get_of_not_replaced hunambiguous (not_replaced_explicit hunambiguous hv he), ← h,
      OpenApiHandler.registered, he]
    exact .inl rfl
  · exact .inr ⟨hrenamed,
      get_of_not_replaced hunambiguous (not_replaced_generated hunambiguous hrenamed h)⟩

/-- A renamed method without handlers of its own. -/
theorem get_renamed_of_unregistered {v : Visit} (hv : v ∈ app.renamed)
    (h : app.handler.registered v = none) :
    (v, v.generated) ∈ app.finalIds ∧
      app.normalized.handler.get v.generated = app.handler.get v.generated := by
  rw [finalIds_eq hunambiguous]
  exact ⟨Naming.mem_intended_of_mem_renamed hv,
    get_of_not_replaced hunambiguous (not_replaced_generated hunambiguous hv h)⟩

theorem mem_ids_iff {operationId : String} :
    operationId ∈ app.normalized.paths.ids ↔
      operationId ∈ app.visits.filterMap Visit.explicit ∨
        operationId ∈ app.renamed.map Visit.generated := by
  rw [app.ids_perm.mem_iff, finalIds_eq hunambiguous, (Naming.intended_perm [] _).mem_iff,
    List.mem_append, Naming.mem_kept]
  simp [renamed]

/-- **The pass returns** if and only if the registered handlers find what they are for. -/
theorem customOpenapi_returns_iff :
    (∃ schema, app.customOpenapi = .ok schema) ↔
      (∀ operationId handlers, app.handler.get operationId = some handlers →
        ∀ handler ∈ handlers, handler.OnOperation →
          operationId ∈ app.visits.filterMap Visit.explicit ∨
            operationId ∈ app.renamed.map Visit.generated) ∧
      (∀ operationId handlers, app.handler.get operationId = some handlers →
        ∀ handler ∈ handlers, ¬ handler.OnOperation →
          app.schema.components ≠ none ∨ app.Replaced operationId) := by
  have hnodup : app.normalized.paths.ids.Nodup := (app.unambiguous_iff.mpr hunambiguous).1
  refine (app.normalized.handler.call_keys_returns_iff hnodup).trans ?_
  simp only [Handler.Runs, mem_ids_iff hunambiguous]
  constructor
  · intro h
    constructor
    · intro operationId handlers hget handler hmem hon
      -- the handlers of a replaced id stay with the renamed method
      by_cases hreplaced : app.Replaced operationId
      · obtain ⟨v, hv, rfl, -⟩ := hreplaced
        exact .inr (List.mem_map_of_mem hv)
      · rw [← get_of_not_replaced hunambiguous hreplaced] at hget
        exact (h operationId handlers hget handler hmem).1 hon
    · intro operationId handlers hget handler hmem hon
      by_cases hreplaced : app.Replaced operationId
      · exact .inr hreplaced
      · rw [← get_of_not_replaced hunambiguous hreplaced] at hget
        exact .inl ((h operationId handlers hget handler hmem).2 hon)
  · rintro ⟨haddressed, hcomponents⟩ operationId handlers hget handler hmem
    by_cases hreplaced : app.Replaced operationId
    · obtain ⟨v, hv, rfl, hregistered⟩ := hreplaced
      obtain ⟨handlers', hhandlers⟩ := Option.ne_none_iff_exists'.mp hregistered
      obtain ⟨e, he, hget'⟩ := Option.bind_eq_some_iff.mp hhandlers
      rw [get_generated hunambiguous hv hhandlers] at hget
      cases hget
      refine ⟨fun _ => .inr (List.mem_map_of_mem hv), fun hon => ?_⟩
      -- an explicit id that is kept is not replaced itself
      have hvisits : v ∈ app.visits := Naming.mem_of_mem_renamed hv
      exact (hcomponents e _ hget' handler hmem hon).resolve_right
        (not_replaced_explicit hunambiguous hvisits he)
    · rw [get_of_not_replaced hunambiguous hreplaced] at hget
      refine ⟨haddressed operationId handlers hget handler hmem, fun hon => ?_⟩
      exact (hcomponents operationId handlers hget handler hmem hon).resolve_right hreplaced

/-- **What the pass makes** of an operation. -/
theorem operation_customOpenapi {schema : OpenApiSchema} (h : app.customOpenapi = .ok schema)
    {v : Visit} {a : String} (hmem : (v, a) ∈ app.finalIds) :
    schema.paths.operation v.place = (app.normalized.paths.operation v.place).map
      (customiseAll ((app.normalized.handler.get a).getD [])) := by
  have hnodup : app.normalized.paths.ids.Nodup := (app.unambiguous_iff.mpr hunambiguous).1
  rw [app.normalized.handler.paths_of_call_keys hnodup h, Paths.operation_mapOperations]
  have hid := app.id_normalized hmem
  cases hop : app.normalized.paths.operation v.place with
  | none => rfl
  | some operation =>
    rw [hop] at hid
    have heq : operation.id = a := Option.some.inj hid
    rw [Option.map_some, Option.map_some, heq]

/-- The pass customises each operation as it should, unless something is registered for the
generated id of an operation. -/
theorem customised_iff {schema : OpenApiSchema} (h : app.customOpenapi = .ok schema) :
    (∀ v ∈ app.visits, schema.paths.operation v.place =
      (app.normalized.paths.operation v.place).map
        (customiseAll ((app.handler.registered v).getD []))) ↔
    ∀ v ∈ app.renamed, app.handler.registered v = none →
      ∀ handlers, app.handler.get v.generated = some handlers →
        ∀ operation, app.schema.paths.operation v.place = some operation →
          customiseAll handlers operation = operation := by
  constructor
  · intro hall v hv hnone handlers hget operation hop
    obtain ⟨hmem, hsame⟩ := get_renamed_of_unregistered hunambiguous hv hnone
    have hboth := (operation_customOpenapi hunambiguous h hmem).symm.trans
      (hall v (Naming.mem_of_mem_renamed hv))
    rw [app.operation_normalized hmem, hop, hsame, hget, hnone] at hboth
    exact customiseAll_withId_eq_iff.mp (Option.some.inj hboth)
  · intro hunaffected v hv
    obtain ⟨a, hmem⟩ := app.exists_finalId hv
    obtain ⟨operation, hop⟩ := app.exists_operation hv
    rw [operation_customOpenapi hunambiguous h hmem]
    cases hregistered : app.handler.registered v with
    | some handlers => rw [get_finalId_of_registered hunambiguous hmem hregistered]
    | none =>
      -- a renamed method without handlers of its own may meet those of the generated id
      rcases get_finalId_of_unregistered hunambiguous hmem hregistered with hget | ⟨hv', hget⟩
      · rw [hget]
      · rw [hget]
        cases hgenerated : app.handler.get v.generated with
        | none => rfl
        | some handlers =>
          rw [app.operation_normalized hmem, hop]
          refine congrArg some (customiseAll_withId_eq_iff.mpr ?_)
          exact hunaffected v hv' hregistered handlers hgenerated operation hop

end

/-- **Operation ids** are distinct, first ones are kept, and the pass customises the operations
whose explicit id has handlers and no other, if and only if ids and handlers are apart. -/
theorem normalized_iff : app.Normalized ↔ app.IdsApart := by
  constructor
  · intro h
    have hunambiguous := app.unambiguous_iff.mp ⟨h.distinct, h.keepsFirst⟩
    obtain ⟨schema, hok, hall⟩ := h.customised
    obtain ⟨haddressed, hcomponents⟩ := (customOpenapi_returns_iff hunambiguous).mp ⟨schema, hok⟩
    exact ⟨hunambiguous, (customised_iff hunambiguous hok).mp hall, haddressed, hcomponents⟩
  · intro h
    have hunambiguous := h.unambiguous
    obtain ⟨hdistinct, hkeeps⟩ := app.unambiguous_iff.mpr hunambiguous
    obtain ⟨schema, hok⟩ :=
      (customOpenapi_returns_iff hunambiguous).mpr ⟨h.addressed, h.components⟩
    refine ⟨hdistinct, hkeeps, fun v hv handlers hregistered => ?_, schema, hok,
      (customised_iff hunambiguous hok).mpr h.unaffected⟩
    obtain ⟨a, hmem⟩ := app.exists_finalId hv
    obtain ⟨operation, hop⟩ := app.exists_operation hv
    refine ⟨operation.withId a, by rw [app.operation_normalized hmem, hop]; rfl, ?_⟩
    exact get_finalId_of_registered hunambiguous hmem hregistered

/-- Two entity types share a route: the handler of the id they share is registered twice. -/
example :
    let route (path : String) : RouteContext :=
      { path := some path, operationId := some "post_data", methods := some ["POST"] }
    let handler : OpenApiHandler :=
      { handlers := [("post_data", [.setRequestBody (.str "body")])], nodup := by decide }
    let paths : Paths :=
      { items := [("/logs/data", [("post", { operationId := some "post_data" })]),
          ("/sets/data", [("post", { operationId := some "post_data" })])]
        nodup_paths := by decide
        nodup_methods := by decide }
    let st := normalizeOperationIds [route "/logs/data", route "/sets/data"] paths handler
    st.paths.ids = ["post_data", "post__sets_data"] ∧
      st.handler.keys = ["post_data", "post__sets_data"] := by
  decide +kernel

/-- Two operations without an explicit id, the paths of which differ in a dash. -/
def dashedPath : OpenApiApplication where
  routes := [{ path := some "/a-b", operationId := none, methods := some ["GET"] },
    { path := some "/a_b", operationId := none, methods := some ["GET"] }]
  schema :=
    { paths :=
        { items := [("/a-b", [("get", { operationId := some "dash_a_b_get" })]),
            ("/a_b", [("get", { operationId := some "underscore_a_b_get" })])]
          nodup_paths := by decide
          nodup_methods := by decide } }
  handler := { handlers := [], nodup := by decide }
  enumerated := by decide +kernel

/-- Two paths that differ in a dash have one id. -/
theorem operation_ids_collide : ¬ dashedPath.Normalized := by
  intro h
  have hids : dashedPath.normalized.paths.ids = ["get__a_b", "get__a_b"] := by decide +kernel
  have hdistinct := h.distinct
  rw [hids] at hdistinct
  exact absurd hdistinct (by decide)

end OpenApiApplication

end WellboreDdms
