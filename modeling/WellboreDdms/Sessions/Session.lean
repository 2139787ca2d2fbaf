import WellboreDdms.Python.Value

/-!
# Sessions

The session model of `sessions_storage.py`: its states, the stored fields, the
properties computed from them, and the exceptions a session operation raises.
The `meta` field is `sessionMeta` here; `SessionState.Open` is `.opened`.
-/

namespace WellboreDdms

open Python

/-- The states of a session. -/
inductive SessionState where
  | opened
  | committing
  | abandoning
  | committed
  | abandoned
  deriving DecidableEq, Repr

/-- Their texts. -/
def SessionState.value : SessionState → String
  | .opened => "open"
  | .committing => "committing"
  | .abandoning => "abandoning"
  | .committed => "committed"
  | .abandoned => "abandoned"

/-- `SessionState(value)`; `none` is the `ValueError`. -/
def SessionState.ofValue (v : String) : Option SessionState :=
  [.opened, .committing, .abandoning, .committed, .abandoned].find? fun s => s.value = v

@[simp] theorem SessionState.ofValue_value (s : SessionState) : ofValue s.value = some s := by
  cases s <;> decide

/-- What a commit makes of the stored bulk. -/
inductive SessionUpdateMode where
  | overwrite
  | update
  deriving DecidableEq, Repr

/-- Their texts. -/
def SessionUpdateMode.value : SessionUpdateMode → String
  | .overwrite => "overwrite"
  | .update => "update"

/-- The mode of a text. -/
def SessionUpdateMode.ofValue (v : String) : Option SessionUpdateMode :=
  [.overwrite, .update].find? fun m => m.value = v

@[simp] theorem SessionUpdateMode.ofValue_value (m : SessionUpdateMode) :
    ofValue m.value = some m := by
  cases m <;> decide

/-- The session exposed to users. -/
structure Session where
  id : UUID
  recordId : String
  fromVersion : Int
  mode : SessionUpdateMode
  expiry : DateTime
  createdTime : DateTime
  updatedTime : DateTime
  state : SessionState
  sessionMeta : Option (Dict String String)
  deriving DecidableEq

namespace Session

/-- One second, one minute: clocks count microseconds. -/
def second : Int := 1000000

/-- In microseconds. -/
def minute : Int := 60 * second

/-- The inactivity after which a session left in `committing` or `abandoning` may
be taken over. -/
def idleDelay : Int := 5 * minute

/-- Past the expiry. -/
def isExpired (s : Session) (now : DateTime) : Bool := s.expiry < now

/-- Committed or abandoned. -/
def isClosed (s : Session) : Bool := s.state = .committed || s.state = .abandoned

/-- The time since the last update. -/
def elapsedSinceUpdate (s : Session) (now : DateTime) : Int := now - s.updatedTime

/-- `session.get_meta_value(key)`. -/
def getMetaValue (s : Session) (key : String) : Option String :=
  s.sessionMeta.bind fun m => Dict.get m key

/-- A closed session is committed or abandoned. -/
theorem isClosed_iff (s : Session) :
    s.isClosed = true ↔ s.state = .committed ∨ s.state = .abandoned := by
  simp [isClosed]

end Session

/-- `SessionInternal` without its etag: what the session blob stores. -/
structure StoredSession where
  session : Session
  internal : Value

/-- A session just created, for one day. -/
def sampleSession : StoredSession where
  session :=
    { id := ⟨0, by decide⟩
      recordId := "opendes:log:991234"
      fromVersion := 25686567113
      mode := .update
      expiry := 1440 * Session.minute
      createdTime := 0
      updatedTime := 0
      state := .opened
      sessionMeta := none }
  internal := .none

/-- What a session operation raises. `assertion` is a failed `assert`, the others
are the subclasses of `SessionException`. -/
inductive SessionError where
  | updatedEtagUnmatched
  | invalidState (message : String)
  | notFound
  | assertion (message : String)
  deriving DecidableEq, Repr

/-- `http_status_equivalent`; an `AssertionError` is no `SessionException`. -/
def SessionError.httpStatus : SessionError → Option Nat
  | .updatedEtagUnmatched => some 412
  | .invalidState _ => some 409
  | .notFound => some 404
  | .assertion _ => none

end WellboreDdms
