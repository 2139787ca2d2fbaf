import WellboreDdms.Sessions.Session

/-!
# The state update of `SessionsStorage`

`_update_session_state` is a read-modify-write cycle. Between its read and its
write stands one decision, taken on the session read and the clock.

- `NewSession.stored`: the session the cycles start from.
- `checkStateUpdate`: that decision, branch by branch.
- `updatedSession`: the content the cycle writes, or the exception it raises.
- `checkStateUpdate_eq_ok_iff`: the decision is the matrix of the docstring
  (`StateUpdateAllowed`).
-/

namespace WellboreDdms

open Python

/-- The arguments of `SessionsStorage.create_session`, and the UUID it draws. -/
structure NewSession where
  id : UUID
  recordId : String
  fromVersion : Int
  ttl : Int
  mode : SessionUpdateMode
  sessionMeta : Option (Dict String String)
  internal : Value

/-- The content `create_session` stores; the time to live counts minutes. -/
def NewSession.stored (n : NewSession) (now : DateTime) : StoredSession where
  session :=
    { id := n.id
      recordId := n.recordId
      fromVersion := n.fromVersion
      mode := n.mode
      expiry := now + n.ttl * Session.minute
      createdTime := now
      updatedTime := now
      state := .opened
      sessionMeta := n.sessionMeta }
  internal := n.internal

/-- The checks of `_update_session_state` on the session it has read. -/
def checkStateUpdate (now : DateTime) (s : Session) (newState : SessionState)
    (forceUpdate : Bool) : Except SessionError Unit :=
  if forceUpdate then .ok ()
  else if newState = .opened then .error (.assertion "")
  else if s.isClosed then .error (.invalidState "session already closed")
  else if newState = .committed then
    if s.state = .committing then .ok ()
    else .error (.assertion "committed can only be applied on committing")
  else if newState = .abandoned then
    if s.state = .abandoning then .ok ()
    else .error (.assertion "abandoned can only be applied on abandoning")
  else if s.state ≠ .opened then
    -- both the actual and the requested state are 'committing' or 'abandoning'
    if s.elapsedSinceUpdate now < Session.idleDelay then
      .error (.invalidState ("session is already " ++ s.state.value))
    else if newState = .committing ∧ s.state = .abandoning then
      .error (.invalidState ("session cannot be " ++ newState.value))
    else .ok ()
  else .ok ()

/-- The session with another state, rebuilt from its dump. -/
def StoredSession.withState (c : StoredSession) (newState : SessionState) : StoredSession :=
  { c with session := { c.session with state := newState } }

/-- `_store_session` stamps an update before it uploads the content. -/
def StoredSession.stamped (c : StoredSession) (now : DateTime) : StoredSession :=
  { c with session := { c.session with updatedTime := now } }

/-- The content `_update_session_state` uploads. No await stands between its
checks and the upload request, so both read the same clock. -/
def updatedSession (now : DateTime) (c : StoredSession) (newState : SessionState)
    (forceUpdate : Bool) : Except SessionError StoredSession := do
  checkStateUpdate now c.session newState forceUpdate
  return (c.withState newState).stamped now

/-- Why a guard updates the session: to enter, or to leave a body that ended or
raised. -/
inductive Purpose where
  | enter
  | exit (failed : Bool)
  deriving DecidableEq

namespace Purpose

/-- The state `__aenter__` and `__aexit__` request. -/
def newState (commit : Bool) : Purpose → SessionState
  | .enter => if commit then .committing else .abandoning
  | .exit failed => if failed then .opened else if commit then .committed else .abandoned

/-- A failing exit forces its update. -/
def forceUpdate : Purpose → Bool
  | .enter => false
  | .exit failed => failed

end Purpose

/-- The docstring's matrix: which requested state is accepted on which actual one. -/
def StateUpdateAllowed (now : DateTime) (s : Session) : SessionState → Prop
  | .opened => False
  | .committing =>
    s.state = .opened ∨
      s.state = .committing ∧ Session.idleDelay ≤ s.elapsedSinceUpdate now
  | .committed => s.state = .committing
  | .abandoning =>
    s.state = .opened ∨
      (s.state = .committing ∨ s.state = .abandoning) ∧
        Session.idleDelay ≤ s.elapsedSinceUpdate now
  | .abandoned => s.state = .abandoning

/-- **The checks are the matrix**, unless the update is forced. -/
theorem checkStateUpdate_eq_ok_iff (now : DateTime) (s : Session) (newState : SessionState)
    (forceUpdate : Bool) :
    checkStateUpdate now s newState forceUpdate = .ok () ↔
      forceUpdate = true ∨ StateUpdateAllowed now s newState := by
  cases forceUpdate with
  | true => simp [checkStateUpdate]
  | false =>
    have hlt : ¬ s.elapsedSinceUpdate now < Session.idleDelay ↔
        Session.idleDelay ≤ s.elapsedSinceUpdate now := not_lt
    by_cases hidle : s.elapsedSinceUpdate now < Session.idleDelay
    · have hle : ¬ Session.idleDelay ≤ s.elapsedSinceUpdate now := fun h => hlt.mpr h hidle
      cases newState <;> cases hs : s.state <;>
        simp [checkStateUpdate, StateUpdateAllowed, Session.isClosed, hs, hidle, hle]
    · have hle : Session.idleDelay ≤ s.elapsedSinceUpdate now := hlt.mp hidle
      cases newState <;> cases hs : s.state <;>
        simp [checkStateUpdate, StateUpdateAllowed, Session.isClosed, hs, hidle, hle]

/-- An update is made if it is forced or the matrix allows it. -/
theorem updatedSession_eq_ok_iff {now : DateTime} {c u : StoredSession} {newState : SessionState}
    {forceUpdate : Bool} :
    updatedSession now c newState forceUpdate = .ok u ↔
      (forceUpdate = true ∨ StateUpdateAllowed now c.session newState) ∧
        u = (c.withState newState).stamped now := by
  rw [← checkStateUpdate_eq_ok_iff]
  unfold updatedSession
  cases h : checkStateUpdate now c.session newState forceUpdate with
  | error e => simp [bind, Except.bind]
  | ok v =>
    cases v
    simp [bind, Except.bind, pure, Except.pure, eq_comm]

/-- No unforced update is accepted on a closed session. -/
theorem StateUpdateAllowed.not_isClosed {now : DateTime} {s : Session} {newState : SessionState}
    (h : StateUpdateAllowed now s newState) : ¬ s.isClosed = true := by
  rw [Session.isClosed_iff]
  cases newState <;> simp only [StateUpdateAllowed] at h <;> grind

@[simp] theorem withState_stamped_state (c : StoredSession) (newState : SessionState)
    (now : DateTime) : ((c.withState newState).stamped now).session.state = newState := rfl

end WellboreDdms
