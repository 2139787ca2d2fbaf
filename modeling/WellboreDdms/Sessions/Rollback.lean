import WellboreDdms.Machine.Blob
import WellboreDdms.Machine.Effect
import WellboreDdms.Records.Record
import WellboreDdms.Sessions.Codec

/-!
# One completion, alone

`SessionsStorage` over the text of the session blob, for one client and a storage
that does not fail: `_get_session`, `_store_session`, `_update_session_state` and
the context manager around the body of a completion.

- `updateSessionState_spec`: the cycle over the blob text is the state update of
  `Sessions.Storage` on the session the text stands for.
- `completion_restores`: a body that raises leaves the session as it was, up to
  `updatedTime`; a body that ends closes it and changes nothing else.
-/

namespace WellboreDdms

open Python Machine

variable {τ : Type}

/-- The blob of a session: its etag and its text. -/
abbrev SessionBlob (τ : Type) := Blob String τ

/-- `_get_session`. -/
def getSession (py : Pydantic τ) (b : SessionBlob τ) : Except Raised SessionInternal :=
  match SessionInternal.decode py b.content with
  | some s => .ok { s with etag := some b.etag }
  | none => .error (.valueError "validation error")

/-- `_store_session`, at time `now`; the storage tags what it writes with `fresh`. -/
def storeSession (py : Pydantic τ) (now : DateTime) (fresh : String) (b : SessionBlob τ)
    (s : SessionInternal) : Except Raised (SessionInternal × SessionBlob τ) :=
  -- the etag tells an update from a creation
  let stored := if s.etag.isSome then s.toStoredSession.stamped now else s.toStoredSession
  let content := SessionInternal.encode py stored
  match s.etag with
  | some e =>
    if e = b.etag then .ok ({ stored with etag := some fresh }, b.put fresh content)
    else .error (.session .updatedEtagUnmatched)
  | none => .ok ({ stored with etag := some fresh }, b.put fresh content)

/-- `dict_session["session"]["state"] = new_state`. -/
def setDumpedState (newState : SessionState) : Value → Option Value
  | .dict items =>
    match Dict.get items "session" with
    | some (.dict session) =>
      some (.dict (Dict.set items "session"
        (.dict (Dict.set session "state" (.str newState.value)))))
    | _ => none
  | _ => none

/-- `_update_session_state`. -/
def updateSessionState (py : Pydantic τ) (now : DateTime) (fresh : String) (b : SessionBlob τ)
    (newState : SessionState) (forceUpdate : Bool) :
    Except Raised (SessionInternal × SessionBlob τ) := do
  let s ← getSession py b
  match checkStateUpdate now s.session newState forceUpdate with
  | .error e => throw (.session e)
  | .ok () =>
    match (setDumpedState newState s.dump).bind (SessionInternal.validate py) with
    | some updated => storeSession py now fresh b updated
    | none => throw (.valueError "validation error")

/-- The time of an update and the tag of what it writes. -/
structure Stamp where
  now : DateTime
  fresh : String

/-- The stamps of the two updates of a completion. -/
structure CompletionClock where
  enter : Stamp
  exit : Stamp

/-- The update `__aenter__` or `__aexit__` makes. -/
def updateFor (py : Pydantic τ) (commit : Bool) (p : Purpose) (stamp : Stamp) (b : SessionBlob τ) :
    Except Raised (SessionInternal × SessionBlob τ) :=
  updateSessionState py stamp.now stamp.fresh b (p.newState commit) p.forceUpdate

/-- `async with initiate_completion(.., commit) as guard:` around `body`, which has
effects of its own on a state `ρ`. It returns what the body returns and the session
the guard holds afterwards. -/
def completion {ρ α : Type} (py : Pydantic τ) (commit : Bool) (clock : CompletionClock)
    (body : SessionInternal → Effect ρ Raised α) :
    Effect (SessionBlob τ × ρ) Raised (α × SessionInternal) := fun (b, s) =>
  match updateFor py commit .enter clock.enter b with
  | .error e => (.error e, (b, s))
  | .ok (guard, b') =>
    match body guard s with
    | (.ok a, s') =>
      match updateFor py commit (.exit false) clock.exit b' with
      | .ok (guard', b'') => (.ok (a, guard'), (b'', s'))
      | .error e => (.error e, (b', s'))
    | (.error ex, s') =>
      match updateFor py commit (.exit true) clock.exit b' with
      | .ok (_, b'') => (.error ex, (b'', s'))
      | .error e => (.error e, (b', s'))

/-! ## The cycle is the state update -/

/-- The session the text stands for is `s`. -/
def Holds (py : Pydantic τ) (b : SessionBlob τ) (s : StoredSession) : Prop :=
  getSession py b = .ok { s with etag := some b.etag }

theorem Holds.storable {py : Pydantic τ} {b : SessionBlob τ} {s : StoredSession}
    (h : Holds py b s) :
    s.Storable := by
  unfold Holds getSession at h
  cases hd : SessionInternal.decode py b.content with
  | none =>
    rw [hd] at h
    cases h
  | some t =>
    rw [hd] at h
    have hst := SessionInternal.storable_of_decode hd
    have : t.toStoredSession = s := by
      cases h
      rfl
    exact this ▸ hst

/-- What is read carries the etag of the blob. -/
theorem holds_of_getSession {py : Pydantic τ} {b : SessionBlob τ} {i : SessionInternal}
    (h : getSession py b = .ok i) : Holds py b i.toStoredSession := by
  unfold Holds
  unfold getSession at h ⊢
  cases hd : SessionInternal.decode py b.content with
  | none =>
    rw [hd] at h
    cases h
  | some t =>
    rw [hd] at h
    cases h
    rfl

/-- A storable session that was written is held. -/
theorem holds_put (py : Pydantic τ) (b : SessionBlob τ) (fresh : String) {s : StoredSession}
    (h : s.Storable) : Holds py (b.put fresh (SessionInternal.encode py s)) s := by
  rw [Holds, getSession, Blob.put_content, SessionInternal.decode_encode py h]

/-- Setting the state in the dump sets it in the model built from the dump. -/
theorem validate_setDumpedState (py : Pydantic τ) (s : SessionInternal) (newState : SessionState) :
    (setDumpedState newState s.dump).bind (SessionInternal.validate py) =
      some { s with toStoredSession := s.toStoredSession.withState newState } := by
  have hset : setDumpedState newState s.dump =
      some { s with toStoredSession :=
        s.toStoredSession.withState newState : SessionInternal }.dump := by
    simp [setDumpedState, SessionInternal.dump, Session.dumpWith, Dict.get, Dict.set,
      StoredSession.withState]
  rw [hset, Option.bind_some, SessionInternal.validate_dump]

/-- **The cycle over the text is the state update**: it writes the text of the
updated session, or raises what the checks raise and writes nothing. -/
theorem updateSessionState_spec {py : Pydantic τ} {b : SessionBlob τ} {s : StoredSession}
    (h : Holds py b s) (now : DateTime) (fresh : String) (newState : SessionState)
    (forceUpdate : Bool) :
    updateSessionState py now fresh b newState forceUpdate =
      match updatedSession now s newState forceUpdate with
      | .ok u => .ok ({ u with etag := some fresh }, b.put fresh (SessionInternal.encode py u))
      | .error e => .error (.session e) := by
  have hget : getSession py b = .ok { s with etag := some b.etag } := h
  unfold updateSessionState updatedSession
  rw [hget]
  simp only [bind, Except.bind]
  cases hc : checkStateUpdate now s.session newState forceUpdate with
  | error e => rfl
  | ok u =>
    cases u
    simp only [validate_setDumpedState]
    simp [storeSession, pure, Except.pure]

/-- The session after the update of a guard. -/
def StoredSession.updatedFor (s : StoredSession) (commit : Bool) (p : Purpose) (now : DateTime) :
    StoredSession :=
  (s.withState (p.newState commit)).stamped now

theorem StoredSession.Storable.updatedFor {s : StoredSession} (h : s.Storable) (commit : Bool)
    (p : Purpose) (now : DateTime) : (s.updatedFor commit p now).Storable :=
  { keys := h.keys, internal := h.internal }

/-- An accepted update of either kind: what it returns, and what the blob holds. -/
theorem updateFor_of_allowed {py : Pydantic τ} {b : SessionBlob τ} {s : StoredSession}
    (h : Holds py b s) (commit : Bool) (p : Purpose) (stamp : Stamp)
    (hallowed : p.forceUpdate = true ∨
      StateUpdateAllowed stamp.now s.session (p.newState commit)) :
    ∃ b', updateFor py commit p stamp b =
        .ok (⟨s.updatedFor commit p stamp.now, some stamp.fresh⟩, b') ∧
      Holds py b' (s.updatedFor commit p stamp.now) := by
  have hu := updatedSession_eq_ok_iff.mpr ⟨hallowed, rfl⟩
  refine ⟨_, ?_, holds_put py b stamp.fresh (h.storable.updatedFor commit p stamp.now)⟩
  rw [updateFor, updateSessionState_spec h, hu]
  rfl

/-- An `open` session may be entered by a commit as by an abandon. -/
theorem enter_allowed {s : Session} (hopen : s.state = .opened) (commit : Bool) (now : DateTime) :
    StateUpdateAllowed now s (Purpose.enter.newState commit) := by
  cases commit
  · exact Or.inl hopen
  · exact Or.inl hopen

/-- An entered session may be left by the end of the body. -/
theorem exit_allowed (s : StoredSession) (commit : Bool) (entered now : DateTime) :
    StateUpdateAllowed now (s.updatedFor commit .enter entered).session
      ((Purpose.exit false).newState commit) := by
  cases commit
  · exact rfl
  · exact rfl

/-- A refused update raises and writes nothing. -/
theorem updateFor_of_refused {py : Pydantic τ} {b : SessionBlob τ} {s : StoredSession}
    (h : Holds py b s) {commit : Bool} {p : Purpose} {stamp : Stamp} {e : SessionError}
    (he : updatedSession stamp.now s (p.newState commit) p.forceUpdate = .error e) :
    updateFor py commit p stamp b = .error (.session e) := by
  rw [updateFor, updateSessionState_spec h, he]

/-- Outside the session, a completion that was entered does what its body does. -/
theorem completion_state_of_entered {ρ α : Type} {py : Pydantic τ} {commit : Bool}
    {clock : CompletionClock} {body : SessionInternal → Effect ρ Raised α} {b b' : SessionBlob τ}
    {guard : SessionInternal} {r : ρ}
    (henter : updateFor py commit .enter clock.enter b = .ok (guard, b')) :
    (completion py commit clock body (b, r)).2.2 = (body guard r).2 := by
  cases hbody : body guard r with
  | mk out r' =>
    cases out with
    | ok a =>
      cases hexit : updateFor py commit (.exit false) clock.exit b' with
      | ok left' => simp only [completion, henter, hbody, hexit]
      | error e => simp only [completion, henter, hbody, hexit]
    | error ex =>
      cases hexit : updateFor py commit (.exit true) clock.exit b' with
      | ok left' => simp only [completion, henter, hbody, hexit]
      | error e => simp only [completion, henter, hbody, hexit]

/-- Outside the session, a completion does what its body does, if that runs. -/
theorem completion_state {ρ α : Type} (py : Pydantic τ) (commit : Bool) (clock : CompletionClock)
    (body : SessionInternal → Effect ρ Raised α) (b : SessionBlob τ) (r : ρ) :
    (completion py commit clock body (b, r)).2.2 = r ∨
      ∃ guard, (completion py commit clock body (b, r)).2.2 = (body guard r).2 := by
  cases henter : updateFor py commit .enter clock.enter b with
  | error e =>
    left
    simp only [completion, henter]
  | ok entered =>
    obtain ⟨guard, b'⟩ := entered
    exact Or.inr ⟨guard, completion_state_of_entered henter⟩

/-- A session that cannot be read is not entered. -/
theorem completion_of_unreadable {ρ α : Type} {py : Pydantic τ} {b : SessionBlob τ} {e : Raised}
    (h : getSession py b = .error e) (commit : Bool) (clock : CompletionClock)
    (body : SessionInternal → Effect ρ Raised α) (r : ρ) :
    completion py commit clock body (b, r) = (.error e, (b, r)) := by
  have hupdate : updateFor py commit .enter clock.enter b = .error e := by
    unfold updateFor updateSessionState
    rw [h]
    rfl
  simp only [completion, hupdate]

/-- **How a completion runs**, whatever the session: its entry is refused and the
body does not run, or the body runs on the entered session, and the guard leaves it
closed if the body ends and `open` if it raises. -/
theorem completion_spec {ρ α : Type} {py : Pydantic τ} {b : SessionBlob τ} {s : StoredSession}
    (hs : Holds py b s) (commit : Bool) (clock : CompletionClock)
    (body : SessionInternal → Effect ρ Raised α) (r : ρ) :
    (∃ e, completion py commit clock body (b, r) = (.error (.session e), (b, r))) ∨
    StateUpdateAllowed clock.enter.now s.session (Purpose.enter.newState commit) ∧
      ∃ b', Holds py b' ((s.updatedFor commit .enter clock.enter.now).updatedFor commit
          (.exit (body ⟨s.updatedFor commit .enter clock.enter.now,
            some clock.enter.fresh⟩ r).1.toOption.isNone) clock.exit.now) ∧
        completion py commit clock body (b, r) =
          match body ⟨s.updatedFor commit .enter clock.enter.now, some clock.enter.fresh⟩ r with
          | (.ok a, r') =>
            (.ok (a, ⟨(s.updatedFor commit .enter clock.enter.now).updatedFor commit
              (.exit false) clock.exit.now, some clock.exit.fresh⟩), (b', r'))
          | (.error ex, r') => (.error ex, (b', r')) := by
  cases hu : updatedSession clock.enter.now s (Purpose.enter.newState commit) false with
  -- the entry is refused, and nothing is stored
  | error e =>
    left
    have hrefused : updateFor py commit .enter clock.enter b = .error (.session e) :=
      updateFor_of_refused hs hu
    exact ⟨e, by simp only [completion, hrefused]⟩
  | ok u =>
    right
    have hallowed := ((updatedSession_eq_ok_iff.mp hu).1).resolve_left nofun
    refine ⟨hallowed, ?_⟩
    -- the entry is stored before the body runs
    obtain ⟨b', henter, hb'⟩ := updateFor_of_allowed hs commit .enter clock.enter (Or.inr hallowed)
    cases hbody : body ⟨s.updatedFor commit .enter clock.enter.now, some clock.enter.fresh⟩ r with
    | mk outcome r' =>
      cases outcome with
      | ok a =>
        obtain ⟨b'', hexit, hb''⟩ := updateFor_of_allowed hb' commit (.exit false) clock.exit
          (Or.inr (exit_allowed s commit clock.enter.now clock.exit.now))
        exact ⟨b'', hb'', by simp only [completion, henter, hbody, hexit]⟩
      -- a failing body forces the exit's update
      | error ex =>
        obtain ⟨b'', hexit, hb''⟩ :=
          updateFor_of_allowed hb' commit (.exit true) clock.exit (Or.inl rfl)
        exact ⟨b'', hb'', by simp only [completion, henter, hbody, hexit]⟩

/-- **A failed completion restores the session.** For every stored `open` session,
either kind of completion and every body, whatever its effects elsewhere: if the
body raises, its exception propagates, the stored session differs from what it was
in `updatedTime` only, and a completion of either kind is accepted again; if it ends,
the session is closed and differs in nothing else. -/
theorem completion_restores {ρ α : Type} {py : Pydantic τ} {b : SessionBlob τ} {s : StoredSession}
    (hs : Holds py b s) (hopen : s.session.state = .opened) (commit : Bool)
    (clock : CompletionClock) (body : SessionInternal → Effect ρ Raised α) (r r' : ρ) :
    (∀ ex, body ⟨s.updatedFor commit .enter clock.enter.now, some clock.enter.fresh⟩ r =
        (.error ex, r') →
      ∃ b', completion py commit clock body (b, r) = (.error ex, (b', r')) ∧
        Holds py b' { s with session := { s.session with updatedTime := clock.exit.now } } ∧
        ∀ commit' stamp, ∃ entered, updateFor py commit' .enter stamp b' = .ok entered) ∧
    ∀ a, body ⟨s.updatedFor commit .enter clock.enter.now, some clock.enter.fresh⟩ r =
        (.ok a, r') →
      ∃ b' guard, completion py commit clock body (b, r) = (.ok (a, guard), (b', r')) ∧
        Holds py b' { s with session := { s.session with
          updatedTime := clock.exit.now
          state := if commit then .committed else .abandoned } } := by
  obtain ⟨b', henter, hb'⟩ :=
    updateFor_of_allowed hs commit .enter clock.enter
      (Or.inr (enter_allowed hopen commit clock.enter.now))
  constructor
  · -- the guard takes the session back, and both fields it changed are given
    intro ex hex
    obtain ⟨b'', hexit, hb''⟩ :=
      updateFor_of_allowed hb' commit (.exit true) clock.exit (Or.inl rfl)
    have hback : Holds py b''
        { s with session := { s.session with updatedTime := clock.exit.now } } := by
      show Holds py b'' { s with session := { s.session with
        updatedTime := clock.exit.now, state := s.session.state } }
      rw [hopen]
      exact hb''
    refine ⟨b'', ?_, hback, ?_⟩
    · simp only [completion, henter, hex, hexit]
    · intro commit' stamp
      obtain ⟨b₃, hagain, -⟩ := updateFor_of_allowed hback commit' .enter stamp
        (Or.inr (enter_allowed (by exact hopen) commit' stamp.now))
      exact ⟨_, hagain⟩
  · intro a ha
    obtain ⟨b'', hexit, hb''⟩ := updateFor_of_allowed hb' commit (.exit false) clock.exit
      (Or.inr (exit_allowed s commit clock.enter.now clock.exit.now))
    refine ⟨b'', ⟨(s.updatedFor commit .enter clock.enter.now).updatedFor commit (.exit false)
      clock.exit.now, some clock.exit.fresh⟩, ?_, hb''⟩
    simp only [completion, henter, ha, hexit]

/-- The clock of a completion in the first two minutes. -/
def sampleClock : CompletionClock := ⟨⟨60000000, "1"⟩, ⟨120000000, "2"⟩⟩

theorem exists_holds_sampleSession : ∃ b : SessionBlob Value, Holds .trees b sampleSession :=
  have hstorable : sampleSession.Storable := { keys := nofun, internal := .none }
  ⟨_, holds_put .trees { etag := "", content := .none } "0" hstorable⟩

/-- The commit of a session just created, whose body raises. -/
theorem completion_restores_sample :
    ∃ b b' : SessionBlob Value, Holds .trees b sampleSession ∧
      completion .trees true sampleClock
          (fun _ => (Effect.raise (.valueError "fake") : Effect Unit Raised Unit)) (b, ()) =
        (.error (.valueError "fake"), (b', ())) ∧
      Holds .trees b'
        { sampleSession with session :=
          { sampleSession.session with updatedTime := 120000000 } } := by
  obtain ⟨b, hs⟩ := exists_holds_sampleSession
  obtain ⟨b', hfailed, hb', -⟩ := (completion_restores hs rfl true sampleClock
    (fun _ => (Effect.raise (.valueError "fake") : Effect Unit Raised Unit)) () ()).1 _ rfl
  exact ⟨b, b', hs, hfailed, hb'⟩

end WellboreDdms
