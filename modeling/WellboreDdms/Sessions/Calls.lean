import WellboreDdms.Machine.Blob
import WellboreDdms.Sessions.Storage

/-!
# Read-modify-write calls on the session blob

`_update_session_state` awaits at the two reads of `_get_session`, which `gather`
starts together, and at the conditional upload of `_store_session`. Whatever runs
between two awaits is atomic.

- `Call`: a call at one of its awaits; `CallEvent`: what can happen to it there.
- `Call.step`: the effect on the call and on the blob. The tag of a written
  version is chosen by the storage, among those it has not used before.
- `Call.StepSpec`: the branches of `Call.step`, which is how the clients of the
  storage reason about it.
-/

namespace WellboreDdms

open Python Machine

variable {ε : Type}

/-- A call at one of its awaits, with what it has read. -/
inductive Call (ε : Type) where
  | fetching (f : Fetch ε StoredSession)
  | uploading (f : Fetch ε StoredSession) (updated : StoredSession)

/-- `resume` is the code between the reads and the upload, `raised` a storage call
that raises without effect. -/
inductive CallEvent (ε : Type) where
  | read (r : Read)
  | resume
  | upload (fresh : ε)
  | raised
  deriving DecidableEq

/-- `failed none`: the storage raised. -/
inductive CallResult (ε : Type) where
  | suspended (c : Call ε)
  | stored (b : Blob ε StoredSession)
  | failed (error : Option SessionError)

namespace Call

/-- What the call has fetched. -/
def fetch : Call ε → Fetch ε StoredSession
  | .fetching f => f
  | .uploading f _ => f

/-- An etag is uploaded with the content that was read with it. -/
def Paired : Call ε → Prop
  | .fetching _ => True
  | .uploading f _ => f.etag ≠ none → f.content ≠ none

variable [DecidableEq ε]

/-- One event of a call that turns the session it reads into `decide` of it. -/
def step (b : Blob ε StoredSession)
    (decide : StoredSession → Except SessionError StoredSession) :
    Call ε → CallEvent ε → Option (CallResult ε)
  | .fetching f, .read r => (f.read b r).map fun f => .suspended (.fetching f)
  | .fetching ⟨some e, some q⟩, .resume =>
    match decide q.2 with
    | .ok u => some (.suspended (.uploading ⟨some e, some q⟩ u))
    | .error err => some (.failed (some err))
  | .uploading f u, .upload fresh =>
    if f.Matches b then
      if b.Known fresh then none else some (.stored (b.put fresh u))
    else some (.failed (some .updatedEtagUnmatched))
  | _, .raised => some (.failed none)
  | _, _ => none

/-- The branches of `step`. -/
inductive StepSpec (b : Blob ε StoredSession)
    (decide : StoredSession → Except SessionError StoredSession) :
    Call ε → CallEvent ε → CallResult ε → Prop
  | read {f f' : Fetch ε StoredSession} {r : Read} (h : f.read b r = some f') :
    StepSpec b decide (.fetching f) (.read r) (.suspended (.fetching f'))
  | resumed {e : ε} {q : ε × StoredSession} {u : StoredSession} (h : decide q.2 = .ok u) :
    StepSpec b decide (.fetching ⟨some e, some q⟩) .resume
      (.suspended (.uploading ⟨some e, some q⟩ u))
  | refused {e : ε} {q : ε × StoredSession} {err : SessionError} (h : decide q.2 = .error err) :
    StepSpec b decide (.fetching ⟨some e, some q⟩) .resume (.failed (some err))
  | stored {f : Fetch ε StoredSession} {u : StoredSession} {fresh : ε} (h : f.Matches b)
    (hfresh : ¬ b.Known fresh) :
    StepSpec b decide (.uploading f u) (.upload fresh) (.stored (b.put fresh u))
  | unmatched {f : Fetch ε StoredSession} {u : StoredSession} {fresh : ε} (h : ¬ f.Matches b) :
    StepSpec b decide (.uploading f u) (.upload fresh) (.failed (some .updatedEtagUnmatched))
  | raised {c : Call ε} : StepSpec b decide c .raised (.failed none)

theorem step_spec {b : Blob ε StoredSession}
    {decide : StoredSession → Except SessionError StoredSession} {c : Call ε} {e : CallEvent ε}
    {r : CallResult ε} (h : step b decide c e = some r) : StepSpec b decide c e r := by
  unfold step at h
  split at h
  · obtain ⟨f', hf', rfl⟩ := Option.map_eq_some_iff.mp h
    exact .read hf'
  · split at h <;> cases h
    · exact .resumed ‹_›
    · exact .refused ‹_›
  · split at h
    · split at h <;> cases h
      exact .stored ‹_› ‹_›
    · cases h
      exact .unmatched ‹_›
  · cases h
    exact .raised
  · cases h

/-- What a call holds stays sound over its own events, if its reads do not tear. -/
theorem StepSpec.sound {b : Blob ε StoredSession}
    {decide : StoredSession → Except SessionError StoredSession} {c c' : Call ε}
    {e : CallEvent ε} (h : StepSpec b decide c e (.suspended c')) (hc : c.fetch.Sound b)
    (hcoh : e = .read .metadata → c.fetch.Coherent b) : c'.fetch.Sound b := by
  cases h with
  | read hr => exact hc.read hr fun hm => hcoh (by rw [hm])
  | resumed _ => exact hc

/-- A suspended call has a paired fetch still. -/
theorem StepSpec.paired {b : Blob ε StoredSession}
    {decide : StoredSession → Except SessionError StoredSession} {c c' : Call ε}
    {e : CallEvent ε} (h : StepSpec b decide c e (.suspended c')) : c'.Paired := by
  cases h with
  | read _ => trivial
  | resumed _ => exact fun _ => Option.some_ne_none _

end Call

end WellboreDdms
