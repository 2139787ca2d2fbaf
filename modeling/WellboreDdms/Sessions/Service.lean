import WellboreDdms.Sessions.Guards

/-!
# Session requests

The requests that work on one session: any number of `complete_session` (commit or
abandon) and of `post_chunk_data`. The worker keeps the chunks it was sent and
aggregates them when it completes the session; the record store takes the record
version a commit publishes.

- `BodyPhase`: where the body of a commit stands, between its awaits. An abandon
  has no await in its body.
- `ChunkPhase`: a chunk request fetches the session, refuses it unless it is
  `open`, and only then sends the chunk to the worker.
- `Service`, `ServiceEvent`, `step`, `StepSpec`: the requests together with the
  guards they enter. Every awaited call may raise without effect.
-/

namespace WellboreDdms

open Python Machine

variable {ι κ ε : Type}

/-- The body of a commit: at `fetch_record`, at the completion call of the worker,
at `create_or_update_records` with what the worker has aggregated, or over. -/
inductive BodyPhase (κ : Type) where
  | fetchRecord
  | completeSession
  | sendRecord (aggregated : List κ)
  | published
  | raised
  deriving DecidableEq

/-- `answered true`: the request was acknowledged. -/
inductive ChunkPhase (ε : Type) where
  | created
  | fetching (f : Fetch ε StoredSession)
  | sending
  | answered (accepted : Bool)

namespace ChunkPhase

/-- The request has found the session `open` and was not refused. -/
def accepted : ChunkPhase ε → Bool
  | .sending => true
  | .answered true => true
  | _ => false

/-- The request was answered with success. -/
def acknowledged : ChunkPhase ε → Bool
  | .answered true => true
  | _ => false

end ChunkPhase

/-- The guards of the commits, their bodies and the chunks of a session. -/
structure Service (ι κ ε : Type) where
  guards : GuardSystem ι ε
  body : ι → BodyPhase κ
  chunk : κ → ChunkPhase ε
  chunks : List κ
  versions : List (ι × List κ)

/-- `posted` to `chunkRaised` are the steps of one chunk request. -/
inductive ServiceEvent (ι κ ε : Type) where
  | guard (e : GuardEvent ι ε)
  | recordFetched (i : ι)
  | sessionCompleted (i : ι)
  | recordSent (i : ι)
  | bodyRaised (i : ι)
  | posted (k : κ)
  | chunkRead (k : κ) (r : Read)
  | chunkChecked (k : κ)
  | chunkWritten (k : κ)
  | chunkRaised (k : κ)

/-- The body of guard `i` may end so: a commit once it has published or raised, an
abandon at once. -/
def BodyPhase.mayLeave (commit failed : Bool) (b : BodyPhase κ) : Bool :=
  match commit, failed, b with
  | true, false, .published => true
  | true, true, .raised => true
  | false, false, _ => true
  | _, _, _ => false

namespace Service

/-- The stored session. -/
def session (s : Service ι κ ε) : Session := s.guards.session

/-- A stored session, and the requests that wait for it. -/
def created (etag : ε) (content : StoredSession) : Service ι κ ε where
  guards := { now := 0, blob := { etag, content }, phase := fun _ => .created }
  body := fun _ => .fetchRecord
  chunk := fun _ => .created
  chunks := []
  versions := []

/-- The requests on the session see the time `now`. -/
def atTime (s : Service ι κ ε) (now : DateTime) : Service ι κ ε :=
  { s with guards := { s.guards with now := now } }

/-- No request has started. -/
def Initial (s : Service ι κ ε) : Prop :=
  s.guards.Initial ∧ (∀ i, s.body i = .fetchRecord) ∧ (∀ k, s.chunk k = .created) ∧
    s.chunks = [] ∧ s.versions = []

variable [DecidableEq ι] [DecidableEq κ] [DecidableEq ε]

/-- The body goes on to its next phase. -/
def setBody (s : Service ι κ ε) (i : ι) (b : BodyPhase κ) : Service ι κ ε :=
  { s with body := Function.update s.body i b }

/-- The chunk goes on to its next phase. -/
def setChunk (s : Service ι κ ε) (k : κ) (c : ChunkPhase ε) : Service ι κ ε :=
  { s with chunk := Function.update s.chunk k c }

/-- The events of the guards the bodies do not forbid. -/
def allows (commit : ι → Bool) (s : Service ι κ ε) : GuardEvent ι ε → Bool
  | .leave i failed => (s.body i).mayLeave (commit i) failed
  | _ => true

/-- The body of commit `i` is running. -/
def running (commit : ι → Bool) (s : Service ι κ ε) (i : ι) : Bool :=
  commit i && match s.guards.phase i with
    | .inside => true
    | _ => false

/-- An event of a guard is possible where its body allows it. -/
def step (commit : ι → Bool) (s : Service ι κ ε) :
    ServiceEvent ι κ ε → Option (Service ι κ ε)
  | .guard e =>
    if s.allows commit e then (s.guards.step commit e).map fun g => { s with guards := g }
    else none
  | .recordFetched i =>
    if s.running commit i ∧ s.body i = .fetchRecord then some (s.setBody i .completeSession)
    else none
  | .sessionCompleted i =>
    if s.running commit i ∧ s.body i = .completeSession then
      some (s.setBody i (.sendRecord s.chunks))
    else none
  | .recordSent i =>
    match s.body i with
    | .sendRecord aggregated =>
      if s.running commit i then
        some { s.setBody i .published with versions := (i, aggregated) :: s.versions }
      else none
    | _ => none
  | .bodyRaised i =>
    -- a call of the body, or the code between two of them
    if s.running commit i ∧ s.body i ≠ .published ∧ s.body i ≠ .raised then
      some (s.setBody i .raised)
    else none
  | .posted k =>
    match s.chunk k with
    | .created => some (s.setChunk k (.fetching {}))
    | _ => none
  | .chunkRead k r =>
    match s.chunk k with
    | .fetching f => (f.read s.guards.blob r).map fun f => s.setChunk k (.fetching f)
    | _ => none
  | .chunkChecked k =>
    match s.chunk k with
    | .fetching ⟨some _, some q⟩ =>
      some (s.setChunk k (if q.2.session.state = .opened then .sending else .answered false))
    | _ => none
  | .chunkWritten k =>
    match s.chunk k with
    | .sending => some { s.setChunk k (.answered true) with chunks := k :: s.chunks }
    | _ => none
  | .chunkRaised k =>
    match s.chunk k with
    | .fetching _ => some (s.setChunk k (.answered false))
    | .sending => some (s.setChunk k (.answered false))
    | _ => none

/-- The branches of `step`. -/
inductive StepSpec (commit : ι → Bool) (s : Service ι κ ε) :
    ServiceEvent ι κ ε → Service ι κ ε → Prop
  | guard (e : GuardEvent ι ε) (g : GuardSystem ι ε) (hb : s.allows commit e = true)
    (hg : s.guards.step commit e = some g) :
    StepSpec commit s (.guard e) { s with guards := g }
  | recordFetched (i : ι) (hr : s.running commit i = true) (h : s.body i = .fetchRecord) :
    StepSpec commit s (.recordFetched i) (s.setBody i .completeSession)
  | sessionCompleted (i : ι) (hr : s.running commit i = true)
    (h : s.body i = .completeSession) :
    StepSpec commit s (.sessionCompleted i) (s.setBody i (.sendRecord s.chunks))
  | recordSent (i : ι) (aggregated : List κ) (hr : s.running commit i = true)
    (h : s.body i = .sendRecord aggregated) :
    StepSpec commit s (.recordSent i)
      { s.setBody i .published with versions := (i, aggregated) :: s.versions }
  | bodyRaised (i : ι) (hr : s.running commit i = true) (h : s.body i ≠ .published) :
    StepSpec commit s (.bodyRaised i) (s.setBody i .raised)
  | posted (k : κ) (h : s.chunk k = .created) :
    StepSpec commit s (.posted k) (s.setChunk k (.fetching {}))
  | chunkRead (k : κ) (r : Read) (f f' : Fetch ε StoredSession) (h : s.chunk k = .fetching f)
    (hr : f.read s.guards.blob r = some f') :
    StepSpec commit s (.chunkRead k r) (s.setChunk k (.fetching f'))
  | chunkAccepted (k : κ) (f : Fetch ε StoredSession) (q : ε × StoredSession)
    (h : s.chunk k = .fetching f) (hq : f.content = some q)
    (ho : q.2.session.state = .opened) :
    StepSpec commit s (.chunkChecked k) (s.setChunk k .sending)
  | chunkRefused (k : κ) (f : Fetch ε StoredSession) (h : s.chunk k = .fetching f)
    (ho : ∀ q ∈ f.content, q.2.session.state ≠ .opened) :
    StepSpec commit s (.chunkChecked k) (s.setChunk k (.answered false))
  | chunkWritten (k : κ) (h : s.chunk k = .sending) :
    StepSpec commit s (.chunkWritten k)
      { s.setChunk k (.answered true) with chunks := k :: s.chunks }
  | chunkRaised (k : κ) : StepSpec commit s (.chunkRaised k) (s.setChunk k (.answered false))

theorem step_spec {commit : ι → Bool} {s t : Service ι κ ε} {e : ServiceEvent ι κ ε}
    (h : step commit s e = some t) : StepSpec commit s e t := by
  cases e with
  | guard e =>
    obtain ⟨hb, h⟩ := Option.ite_none_right_eq_some.mp h
    obtain ⟨g, hg, rfl⟩ := Option.map_eq_some_iff.mp h
    exact .guard e g hb hg
  | recordFetched i =>
    obtain ⟨⟨hr, hb⟩, h⟩ := Option.ite_none_right_eq_some.mp h
    cases h
    exact .recordFetched i hr hb
  | sessionCompleted i =>
    obtain ⟨⟨hr, hb⟩, h⟩ := Option.ite_none_right_eq_some.mp h
    cases h
    exact .sessionCompleted i hr hb
  | recordSent i =>
    simp only [step] at h
    split at h
    · obtain ⟨hr, h⟩ := Option.ite_none_right_eq_some.mp h
      cases h
      exact .recordSent i _ hr ‹_›
    · cases h
  | bodyRaised i =>
    obtain ⟨⟨hr, hb, -⟩, h⟩ := Option.ite_none_right_eq_some.mp h
    cases h
    exact .bodyRaised i hr hb
  | posted k =>
    simp only [step] at h
    split at h <;> cases h
    exact .posted k ‹_›
  | chunkRead k r =>
    simp only [step] at h
    split at h
    · obtain ⟨f', hf', rfl⟩ := Option.map_eq_some_iff.mp h
      exact .chunkRead k r _ f' ‹_› hf'
    · cases h
  | chunkChecked k =>
    simp only [step] at h
    split at h
    · cases h
      split
      -- the session that was read decides on the chunk
      · exact .chunkAccepted k _ _ ‹_› rfl ‹_›
      · rename_i ho
        refine .chunkRefused k _ ‹_› fun q hq => ?_
        cases hq
        exact ho
    · cases h
  | chunkWritten k =>
    simp only [step] at h
    split at h <;> cases h
    exact .chunkWritten k ‹_›
  | chunkRaised k =>
    simp only [step] at h
    split at h <;> cases h
    · exact .chunkRaised k
    · exact .chunkRaised k

end Service

end WellboreDdms
