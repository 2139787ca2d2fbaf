import WellboreDdms.Machine.Run
import WellboreDdms.Sessions.Calls

/-!
# Completion guards on one session

Any number of completion guards (`SessionsStorage.CompletionContextManager`)
share the blob of one session. Each makes two state updates, one to enter and one
to leave its body; between two awaits of one guard any other guard may run and
any time may pass.

- `GuardSystem`, `GuardEvent`, `step`: the clock, the blob and the guards, and
  what each event does to them; `StepSpec` lists the branches.
- `closed_is_final`: a closed session stays as it is in every run in which no
  guard takes the etag of a closed session for a write that can reopen it
  (`takesNoClosedEtag`).
- `slow_guard_reopens`: the run that shows the condition is needed. A guard
  whose body fails after another guard took the session over and committed it
  writes `open` over `committed`.
-/

namespace WellboreDdms

open Python Machine

variable {ι ε : Type}

/-- `left true`: the body ended and the guard closed the session. -/
inductive GuardPhase (ε : Type) where
  | created
  | updating (p : Purpose) (c : Call ε)
  | inside
  | left (completed : Bool)

/-- The phase after the update of `p` was stored. -/
def Purpose.next : Purpose → GuardPhase ε
  | .enter => .inside
  | .exit failed => .left (!failed)

/-- The stored session and the requests that commit or abandon it. -/
structure GuardSystem (ι ε : Type) where
  now : DateTime
  blob : Blob ε StoredSession
  phase : ι → GuardPhase ε

namespace GuardSystem

/-- The session as it is stored. -/
def session (s : GuardSystem ι ε) : Session := s.blob.content.session

/-- No guard has started. -/
def Initial (s : GuardSystem ι ε) : Prop := ∀ i, s.phase i = .created

variable [DecidableEq ι]

/-- The request goes on to its next phase. -/
def setPhase (s : GuardSystem ι ε) (i : ι) (p : GuardPhase ε) : GuardSystem ι ε :=
  { s with phase := Function.update s.phase i p }

/-- The update of `p` by guard `i` was stored. -/
def setStored (s : GuardSystem ι ε) (i : ι) (p : Purpose) (b : Blob ε StoredSession) :
    GuardSystem ι ε :=
  { s.setPhase i p.next with blob := b }

@[simp] theorem setPhase_blob (s : GuardSystem ι ε) (i : ι) (p : GuardPhase ε) :
    (s.setPhase i p).blob = s.blob := rfl

@[simp] theorem setPhase_now (s : GuardSystem ι ε) (i : ι) (p : GuardPhase ε) :
    (s.setPhase i p).now = s.now := rfl

@[simp] theorem setPhase_session (s : GuardSystem ι ε) (i : ι) (p : GuardPhase ε) :
    (s.setPhase i p).session = s.session := rfl

@[simp] theorem setPhase_self (s : GuardSystem ι ε) (i : ι) (p : GuardPhase ε) :
    (s.setPhase i p).phase i = p := Function.update_self ..

theorem setPhase_of_ne (s : GuardSystem ι ε) {i j : ι} (p : GuardPhase ε) (h : j ≠ i) :
    (s.setPhase i p).phase j = s.phase j := Function.update_of_ne h ..

@[simp] theorem setStored_blob (s : GuardSystem ι ε) (i : ι) (p : Purpose)
    (b : Blob ε StoredSession) : (s.setStored i p b).blob = b := rfl

@[simp] theorem setStored_self (s : GuardSystem ι ε) (i : ι) (p : Purpose)
    (b : Blob ε StoredSession) : (s.setStored i p b).phase i = p.next := Function.update_self ..

theorem setStored_of_ne (s : GuardSystem ι ε) {i j : ι} (p : Purpose)
    (b : Blob ε StoredSession) (h : j ≠ i) : (s.setStored i p b).phase j = s.phase j :=
  Function.update_of_ne h ..

/-- A property of every guard against the blob survives a change of phase. -/
theorem forall_setPhase {P : Blob ε StoredSession → GuardPhase ε → Prop} {s : GuardSystem ι ε}
    (h : ∀ j, P s.blob (s.phase j)) {i : ι} {p : GuardPhase ε} (hp : P s.blob p) (j : ι) :
    P (s.setPhase i p).blob ((s.setPhase i p).phase j) := by
  by_cases hj : j = i
  · subst hj
    rwa [setPhase_self]
  · rw [setPhase_of_ne s p hj]
    exact h j

end GuardSystem

/-- What can happen next. -/
inductive GuardEvent (ι ε : Type) where
  | tick (d : Nat)
  | enter (i : ι)
  | call (i : ι) (e : CallEvent ε)
  | leave (i : ι) (failed : Bool)

namespace GuardSystem

/-- The state update of purpose `p` by a guard, at time `now`. -/
def update (commit : Bool) (now : DateTime) (p : Purpose) (c : StoredSession) :
    Except SessionError StoredSession :=
  updatedSession now c (p.newState commit) p.forceUpdate

section Step

variable [DecidableEq ι] [DecidableEq ε]

/-- What becomes of guard `i`, which updates for `p`, after an event of its call. -/
def settle (s : GuardSystem ι ε) (i : ι) (p : Purpose) : CallResult ε → GuardSystem ι ε
  | .suspended c => s.setPhase i (.updating p c)
  | .stored b => s.setStored i p b
  | .failed _ => s.setPhase i (.left false)

/-- An event is possible only in the phase that it belongs to. -/
def step (commit : ι → Bool) (s : GuardSystem ι ε) :
    GuardEvent ι ε → Option (GuardSystem ι ε)
  | .tick d => some { s with now := s.now + d }
  | .enter i =>
    match s.phase i with
    | .created => some (s.setPhase i (.updating .enter (.fetching {})))
    | _ => none
  | .call i e =>
    match s.phase i with
    | .updating p c => (c.step s.blob (update (commit i) s.now p) e).map (s.settle i p)
    | _ => none
  | .leave i failed =>
    match s.phase i with
    | .inside => some (s.setPhase i (.updating (.exit failed) (.fetching {})))
    | _ => none

/-- The branches of `step`. -/
inductive StepSpec (commit : ι → Bool) (s : GuardSystem ι ε) :
    GuardEvent ι ε → GuardSystem ι ε → Prop
  | tick (d : Nat) : StepSpec commit s (.tick d) { s with now := s.now + d }
  | enter (i : ι) (h : s.phase i = .created) :
    StepSpec commit s (.enter i) (s.setPhase i (.updating .enter (.fetching {})))
  | call (i : ι) (p : Purpose) (c : Call ε) (e : CallEvent ε) (r : CallResult ε)
    (h : s.phase i = .updating p c)
    (hr : c.StepSpec s.blob (update (commit i) s.now p) e r) :
    StepSpec commit s (.call i e) (s.settle i p r)
  | leave (i : ι) (failed : Bool) (h : s.phase i = .inside) :
    StepSpec commit s (.leave i failed)
      (s.setPhase i (.updating (.exit failed) (.fetching {})))

theorem step_spec {commit : ι → Bool} {s t : GuardSystem ι ε} {e : GuardEvent ι ε}
    (h : step commit s e = some t) : StepSpec commit s e t := by
  cases e with
  | tick d =>
    cases h
    exact .tick d
  | enter i =>
    simp only [step] at h
    split at h
    · cases h
      exact .enter i ‹_›
    · cases h
  | call i e =>
    simp only [step] at h
    split at h
    · obtain ⟨r, hr, rfl⟩ := Option.map_eq_some_iff.mp h
      exact .call i _ _ e r ‹_› (Call.step_spec hr)
    · cases h
  | leave i failed =>
    simp only [step] at h
    split at h
    · cases h
      exact .leave i failed ‹_›
    · cases h

end Step

/-! ## Guards whose fetches are not torn

Without torn fetches a stored update is an update of the content it replaces, as
if the guard had read, checked and written in one step. -/

section Sound

/-- The fetch of a guard is sound, and what it uploads is its update of the
content read, as decided at some time. -/
def PhaseSound (commit : Bool) (b : Blob ε StoredSession) : GuardPhase ε → Prop
  | .updating _ (.fetching f) => f.Sound b
  | .updating p (.uploading f u) =>
    f.Sound b ∧ ∃ e q now, f.etag = some e ∧ f.content = some q ∧ update commit now p q.2 = .ok u
  | _ => True

/-- Every guard is sound against the stored blob. -/
def Sound (commit : ι → Bool) (s : GuardSystem ι ε) : Prop :=
  ∀ i, PhaseSound (commit i) s.blob (s.phase i)

theorem Initial.sound {s : GuardSystem ι ε} (h : s.Initial) (commit : ι → Bool) :
    s.Sound commit := by
  intro i
  rw [h i]
  trivial

/-- A put of somebody else leaves a phase sound. -/
theorem PhaseSound.put {commit : Bool} {b : Blob ε StoredSession} {ph : GuardPhase ε}
    (h : PhaseSound commit b ph) {fresh : ε} (hf : ¬ b.Known fresh) (u : StoredSession) :
    PhaseSound commit (b.put fresh u) ph := by
  match ph with
  | .updating p (.fetching f) => exact Fetch.Sound.put h hf u
  | .updating p (.uploading f v) => exact ⟨h.1.put hf u, h.2⟩
  | .created => trivial
  | .inside => trivial
  | .left _ => trivial

/-- **A stored update is atomic**: it updates the content it replaces. -/
theorem PhaseSound.atomic {commit : Bool} {b : Blob ε StoredSession} {p : Purpose}
    {f : Fetch ε StoredSession} {u : StoredSession}
    (h : PhaseSound commit b (.updating p (.uploading f u))) (hm : f.Matches b) :
    ∃ now, update commit now p b.content = .ok u := by
  obtain ⟨hsound, e, q, now, he, hq, hu⟩ := h
  have hcas := hsound.cas (he.trans (congrArg some (hm e he))) hq
  exact ⟨now, by rw [← hu, hcas]⟩

end Sound

section Coherent

variable [DecidableEq ι] [DecidableEq ε]

/-- The event does not tear a fetch: a metadata read that comes after the content
read finds the version the content was read from. -/
def readsCoherently (s : GuardSystem ι ε) : GuardEvent ι ε → Bool
  | .call i (.read .metadata) =>
    match s.phase i with
    | .updating _ c => decide (c.fetch.Coherent s.blob)
    | _ => true
  | _ => true

/-- **One event** with a coherent read keeps every phase sound. -/
theorem sound_step {commit : ι → Bool} {s t : GuardSystem ι ε} {e : GuardEvent ι ε}
    (h : s.Sound commit) (hok : readsCoherently s e = true) (hstep : step commit s e = some t) :
    t.Sound commit := by
  have hset : ∀ {i p}, PhaseSound (commit i) s.blob p → (s.setPhase i p).Sound commit := by
    intro i p hp j
    by_cases hj : j = i
    · subst hj
      rwa [setPhase_self]
    · rw [setPhase_of_ne s p hj]
      exact h j
  cases step_spec hstep with
  | tick d => exact h
  | enter i _ => exact hset (Fetch.sound_empty _)
  | leave i failed _ => exact hset (Fetch.sound_empty _)
  | call i p c e r hi hr =>
    have hp := h i
    rw [hi] at hp
    cases hr with
    | @read f f' k hread =>
      -- only a coherent read makes a content known under its etag
      refine hset (Fetch.Sound.read hp hread fun hk => ?_)
      subst hk
      simp only [readsCoherently, hi] at hok
      exact of_decide_eq_true hok
    -- what is decided is decided on the fetched content
    | @resumed e q u hu => exact hset ⟨hp, e, q, s.now, rfl, rfl, hu⟩
    | refused _ => exact hset trivial
    | @stored f u fresh _ hfresh =>
      -- another guard's etag may be overwritten, but stays known
      intro j
      by_cases hj : j = i
      · subst hj
        rw [settle, setStored_self]
        cases p <;> trivial
      · rw [settle, setStored_of_ne s p _ hj]
        exact (h j).put hfresh u
    | unmatched _ => exact hset trivial
    | raised => exact hset trivial

end Coherent

/-! ## A closed session is final -/

section Safe

/-- What holds of a guard against the stored blob: it knows old or current etags
only, and while the session is closed the current one is of no use to it. -/
def PhaseSafe (b : Blob ε StoredSession) : GuardPhase ε → Prop
  | .updating p (.fetching f) =>
    (∀ e ∈ f.etag, b.Known e) ∧
      (b.content.session.isClosed = true → f.etag = some b.etag →
        p.forceUpdate = false ∧ ∀ q ∈ f.content, q.2.session.isClosed = true)
  | .updating _ (.uploading f _) =>
    (∀ e ∈ f.etag, b.Known e) ∧ f.etag ≠ none ∧
      (b.content.session.isClosed = true → f.etag ≠ some b.etag)
  | _ => True

/-- The invariant of `closed_is_final`. -/
def Safe (s : GuardSystem ι ε) : Prop := ∀ i, PhaseSafe s.blob (s.phase i)

/-- At the start no closed session can be overwritten. -/
theorem Initial.safe {s : GuardSystem ι ε} (h : s.Initial) : s.Safe := by
  intro i
  rw [h i]
  trivial

/-- A write outdates every etag read before it. -/
theorem PhaseSafe.put {b : Blob ε StoredSession} {ph : GuardPhase ε} (h : PhaseSafe b ph)
    {fresh : ε} (hf : ¬ b.Known fresh) (u : StoredSession) : PhaseSafe (b.put fresh u) ph := by
  have hne : ∀ {f : Fetch ε StoredSession}, (∀ e ∈ f.etag, b.Known e) →
      f.etag ≠ some (b.put fresh u).etag :=
    fun hk heq => (hk fresh heq).ne_fresh hf rfl
  match ph with
  | .updating p (.fetching f) =>
    exact ⟨fun e he => (h.1 e he).put fresh u, fun _ heq => absurd heq (hne h.1)⟩
  | .updating p (.uploading f v) =>
    exact ⟨fun e he => (h.1 e he).put fresh u, h.2.1, fun _ => hne h.1⟩
  | .created => trivial
  | .inside => trivial
  | .left _ => trivial

/-- A read of the etag, unless it is one that `takesNoClosedEtag` excludes. -/
theorem PhaseSafe.readMeta {b : Blob ε StoredSession} {p : Purpose} {f : Fetch ε StoredSession}
    (hok : b.content.session.isClosed = true →
      p.forceUpdate = false ∧ ∀ q ∈ f.content, q.2.session.isClosed = true) :
    PhaseSafe b (.updating p (.fetching (f.readMeta b))) := by
  refine ⟨?_, fun hclosed _ => hok hclosed⟩
  rintro e he
  cases he
  exact b.known_etag

/-- The second read of a fetch is safe after the first one. -/
theorem PhaseSafe.readContent {b : Blob ε StoredSession} {p : Purpose} {f : Fetch ε StoredSession}
    (h : PhaseSafe b (.updating p (.fetching f))) :
    PhaseSafe b (.updating p (.fetching (f.readContent b))) := by
  refine ⟨h.1, fun hclosed heq => ⟨(h.2 hclosed heq).1, ?_⟩⟩
  rintro q hq
  cases hq
  exact hclosed

/-- The checks between fetch and upload refuse what could reopen the session. -/
theorem PhaseSafe.resumed {commit : Bool} {now : DateTime} {b : Blob ε StoredSession}
    {p : Purpose} {e : ε} {q : ε × StoredSession} {u : StoredSession}
    (h : PhaseSafe b (.updating p (.fetching ⟨some e, some q⟩)))
    (hu : update commit now p q.2 = .ok u) :
    PhaseSafe b (.updating p (.uploading ⟨some e, some q⟩ u)) := by
  refine ⟨h.1, Option.some_ne_none e, fun hclosed heq => ?_⟩
  obtain ⟨hforce, hcontent⟩ := h.2 hclosed heq
  rcases (updatedSession_eq_ok_iff.mp hu).1 with hf | hallowed
  · rw [hforce] at hf
    cases hf
  · exact hallowed.not_isClosed (hcontent q rfl)

/-- While the session is closed no upload matches. -/
theorem PhaseSafe.not_matches {b : Blob ε StoredSession} {p : Purpose}
    {f : Fetch ε StoredSession} {u : StoredSession} (h : PhaseSafe b (.updating p (.uploading f u)))
    (hclosed : b.content.session.isClosed = true) : ¬ f.Matches b := by
  intro hm
  obtain ⟨e, he⟩ := Option.ne_none_iff_exists'.mp h.2.1
  exact h.2.2 hclosed (he.trans (congrArg some (hm e he)))

end Safe

variable [DecidableEq ι] [DecidableEq ε]

/-- The event does not read the etag of a closed session for a write that could
reopen it: in the exit of a body that raised, or in a fetch whose content was
read before the session was closed. -/
def takesNoClosedEtag (s : GuardSystem ι ε) : GuardEvent ι ε → Bool
  | .call i (.read .metadata) =>
    match s.phase i with
    | .updating p (.fetching f) =>
      !s.session.isClosed ||
        (!p.forceUpdate && f.content.all fun q => q.2.session.isClosed)
    | _ => true
  | _ => true

/-- **One event** that takes no closed etag keeps the system safe. -/
theorem safe_step {commit : ι → Bool} {s t : GuardSystem ι ε} {e : GuardEvent ι ε}
    (h : s.Safe) (hok : takesNoClosedEtag s e = true) (hstep : step commit s e = some t) :
    t.Safe := by
  cases step_spec hstep with
  | tick d => exact h
  | enter i _ => exact forall_setPhase h ⟨by simp, by simp⟩
  | leave i failed _ => exact forall_setPhase h ⟨by simp, by simp⟩
  | call i p c e r hi hr =>
    have hp := h i
    rw [hi] at hp
    cases hr with
    | @read f f' k hread =>
      refine forall_setPhase h ?_
      cases k with
      | metadata =>
        obtain ⟨-, hread⟩ := Option.ite_none_right_eq_some.mp hread
        cases hread
        -- a guard takes no etag of a closed session after the content of an open one, or to force
        refine PhaseSafe.readMeta fun hclosed => ?_
        have hclosed : s.session.isClosed = true := hclosed
        simp only [takesNoClosedEtag, hi, hclosed, Bool.not_true, Bool.false_or,
          Bool.and_eq_true, Bool.not_eq_true', Option.all_eq_true] at hok
        exact hok
      | content =>
        obtain ⟨-, hread⟩ := Option.ite_none_right_eq_some.mp hread
        cases hread
        exact hp.readContent
    | resumed hu => exact forall_setPhase h (hp.resumed hu)
    | refused _ => exact forall_setPhase h trivial
    | @stored f u fresh _ hfresh =>
      intro j
      by_cases hj : j = i
      · subst hj
        rw [settle, setStored_self]
        cases p <;> trivial
      · rw [settle, setStored_of_ne s p _ hj]
        exact (h j).put hfresh u
    | unmatched _ => exact forall_setPhase h trivial
    | raised => exact forall_setPhase h trivial

/-- No event writes the blob of a closed session. -/
theorem blob_step_of_closed {commit : ι → Bool} {s t : GuardSystem ι ε} {e : GuardEvent ι ε}
    (h : s.Safe) (hclosed : s.session.isClosed = true) (hstep : step commit s e = some t) :
    t.blob = s.blob := by
  cases step_spec hstep with
  | call i p c e r hi hr =>
    cases hr with
    | stored hm _ =>
      have hp := h i
      rw [hi] at hp
      exact absurd hm (hp.not_matches hclosed)
    | _ => rfl
  | _ => rfl

/-- **A closed session is final**: in every run of any number of guards whose
etag reads meet `takesNoClosedEtag`, nothing that happens after the session was
closed changes its state. -/
theorem closed_is_final {commit : ι → Bool} {s₀ s t : GuardSystem ι ε}
    {before after : List (GuardEvent ι ε)} (hinit : s₀.Initial)
    (hok : Guarded (step commit) (fun s e => takesNoClosedEtag s e = true) s₀ (before ++ after))
    (hs : run (step commit) s₀ before = some s) (hclosed : s.session.isClosed = true)
    (ht : run (step commit) s after = some t) :
    t.session.state = s.session.state := by
  obtain ⟨hbefore, hafter⟩ := (guarded_append hs).mp hok
  have hsafe : s.Safe := run_invariant safe_step hinit.safe hbefore hs
  let Inv : GuardSystem ι ε → Prop := fun r => r.Safe ∧ r.blob = s.blob
  -- the blob does not change any more, so the session stays closed
  have hstep : ∀ {r r' : GuardSystem ι ε} {e}, Inv r → takesNoClosedEtag r e = true →
      step commit r e = some r' → Inv r' := by
    rintro r r' e ⟨hr, hblob⟩ hre hstep
    have hc : r.session.isClosed = true := by
      rw [session, hblob]
      exact hclosed
    exact ⟨safe_step hr hre hstep, (blob_step_of_closed hr hc hstep).trans hblob⟩
  have hinv : Inv t := run_invariant (fun hr hre h => hstep hr hre h) ⟨hsafe, rfl⟩ hafter ht
  rw [session, hinv.2, session]

/-! ## The slow guard -/

/-- A session just created for a day, and the guards 0, 1, ... that wait for it. -/
def fresh : GuardSystem Nat Nat where
  now := 0
  blob := { etag := 0, content := sampleSession }
  phase := fun _ => .created

theorem initial_fresh : fresh.Initial := fun _ => rfl

/-- One undisturbed `_update_session_state` of guard `i`. -/
def updateEvents (i e : Nat) : List (GuardEvent Nat Nat) :=
  [.call i (.read .metadata), .call i (.read .content), .call i .resume, .call i (.upload e)]

/-- Guard 0 enters and stays in its body. After five minutes guard 1 takes the
session over and commits it. -/
def takeover : List (GuardEvent Nat Nat) :=
  .enter 0 :: updateEvents 0 1 ++ .tick 300000000 :: .enter 1 :: updateEvents 1 2 ++
    .leave 1 false :: updateEvents 1 3

/-- The body of guard 0 raises at last. -/
def lateFailure : List (GuardEvent Nat Nat) := .leave 0 true :: updateEvents 0 4

/-- **The slow guard**: the exit of its failed body writes `open` over the
`committed` of the guard that took over. -/
theorem slow_guard_reopens :
    ¬ ∀ (before after : List (GuardEvent Nat Nat)) (s t : GuardSystem Nat Nat),
      run (step fun _ => true) fresh before = some s → s.session.isClosed = true →
      run (step fun _ => true) s after = some t → t.session.state = s.session.state := by
  intro h
  have hstate : ((run (step fun _ => true) fresh takeover).bind fun s =>
      (run (step fun _ => true) s lateFailure).map fun t =>
        (s.session.state, t.session.state)) = some (.committed, .opened) := by decide
  obtain ⟨s, hs, hrest⟩ := Option.bind_eq_some_iff.mp hstate
  obtain ⟨t, ht, hst⟩ := Option.map_eq_some_iff.mp hrest
  obtain ⟨hs', ht'⟩ := Prod.mk.inj hst
  have := h takeover lateFailure s t hs ((Session.isClosed_iff _).mpr (Or.inl hs')) ht
  rw [hs', ht'] at this
  cases this

/-- When the body of guard 0 ends in time instead, its late exit is refused. -/
theorem closed_is_final_takeover :
    ∃ s t, run (step fun _ => true) fresh takeover = some s ∧
      run (step fun _ => true) s (.leave 0 false :: updateEvents 0 4).dropLast = some t ∧
      s.session.state = .committed ∧ t.session.state = s.session.state := by
  have hsome : ((run (step fun _ => true) fresh takeover).bind fun s =>
      (run (step fun _ => true) s (.leave 0 false :: updateEvents 0 4).dropLast).map fun _ =>
        s.session.state) = some .committed := by decide
  obtain ⟨s, hs, hrest⟩ := Option.bind_eq_some_iff.mp hsome
  obtain ⟨t, ht, hstate⟩ := Option.map_eq_some_iff.mp hrest
  refine ⟨s, t, hs, ht, hstate, ?_⟩
  exact closed_is_final initial_fresh (guarded_of_checkRun (by decide)) hs
    ((Session.isClosed_iff _).mpr (Or.inl hstate)) ht

end GuardSystem

end WellboreDdms
