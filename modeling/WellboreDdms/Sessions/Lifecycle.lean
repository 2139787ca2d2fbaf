import WellboreDdms.Machine.Simulation
import WellboreDdms.Sessions.Guards

/-!
# The life of a session

The docstring of `_update_session_state` tells the life of a session as a matrix of states.
Here it is a machine of its own, without blobs, etags and fetches: a guard begins and ends in
one step each, on the session as it is.

- `Lifecycle`, `Lifecycle.step`: the session, the guards outside, inside and gone, and what
  each of them may do.
- `refines`: the guards on the blob, with their reads and conditional uploads, are this
  machine, as long as no fetch is torn.
- `Credited`: a closed session was closed by a guard that ended well.
- `session_in_step`: what follows for the session on the blob.
- `guards_keep_session`: whatever is read, torn or not, no guard changes a field of the
  session other than the state and the time of its update.
-/

namespace WellboreDdms

open Python Machine

variable {ι ε : Type}

/-- Where a guard is; `left true` if it has closed the session. -/
inductive Stage where
  | outside
  | inside
  | left (completed : Bool)
  deriving DecidableEq

/-- The session, and where the guards are. -/
structure Lifecycle (ι : Type) where
  now : DateTime
  stored : StoredSession
  stage : ι → Stage

/-- `begins` and `ends` happen at a time that has come; a guard whose body raises `reopens`. -/
inductive LifecycleEvent (ι : Type) where
  | tick (d : Nat)
  | begins (i : ι) (time : DateTime)
  | ends (i : ι) (time : DateTime)
  | reopens (i : ι) (time : DateTime)
  | givesUp (i : ι)

/-- The state a guard takes the session to while it is inside. -/
def pendingState (commit : Bool) : SessionState := if commit then .committing else .abandoning

/-- The state a guard closes the session in. -/
def closedState (commit : Bool) : SessionState := if commit then .committed else .abandoned

instance decidableStateUpdateAllowed (now : DateTime) (s : Session) :
    (newState : SessionState) → Decidable (StateUpdateAllowed now s newState)
  | .opened => inferInstanceAs (Decidable False)
  | .committing => inferInstanceAs (Decidable (s.state = .opened ∨
      s.state = .committing ∧ Session.idleDelay ≤ s.elapsedSinceUpdate now))
  | .committed => inferInstanceAs (Decidable (s.state = .committing))
  | .abandoning => inferInstanceAs (Decidable (s.state = .opened ∨
      (s.state = .committing ∨ s.state = .abandoning) ∧
        Session.idleDelay ≤ s.elapsedSinceUpdate now))
  | .abandoned => inferInstanceAs (Decidable (s.state = .abandoning))

namespace Lifecycle

variable [DecidableEq ι]

/-- The session in another state since `time`, and guard `i` elsewhere. -/
def moved (a : Lifecycle ι) (i : ι) (stage : Stage) (newState : SessionState) (time : DateTime) :
    Lifecycle ι where
  now := a.now
  stored := (a.stored.withState newState).stamped time
  stage := Function.update a.stage i stage

/-- An abstract event is possible where the matrix of states allows it. -/
def step (commit : ι → Bool) (a : Lifecycle ι) : LifecycleEvent ι → Option (Lifecycle ι)
  | .tick d => some { a with now := a.now + d }
  | .begins i time =>
    if a.stage i = .outside ∧ time ≤ a.now ∧
        StateUpdateAllowed time a.stored.session (pendingState (commit i)) then
      some (a.moved i .inside (pendingState (commit i)) time)
    else none
  | .ends i time =>
    if a.stage i = .inside ∧ time ≤ a.now ∧
        StateUpdateAllowed time a.stored.session (closedState (commit i)) then
      some (a.moved i (.left true) (closedState (commit i)) time)
    else none
  | .reopens i time =>
    if a.stage i = .inside ∧ time ≤ a.now then some (a.moved i (.left false) .opened time) else none
  | .givesUp i =>
    match a.stage i with
    | .left _ => none
    | _ => some { a with stage := Function.update a.stage i (.left false) }

end Lifecycle

/-! ## The guards on the blob -/

/-- Where a guard on the blob is: it is inside from the update that lets it in to the one that
lets it out. -/
def GuardPhase.stage : GuardPhase ε → Stage
  | .created => .outside
  | .updating .enter _ => .outside
  | .inside => .inside
  | .updating (.exit _) _ => .inside
  | .left completed => .left completed

namespace GuardSystem

/-- Every update under way was decided at a time that has come. -/
def DecidedInTime (s : GuardSystem ι ε) : Prop :=
  ∀ i p f u, s.phase i = .updating p (.uploading f u) → u.session.updatedTime ≤ s.now

/-- The blob and the guards are those of the lifecycle; the fetches are sound. -/
structure Refines (commit : ι → Bool) (s : GuardSystem ι ε) (a : Lifecycle ι) : Prop where
  sound : s.Sound commit
  decided : s.DecidedInTime
  now : a.now = s.now
  stored : a.stored = s.blob.content
  stage : ∀ i, a.stage i = (s.phase i).stage

/-- The lifecycle the guards start in. -/
def lifecycle (s : GuardSystem ι ε) : Lifecycle ι where
  now := s.now
  stored := s.blob.content
  stage := fun i => (s.phase i).stage

/-- The initial system refines its lifecycle. -/
theorem Initial.refines {s : GuardSystem ι ε} (h : s.Initial) (commit : ι → Bool) :
    s.Refines commit s.lifecycle where
  sound := h.sound commit
  decided := by
    intro i p f u hi
    rw [h i] at hi
    cases hi
  now := rfl
  stored := rfl
  stage := fun _ => rfl

theorem Refines.eq_lifecycle {commit : ι → Bool} {s : GuardSystem ι ε} {a : Lifecycle ι}
    (h : s.Refines commit a) :
    a = s.lifecycle := by
  obtain ⟨now, stored, stage⟩ := a
  have hnow := h.now
  have hstored := h.stored
  have hstage : stage = fun i => (s.phase i).stage := funext h.stage
  subst hnow hstored hstage
  rfl

variable [DecidableEq ι]

/-- A phase that is no upload under way is decided in time. -/
theorem DecidedInTime.setPhase {s : GuardSystem ι ε} (h : s.DecidedInTime) (i : ι)
    {ph : GuardPhase ε}
    (hph : ∀ p f u, ph = .updating p (.uploading f u) → u.session.updatedTime ≤ s.now) :
    (s.setPhase i ph).DecidedInTime := by
  intro j p f u hj
  by_cases hij : j = i
  · subst hij
    rw [setPhase_self] at hj
    exact hph p f u hj
  · rw [setPhase_of_ne s ph hij] at hj
    exact h j p f u hj

/-- What was decided in time stays so when another request is stored. -/
theorem DecidedInTime.setStored {s : GuardSystem ι ε} (h : s.DecidedInTime) (i : ι) (p : Purpose)
    (b : Blob ε StoredSession) : (s.setStored i p b).DecidedInTime := by
  have hnext : ∀ p' f u, (p.next : GuardPhase ε) = .updating p' (.uploading f u) →
      u.session.updatedTime ≤ s.now := by
    intro p' f u hp
    cases p <;> cases hp
  exact h.setPhase i hnext

section

variable {commit : ι → Bool} {s : GuardSystem ι ε} {a : Lifecycle ι}

/-- A guard goes to a phase of the same stage. -/
theorem Refines.setPhase (h : s.Refines commit a) {i : ι} {ph : GuardPhase ε}
    (hsound : (s.setPhase i ph).Sound commit) (hdecided : (s.setPhase i ph).DecidedInTime)
    (hstage : ph.stage = (s.phase i).stage) : (s.setPhase i ph).Refines commit a where
  sound := hsound
  decided := hdecided
  now := h.now
  stored := h.stored
  stage := by
    intro j
    by_cases hj : j = i
    · subst hj
      rw [setPhase_self, hstage]
      exact h.stage j
    · rw [setPhase_of_ne s ph hj]
      exact h.stage j

/-- A guard that has failed to update gives up. -/
theorem Refines.givesUp (h : s.Refines commit a) {i : ι} {p : Purpose} {c : Call ε}
    (hi : s.phase i = .updating p c) (hsound : (s.setPhase i (.left false)).Sound commit) :
    ∃ ms b, run (Lifecycle.step commit) a ms = some b ∧
      (s.setPhase i (.left false)).Refines commit b := by
  have hstage : ∀ completed, a.stage i ≠ .left completed := by
    intro completed
    rw [h.stage i, hi]
    cases p <;> nofun
  have hstep : Lifecycle.step commit a (.givesUp i) =
      some { a with stage := Function.update a.stage i (.left false) } := by
    rw [Lifecycle.step]
    split
    · exact absurd ‹_› (hstage _)
    · rfl
  refine ⟨_, _, run_of_step hstep, hsound, ?_, h.now, h.stored, ?_⟩
  · refine h.decided.setPhase i ?_
    intro p' f u hleft
    cases hleft
  · intro j
    by_cases hj : j = i
    · subst hj
      rw [setPhase_self]
      exact Function.update_self ..
    · rw [setPhase_of_ne s _ hj]
      exact (Function.update_of_ne hj ..).trans (h.stage j)

/-- The update of a guard that was stored is its step on the session as it was. -/
theorem Refines.stored_step (h : s.Refines commit a) {i : ι} {p : Purpose}
    {f : Fetch ε StoredSession} {u : StoredSession} {fresh : ε}
    (hi : s.phase i = .updating p (.uploading f u)) (hm : f.Matches s.blob)
    (hsound : (s.setStored i p (s.blob.put fresh u)).Sound commit) :
    ∃ ms b, run (Lifecycle.step commit) a ms = some b ∧
      (s.setStored i p (s.blob.put fresh u)).Refines commit b := by
  have hphase := h.sound i
  rw [hi] at hphase
  obtain ⟨time, hu⟩ := hphase.atomic hm
  obtain ⟨hallowed, rfl⟩ := updatedSession_eq_ok_iff.mp hu
  have htime : time ≤ a.now := by
    rw [h.now]
    exact h.decided i p f _ hi
  have hstage := h.stage i
  rw [hi] at hstage
  rw [← h.stored] at hallowed
  -- each purpose has its event in the lifecycle
  obtain ⟨event, b, hstep, hb, hstored, hnow⟩ : ∃ event b,
      Lifecycle.step commit a event = some b ∧
      b.stage = Function.update a.stage i (GuardPhase.stage (ε := ε) p.next) ∧
      b.stored = (a.stored.withState (p.newState (commit i))).stamped time ∧ b.now = a.now := by
    cases p with
    | enter =>
      refine ⟨.begins i time, a.moved i .inside (pendingState (commit i)) time, if_pos ?_, rfl, rfl,
        rfl⟩
      refine ⟨hstage, htime, ?_⟩
      rcases hallowed with hforce | hallowed
      · cases hforce
      · exact hallowed
    | exit failed =>
      cases failed with
      | true =>
        exact ⟨.reopens i time, a.moved i (.left false) .opened time, if_pos ⟨hstage, htime⟩, rfl,
          rfl, rfl⟩
      | false =>
        refine ⟨.ends i time, a.moved i (.left true) (closedState (commit i)) time, if_pos ?_, rfl,
          rfl, rfl⟩
        refine ⟨hstage, htime, ?_⟩
        rcases hallowed with hforce | hallowed
        · cases hforce
        · exact hallowed
  refine ⟨[event], b, run_of_step hstep, hsound, h.decided.setStored i p _,
    hnow.trans h.now, ?_, ?_⟩
  · rw [hstored, h.stored]
    rfl
  · intro j
    rw [hb]
    by_cases hj : j = i
    · subst hj
      rw [setStored_self]
      exact Function.update_self ..
    · rw [setStored_of_ne s p _ hj]
      exact (Function.update_of_ne hj ..).trans (h.stage j)

end

section

variable [DecidableEq ε] {commit : ι → Bool}

/-- **One step of the guards** is a run of the lifecycle, of no step or of one. -/
theorem simulates (commit : ι → Bool) :
    Simulates (step (ε := ε) commit) (fun s e => readsCoherently s e = true)
      (Lifecycle.step commit) (Refines commit) where
  matched := by
    intro s t e a h hok hstep
    have hsound := sound_step h.sound hok hstep
    -- an event that only moves a guard within its stage
    have hidle : ∀ {i : ι} {ph : GuardPhase ε}, t = s.setPhase i ph →
        (∀ p f u, ph = .updating p (.uploading f u) → u.session.updatedTime ≤ s.now) →
        ph.stage = (s.phase i).stage →
        ∃ ms b, run (Lifecycle.step commit) a ms = some b ∧ t.Refines commit b := by
      rintro i ph rfl hph hstage
      exact ⟨[], a, rfl, h.setPhase hsound (h.decided.setPhase i hph) hstage⟩
    cases step_spec hstep with
    | tick d =>
      have htick : Lifecycle.step commit a (.tick d) = some { a with now := a.now + d } := rfl
      refine ⟨_, _, run_of_step htick, hsound, ?_, ?_, h.stored, h.stage⟩
      · intro i p f u hi
        exact le_add_of_le_of_nonneg (h.decided i p f u hi) (Int.natCast_nonneg d)
      · show a.now + d = s.now + d
        rw [h.now]
    | enter i hi =>
      refine hidle rfl ?_ (by rw [hi]; rfl)
      intro p f u hph
      cases hph
    | leave i failed hi =>
      refine hidle rfl ?_ (by rw [hi]; rfl)
      intro p f u hph
      cases hph
    | call i p c event r hi hr =>
      cases hr with
      | @read f f' k hread =>
        refine hidle rfl ?_ (by rw [hi]; cases p <;> rfl)
        intro p' f'' u hph
        cases hph
      | @resumed e q u hu =>
        refine hidle rfl ?_ (by rw [hi]; cases p <;> rfl)
        rintro p' f' u' hph
        cases hph
        obtain ⟨-, rfl⟩ := updatedSession_eq_ok_iff.mp hu
        exact le_refl _
      | refused _ => exact h.givesUp hi hsound
      | unmatched _ => exact h.givesUp hi hsound
      | raised => exact h.givesUp hi hsound
      | @stored f u fresh hm _ => exact h.stored_step hi hm hsound

end

end GuardSystem

/-! ## Who has closed a session -/

namespace Lifecycle

/-- A session that is closed was closed by a guard of that kind; while an update is pending, a
guard of that kind has been inside. The time of the update has come. -/
structure Credited (commit : ι → Bool) (a : Lifecycle ι) : Prop where
  closed : ∀ c, a.stored.session.state = closedState c → ∃ i, commit i = c ∧ a.stage i = .left true
  pending : ∀ c, a.stored.session.state = pendingState c → ∃ i, commit i = c ∧ a.stage i ≠ .outside
  stamped : a.stored.session.updatedTime ≤ a.now

theorem closedState_inj {c c' : Bool} (h : closedState c = closedState c') : c = c' := by
  cases c <;> cases c' <;> first | rfl | cases h

theorem pendingState_inj {c c' : Bool} (h : pendingState c = pendingState c') : c = c' := by
  cases c <;> cases c' <;> first | rfl | cases h

/-- A pending state is none of the closed ones. -/
theorem pendingState_ne_closedState (c c' : Bool) : pendingState c ≠ closedState c' := by
  cases c <;> cases c' <;> nofun

theorem opened_ne_closedState (c : Bool) : .opened ≠ closedState c := by
  cases c <;> nofun

theorem opened_ne_pendingState (c : Bool) : .opened ≠ pendingState c := by
  cases c <;> nofun

variable [DecidableEq ι] {commit : ι → Bool} {a b : Lifecycle ι}

/-- Every closing is credited to one request. -/
theorem Credited.step {event : LifecycleEvent ι} (h : Credited commit a)
    (hstep : Lifecycle.step commit a event = some b) : Credited commit b := by
  cases event with
  | tick d =>
    cases hstep
    exact ⟨h.closed, h.pending, le_add_of_le_of_nonneg h.stamped (Int.natCast_nonneg d)⟩
  | begins i time =>
    obtain ⟨⟨-, htime, -⟩, hstep⟩ := Option.ite_none_right_eq_some.mp hstep
    cases hstep
    refine ⟨fun c hc => ?_, fun c hc => ⟨i, pendingState_inj hc, ?_⟩, htime⟩
    · exact absurd hc (pendingState_ne_closedState _ c)
    · show Function.update a.stage i .inside i ≠ .outside
      rw [Function.update_self]
      nofun
  | ends i time =>
    obtain ⟨⟨-, htime, -⟩, hstep⟩ := Option.ite_none_right_eq_some.mp hstep
    cases hstep
    refine ⟨fun c hc => ⟨i, closedState_inj hc, Function.update_self ..⟩, fun c hc => ?_, htime⟩
    exact absurd hc.symm (pendingState_ne_closedState c _)
  | reopens i time =>
    obtain ⟨⟨-, htime⟩, hstep⟩ := Option.ite_none_right_eq_some.mp hstep
    cases hstep
    exact ⟨fun c hc => absurd hc (opened_ne_closedState c),
      fun c hc => absurd hc (opened_ne_pendingState c), htime⟩
  | givesUp i =>
    simp only [Lifecycle.step] at hstep
    split at hstep
    · cases hstep
    · rename_i hleft
      cases hstep
      refine ⟨fun c hc => ?_, fun c hc => ?_, h.stamped⟩
      · -- the guard that has closed the session has left, and so is another one
        obtain ⟨j, hj, hstage⟩ := h.closed c hc
        have hne : j ≠ i := by
          rintro rfl
          exact hleft true hstage
        exact ⟨j, hj, (Function.update_of_ne hne ..).trans hstage⟩
      · obtain ⟨j, hj, hstage⟩ := h.pending c hc
        refine ⟨j, hj, ?_⟩
        by_cases hji : j = i
        · subst hji
          show Function.update a.stage j (.left false) j ≠ .outside
          rw [Function.update_self]
          nofun
        · show Function.update a.stage i (.left false) j ≠ .outside
          rwa [Function.update_of_ne hji]

end Lifecycle

namespace GuardSystem

variable [DecidableEq ι] [DecidableEq ε] {commit : ι → Bool}

/-- **The guards live the life of the session.** In every run of any number of guards, from the
start, in which no fetch is torn, whatever their reads and uploads interleave with and whichever
of them fail, the session on the blob and the guards are where a run of the lifecycle takes
them: each update that is stored is one allowed by the matrix, on the session as it was, or the
reopening by a guard that was inside; every other event changes nothing, or a guard gives up.
So a session that was open and is closed has been closed by a guard of that kind. -/
theorem refines_lifecycle {s₀ t : GuardSystem ι ε} {es : List (GuardEvent ι ε)}
    (hinit : s₀.Initial)
    (hok : Guarded (step commit) (fun s e => readsCoherently s e = true) s₀ es)
    (hrun : run (step commit) s₀ es = some t) :
    (∃ events, run (Lifecycle.step commit) s₀.lifecycle events = some t.lifecycle) ∧
      (s₀.session.state = .opened → s₀.session.updatedTime ≤ s₀.now →
        Lifecycle.Credited commit t.lifecycle) := by
  constructor
  · obtain ⟨events, a, hevents, ha⟩ := (simulates commit).run (hinit.refines commit) hok hrun
    rw [ha.eq_lifecycle] at hevents
    exact ⟨events, hevents⟩
  · intro hopened hstamped
    have hcredited : Lifecycle.Credited commit s₀.lifecycle := by
      refine ⟨fun c hc => ?_, fun c hc => ?_, hstamped⟩
      · exact absurd (hopened.symm.trans hc) (Lifecycle.opened_ne_closedState c)
      · exact absurd (hopened.symm.trans hc) (Lifecycle.opened_ne_pendingState c)
    obtain ⟨a, ha, hcredited⟩ := (simulates commit).invariant (fun h hstep => h.step hstep)
      (hinit.refines commit) hcredited hok hrun
    rwa [ha.eq_lifecycle] at hcredited

omit [DecidableEq ι] [DecidableEq ε] in
/-- A run that can be evaluated ends in a state. -/
theorem exists_run (s : GuardSystem Nat Nat) (es : List (GuardEvent Nat Nat))
    (h : (run (step fun _ => true) s es).isSome = true) :
    ∃ t, run (step fun _ => true) s es = some t :=
  Option.isSome_iff_exists.mp h

omit [DecidableEq ι] [DecidableEq ε] in
/-- A guard is taken over, and the second one closes the session. -/
theorem refines_lifecycle_takeover :
    ∃ t, run (step fun _ => true) fresh takeover = some t ∧
      (∃ events, run (Lifecycle.step fun _ => true) fresh.lifecycle events = some t.lifecycle) ∧
      Lifecycle.Credited (fun _ => true) t.lifecycle := by
  obtain ⟨t, ht⟩ := exists_run fresh takeover (by decide)
  obtain ⟨hevents, hcredited⟩ :=
    refines_lifecycle initial_fresh (guarded_of_checkRun (by decide)) ht
  exact ⟨t, ht, hevents, hcredited rfl (le_refl _)⟩

/-! ## What no guard changes -/

/-- The two differ at most in the state and in the time of the last update. -/
def SameSession (c c' : StoredSession) : Prop :=
  c' = (c.withState c'.session.state).stamped c'.session.updatedTime

theorem SameSession.refl (c : StoredSession) : SameSession c c := rfl

/-- An update of the same session is the same session. -/
theorem SameSession.update {c c' u : StoredSession} (h : SameSession c c') {commit : Bool}
    {now : DateTime} {p : Purpose} (hu : update commit now p c' = .ok u) : SameSession c u := by
  obtain ⟨-, rfl⟩ := updatedSession_eq_ok_iff.mp hu
  unfold SameSession at h ⊢
  rw [h]
  rfl

/-- The stored session and all that the guards hold of it are the session `c`. -/
structure Keeps (c : StoredSession) (s : GuardSystem ι ε) : Prop where
  stored : SameSession c s.blob.content
  fetched : ∀ i p call, s.phase i = .updating p call → ∀ q ∈ call.fetch.content, SameSession c q.2
  uploaded : ∀ i p f u, s.phase i = .updating p (.uploading f u) → SameSession c u

section

variable {c : StoredSession} {s : GuardSystem ι ε}

omit [DecidableEq ε]

/-- A guard goes to another phase, with what it may hold. -/
theorem Keeps.setPhase (h : s.Keeps c) {i : ι} {ph : GuardPhase ε}
    (hfetched : ∀ p call, ph = .updating p call → ∀ q ∈ call.fetch.content, SameSession c q.2)
    (huploaded : ∀ p f u, ph = .updating p (.uploading f u) → SameSession c u) :
    (s.setPhase i ph).Keeps c where
  stored := h.stored
  fetched := by
    intro j p call hj
    by_cases hji : j = i
    · subst hji
      rw [setPhase_self] at hj
      exact hfetched p call hj
    · rw [setPhase_of_ne s ph hji] at hj
      exact h.fetched j p call hj
  uploaded := by
    intro j p f u hj
    by_cases hji : j = i
    · subst hji
      rw [setPhase_self] at hj
      exact huploaded p f u hj
    · rw [setPhase_of_ne s ph hji] at hj
      exact h.uploaded j p f u hj

/-- A phase outside an update holds nothing. -/
theorem Keeps.setPhase_idle (h : s.Keeps c) {i : ι} {ph : GuardPhase ε}
    (hph : ∀ p call, ph ≠ .updating p call) : (s.setPhase i ph).Keeps c :=
  h.setPhase (fun p call heq => absurd heq (hph p call)) fun p _ _ heq => absurd heq (hph p _)

theorem left_ne_updating {completed : Bool} (p : Purpose) (call : Call ε) :
    (.left completed : GuardPhase ε) ≠ .updating p call := by
  intro h
  cases h

theorem Keeps.setStored (h : s.Keeps c) {i : ι} {p : Purpose} {b : Blob ε StoredSession}
    (hb : SameSession c b.content) : (s.setStored i p b).Keeps c := by
  have hnext : ∀ p' call, (p.next : GuardPhase ε) ≠ .updating p' call := by
    intro p' call
    cases p <;> nofun
  have hphase := h.setPhase_idle (i := i) hnext
  exact ⟨hb, hphase.fetched, hphase.uploaded⟩

end

/-- **One event** leaves the rest of the session as it was. -/
theorem keeps_step {c : StoredSession} {s t : GuardSystem ι ε} {event : GuardEvent ι ε}
    (h : s.Keeps c) (hstep : step commit s event = some t) : t.Keeps c := by
  cases step_spec hstep with
  | tick d => exact ⟨h.stored, h.fetched, h.uploaded⟩
  | enter i _ =>
    refine h.setPhase (fun p call hph q hq => ?_) fun p f u hph => ?_
    · cases hph
      cases hq
    · cases hph
  | leave i failed _ =>
    refine h.setPhase (fun p call hph q hq => ?_) fun p f u hph => ?_
    · cases hph
      cases hq
    · cases hph
  | call i p call event r hi hr =>
    cases hr with
    | @read f f' k hread =>
      have hcontent : ∀ q ∈ f'.content, SameSession c q.2 := by
        cases k with
        | metadata =>
          obtain ⟨-, hread⟩ := Option.ite_none_right_eq_some.mp hread
          cases hread
          exact h.fetched i p _ hi
        | content =>
          -- it is read as it is stored, whatever metadata it is read with
          obtain ⟨-, hread⟩ := Option.ite_none_right_eq_some.mp hread
          cases hread
          rintro q ⟨⟩
          exact h.stored
      refine h.setPhase (fun p' call' hph => ?_) fun p' f'' u hph => ?_
      · cases hph
        exact hcontent
      · cases hph
    | @resumed e q u hu =>
      have hq := h.fetched i p _ hi q rfl
      refine h.setPhase (fun p' call' hph q' hq' => ?_) fun p' f u' hph => ?_
      · cases hph
        cases hq'
        exact hq
      · cases hph
        exact hq.update hu
    | refused _ => exact h.setPhase_idle left_ne_updating
    | unmatched _ => exact h.setPhase_idle left_ne_updating
    | raised => exact h.setPhase_idle left_ne_updating
    | @stored f u fresh hm _ => exact h.setStored (h.uploaded i p f u hi)

/-- **No guard changes the session itself.** In every run of any number of guards, torn fetches
and late writes included, the stored session keeps its id, record, version, mode, expiry, time
of creation, `meta` and internal part: only its state and the time of its update change. -/
theorem guards_keep_session {s₀ t : GuardSystem ι ε} {es : List (GuardEvent ι ε)}
    (hinit : s₀.Initial) (hrun : run (step commit) s₀ es = some t) :
    t.blob.content =
      (s₀.blob.content.withState t.session.state).stamped t.session.updatedTime := by
  have hkeeps : s₀.Keeps s₀.blob.content := by
    refine ⟨.refl _, fun i p call hi => ?_, fun i p f u hi => ?_⟩
    all_goals
      rw [hinit i] at hi
      cases hi
  exact (run_invariant' (fun h hstep => keeps_step h hstep) hkeeps hrun).stored

omit [DecidableEq ι] [DecidableEq ε] in
/-- A guard that was taken over reopens the session late; it is the session it was. -/
theorem guards_keep_session_reopened :
    ∃ t, run (step fun _ => true) fresh (takeover ++ lateFailure) = some t ∧
      t.blob.content =
        (fresh.blob.content.withState t.session.state).stamped t.session.updatedTime := by
  obtain ⟨t, ht⟩ := exists_run fresh (takeover ++ lateFailure) (by decide)
  exact ⟨t, ht, guards_keep_session initial_fresh ht⟩

end GuardSystem

end WellboreDdms
