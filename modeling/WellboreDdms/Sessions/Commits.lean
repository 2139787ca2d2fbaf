import WellboreDdms.Sessions.Service
import Mathlib.Data.Fintype.Basic

/-!
# Commits publish once

A commit publishes a record version and then closes its session: two writes to two
stores. We count the versions published in runs of any number of requests.

- `CommitInv`: at most one commit is between entering and leaving its guard, and
  only while the session is `committing`; the state of the session bounds the
  number of versions (`VersionCount`).
- `commit_publishes_once`: at most one version in total, exactly one once the
  session is `committed` and none if it is `abandoned`, in every run in which no
  fetch is torn and a take-over finds nobody at work and nothing published
  (`takeoverIsSafe`).
- `slow_commit_publishes_twice`: a commit that is taken over while it is still
  working publishes a second version.
-/

namespace WellboreDdms

open Python Machine

variable {ι κ ε : Type}

/-- The guard has entered and not left. -/
def GuardPhase.active : GuardPhase ε → Bool
  | .inside => true
  | .updating (.exit _) _ => true
  | _ => false

/-- Guard `i` is about to enter a session that is not `open`. -/
def GuardSystem.takesOver [DecidableEq ε] (s : GuardSystem ι ε) (i : ι) : Bool :=
  match s.phase i with
  | .updating .enter (.uploading f _) =>
    decide (f.Matches s.blob ∧ s.session.state ≠ .opened)
  | _ => false

/-- The guard whose upload executes. -/
def ServiceEvent.uploader : ServiceEvent ι κ ε → Option ι
  | .guard (.call i (.upload _)) => some i
  | _ => none

namespace Service

/-- No fetch of a guard is torn. -/
def readsCoherently [DecidableEq ε] (s : Service ι κ ε) : ServiceEvent ι κ ε → Bool
  | .guard e => s.guards.readsCoherently e
  | _ => true

/-- An idle session is taken over only if no commit is inside its guard any more
and none has published. -/
def takeoverIsSafe [DecidableEq ε] (commit : ι → Bool) (s : Service ι κ ε)
    (e : ServiceEvent ι κ ε) : Prop :=
  ∀ i ∈ e.uploader, s.guards.takesOver i = true →
    s.versions = [] ∧ ∀ j, commit j = true → (s.guards.phase j).active = false

instance [DecidableEq ι] [DecidableEq κ] [DecidableEq ε] [Fintype ι] (commit : ι → Bool)
    (s : Service ι κ ε) (e : ServiceEvent ι κ ε) : Decidable (s.takeoverIsSafe commit e) :=
  inferInstanceAs (Decidable (∀ i ∈ e.uploader, s.guards.takesOver i = true →
    s.versions = [] ∧ ∀ j, commit j = true → (s.guards.phase j).active = false))

/-! ## The invariant -/

/-- The bodies a guard can have in each of its phases. -/
def BodyOk (commit : Bool) (b : BodyPhase κ) : GuardPhase ε → Prop
  | .created => b = .fetchRecord
  | .updating .enter _ => b = .fetchRecord
  | .inside => True
  | .updating (.exit false) _ => commit = true → b = .published
  | .updating (.exit true) _ => commit = true ∧ b = .raised
  | .left _ => True

/-- The body of a request that is leaving ended as the exit was told. -/
theorem bodyOk_of_mayLeave {commit failed : Bool} {b : BodyPhase κ} {c : Call ε}
    (h : b.mayLeave commit failed = true) :
    BodyOk commit b (.updating (.exit failed) c) := by
  cases commit <;> cases failed <;> cases b <;> simp_all [BodyPhase.mayLeave, BodyOk]

/-- The number of versions published, by the state of the session. -/
def VersionCount (n : Nat) : SessionState → Prop
  | .committing => n ≤ 1
  | .committed => n = 1
  | .opened | .abandoning | .abandoned => n = 0

/-- The invariant of `commit_publishes_once`. -/
structure CommitInv (commit : ι → Bool) (s : Service ι κ ε) : Prop where
  sound : s.guards.Sound commit
  bodies : ∀ i, BodyOk (commit i) (s.body i) (s.guards.phase i)
  committing : ∀ i, commit i = true → (s.guards.phase i).active = true →
    s.session.state = .committing
  alone : ∀ i j, commit i = true → (s.guards.phase i).active = true →
    commit j = true → (s.guards.phase j).active = true → j = i
  count : VersionCount s.versions.length s.session.state
  pending : ∀ i, commit i = true → (s.guards.phase i).active = true →
    (s.body i = .published ↔ s.versions ≠ [])

/-- The invariant holds at the start of an open session. -/
theorem Initial.commitInv {s : Service ι κ ε} (h : s.Initial) (hopen : s.session.state = .opened)
    (commit : ι → Bool) : s.CommitInv commit := by
  obtain ⟨hguards, hbody, -, -, hversions⟩ := h
  have hidle : ∀ i, (s.guards.phase i).active = false := fun i => by rw [hguards i]; rfl
  refine { sound := hguards.sound commit, bodies := fun i => ?_, committing := fun i _ ha => ?_,
           alone := fun i j _ ha => ?_, count := ?_, pending := fun i _ ha => ?_ }
  · rw [hguards i]
    exact hbody i
  · rw [hidle i] at ha
    cases ha
  · rw [hidle i] at ha
    cases ha
  · rw [hopen, hversions]
    rfl
  · rw [hidle i] at ha
    cases ha

variable [DecidableEq ι] [DecidableEq κ] [DecidableEq ε]

/-- The service after a step of its guards. -/
abbrev setGuards (s : Service ι κ ε) (g : GuardSystem ι ε) : Service ι κ ε :=
  { s with guards := g }

omit [DecidableEq κ] [DecidableEq ε] in
/-- A guard moves without writing the session; it does not become active. -/
theorem CommitInv.setPhase {commit : ι → Bool} {s : Service ι κ ε} (h : s.CommitInv commit)
    {i : ι} {p : GuardPhase ε} (hsound : (s.guards.setPhase i p).Sound commit)
    (hbody : BodyOk (commit i) (s.body i) p)
    (hactive : p.active = true → (s.guards.phase i).active = true) :
    (s.setGuards (s.guards.setPhase i p)).CommitInv commit := by
  have hmono : ∀ j, ((s.guards.setPhase i p).phase j).active = true →
      (s.guards.phase j).active = true := by
    intro j hj
    by_cases hji : j = i
    · subst hji
      rw [GuardSystem.setPhase_self] at hj
      exact hactive hj
    · rwa [GuardSystem.setPhase_of_ne _ _ hji] at hj
  refine { sound := hsound, bodies := fun j => ?_,
           committing := fun j hc hj => h.committing j hc (hmono j hj),
           alone := fun j k hcj hj hck hk => h.alone j k hcj (hmono j hj) hck (hmono k hk),
           count := h.count, pending := fun j hc hj => h.pending j hc (hmono j hj) }
  by_cases hji : j = i
  · subst hji
    show BodyOk _ _ ((s.guards.setPhase j p).phase j)
    rwa [GuardSystem.setPhase_self]
  · show BodyOk _ _ ((s.guards.setPhase i p).phase j)
    rw [GuardSystem.setPhase_of_ne _ _ hji]
    exact h.bodies j

omit [DecidableEq ι] [DecidableEq κ] in
/-- When a guard enters, no commit is inside another guard and nothing has been
published: the session is open, or the take-over is safe. -/
theorem CommitInv.idle_of_enter {commit : ι → Bool} {s : Service ι κ ε} (h : s.CommitInv commit)
    {i : ι} {f : Fetch ε StoredSession} {u : StoredSession}
    (hi : s.guards.phase i = .updating .enter (.uploading f u)) (hm : f.Matches s.guards.blob)
    (hok : s.guards.takesOver i = true →
      s.versions = [] ∧ ∀ j, commit j = true → (s.guards.phase j).active = false) :
    s.versions = [] ∧ ∀ j, commit j = true → (s.guards.phase j).active = false := by
  by_cases hopen : s.session.state = .opened
  · constructor
    · have := h.count
      rw [hopen] at this
      exact List.eq_nil_of_length_eq_zero this
    · intro j hj
      rw [Bool.eq_false_iff]
      intro ha
      have := h.committing j hj ha
      rw [hopen] at this
      cases this
  · refine hok ?_
    rw [GuardSystem.takesOver, hi]
    exact decide_eq_true ⟨hm, hopen⟩

omit [DecidableEq ι] [DecidableEq κ] [DecidableEq ε] in
/-- No commit is inside its guard: nothing is left to say of the bodies. -/
theorem CommitInv.of_idle {commit : ι → Bool} {s : Service ι κ ε}
    (hsound : s.guards.Sound commit)
    (hbodies : ∀ i, BodyOk (commit i) (s.body i) (s.guards.phase i))
    (hidle : ∀ i, commit i = true → (s.guards.phase i).active = false)
    (hcount : VersionCount s.versions.length s.session.state) : s.CommitInv commit := by
  have hno : ∀ {i}, commit i = true → (s.guards.phase i).active = true → False := by
    intro i hc ha
    rw [hidle i hc] at ha
    cases ha
  exact { sound := hsound, bodies := hbodies,
          committing := fun i hc ha => (hno hc ha).elim,
          alone := fun i j hc ha _ _ => (hno hc ha).elim, count := hcount,
          pending := fun i hc ha => (hno hc ha).elim }

omit [DecidableEq ι] [DecidableEq κ] [DecidableEq ε] in
/-- The state a guard stores, and why the update was allowed. -/
theorem CommitInv.allowed {commit : ι → Bool} {s : Service ι κ ε} (h : s.CommitInv commit) {i : ι}
    {p : Purpose} {f : Fetch ε StoredSession} {u : StoredSession}
    (hi : s.guards.phase i = .updating p (.uploading f u)) (hm : f.Matches s.guards.blob) :
    u.session.state = p.newState (commit i) ∧
      ∃ now, p.forceUpdate = true ∨ StateUpdateAllowed now s.session (p.newState (commit i)) := by
  have hps := h.sound i
  rw [hi] at hps
  obtain ⟨now, hu⟩ := hps.atomic hm
  obtain ⟨hallowed, hu⟩ := updatedSession_eq_ok_iff.mp hu
  refine ⟨?_, now, hallowed⟩
  rw [hu]
  rfl

omit [DecidableEq κ] [DecidableEq ε] in
/-- The bodies, after guard `i` has stored its update. -/
theorem CommitInv.bodies_setStored {commit : ι → Bool} {s : Service ι κ ε} (h : s.CommitInv commit)
    (i : ι) (p : Purpose) (b : Blob ε StoredSession)
    (hnext : ∀ c, BodyOk c (s.body i) (p.next : GuardPhase ε)) (j : ι) :
    BodyOk (commit j) (s.body j) ((s.guards.setStored i p b).phase j) := by
  by_cases hj : j = i
  · subst hj
    rw [GuardSystem.setStored_self]
    exact hnext _
  · rw [GuardSystem.setStored_of_ne s.guards p b hj]
    exact h.bodies j

omit [DecidableEq κ] [DecidableEq ε] in
/-- A guard enters a session that no commit is inside of. -/
theorem CommitInv.setStored_enter {commit : ι → Bool} {s : Service ι κ ε} (h : s.CommitInv commit)
    {i : ι} {f : Fetch ε StoredSession} {u : StoredSession} {fresh : ε}
    (hi : s.guards.phase i = .updating .enter (.uploading f u)) (hm : f.Matches s.guards.blob)
    (hsound : (s.guards.setStored i .enter (s.guards.blob.put fresh u)).Sound commit)
    (hnil : s.versions = [])
    (hidle : ∀ j, commit j = true → (s.guards.phase j).active = false) :
    (s.setGuards (s.guards.setStored i .enter (s.guards.blob.put fresh u))).CommitInv commit := by
  obtain ⟨hstate, -⟩ := h.allowed hi hm
  have hbodies := h.bodies_setStored i .enter (s.guards.blob.put fresh u) fun _ => trivial
  have hbody : s.body i = .fetchRecord := by
    have hb := h.bodies i
    rw [hi] at hb
    exact hb
  -- only guard `i` may be inside now
  have honly : ∀ j, commit j = true →
      ((s.guards.setStored i .enter (s.guards.blob.put fresh u)).phase j).active = true →
        j = i := by
    intro j hj ha
    by_contra hji
    rw [GuardSystem.setStored_of_ne s.guards _ _ hji, hidle j hj] at ha
    cases ha
  cases hc : commit i with
  | false =>
    -- an abandon: still no commit is inside
    refine CommitInv.of_idle hsound hbodies (fun j hj => ?_) ?_
    · rw [Bool.eq_false_iff]
      intro ha
      obtain rfl := honly j hj ha
      rw [hc] at hj
      cases hj
    · show VersionCount s.versions.length u.session.state
      rw [hstate, hc, hnil]
      rfl
  | true =>
    -- a commit, which has not published
    refine { sound := hsound, bodies := hbodies, committing := fun j _ _ => ?_,
             alone := fun j k hj ha hk hb => ?_, count := ?_, pending := fun j hj ha => ?_ }
    · show u.session.state = .committing
      rw [hstate, hc]
      rfl
    · rw [honly j hj ha, honly k hk hb]
    · show VersionCount s.versions.length u.session.state
      rw [hstate, hc, hnil]
      exact Nat.zero_le 1
    · obtain rfl := honly j hj ha
      show s.body j = .published ↔ s.versions ≠ []
      rw [hbody, hnil]
      simp

omit [DecidableEq ι] [DecidableEq κ] [DecidableEq ε] in
/-- Only a commit exits by force, and an abandon that does not leaves an `abandoning` session. -/
theorem CommitInv.abandoning_of_exit {commit : ι → Bool} {s : Service ι κ ε}
    (h : s.CommitInv commit) {i : ι} {failed : Bool} {f : Fetch ε StoredSession} {u : StoredSession}
    (hi : s.guards.phase i = .updating (.exit failed) (.uploading f u))
    (hm : f.Matches s.guards.blob) (hc : commit i = false) :
    failed = false ∧ s.session.state = .abandoning := by
  have hb := h.bodies i
  rw [hi] at hb
  obtain ⟨-, now, hallowed⟩ := h.allowed hi hm
  cases failed with
  | true => simp [BodyOk, hc] at hb
  | false =>
    rw [hc] at hallowed
    exact ⟨rfl, hallowed.resolve_left nofun⟩

omit [DecidableEq κ] [DecidableEq ε] in
/-- After guard `i` has left, no commit is inside any more. -/
theorem CommitInv.idle_of_exit {commit : ι → Bool} {s : Service ι κ ε} (h : s.CommitInv commit)
    {i : ι} {failed : Bool} {f : Fetch ε StoredSession} {u : StoredSession}
    (hi : s.guards.phase i = .updating (.exit failed) (.uploading f u))
    (hm : f.Matches s.guards.blob) (b : Blob ε StoredSession) (j : ι) (hj : commit j = true) :
    ((s.guards.setStored i (.exit failed) b).phase j).active = false := by
  have hactive : (s.guards.phase i).active = true := by
    rw [hi]
    rfl
  by_cases hji : j = i
  · subst hji
    rw [GuardSystem.setStored_self]
    rfl
  · rw [GuardSystem.setStored_of_ne s.guards _ b hji, Bool.eq_false_iff]
    intro ha
    cases hc : commit i with
    | true => exact hji (h.alone i j hc hactive hj ha)
    | false =>
      have hcom := h.committing j hj ha
      rw [(h.abandoning_of_exit hi hm hc).2] at hcom
      cases hcom

omit [DecidableEq ι] [DecidableEq κ] [DecidableEq ε] in
/-- The versions published when guard `i` leaves are as many as the state it stores says. -/
theorem CommitInv.count_of_exit {commit : ι → Bool} {s : Service ι κ ε} (h : s.CommitInv commit)
    {i : ι} {failed : Bool} {f : Fetch ε StoredSession} {u : StoredSession}
    (hi : s.guards.phase i = .updating (.exit failed) (.uploading f u))
    (hm : f.Matches s.guards.blob) :
    VersionCount s.versions.length u.session.state := by
  have hb := h.bodies i
  rw [hi] at hb
  have hactive : (s.guards.phase i).active = true := by
    rw [hi]
    rfl
  have hcount := h.count
  rw [(h.allowed hi hm).1]
  cases hc : commit i with
  | true =>
    rw [h.committing i hc hactive] at hcount
    have hpend := h.pending i hc hactive
    cases failed with
    | true =>
      -- a body that has raised has not published
      have hraised : s.body i = .raised := hb.2
      have hnil : s.versions = [] := by
        by_contra hne
        rw [hpend.mpr hne] at hraised
        cases hraised
      rw [hnil]
      rfl
    | false =>
      have hne : s.versions ≠ [] := hpend.mp (hb hc)
      have hle : s.versions.length ≤ 1 := hcount
      exact Nat.le_antisymm hle (List.length_pos_of_ne_nil hne)
  | false =>
    obtain ⟨rfl, habandoning⟩ := h.abandoning_of_exit hi hm hc
    rw [habandoning] at hcount
    exact hcount

omit [DecidableEq κ] in
/-- A guard stores its update. -/
theorem CommitInv.setStored {commit : ι → Bool} {s : Service ι κ ε} (h : s.CommitInv commit)
    {i : ι} {p : Purpose} {f : Fetch ε StoredSession} {u : StoredSession} {fresh : ε}
    (hi : s.guards.phase i = .updating p (.uploading f u)) (hm : f.Matches s.guards.blob)
    (hsound : (s.guards.setStored i p (s.guards.blob.put fresh u)).Sound commit)
    (hok : s.guards.takesOver i = true →
      s.versions = [] ∧ ∀ j, commit j = true → (s.guards.phase j).active = false) :
    (s.setGuards (s.guards.setStored i p (s.guards.blob.put fresh u))).CommitInv commit := by
  cases p with
  | enter =>
    obtain ⟨hnil, hidle⟩ := h.idle_of_enter hi hm hok
    exact h.setStored_enter hi hm hsound hnil hidle
  | exit failed =>
    exact CommitInv.of_idle hsound (h.bodies_setStored i _ _ fun _ => trivial)
      (h.idle_of_exit hi hm _) (h.count_of_exit hi hm)

omit [DecidableEq ι] [DecidableEq κ] [DecidableEq ε] in
/-- A body runs in a guard that has been entered. -/
theorem running_iff {commit : ι → Bool} {s : Service ι κ ε} {i : ι} :
    s.running commit i = true ↔ commit i = true ∧ s.guards.phase i = .inside := by
  unfold running
  cases s.guards.phase i <;> simp

omit [DecidableEq κ] [DecidableEq ε] in
/-- The body of a running commit moves to `b`, with `vs` published by then. -/
theorem CommitInv.setBody {commit : ι → Bool} {s : Service ι κ ε} (h : s.CommitInv commit)
    {i : ι} {b : BodyPhase κ} {vs : List (ι × List κ)} (hr : s.running commit i = true)
    (hcount : vs.length ≤ 1) (hpending : b = .published ↔ vs ≠ []) :
    ({ s.setBody i b with versions := vs } : Service ι κ ε).CommitInv commit := by
  obtain ⟨hc, hi⟩ := running_iff.mp hr
  have hactive : (s.guards.phase i).active = true := by rw [hi]; rfl
  have hbody : ∀ j, (s.setBody i b).body j = if j = i then b else s.body j :=
    fun j => Function.update_apply s.body i b j
  refine { sound := h.sound, bodies := fun j => ?_, committing := h.committing,
           alone := h.alone, count := ?_, pending := fun j hj ha => ?_ }
  · show BodyOk _ ((s.setBody i b).body j) (s.guards.phase j)
    rw [hbody]
    split
    · rename_i hji
      rw [hji, hi]
      trivial
    · exact h.bodies j
  · show VersionCount vs.length s.session.state
    rw [h.committing i hc hactive]
    exact hcount
  · obtain rfl := h.alone i j hc hactive hj ha
    show (s.setBody j b).body j = .published ↔ vs ≠ []
    rw [hbody, if_pos rfl]
    exact hpending

omit [DecidableEq ι] [DecidableEq κ] [DecidableEq ε] in
/-- A running commit whose body has not published has published nothing. -/
theorem CommitInv.versions_eq_nil {commit : ι → Bool} {s : Service ι κ ε}
    (h : s.CommitInv commit) {i : ι} (hr : s.running commit i = true)
    (hb : s.body i ≠ .published) : s.versions = [] := by
  obtain ⟨hc, hi⟩ := running_iff.mp hr
  by_contra hne
  exact hb ((h.pending i hc (by rw [hi]; rfl)).mpr hne)

omit [DecidableEq ι] [DecidableEq ε] in
/-- The chunk requests do not touch what the invariant speaks of. -/
theorem CommitInv.setChunk {commit : ι → Bool} {s : Service ι κ ε} (h : s.CommitInv commit)
    (k : κ) (c : ChunkPhase ε) (chunks : List κ) :
    ({ s.setChunk k c with chunks := chunks } : Service ι κ ε).CommitInv commit :=
  { h with }

omit [DecidableEq κ] in
/-- A step of the guards. -/
theorem CommitInv.guard_step {commit : ι → Bool} {s : Service ι κ ε} {e : GuardEvent ι ε}
    {g : GuardSystem ι ε} (h : s.CommitInv commit) (hcoh : s.guards.readsCoherently e = true)
    (hok : s.takeoverIsSafe commit (.guard e)) (hb : s.allows commit e = true)
    (hg : s.guards.step commit e = some g) : (s.setGuards g).CommitInv commit := by
  have hsound := GuardSystem.sound_step h.sound hcoh hg
  cases GuardSystem.step_spec hg with
  | tick d => exact { h with sound := hsound }
  | enter i hi =>
    have hbi := h.bodies i
    rw [hi] at hbi
    exact h.setPhase hsound hbi (by simp [GuardPhase.active])
  | leave i failed hi =>
    refine h.setPhase hsound ?_ (fun _ => by rw [hi]; rfl)
    exact bodyOk_of_mayLeave hb
  | call i p c ce r hi hr =>
    have hbi := h.bodies i
    rw [hi] at hbi
    cases r with
    | suspended c' =>
      refine h.setPhase hsound ?_ (fun ha => ?_)
      · cases p with
        | enter => exact hbi
        | exit failed => cases failed <;> exact hbi
      · rw [hi]
        cases p with
        | enter => exact ha
        | exit failed => exact ha
    | failed err => exact h.setPhase hsound trivial (by simp [GuardPhase.active])
    | stored b =>
      cases hr with
      | @stored f u fresh hm hfresh => exact h.setStored hi hm hsound (hok i rfl)

/-- **One event** that reads coherently and takes over safely keeps the invariant. -/
theorem commitInv_step {commit : ι → Bool} {s t : Service ι κ ε} {e : ServiceEvent ι κ ε}
    (h : s.CommitInv commit) (hok : s.readsCoherently e = true ∧ s.takeoverIsSafe commit e)
    (hstep : step commit s e = some t) : t.CommitInv commit := by
  cases step_spec hstep with
  | guard e g hb hg => exact h.guard_step hok.1 hok.2 hb hg
  | recordFetched i hr hb =>
    have hnil := h.versions_eq_nil hr (by simp [hb])
    exact h.setBody hr (by simp [hnil]) (by simp [hnil])
  | sessionCompleted i hr hb =>
    have hnil := h.versions_eq_nil hr (by simp [hb])
    exact h.setBody hr (by simp [hnil]) (by simp [hnil])
  | recordSent i aggregated hr hb =>
    have hnil := h.versions_eq_nil hr (by simp [hb])
    exact h.setBody hr (by simp [hnil]) (by simp)
  | bodyRaised i hr hb =>
    have hnil := h.versions_eq_nil hr hb
    exact h.setBody hr (by simp [hnil]) (by simp [hnil])
  | posted k _ => exact h.setChunk k _ s.chunks
  | chunkRead k r f f' _ _ => exact h.setChunk k _ s.chunks
  | chunkAccepted k f q _ _ _ => exact h.setChunk k _ s.chunks
  | chunkRefused k f _ _ => exact h.setChunk k _ s.chunks
  | chunkWritten k _ => exact h.setChunk k _ (k :: s.chunks)
  | chunkRaised k => exact h.setChunk k _ s.chunks

/-- **A session is committed once**: in every run of any number of requests on an
open session, in which fetches are not torn and take-overs are safe, the commits
publish at most one version in total, exactly one if the stored session is
`committed`, none if it is `abandoned`. -/
theorem commit_publishes_once {commit : ι → Bool} {s₀ t : Service ι κ ε}
    {es : List (ServiceEvent ι κ ε)} (hinit : s₀.Initial)
    (hopen : s₀.session.state = .opened)
    (hok : Guarded (step commit)
      (fun s e => s.readsCoherently e = true ∧ s.takeoverIsSafe commit e) s₀ es)
    (ht : run (step commit) s₀ es = some t) :
    t.versions.length ≤ 1 ∧ (t.session.state = .committed → t.versions.length = 1) ∧
      (t.session.state = .abandoned → t.versions = []) := by
  have hcount := (run_invariant commitInv_step (hinit.commitInv hopen commit) hok ht).count
  cases hs : t.session.state <;> rw [hs] at hcount <;> simp_all [VersionCount]

/-! ## The slow commit -/

/-- A session just created for a day, and the requests that wait for it. -/
def fresh (ι κ : Type) : Service ι κ Nat := created 0 sampleSession

theorem initial_fresh (ι κ : Type) : (fresh ι κ).Initial :=
  ⟨fun _ => rfl, fun _ => rfl, fun _ => rfl, rfl, rfl⟩

/-- One undisturbed state update of guard `i`. -/
def updateEvents {ι κ : Type} (i : ι) (e : Nat) : List (ServiceEvent ι κ Nat) :=
  [.guard (.call i (.read .metadata)), .guard (.call i (.read .content)),
    .guard (.call i .resume), .guard (.call i (.upload e))]

/-- Request `i` enters its guard and gets as far as the publication. -/
def commitUntilSent {ι κ : Type} (i : ι) (e : Nat) : List (ServiceEvent ι κ Nat) :=
  .guard (.enter i) :: updateEvents i e ++ [.recordFetched i, .sessionCompleted i]

/-- Request `i` publishes and closes the session. -/
def sendAndClose {ι κ : Type} (i : ι) (e : Nat) : List (ServiceEvent ι κ Nat) :=
  .recordSent i :: .guard (.leave i false) :: updateEvents i e

/-- Request 0 is about to publish when request 1 takes the session over, publishes
and closes it; then request 0 publishes. -/
def slowCommit : List (ServiceEvent (Fin 2) (Fin 2) Nat) :=
  let first : Fin 2 := ⟨0, Nat.zero_lt_two⟩
  let second : Fin 2 := ⟨1, Nat.one_lt_two⟩
  commitUntilSent first 1 ++ .guard (.tick 300000000) :: commitUntilSent second 2 ++
    sendAndClose second 3 ++ [.recordSent first]

/-- **The slow commit**: two versions are published for one committed session. -/
theorem slow_commit_publishes_twice :
    ¬ ∀ (es : List (ServiceEvent (Fin 2) (Fin 2) Nat)) (t : Service (Fin 2) (Fin 2) Nat),
      run (step fun _ => true) (fresh (Fin 2) (Fin 2)) es = some t →
      t.versions.length ≤ 1 ∧ (t.session.state = .committed → t.versions.length = 1) ∧
        (t.session.state = .abandoned → t.versions = []) := by
  intro h
  have hlen : (run (step fun _ => true) (fresh (Fin 2) (Fin 2)) slowCommit).map
      (fun t => t.versions.length) = some 2 := by decide
  obtain ⟨t, ht, hlen⟩ := Option.map_eq_some_iff.mp hlen
  have := (h slowCommit t ht).1
  omega

/-- The same two requests, the second one when the first has been lost before its
publication. -/
theorem commit_publishes_once_after_loss :
    ∃ t, run (step fun _ => true) (fresh (Fin 2) (Fin 2))
        (commitUntilSent 0 1 ++ .bodyRaised 0 :: .guard (.leave 0 true) ::
          .guard (.call 0 .raised) :: .guard (.tick 300000000) ::
          commitUntilSent 1 2 ++ sendAndClose 1 3) = some t ∧
      t.session.state = .committed ∧ t.versions.length = 1 := by
  have hstate : (run (step fun _ => true) (fresh (Fin 2) (Fin 2))
      (commitUntilSent 0 1 ++ .bodyRaised 0 :: .guard (.leave 0 true) ::
        .guard (.call 0 .raised) :: .guard (.tick 300000000) ::
        commitUntilSent 1 2 ++ sendAndClose 1 3)).map (fun t => t.session.state) =
      some .committed := by decide
  obtain ⟨t, ht, hstate⟩ := Option.map_eq_some_iff.mp hstate
  have := commit_publishes_once (initial_fresh _ _) rfl (guarded_of_checkRun (by decide)) ht
  exact ⟨t, ht, hstate, this.2.1 hstate⟩

end Service

end WellboreDdms
