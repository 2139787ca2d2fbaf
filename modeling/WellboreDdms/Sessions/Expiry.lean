import WellboreDdms.Sessions.Service

/-!
# Session expiry

`create_session` gives a session an expiry, which the field's description and the
API documentation promise to enforce. Any number of sessions are created and
served while the clock runs.

- `Service.Copies`: a property of the stored session that no update changes holds
  of every copy of it, in the blob and in the requests under way (`copies_step`).
- `SessionStore`, `StoreEvent`, `step`: the sessions, each with the requests on it,
  under one clock.
- `expiry_enforced_iff`: a run accepts no chunk and starts no commit after the
  deadline of a session if and only if no request that would take an `open`
  session meets an expired one (`onTime`). No code consults `is_expired`.
-/

namespace WellboreDdms

open Python Machine

variable {σ ι κ ε : Type}

/-! ## The copies of a session -/

/-- What a guard holds of the session satisfies `P`, and its upload has the state
it requests. -/
def GuardPhase.Copies (P : StoredSession → Prop) (commit : Bool) : GuardPhase ε → Prop
  | .updating _ (.fetching f) => ∀ q ∈ f.content, P q.2
  | .updating p (.uploading _ u) => P u ∧ u.session.state = p.newState commit
  | _ => True

/-- What a chunk request holds of the session satisfies `P`. -/
def ChunkPhase.Copies (P : StoredSession → Prop) : ChunkPhase ε → Prop
  | .fetching f => ∀ q ∈ f.content, P q.2
  | _ => True

namespace Service

/-- Every copy of the session satisfies `P`. -/
structure Copies (P : StoredSession → Prop) (commit : ι → Bool) (s : Service ι κ ε) : Prop where
  stored : P s.guards.blob.content
  guards : ∀ i, (s.guards.phase i).Copies P (commit i)
  chunks : ∀ k, (s.chunk k).Copies P

variable [DecidableEq ι] [DecidableEq κ] [DecidableEq ε]

omit [DecidableEq κ] [DecidableEq ε] in
/-- A guard's phase may change to one with a good copy. -/
theorem Copies.setPhase {P : StoredSession → Prop} {commit : ι → Bool} {s : Service ι κ ε}
    (h : s.Copies P commit) {i : ι} {p : GuardPhase ε} (hp : p.Copies P (commit i)) :
    ({ s with guards := s.guards.setPhase i p } : Service ι κ ε).Copies P commit := by
  refine { h with guards := fun j => ?_ }
  by_cases hj : j = i
  · subst hj
    show ((s.guards.setPhase j p).phase j).Copies P (commit j)
    rwa [GuardSystem.setPhase_self]
  · show ((s.guards.setPhase i p).phase j).Copies P (commit j)
    rw [GuardSystem.setPhase_of_ne _ _ hj]
    exact h.guards j

omit [DecidableEq ι] [DecidableEq ε] in
/-- A chunk's phase may change to one with a good copy. -/
theorem Copies.setChunk {P : StoredSession → Prop} {commit : ι → Bool} {s : Service ι κ ε}
    (h : s.Copies P commit) {k : κ} {c : ChunkPhase ε} (hc : c.Copies P) (cs : List κ) :
    ({ s.setChunk k c with chunks := cs } : Service ι κ ε).Copies P commit := by
  refine { h with chunks := fun j => ?_ }
  show (Function.update s.chunk k c j).Copies P
  rw [Function.update_apply]
  split
  · exact hc
  · exact h.chunks j

/-- A fetch reads copies of the stored session. -/
theorem copies_of_read {P : StoredSession → Prop} {b : Blob ε StoredSession}
    {f f' : Fetch ε StoredSession} {r : Read} (hb : P b.content) (hf : ∀ q ∈ f.content, P q.2)
    (hr : f.read b r = some f') : ∀ q ∈ f'.content, P q.2 := by
  intro q hq
  cases r with
  | metadata =>
    obtain ⟨-, hr⟩ := Option.ite_none_right_eq_some.mp hr
    cases hr
    exact hf q hq
  | content =>
    obtain ⟨-, hr⟩ := Option.ite_none_right_eq_some.mp hr
    cases hr
    cases hq
    exact hb

omit [DecidableEq κ] in
/-- **One event of a guard** copies what is stored or what it was given. -/
theorem Copies.guard_step {P : StoredSession → Prop} {commit : ι → Bool} {s : Service ι κ ε}
    (hP : ∀ c newState now, P c → P ((c.withState newState).stamped now))
    (h : s.Copies P commit) {e : GuardEvent ι ε} {g : GuardSystem ι ε}
    (hg : s.guards.step commit e = some g) :
    ({ s with guards := g } : Service ι κ ε).Copies P commit := by
  cases GuardSystem.step_spec hg with
  | tick d => exact { h with }
  | enter i _ => exact h.setPhase nofun
  | leave i failed _ => exact h.setPhase nofun
  | call i p c e r hi hr =>
    have hc := h.guards i
    rw [hi] at hc
    cases hr with
    | read hread => exact h.setPhase (copies_of_read h.stored hc hread)
    | @resumed e q u hu =>
      obtain ⟨-, rfl⟩ := updatedSession_eq_ok_iff.mp hu
      exact h.setPhase ⟨hP _ _ _ (hc q rfl), rfl⟩
    | refused _ => exact h.setPhase trivial
    | @stored f u fresh _ _ =>
      have hnext := h.setPhase (i := i) (p := p.next) (by cases p <;> trivial)
      exact { hnext with stored := hc.1 }
    | unmatched _ => exact h.setPhase trivial
    | raised => exact h.setPhase trivial

/-- **What no update changes, every copy has**, at every moment. -/
theorem copies_step {P : StoredSession → Prop} {commit : ι → Bool} {s t : Service ι κ ε}
    {e : ServiceEvent ι κ ε} (hP : ∀ c newState now, P c → P ((c.withState newState).stamped now))
    (h : s.Copies P commit) (hstep : step commit s e = some t) : t.Copies P commit := by
  cases step_spec hstep with
  | guard e g _ hg => exact h.guard_step hP hg
  | recordFetched i _ _ => exact { h with }
  | sessionCompleted i _ _ => exact { h with }
  | recordSent i _ _ _ => exact { h with }
  | bodyRaised i _ _ => exact { h with }
  | posted k _ => exact h.setChunk (c := .fetching {}) nofun s.chunks
  | chunkRead k r f f' hk hr =>
    have hc := h.chunks k
    rw [hk] at hc
    exact h.setChunk (c := .fetching f') (copies_of_read h.stored hc hr) s.chunks
  | chunkAccepted k f q _ _ _ => exact h.setChunk (c := .sending) trivial s.chunks
  | chunkRefused k f _ _ => exact h.setChunk (c := .answered false) trivial s.chunks
  | chunkWritten k _ => exact h.setChunk (c := .answered true) trivial (k :: s.chunks)
  | chunkRaised k => exact h.setChunk (c := .answered false) trivial s.chunks

/-! ## What a step takes on -/

/-- The step takes a chunk on, or acknowledges it. -/
def Accepts (s t : Service ι κ ε) : Prop :=
  ∃ k, (s.chunk k).accepted = false ∧ (t.chunk k).accepted = true ∨
    (s.chunk k).acknowledged = false ∧ (t.chunk k).acknowledged = true

/-- The step stores `committing` over `open`. -/
def StartsCommit (s t : Service ι κ ε) : Prop :=
  s.session.state = .opened ∧ t.session.state = .committing

/-- A request is about to take an `open` session: a chunk request that has read one
checks it, the worker is sent the chunk, or the entry of a commit is stored. -/
def takes (commit : ι → Bool) (s : Service ι κ ε) : ServiceEvent ι κ ε → Bool
  | .chunkChecked k =>
    match s.chunk k with
    | .fetching f => f.content.any fun q => decide (q.2.session.state = .opened)
    | _ => false
  | .chunkWritten _ => true
  | .guard (.call i (.upload _)) =>
    match s.guards.phase i with
    | .updating .enter (.uploading f _) =>
      commit i && decide (f.Matches s.guards.blob ∧ s.session.state = .opened)
    | _ => false
  | _ => false

omit [DecidableEq ι] [DecidableEq κ] [DecidableEq ε] in
/-- Where no chunk changes, none is accepted. -/
theorem not_accepts {s t : Service ι κ ε} (h : t.chunk = s.chunk) : ¬ s.Accepts t := by
  rintro ⟨k, ⟨hs, ht⟩ | ⟨hs, ht⟩⟩
  · rw [h, hs] at ht
    cases ht
  · rw [h, hs] at ht
    cases ht

omit [DecidableEq ι] [DecidableEq ε] in
theorem accepts_setChunk {s : Service ι κ ε} {k : κ} {c : ChunkPhase ε} {cs : List κ} :
    s.Accepts { s.setChunk k c with chunks := cs } ↔
      (s.chunk k).accepted = false ∧ c.accepted = true ∨
        (s.chunk k).acknowledged = false ∧ c.acknowledged = true := by
  have hchunk : ∀ j, (s.setChunk k c).chunk j = if j = k then c else s.chunk j :=
    fun j => Function.update_apply s.chunk k c j
  constructor
  · intro ⟨j, hj⟩
    simp only [hchunk] at hj
    by_cases hjk : j = k
    · subst hjk
      simpa using hj
    · simp [hjk] at hj
  · intro h
    exact ⟨k, by simpa [hchunk] using h⟩

omit [DecidableEq ι] [DecidableEq κ] [DecidableEq ε] in
/-- Where the stored session stays, no commit starts. -/
theorem not_startsCommit {s t : Service ι κ ε} (h : t.guards.blob = s.guards.blob) :
    ¬ s.StartsCommit t := by
  intro ⟨hs, ht⟩
  have hstate : t.session.state = s.session.state :=
    congrArg (fun b : Blob ε StoredSession => b.content.session.state) h
  rw [hstate, hs] at ht
  cases ht

omit [DecidableEq ι] [DecidableEq ε] in
/-- A chunk request that moves to `c` starts no commit. -/
theorem takesOn_setChunk (s : Service ι κ ε) (k : κ) (c : ChunkPhase ε) (cs : List κ) :
    s.Accepts { s.setChunk k c with chunks := cs } ∨
        s.StartsCommit { s.setChunk k c with chunks := cs } ↔
      (s.chunk k).accepted = false ∧ c.accepted = true ∨
        (s.chunk k).acknowledged = false ∧ c.acknowledged = true :=
  (or_iff_left (not_startsCommit rfl)).trans accepts_setChunk

omit [DecidableEq κ] in
/-- A guard takes an `open` session when it stores the entry of a commit. -/
theorem startsCommit_iff {P : StoredSession → Prop} {commit : ι → Bool} {s : Service ι κ ε}
    (h : s.Copies P commit) {e : GuardEvent ι ε} {g : GuardSystem ι ε}
    (hg : s.guards.step commit e = some g) :
    s.StartsCommit { s with guards := g } ↔ s.takes commit (.guard e) = true := by
  cases GuardSystem.step_spec hg with
  | tick d => exact iff_of_false (not_startsCommit rfl) (by simp [takes])
  | enter i _ => exact iff_of_false (not_startsCommit rfl) (by simp [takes])
  | leave i failed _ => exact iff_of_false (not_startsCommit rfl) (by simp [takes])
  | call i p c e r hi hr =>
    have hc := h.guards i
    rw [hi] at hc
    cases hr with
    | read _ => exact iff_of_false (not_startsCommit rfl) (by simp [takes])
    | resumed _ => exact iff_of_false (not_startsCommit rfl) (by simp [takes])
    | refused _ => exact iff_of_false (not_startsCommit rfl) (by simp [takes])
    | @stored f u fresh hm _ =>
      have hstate : u.session.state = p.newState (commit i) := hc.2
      show s.session.state = .opened ∧ u.session.state = .committing ↔ _
      rw [hstate]
      cases p with
      | enter => cases hcommit : commit i <;> simp [takes, hi, hm, hcommit, Purpose.newState]
      | exit failed =>
        cases failed <;> cases commit i <;> simp [takes, hi, Purpose.newState]
    | unmatched hm =>
      refine iff_of_false (not_startsCommit rfl) ?_
      cases p <;> simp [takes, hi, hm]
    | raised => exact iff_of_false (not_startsCommit rfl) (by simp [takes])

/-- **`takes` is exact**: a step takes a chunk on or starts a commit if and only if
it is one of the three. -/
theorem takes_iff {P : StoredSession → Prop} {commit : ι → Bool} {s t : Service ι κ ε}
    {e : ServiceEvent ι κ ε} (h : s.Copies P commit) (hstep : step commit s e = some t) :
    s.Accepts t ∨ s.StartsCommit t ↔ s.takes commit e = true := by
  -- an event that neither moves a chunk nor stores a session takes nothing
  have hidle : ∀ {t : Service ι κ ε}, t.chunk = s.chunk → t.guards.blob = s.guards.blob →
      ¬ (s.Accepts t ∨ s.StartsCommit t) :=
    fun hchunk hblob hor => hor.elim (not_accepts hchunk) (not_startsCommit hblob)
  cases step_spec hstep with
  | guard e g _ hg =>
    rw [← startsCommit_iff h hg]
    exact or_iff_right (not_accepts rfl)
  | recordFetched i _ _ => exact iff_of_false (hidle rfl rfl) (by simp [takes])
  | sessionCompleted i _ _ => exact iff_of_false (hidle rfl rfl) (by simp [takes])
  | recordSent i _ _ _ => exact iff_of_false (hidle rfl rfl) (by simp [takes])
  | bodyRaised i _ _ => exact iff_of_false (hidle rfl rfl) (by simp [takes])
  | posted k hk =>
    refine (takesOn_setChunk s k (.fetching {}) s.chunks).trans ?_
    simp [takes, ChunkPhase.accepted, ChunkPhase.acknowledged]
  | chunkRead k r f f' hk hr =>
    refine (takesOn_setChunk s k (.fetching f') s.chunks).trans ?_
    simp [takes, ChunkPhase.accepted, ChunkPhase.acknowledged]
  | chunkAccepted k f q hk hq ho =>
    refine (takesOn_setChunk s k .sending s.chunks).trans ?_
    simp [takes, hk, hq, ho, ChunkPhase.accepted, ChunkPhase.acknowledged]
  -- a session that is not open is refused
  | chunkRefused k f hk ho =>
    refine (takesOn_setChunk s k (.answered false) s.chunks).trans ?_
    have hany : (f.content.any fun q => decide (q.2.session.state = .opened)) = false := by
      rw [Option.any_eq_false]
      exact fun q hq => decide_eq_false (ho q hq)
    simp [takes, hk, hany, ChunkPhase.accepted, ChunkPhase.acknowledged]
  | chunkWritten k hk =>
    refine (takesOn_setChunk s k (.answered true) (k :: s.chunks)).trans ?_
    simp [takes, hk, ChunkPhase.accepted, ChunkPhase.acknowledged]
  | chunkRaised k =>
    refine (takesOn_setChunk s k (.answered false) s.chunks).trans ?_
    simp [takes, ChunkPhase.accepted, ChunkPhase.acknowledged]

end Service

/-! ## Sessions under one clock -/

/-- The sessions of the service; `deadline` is the end of the time to live each was
created with, whatever becomes of its `expiry` field. -/
structure SessionStore (σ ι κ ε : Type) where
  now : DateTime
  services : σ → Option (Service ι κ ε)
  deadline : σ → DateTime

/-- The clock, the creation of a session and the requests to it. -/
inductive StoreEvent (σ ι κ ε : Type) where
  | tick (d : Nat)
  | create (k : σ) (etag : ε) (n : NewSession)
  | request (k : σ) (e : ServiceEvent ι κ ε)

namespace SessionStore

/-- No session has been created. -/
def Initial (s : SessionStore σ ι κ ε) : Prop := ∀ k, s.services k = none

variable [DecidableEq σ] [DecidableEq ι] [DecidableEq κ] [DecidableEq ε]

/-- The session goes on to its next state. -/
def setService (s : SessionStore σ ι κ ε) (k : σ) (a : Service ι κ ε) : SessionStore σ ι κ ε :=
  { s with services := Function.update s.services k (some a) }

/-- A session is created once; its requests see the clock of the store. -/
def step (commit : σ → ι → Bool) (s : SessionStore σ ι κ ε) :
    StoreEvent σ ι κ ε → Option (SessionStore σ ι κ ε)
  | .tick d => some { s with now := s.now + d }
  | .create k etag n =>
    match s.services k with
    | none =>
      some { s.setService k (.created etag (n.stored s.now)) with
        deadline := Function.update s.deadline k (s.now + n.ttl * Session.minute) }
    | some _ => none
  | .request k e =>
    match s.services k with
    | none => none
    | some a => ((a.atTime s.now).step (commit k) e).map (s.setService k)

/-- The branches of `step`. -/
inductive StepSpec (commit : σ → ι → Bool) (s : SessionStore σ ι κ ε) :
    StoreEvent σ ι κ ε → SessionStore σ ι κ ε → Prop
  | tick (d : Nat) : StepSpec commit s (.tick d) { s with now := s.now + d }
  | create (k : σ) (etag : ε) (n : NewSession) (h : s.services k = none) :
    StepSpec commit s (.create k etag n)
      { s.setService k (.created etag (n.stored s.now)) with
        deadline := Function.update s.deadline k (s.now + n.ttl * Session.minute) }
  | request (k : σ) (e : ServiceEvent ι κ ε) (a b : Service ι κ ε) (h : s.services k = some a)
    (hb : (a.atTime s.now).step (commit k) e = some b) :
    StepSpec commit s (.request k e) (s.setService k b)

theorem step_spec {commit : σ → ι → Bool} {s t : SessionStore σ ι κ ε} {e : StoreEvent σ ι κ ε}
    (h : step commit s e = some t) : StepSpec commit s e t := by
  cases e with
  | tick d =>
    cases h
    exact .tick d
  | create k etag n =>
    simp only [step] at h
    split at h <;> cases h
    exact .create k etag n ‹_›
  | request k e =>
    simp only [step] at h
    split at h
    · cases h
    · obtain ⟨b, hb, rfl⟩ := Option.map_eq_some_iff.mp h
      exact .request k e _ b ‹_› hb

/-! ## The expiry is enforced by the callers only -/

/-- Every copy of every session expires at its deadline. -/
def Expires (commit : σ → ι → Bool) (s : SessionStore σ ι κ ε) : Prop :=
  ∀ k, ∀ a ∈ s.services k, a.Copies (fun c => c.session.expiry = s.deadline k) (commit k)

/-- Between `s` and `t` a session past its deadline takes a chunk on, or goes from
`open` to `committing`. -/
def Late (s t : SessionStore σ ι κ ε) : Prop :=
  ∃ k, s.deadline k < s.now ∧ ∃ a b, s.services k = some a ∧ t.services k = some b ∧
    (a.Accepts b ∨ a.StartsCommit b)

/-- The request does not take an expired session. -/
def onTime (commit : σ → ι → Bool) (s : SessionStore σ ι κ ε) : StoreEvent σ ι κ ε → Bool
  | .request k e => (s.services k).all fun a => !a.takes (commit k) e || !a.session.isExpired s.now
  | _ => true

omit [DecidableEq σ] [DecidableEq ι] [DecidableEq κ] [DecidableEq ε] in
/-- A session expires at its creation plus its ttl: at the start there is none. -/
theorem Initial.expires {s : SessionStore σ ι κ ε} (h : s.Initial) (commit : σ → ι → Bool) :
    s.Expires commit := by
  intro k a ha
  rw [h k] at ha
  cases ha

/-- **One event** leaves every session with the expiry of its creation. -/
theorem expires_step {commit : σ → ι → Bool} {s t : SessionStore σ ι κ ε}
    {e : StoreEvent σ ι κ ε} (h : s.Expires commit) (hstep : step commit s e = some t) :
    t.Expires commit := by
  cases step_spec hstep with
  | tick d => exact h
  | create k etag n _ =>
    intro j a ha
    by_cases hj : j = k
    · subst hj
      simp only [setService, Function.update_self, Option.mem_def, Option.some.injEq] at ha ⊢
      subst ha
      exact { stored := rfl, guards := fun _ => trivial, chunks := fun _ => trivial }
    · simp only [setService, Function.update_of_ne hj] at ha ⊢
      exact h j a ha
  | request k e a b ha hb =>
    intro j c hc
    by_cases hj : j = k
    · subst hj
      simp only [setService, Function.update_self, Option.mem_def, Option.some.injEq] at hc
      subst hc
      have hat : (a.atTime s.now).Copies (fun c => c.session.expiry = s.deadline j) (commit j) :=
        { h j a ha with }
      exact Service.copies_step (fun _ _ _ hp => hp) hat hb
    · simp only [setService, Function.update_of_ne hj] at hc
      exact h j c hc

/-- A step is late exactly when its request takes an expired session. -/
theorem late_iff {commit : σ → ι → Bool} {s t : SessionStore σ ι κ ε} {e : StoreEvent σ ι κ ε}
    (h : s.Expires commit) (hstep : step commit s e = some t) :
    ¬ s.Late t ↔ s.onTime commit e = true := by
  have hself : ∀ a : Service ι κ ε, ¬ (a.Accepts a ∨ a.StartsCommit a) := fun a hor =>
    hor.elim (Service.not_accepts rfl) (Service.not_startsCommit rfl)
  cases step_spec hstep with
  | tick d =>
    refine iff_of_true ?_ rfl
    rintro ⟨k, -, a, b, ha, hb, hor⟩
    obtain rfl : a = b := Option.some.inj (ha.symm.trans hb)
    exact hself a hor
  | create k etag n hk =>
    refine iff_of_true ?_ rfl
    rintro ⟨j, -, a, b, ha, hb, hor⟩
    have hj : j ≠ k := by
      intro hj
      rw [hj, hk] at ha
      cases ha
    simp only [setService, Function.update_of_ne hj] at hb
    obtain rfl : a = b := Option.some.inj (ha.symm.trans hb)
    exact hself a hor
  | request k e a b ha hb =>
    have hcopies := h k a ha
    have hat : (a.atTime s.now).Copies (fun c => c.session.expiry = s.deadline k) (commit k) :=
      { hcopies with }
    have htakes := Service.takes_iff hat hb
    -- none of the three looks at the clock of the service
    change a.Accepts b ∨ a.StartsCommit b ↔ a.takes (commit k) e = true at htakes
    have hexpiry : a.session.expiry = s.deadline k := hcopies.stored
    have honTime : s.onTime commit (.request k e) = true ↔
        ¬ (s.deadline k < s.now ∧ a.takes (commit k) e = true) := by
      simp only [onTime, ha, Option.all_some, Session.isExpired, hexpiry]
      cases a.takes (commit k) e <;> simp
    rw [honTime, ← htakes, not_iff_not]
    -- the services of the other sessions are as they were
    constructor
    · rintro ⟨j, hlate, a', b', ha', hb', hor⟩
      by_cases hj : j = k
      · subst hj
        simp only [setService, Function.update_self, Option.some.injEq] at hb'
        obtain rfl : a = a' := Option.some.inj (ha.symm.trans ha')
        subst hb'
        exact ⟨hlate, hor⟩
      · simp only [setService, Function.update_of_ne hj] at hb'
        obtain rfl : a' = b' := Option.some.inj (ha'.symm.trans hb')
        exact absurd hor (hself a')
    · rintro ⟨hlate, hor⟩
      exact ⟨k, hlate, a, b, ha, Function.update_self .., hor⟩

/-- **The expiry holds iff the requests respect it**: a run of any number of
sessions takes no chunk on and starts no commit past a deadline if and only if no
request takes a session that `is_expired`. -/
theorem expiry_enforced_iff {commit : σ → ι → Bool} {s₀ t : SessionStore σ ι κ ε}
    {es : List (StoreEvent σ ι κ ε)} (hinit : s₀.Initial)
    (ht : run (step commit) s₀ es = some t) :
    Guarded (step commit) (fun s e => ∀ t, step commit s e = some t → ¬ s.Late t) s₀ es ↔
      Guarded (step commit) (fun s e => s.onTime commit e = true) s₀ es := by
  refine guarded_congr expires_step (fun h hstep => ?_) (hinit.expires commit) ht
  constructor
  · intro hlate
    exact (late_iff h hstep).mp (hlate _ hstep)
  · intro hon t' ht'
    exact (late_iff h ht').mpr hon

/-! ## The expired session -/

/-- The service before its first request. -/
def fresh : SessionStore Unit Unit Unit Nat where
  now := 0
  services := fun _ => none
  deadline := fun _ => 0

/-- A session is created for one minute; `d` microseconds later a chunk is posted and
its request has read the session. -/
def postAfter (d : Nat) : List (StoreEvent Unit Unit Unit Nat) :=
  [.create () 0
      { id := sampleSession.session.id, recordId := sampleSession.session.recordId,
        fromVersion := 1, ttl := 1, mode := .overwrite, sessionMeta := none, internal := .none },
    .tick d, .request () (.posted ()), .request () (.chunkRead () .content),
    .request () (.chunkRead () .metadata)]

/-- The chunk is checked and written, and a commit enters. -/
def acceptAndCommit : List (StoreEvent Unit Unit Unit Nat) :=
  [.request () (.chunkChecked ()), .request () (.chunkWritten ()),
    .request () (.guard (.enter ())), .request () (.guard (.call () (.read .metadata))),
    .request () (.guard (.call () (.read .content))), .request () (.guard (.call () .resume)),
    .request () (.guard (.call () (.upload 1)))]

/-- **The expired session**: an hour later the chunk is accepted, and the session is
`committing`. -/
theorem expired_session_accepts :
    ¬ ∀ (es : List (StoreEvent Unit Unit Unit Nat)) (t : SessionStore Unit Unit Unit Nat),
      run (step fun _ _ => true) fresh es = some t →
      Guarded (step fun _ _ => true)
        (fun s e => ∀ t, step (fun _ _ => true) s e = some t → ¬ s.Late t) fresh es := by
  intro h
  have hsome : (run (step fun _ _ => true) fresh (postAfter 3600000000 ++ acceptAndCommit)).map
      (fun t => (t.services ()).map fun a => a.session.state) = some (some .committing) := by decide
  obtain ⟨t, ht, -⟩ := Option.map_eq_some_iff.mp hsome
  obtain ⟨r, hr, ht'⟩ := run_append_eq_some.mp ht
  have hexpires : r.Expires fun _ _ => true :=
    run_invariant' expires_step (Initial.expires (fun _ => rfl) _) hr
  obtain ⟨r', hr', -⟩ := run_cons_eq_some.mp ht'
  have hlate := ((guarded_append hr).mp (h _ t ht)).2.1 r' hr'
  have honTime := (late_iff hexpires hr').mp hlate
  have hoff : (run (step fun _ _ => true) fresh (postAfter 3600000000)).map (fun r =>
      r.onTime (fun _ _ => true) (.request () (.chunkChecked ()))) = some false := by decide
  rw [hr, Option.map_some, honTime] at hoff
  cases hoff

/-- Half a minute later all is well. -/
theorem expiry_enforced_iff_in_time :
    Guarded (step fun _ _ => true)
      (fun s e => ∀ t, step (fun _ _ => true) s e = some t → ¬ s.Late t) fresh
      (postAfter 30000000 ++ acceptAndCommit) := by
  have hsome : (run (step fun _ _ => true) fresh
      (postAfter 30000000 ++ acceptAndCommit)).isSome = true := by decide
  obtain ⟨t, ht⟩ := Option.isSome_iff_exists.mp hsome
  exact (expiry_enforced_iff (fun _ => rfl) ht).mpr (guarded_of_checkRun (by decide))

end SessionStore

end WellboreDdms
