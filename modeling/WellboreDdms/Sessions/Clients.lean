import WellboreDdms.Machine.Run
import WellboreDdms.Sessions.Calls

/-!
# Concurrent clients of one session blob

Any number of clients call `get_session`, `update_session` and the state update
behind the guards on one session, each one call at a time, in any order. What a
client holds between two calls is the `SessionInternal` of its last one, with the
version it was read from.

- `ClientSystem`, `ClientEvent`, `step`, `StepSpec`: as for the guards, with a log
  of the successful writes.
- `no_lost_update`: if no fetch is torn (no write falls between its content read
  and a later metadata read, `readsCoherently`), every conditional write that
  succeeded overwrote exactly the version it was computed from, and no two
  started from the same one.
- `torn_fetch_loses_update`: the run that shows the condition is needed. The two
  reads are started together, so the content may be answered first.
-/

namespace WellboreDdms

open Python Machine

variable {κ ε : Type}

/-- A write that succeeded: the etag it was conditional on, the version and
content it was computed from, what it replaced, and what it stored. -/
structure Write (ε : Type) where
  ifMatch : Option ε
  base : Option (ε × StoredSession)
  replaced : ε × StoredSession
  stored : ε × StoredSession

/-- A write that leaves an `open` content into `committing` or `abandoning`. -/
def Write.LeavesOpen (w : Write ε) : Prop :=
  w.ifMatch ≠ none ∧ (∃ q, w.base = some q ∧ q.2.session.state = .opened) ∧
    (w.stored.2.session.state = .committing ∨ w.stored.2.session.state = .abandoning)

/-- `idle` keeps the session last returned to the client; `saving` is
`update_session`, `updating` the state update. -/
inductive ClientPhase (ε : Type) where
  | idle (held : Fetch ε StoredSession)
  | getting (f : Fetch ε StoredSession)
  | saving (c : Call ε)
  | updating (newState : SessionState) (forceUpdate : Bool) (c : Call ε)

/-- The stored session and the clients that read and update it. -/
structure ClientSystem (κ ε : Type) where
  now : DateTime
  blob : Blob ε StoredSession
  phase : κ → ClientPhase ε
  log : List (Write ε) := []

/-- `save i c` calls `update_session` with the session held, changed to `c`. -/
inductive ClientEvent (κ ε : Type) where
  | tick (d : Nat)
  | get (i : κ)
  | save (i : κ) (c : StoredSession)
  | update (i : κ) (newState : SessionState) (forceUpdate : Bool)
  | call (i : κ) (e : CallEvent ε)

namespace ClientPhase

/-- What the client holds or has read so far. -/
def fetch : ClientPhase ε → Fetch ε StoredSession
  | .idle f => f
  | .getting f => f
  | .saving c => c.fetch
  | .updating _ _ c => c.fetch

/-- What the client still holds if its call raises: the session it passed to
`update_session`. -/
def kept : ClientPhase ε → Fetch ε StoredSession
  | .saving (.uploading f _) => f
  | _ => {}

/-- The call the client awaits, and what it does between fetch and upload. -/
def call (now : DateTime) : ClientPhase ε →
    Option (Call ε × (StoredSession → Except SessionError StoredSession) ×
      (Call ε → ClientPhase ε))
  | .saving c => some (c, .ok, .saving)
  | .updating newState force c =>
    some (c, fun q => updatedSession now q newState force, .updating newState force)
  | _ => none

end ClientPhase

namespace ClientSystem

/-- Nobody holds or awaits anything, and the storage has used each tag once. -/
def Initial (s : ClientSystem κ ε) : Prop :=
  (∀ i, s.phase i = .idle {}) ∧ s.log = [] ∧ (s.blob.etag :: s.blob.past).Nodup

section Step

variable [DecidableEq κ] [DecidableEq ε]

/-- The client goes on to its next phase. -/
def setPhase (s : ClientSystem κ ε) (i : κ) (p : ClientPhase ε) : ClientSystem κ ε :=
  { s with phase := Function.update s.phase i p }

/-- Client `i` has stored `b.content` over the current version, from what it held
in `f`; it now holds the version it wrote. -/
def setStored (s : ClientSystem κ ε) (i : κ) (f : Fetch ε StoredSession)
    (b : Blob ε StoredSession) : ClientSystem κ ε :=
  { s with
    blob := b
    phase := Function.update s.phase i (.idle (.written b.etag b.content))
    log := ⟨f.etag, f.content, (s.blob.etag, s.blob.content), (b.etag, b.content)⟩ :: s.log }

/-- What becomes of client `i` after an event of its call `c`. -/
def settle (s : ClientSystem κ ε) (i : κ) (c : Call ε) (resumed : Call ε → ClientPhase ε) :
    CallResult ε → ClientSystem κ ε
  | .suspended c' => s.setPhase i (resumed c')
  | .stored b => s.setStored i c.fetch b
  | .failed _ => s.setPhase i (.idle (s.phase i).kept)

/-- An event is possible only in the phase that it belongs to. -/
def step (s : ClientSystem κ ε) : ClientEvent κ ε → Option (ClientSystem κ ε)
  | .tick d => some { s with now := s.now + d }
  | .get i =>
    match s.phase i with
    | .idle _ => some (s.setPhase i (.getting {}))
    | _ => none
  | .save i c =>
    match s.phase i with
    | .idle held =>
      -- `_store_session` stamps an update, not a creation
      some (s.setPhase i (.saving (.uploading held
        (if held.etag.isSome then c.stamped s.now else c))))
    | _ => none
  | .update i newState force =>
    match s.phase i with
    | .idle _ => some (s.setPhase i (.updating newState force (.fetching {})))
    | _ => none
  | .call i e =>
    match s.phase i, e with
    | .getting f, .read r => (f.read s.blob r).map fun f => s.setPhase i (.getting f)
    | .getting f, .resume =>
      if f.etag.isSome ∧ f.content.isSome then some (s.setPhase i (.idle f)) else none
    | .getting _, .raised => some (s.setPhase i (.idle {}))
    | p, e =>
      match p.call s.now with
      | some (c, decide, resumed) => (c.step s.blob decide e).map (s.settle i c resumed)
      | none => none

/-- The branches of `step`. -/
inductive StepSpec (s : ClientSystem κ ε) : ClientEvent κ ε → ClientSystem κ ε → Prop
  | tick (d : Nat) : StepSpec s (.tick d) { s with now := s.now + d }
  | get (i : κ) : StepSpec s (.get i) (s.setPhase i (.getting {}))
  | save (i : κ) (c u : StoredSession) (held : Fetch ε StoredSession)
    (h : s.phase i = .idle held) :
    StepSpec s (.save i c) (s.setPhase i (.saving (.uploading held u)))
  | update (i : κ) (newState : SessionState) (force : Bool) :
    StepSpec s (.update i newState force)
      (s.setPhase i (.updating newState force (.fetching {})))
  | reading (i : κ) (r : Read) (f f' : Fetch ε StoredSession) (h : s.phase i = .getting f)
    (hr : f.read s.blob r = some f') :
    StepSpec s (.call i (.read r)) (s.setPhase i (.getting f'))
  | got (i : κ) (f : Fetch ε StoredSession) (h : s.phase i = .getting f)
    (hf : f.content ≠ none) :
    StepSpec s (.call i .resume) (s.setPhase i (.idle f))
  | raised (i : κ) : StepSpec s (.call i .raised) (s.setPhase i (.idle {}))
  | call (i : κ) (e : CallEvent ε) (r : CallResult ε) (c : Call ε)
    (decide : StoredSession → Except SessionError StoredSession) (resumed : Call ε → ClientPhase ε)
    (h : (s.phase i).call s.now = some (c, decide, resumed))
    (hr : c.StepSpec s.blob decide e r) :
    StepSpec s (.call i e) (s.settle i c resumed r)

theorem step_spec {s t : ClientSystem κ ε} {e : ClientEvent κ ε} (h : step s e = some t) :
    StepSpec s e t := by
  cases e with
  | tick d =>
    cases h
    exact .tick d
  | get i =>
    simp only [step] at h
    split at h <;> cases h
    exact .get i
  | save i c =>
    simp only [step] at h
    split at h <;> cases h
    exact .save i c _ _ ‹_›
  | update i newState force =>
    simp only [step] at h
    split at h <;> cases h
    exact .update i newState force
  | call i e =>
    simp only [step] at h
    split at h
    · obtain ⟨f', hf', rfl⟩ := Option.map_eq_some_iff.mp h
      exact .reading i _ _ f' ‹_› hf'
    · split at h <;> cases h
      rename_i hf
      exact .got i _ ‹_› (Option.isSome_iff_ne_none.mp hf.2)
    · cases h
      exact .raised i
    · split at h
      · obtain ⟨r, hr, rfl⟩ := Option.map_eq_some_iff.mp h
        exact .call i _ r _ _ _ ‹_› (Call.step_spec hr)
      · cases h

end Step

/-! ## No update is lost -/

/-- The event does not tear a fetch: a metadata read that comes after the content
read finds the version the content was read from. -/
def readsCoherently [DecidableEq ε] (s : ClientSystem κ ε) : ClientEvent κ ε → Bool
  | .call i (.read .metadata) => decide ((s.phase i).fetch.Coherent s.blob)
  | _ => true

/-- The versions the writes have replaced. -/
def replaced (s : ClientSystem κ ε) : List ε := s.log.map fun w => w.replaced.1

/-- An etag is held, outside a fetch, with the content that was read with it. -/
def Paired : ClientPhase ε → Prop
  | .idle f => f.etag ≠ none → f.content ≠ none
  | .getting _ => True
  | .saving c => c.Paired
  | .updating _ _ c => c.Paired

/-- The invariant of `no_lost_update`: every client holds a sound fetch, every
conditional write replaced its base, and no version was replaced twice. -/
structure Inv (s : ClientSystem κ ε) : Prop where
  sound : ∀ i, (s.phase i).fetch.Sound s.blob
  paired : ∀ i, Paired (s.phase i)
  base : ∀ w ∈ s.log, w.ifMatch ≠ none → w.base = some w.replaced
  tags : (s.blob.etag :: s.blob.past).Nodup
  past : s.replaced ⊆ s.blob.past
  once : s.replaced.Nodup

/-- The invariant holds where every client is idle. -/
theorem Initial.inv {s : ClientSystem κ ε} (h : s.Initial) : s.Inv := by
  obtain ⟨hphase, hlog, htags⟩ := h
  refine { sound := fun i => ?_, paired := fun i => ?_, base := ?_, tags := htags,
           past := ?_, once := ?_ }
  · rw [hphase i]
    exact Fetch.sound_empty s.blob
  · rw [hphase i]
    exact fun h => absurd rfl h
  all_goals simp [replaced, hlog]

variable [DecidableEq κ] [DecidableEq ε]

omit [DecidableEq ε] in
/-- A client moves to a phase that is sound and paired; the blob stays. -/
theorem Inv.setPhase {s : ClientSystem κ ε} (h : s.Inv) {i : κ} {p : ClientPhase ε}
    (hsound : p.fetch.Sound s.blob) (hpaired : Paired p) : (s.setPhase i p).Inv := by
  have hphase : ∀ j, (s.setPhase i p).phase j = if j = i then p else s.phase j :=
    fun j => Function.update_apply s.phase i p j
  refine { h with sound := fun j => ?_, paired := fun j => ?_ }
  · rw [hphase]
    split
    · exact hsound
    · exact h.sound j
  · rw [hphase]
    split
    · exact hpaired
    · exact h.paired j

omit [DecidableEq ε] in
/-- A write whose etag matches: by `Fetch.Sound.cas` it replaces its base. -/
theorem Inv.setStored {s : ClientSystem κ ε} (h : s.Inv) {i : κ} {f : Fetch ε StoredSession}
    (hsound : f.Sound s.blob) (hpaired : f.etag ≠ none → f.content ≠ none)
    (hmatches : f.Matches s.blob) {fresh : ε} (hfresh : ¬ s.blob.Known fresh)
    (u : StoredSession) : (s.setStored i f (s.blob.put fresh u)).Inv := by
  have hphase : ∀ j, (s.setStored i f (s.blob.put fresh u)).phase j
      = if j = i then .idle (.written fresh u) else s.phase j :=
    fun j => Function.update_apply s.phase i _ j
  refine { sound := fun j => ?_, paired := fun j => ?_, base := ?_, tags := ?_, past := ?_,
           once := ?_ }
  · rw [hphase]
    split
    · exact Fetch.sound_written s.blob fresh u
    · exact (h.sound j).put hfresh u
  · rw [hphase]
    split
    · exact fun _ => Option.some_ne_none _
    · exact h.paired j
  · intro w hw hne
    rcases List.mem_cons.mp hw with rfl | hw
    · obtain ⟨e, he⟩ := Option.ne_none_iff_exists'.mp hne
      obtain ⟨q, hq⟩ := Option.ne_none_iff_exists'.mp (hpaired hne)
      have heq : f.etag = some s.blob.etag := he.trans (congrArg some (hmatches e he))
      exact hq.trans (congrArg some (hsound.cas heq hq))
    · exact h.base w hw hne
  · exact List.nodup_cons.mpr ⟨hfresh, h.tags⟩
  · rintro e he
    rcases List.mem_cons.mp he with rfl | he
    · exact List.mem_cons_self
    · exact List.mem_cons_of_mem _ (h.past he)
  · refine List.nodup_cons.mpr ⟨fun hmem => ?_, h.once⟩
    exact (List.nodup_cons.mp h.tags).1 (h.past hmem)

omit [DecidableEq κ] [DecidableEq ε] in
/-- What `ClientPhase.call` hands to `Call.step` is what the client holds. -/
theorem fetch_call {now : DateTime} {p : ClientPhase ε} {c : Call ε}
    {decide : StoredSession → Except SessionError StoredSession}
    {resumed : Call ε → ClientPhase ε} (h : p.call now = some (c, decide, resumed)) :
    p.fetch = c.fetch ∧ (Paired p → c.Paired) ∧
      ∀ c', (resumed c').fetch = c'.fetch ∧ (c'.Paired → Paired (resumed c')) := by
  unfold ClientPhase.call at h
  split at h
  · cases h
    exact ⟨rfl, id, fun _ => ⟨rfl, id⟩⟩
  · cases h
    exact ⟨rfl, id, fun _ => ⟨rfl, id⟩⟩
  · cases h

omit [DecidableEq κ] [DecidableEq ε] in
/-- A call that raises leaves the client with nothing new. -/
theorem sound_kept {b : Blob ε StoredSession} {p : ClientPhase ε} (hs : p.fetch.Sound b)
    (hp : Paired p) : p.kept.Sound b ∧ Paired (.idle p.kept) := by
  unfold ClientPhase.kept
  split
  · exact ⟨hs, hp⟩
  · exact ⟨Fetch.sound_empty b, fun h => absurd rfl h⟩

/-- **One event** with a coherent read keeps the invariant. -/
theorem inv_step {s t : ClientSystem κ ε} {e : ClientEvent κ ε} (h : s.Inv)
    (hok : readsCoherently s e = true) (hstep : step s e = some t) : t.Inv := by
  cases step_spec hstep with
  | tick d => exact { h with }
  | get i => exact h.setPhase (Fetch.sound_empty _) trivial
  | save i c u held hi =>
    have hs := h.sound i
    have hp := h.paired i
    rw [hi] at hs hp
    exact h.setPhase hs hp
  | update i newState force => exact h.setPhase (Fetch.sound_empty _) trivial
  | reading i r f f' hi hr =>
    have hs := h.sound i
    rw [hi] at hs
    -- the second read of a pair must see the etag of the first one
    refine h.setPhase (hs.read hr fun hm => ?_) trivial
    subst hm
    simpa [readsCoherently, hi] using hok
  | got i f hi hf =>
    have hs := h.sound i
    rw [hi] at hs
    exact h.setPhase hs fun _ => hf
  | raised i => exact h.setPhase (Fetch.sound_empty _) fun h => absurd rfl h
  | call i e r c decide resumed hi hr =>
    obtain ⟨hfetch, hpaired, hresumed⟩ := fetch_call hi
    have hs : c.fetch.Sound s.blob := hfetch ▸ h.sound i
    have hp := hpaired (h.paired i)
    -- a call is suspended, stores, or fails
    cases r with
    | suspended c' =>
      obtain ⟨hf', hp'⟩ := hresumed c'
      refine h.setPhase ?_ (hp' hr.paired)
      rw [hf']
      refine hr.sound hs fun he => ?_
      subst he
      rw [readsCoherently, hfetch] at hok
      exact of_decide_eq_true hok
    -- what is stored was compared with the etag in the same event
    | stored b =>
      cases hr with
      | @stored f u fresh hm hfresh => exact h.setStored hs hp hm hfresh u
    | failed _ =>
      obtain ⟨hs', hp'⟩ := sound_kept (h.sound i) (h.paired i)
      exact h.setPhase hs' hp'

/-- **No update is lost**: if no fetch is torn, every successful write with an etag
overwrote exactly the version and content it was computed from, and two writes
never both left the same `open` content. -/
theorem no_lost_update {s₀ t : ClientSystem κ ε} {es : List (ClientEvent κ ε)}
    (hinit : s₀.Initial)
    (hok : Guarded step (fun s e => readsCoherently s e = true) s₀ es)
    (ht : run step s₀ es = some t) :
    (∀ w ∈ t.log, w.ifMatch ≠ none → w.base = some w.replaced) ∧
      t.log.Pairwise fun w w' => w.LeavesOpen → w'.LeavesOpen → w.base ≠ w'.base := by
  have hinv : t.Inv := run_invariant inv_step hinit.inv hok ht
  refine ⟨hinv.base, ?_⟩
  refine (List.pairwise_map.mp hinv.once).imp_of_mem fun hw hw' hne h h' heq => ?_
  rw [hinv.base _ hw h.1, hinv.base _ hw' h'.1] at heq
  exact hne (congrArg Prod.fst (Option.some.inj heq))

/-! ## The torn fetch -/

/-- A session that was just created, and clients that hold nothing. -/
def fresh : ClientSystem Nat Nat where
  now := 0
  blob := { etag := 0, content := sampleSession }
  phase := fun _ => .idle {}

theorem initial_fresh : fresh.Initial := ⟨fun _ => rfl, rfl, by decide⟩

/-- Client 0 reads the content; client 1 leaves `open` for `committing`; only then
is client 0 answered the etag. -/
def tornFetch : List (ClientEvent Nat Nat) :=
  [.update 0 .committing false, .call 0 (.read .content),
    .update 1 .committing false, .call 1 (.read .metadata), .call 1 (.read .content),
    .call 1 .resume, .call 1 (.upload 1),
    .call 0 (.read .metadata), .call 0 .resume, .call 0 (.upload 2)]

/-- **The torn fetch**: client 0 replaces a `committing` session by what it computed
from the `open` one, so both clients have left the same `open` content. -/
theorem torn_fetch_loses_update :
    ¬ ∀ (es : List (ClientEvent Nat Nat)) (t : ClientSystem Nat Nat),
      run step fresh es = some t →
      (∀ w ∈ t.log, w.ifMatch ≠ none → w.base = some w.replaced) ∧
        t.log.Pairwise fun w w' => w.LeavesOpen → w'.LeavesOpen → w.base ≠ w'.base := by
  intro h
  have hlog : (run step fresh tornFetch).map (fun t => t.log.map fun w =>
      (w.ifMatch, w.base.map Prod.fst, w.replaced.1)) =
      some [(some 1, some 0, 1), (some 0, some 0, 0)] := by decide
  obtain ⟨t, ht, hlog⟩ := Option.map_eq_some_iff.mp hlog
  obtain ⟨hbase, -⟩ := h tornFetch t ht
  obtain ⟨w, ws, hw⟩ : ∃ w ws, t.log = w :: ws := by
    cases hl : t.log with
    | nil => simp [hl] at hlog
    | cons w ws => exact ⟨w, ws, rfl⟩
  rw [hw] at hlog hbase
  simp only [List.map_cons, List.cons.injEq, Prod.mk.injEq] at hlog
  obtain ⟨⟨hmatch, hversion, hreplaced⟩, -⟩ := hlog
  have := hbase w List.mem_cons_self (by simp [hmatch])
  rw [this, Option.map_some, Option.some.injEq, hreplaced] at hversion
  cases hversion

/-- With its reads the other way round client 0 is refused. -/
theorem no_lost_update_reordered :
    ∃ t, run step fresh ([.update 0 .committing false, .call 0 (.read .metadata),
        .update 1 .committing false, .call 1 (.read .metadata), .call 1 (.read .content),
        .call 1 .resume, .call 1 (.upload 1), .call 0 (.read .content), .call 0 .resume]) =
        some t ∧
      (∀ w ∈ t.log, w.ifMatch ≠ none → w.base = some w.replaced) ∧
        t.log.Pairwise fun w w' => w.LeavesOpen → w'.LeavesOpen → w.base ≠ w'.base := by
  obtain ⟨t, ht⟩ := Option.isSome_iff_exists.mp (show (run step fresh
    ([.update 0 .committing false, .call 0 (.read .metadata),
      .update 1 .committing false, .call 1 (.read .metadata), .call 1 (.read .content),
      .call 1 .resume, .call 1 (.upload 1), .call 0 (.read .content), .call 0 .resume])).isSome
    from by decide)
  exact ⟨t, ht, no_lost_update initial_fresh (guarded_of_checkRun (by decide)) ht⟩

end ClientSystem

end WellboreDdms
