import WellboreDdms.Sessions.Commits

/-!
# Acknowledged chunks and the commit

A chunk request checks that the session is `open` and only then sends its data to
the worker. One commit and any number of chunk requests share a session.

- `ChunkInv`: what the worker has is never forgotten, and once the worker has
  completed the session no chunk request holds an `open` session any more.
- `no_acknowledged_chunk_lost`: if the commit succeeds, the version it published
  aggregates every acknowledged chunk, in every run in which no chunk request is
  between its check and its write when the worker completes the session
  (`completesAlone`).
- `late_chunk_lost`: a chunk whose write falls behind the completion is
  acknowledged and in no version.
-/

namespace WellboreDdms

open Python Machine

variable {κ ε : Type}

/-- The request has read an `open` session and has not been answered. -/
def ChunkPhase.holdsOpen : ChunkPhase ε → Bool
  | .fetching f => f.content.any fun q => decide (q.2.session.state = .opened)
  | .sending => true
  | _ => false

/-- The body ended and the guard closed the session: the request succeeds. -/
def GuardPhase.succeeded : GuardPhase ε → Bool
  | .left true => true
  | _ => false

/-- A chunk is acknowledged by an answer without error. -/
theorem ChunkPhase.acknowledged_iff {c : ChunkPhase ε} :
    c.acknowledged = true ↔ c = .answered true := by
  cases c with
  | answered b => cases b <;> simp [acknowledged]
  | _ => simp [acknowledged]

/-- A guard succeeded if it was left after its body had completed. -/
theorem GuardPhase.succeeded_iff {p : GuardPhase ε} : p.succeeded = true ↔ p = .left true := by
  cases p with
  | left b => cases b <;> simp [succeeded]
  | _ => simp [succeeded]

/-- The worker has completed the session for this body, which has not failed. -/
def BodyPhase.completed : BodyPhase κ → Bool
  | .sendRecord _ => true
  | .published => true
  | _ => false

/-- The event is the completion call of the worker. -/
def ServiceEvent.completes {ι : Type} : ServiceEvent ι κ ε → Bool
  | .sessionCompleted _ => true
  | _ => false

namespace Service

/-- The commit of a session that has one. -/
abbrev oneCommit : Unit → Bool := fun _ => true

/-- The worker completes the session while no chunk request holds it open. -/
def completesAlone {ι : Type} (s : Service ι κ ε) (e : ServiceEvent ι κ ε) : Prop :=
  e.completes = true → ∀ k, (s.chunk k).holdsOpen = false

instance {ι : Type} [Fintype κ] (s : Service ι κ ε) (e : ServiceEvent ι κ ε) :
    Decidable (s.completesAlone e) :=
  inferInstanceAs (Decidable (e.completes = true → ∀ k, (s.chunk k).holdsOpen = false))

/-- The invariant of `no_acknowledged_chunk_lost`. -/
structure ChunkInv (s : Service Unit κ ε) : Prop where
  bodies : BodyOk true (s.body ()) (s.guards.phase ())
  uploads : ∀ p f u, s.guards.phase () = .updating p (.uploading f u) →
    u.session.state = p.newState true
  busy : (s.guards.phase ()).active = true → s.session.state ≠ .opened
  done : s.guards.phase () = .left true → s.body () = .published
  kept : ∀ k, s.chunk k = .answered true → k ∈ s.chunks
  past : (s.body ()).completed = true →
    s.session.state ≠ .opened ∧ ∀ k, (s.chunk k).holdsOpen = false
  aggregated : ∀ agg, s.body () = .sendRecord agg → s.chunks ⊆ agg
  published : s.body () = .published → ∃ agg, s.versions = [((), agg)] ∧ s.chunks ⊆ agg
  unpublished : s.body () ≠ .published → s.versions = []

/-- The invariant holds where nothing is stored or under way. -/
theorem Initial.chunkInv {s : Service Unit κ ε} (h : s.Initial) : s.ChunkInv := by
  obtain ⟨hguards, hbody, hchunk, hchunks, hversions⟩ := h
  have hphase := hguards ()
  have hb := hbody ()
  refine { bodies := ?_, uploads := ?_, busy := ?_, done := ?_, kept := fun k hk => ?_,
           past := ?_, aggregated := ?_, published := ?_, unpublished := fun _ => hversions }
  · rw [hphase]
    exact hb
  · simp [hphase]
  · simp [hphase, GuardPhase.active]
  · simp [hphase]
  · rw [hchunk k] at hk
    cases hk
  all_goals simp [hb, BodyPhase.completed]

variable [DecidableEq κ] [DecidableEq ε]

omit [DecidableEq κ] [DecidableEq ε] in
/-- The guard moves without writing the session. -/
theorem ChunkInv.setPhase {s : Service Unit κ ε} (h : s.ChunkInv) {p : GuardPhase ε}
    (hbody : BodyOk true (s.body ()) p)
    (hupload : ∀ q f u, p = .updating q (.uploading f u) → u.session.state = q.newState true)
    (hactive : p.active = true → (s.guards.phase ()).active = true)
    (hdone : p ≠ .left true) : (s.setGuards (s.guards.setPhase () p)).ChunkInv := by
  have hphase : (s.guards.setPhase () p).phase () = p := GuardSystem.setPhase_self ..
  refine { h with bodies := ?_, uploads := ?_, busy := ?_, done := ?_ }
  · show BodyOk true (s.body ()) ((s.guards.setPhase () p).phase ())
    rwa [hphase]
  · show ∀ q f u, (s.guards.setPhase () p).phase () = .updating q (.uploading f u) → _
    rwa [hphase]
  · show ((s.guards.setPhase () p).phase ()).active = true → s.session.state ≠ .opened
    rw [hphase]
    exact fun ha => h.busy (hactive ha)
  · show (s.guards.setPhase () p).phase () = .left true → _
    rw [hphase]
    exact fun hp => absurd hp hdone

omit [DecidableEq κ] [DecidableEq ε] in
/-- The guard stores its update: it enters, closes, or reopens after a failure. -/
theorem ChunkInv.setStored {s : Service Unit κ ε} (h : s.ChunkInv) {p : Purpose}
    {f : Fetch ε StoredSession} {u : StoredSession} {fresh : ε}
    (hi : s.guards.phase () = .updating p (.uploading f u)) :
    (s.setGuards (s.guards.setStored () p (s.guards.blob.put fresh u))).ChunkInv := by
  have hstate := h.uploads p f u hi
  have hb := h.bodies
  rw [hi] at hb
  have hphase : (s.guards.setStored () p (s.guards.blob.put fresh u)).phase () = p.next :=
    GuardSystem.setStored_self ..
  have hnext : ∀ {q : Purpose} {c : Call ε}, p.next ≠ .updating q c := by
    cases p <;> simp [Purpose.next]
  -- only a commit that has failed reopens the session
  have hopened : u.session.state = .opened → p = .exit true := by
    intro ho
    rw [hstate] at ho
    cases p with
    | enter => cases ho
    | exit failed => cases failed <;> simp_all [Purpose.newState]
  refine { h with bodies := ?_, uploads := ?_, busy := ?_, done := ?_, past := ?_ }
  · show BodyOk true (s.body ()) ((s.guards.setStored () p (s.guards.blob.put fresh u)).phase ())
    rw [hphase]
    cases p <;> trivial
  · show ∀ q g v, (s.guards.setStored () p (s.guards.blob.put fresh u)).phase () =
      .updating q (.uploading g v) → _
    rw [hphase]
    exact fun q g v hp => absurd hp hnext
  · show ((s.guards.setStored () p (s.guards.blob.put fresh u)).phase ()).active = true →
      u.session.state ≠ .opened
    rw [hphase]
    intro ha ho
    rw [hopened ho] at ha
    cases ha
  · show (s.guards.setStored () p (s.guards.blob.put fresh u)).phase () = .left true → _
    rw [hphase]
    intro hp
    cases p with
    | enter => cases hp
    | exit failed =>
      cases failed with
      | true => cases hp
      | false => exact hb rfl
  · intro hc
    refine ⟨fun ho => ?_, (h.past hc).2⟩
    obtain rfl := hopened ho
    have hraised : s.body () = .raised := hb.2
    have hc : (s.body ()).completed = true := hc
    rw [hraised] at hc
    cases hc

omit [DecidableEq κ] in
/-- **One event of a guard** keeps the invariant. -/
theorem ChunkInv.guard_step {s : Service Unit κ ε} {e : GuardEvent Unit ε}
    {g : GuardSystem Unit ε} (h : s.ChunkInv) (hb : s.allows oneCommit e = true)
    (hg : s.guards.step oneCommit e = some g) : (s.setGuards g).ChunkInv := by
  cases GuardSystem.step_spec hg with
  | tick d => exact { h with }
  | enter i hi =>
    -- a guard is entered with its body at the start
    have hbi := h.bodies
    rw [hi] at hbi
    exact h.setPhase hbi (by simp) (by simp [GuardPhase.active]) (by simp)
  | leave i failed hi =>
    exact h.setPhase (bodyOk_of_mayLeave hb) (by simp) (fun _ => by rw [hi]; rfl) (by simp)
  | call i p c ce r hi hr =>
    have hbi := h.bodies
    rw [hi] at hbi
    cases r with
    | suspended c' =>
      refine h.setPhase ?_ ?_ (fun ha => ?_) (by simp)
      -- a body that has ended stays so while its exit is under way
      · cases p with
        | enter => exact hbi
        | exit failed => cases failed <;> exact hbi
      · rintro q f u hq
        cases hq
        cases hr with
        | resumed hu =>
          -- what is to be stored was decided on what was read
          obtain ⟨-, rfl⟩ := updatedSession_eq_ok_iff.mp hu
          rfl
      · rw [hi]
        cases p with
        | enter => exact ha
        | exit failed => exact ha
    | failed err => exact h.setPhase trivial (by simp) (by simp [GuardPhase.active]) (by simp)
    | stored b =>
      cases hr with
      | stored hm hfresh => exact h.setStored hi

omit [DecidableEq κ] [DecidableEq ε] in
/-- The body of the commit, which is inside its guard, moves to `b`. -/
theorem ChunkInv.setBody {s : Service Unit κ ε} (h : s.ChunkInv)
    (hi : s.guards.phase () = .inside) {b : BodyPhase κ} {vs : List (Unit × List κ)}
    (hpast : b.completed = true → ∀ k, (s.chunk k).holdsOpen = false)
    (haggregated : ∀ agg, b = .sendRecord agg → s.chunks ⊆ agg)
    (hpublished : b = .published → ∃ agg, vs = [((), agg)] ∧ s.chunks ⊆ agg)
    (hunpublished : b ≠ .published → vs = []) :
    ({ s.setBody () b with versions := vs } : Service Unit κ ε).ChunkInv := by
  have hbody : (s.setBody () b).body () = b :=
    (Function.update_apply s.body () b ()).trans (if_pos rfl)
  have hopen : s.session.state ≠ .opened := h.busy (by rw [hi]; rfl)
  refine { h with bodies := ?_, done := ?_, past := ?_, aggregated := ?_, published := ?_,
                  unpublished := ?_ }
  · show BodyOk true _ (s.guards.phase ())
    rw [hi]
    trivial
  · show s.guards.phase () = .left true → _
    rw [hi]
    exact nofun
  all_goals
    simp only
    rw [hbody]
  · exact fun hc => ⟨hopen, hpast hc⟩
  · exact haggregated
  · exact hpublished
  · exact hunpublished

omit [DecidableEq ε] in
/-- Chunk request `k` moves to `c`; the worker has `cs` by then. -/
theorem ChunkInv.setChunk {s : Service Unit κ ε} (h : s.ChunkInv) {k : κ} {c : ChunkPhase ε}
    {cs : List κ} (hkept : c = .answered true → k ∈ cs) (hcs : s.chunks ⊆ cs)
    (hpast : (s.body ()).completed = true → c.holdsOpen = false ∧ cs = s.chunks) :
    ({ s.setChunk k c with chunks := cs } : Service Unit κ ε).ChunkInv := by
  have hchunk : ∀ j, (s.setChunk k c).chunk j = if j = k then c else s.chunk j :=
    fun j => Function.update_apply s.chunk k c j
  have hsame : (s.body ()).completed = true → cs = s.chunks := fun hc => (hpast hc).2
  refine { h with kept := fun j hj => ?_, past := fun hc => ⟨(h.past hc).1, fun j => ?_⟩,
                  aggregated := fun agg hb => ?_, published := fun hb => ?_ }
  · have hj : (s.setChunk k c).chunk j = .answered true := hj
    rw [hchunk] at hj
    split at hj
    · rename_i hjk
      rw [hjk]
      exact hkept hj
    · exact hcs (h.kept j hj)
  · show ((s.setChunk k c).chunk j).holdsOpen = false
    rw [hchunk]
    split
    · exact (hpast hc).1
    · exact (h.past hc).2 j
  · have hb : s.body () = .sendRecord agg := hb
    show cs ⊆ agg
    rw [hsame (by rw [hb]; rfl)]
    exact h.aggregated agg hb
  · have hb : s.body () = .published := hb
    show ∃ agg, s.versions = [((), agg)] ∧ cs ⊆ agg
    rw [hsame (by rw [hb]; rfl)]
    exact h.published hb

/-- **One event** that lets the commit complete alone keeps the invariant. -/
theorem chunkInv_step {s t : Service Unit κ ε} {e : ServiceEvent Unit κ ε} (h : s.ChunkInv)
    (hok : s.completesAlone e) (hstep : step oneCommit s e = some t) : t.ChunkInv := by
  have hinside : ∀ {i}, s.running oneCommit i = true → s.guards.phase () = .inside :=
    fun hr => (running_iff.mp hr).2
  cases step_spec hstep with
  | guard e g hb hg => exact h.guard_step hb hg
  | recordFetched i hr hb =>
    have hnil := h.unpublished (by simp [hb])
    exact h.setBody (hinside hr) nofun nofun nofun fun _ => hnil
  | sessionCompleted i hr hb =>
    -- the only step at which the condition on the run is needed
    have hnil := h.unpublished (by simp [hb])
    refine h.setBody (hinside hr) (fun _ => hok rfl) ?_ nofun fun _ => hnil
    rintro agg hagg
    cases hagg
    exact List.Subset.refl _
  | recordSent i aggregated hr hb =>
    have hpast := h.past (by rw [hb]; rfl)
    have hnil := h.unpublished (by simp [hb])
    refine h.setBody (hinside hr) (fun _ => hpast.2) nofun (fun _ => ?_) fun hne => absurd rfl hne
    exact ⟨aggregated, by rw [hnil], h.aggregated aggregated hb⟩
  | bodyRaised i hr hb =>
    exact h.setBody (hinside hr) nofun nofun nofun fun _ => h.unpublished hb
  | posted k hk => exact h.setChunk nofun (List.Subset.refl _) fun _ => ⟨rfl, rfl⟩
  | chunkRead k r f f' hk hread =>
    refine h.setChunk nofun (List.Subset.refl _) fun hc => ⟨?_, rfl⟩
    obtain ⟨hopen, hheld⟩ := h.past hc
    have hf := hheld k
    rw [hk] at hf
    cases r with
    | metadata =>
      obtain ⟨-, hread⟩ := Option.ite_none_right_eq_some.mp hread
      cases hread
      exact hf
    | content =>
      obtain ⟨-, hread⟩ := Option.ite_none_right_eq_some.mp hread
      cases hread
      exact decide_eq_false hopen
  | chunkAccepted k f q hk hq ho =>
    -- once the worker has completed the session, no request holds an `open` copy of it
    refine h.setChunk nofun (List.Subset.refl _) fun hc => ?_
    have hf := (h.past hc).2 k
    rw [hk] at hf
    simp [ChunkPhase.holdsOpen, hq, ho] at hf
  | chunkRefused k f hk _ => exact h.setChunk nofun (List.Subset.refl _) fun _ => ⟨rfl, rfl⟩
  | chunkWritten k hk =>
    refine h.setChunk (fun _ => List.mem_cons_self) (List.subset_cons_self _ _) fun hc => ?_
    have hf := (h.past hc).2 k
    rw [hk] at hf
    cases hf
  | chunkRaised k => exact h.setChunk nofun (List.Subset.refl _) fun _ => ⟨rfl, rfl⟩

/-- **No acknowledged chunk is lost**: with one commit and any number of chunk
requests, if the worker completes the session while no chunk request is between
its check and its write, a commit that succeeds has published one version, and it
aggregates every acknowledged chunk. -/
theorem no_acknowledged_chunk_lost {s₀ t : Service Unit κ ε} {es : List (ServiceEvent Unit κ ε)}
    (hinit : s₀.Initial) (hok : Guarded (step oneCommit) completesAlone s₀ es)
    (ht : run (step oneCommit) s₀ es = some t)
    (hdone : (t.guards.phase ()).succeeded = true) :
    ∃ agg, t.versions = [((), agg)] ∧ ∀ k, (t.chunk k).acknowledged = true → k ∈ agg := by
  have hinv := run_invariant chunkInv_step hinit.chunkInv hok ht
  obtain ⟨agg, hversions, hsub⟩ := hinv.published (hinv.done (GuardPhase.succeeded_iff.mp hdone))
  exact ⟨agg, hversions, fun k hk => hsub (hinv.kept k (ChunkPhase.acknowledged_iff.mp hk))⟩

/-! ## The late chunk -/

/-- Chunk request `k` reads the session, and goes on if it is `open`. -/
def checkChunk {ι κ : Type} (k : κ) : List (ServiceEvent ι κ Nat) :=
  [.posted k, .chunkRead k .content, .chunkRead k .metadata, .chunkChecked k]

/-- Chunk 0 is written before the commit, chunk 1 has passed its check by then. -/
def commitMeanwhile : List (ServiceEvent Unit (Fin 2) Nat) :=
  let first : Fin 2 := ⟨0, Nat.zero_lt_two⟩
  let second : Fin 2 := ⟨1, Nat.one_lt_two⟩
  checkChunk first ++ .chunkWritten first :: checkChunk second ++ commitUntilSent () 1 ++
    sendAndClose () 2

/-- **The late chunk**: it is written after the commit has been answered, and
acknowledged; the version published aggregates the other chunk only. -/
theorem late_chunk_lost :
    ¬ ∀ (es : List (ServiceEvent Unit (Fin 2) Nat)) (t : Service Unit (Fin 2) Nat),
      run (step oneCommit) (fresh _ _) es = some t → (t.guards.phase ()).succeeded = true →
      ∃ agg, t.versions = [((), agg)] ∧ ∀ k, (t.chunk k).acknowledged = true → k ∈ agg := by
  intro h
  have hend : (run (step oneCommit) (fresh _ _) (commitMeanwhile ++ [.chunkWritten 1])).map
      (fun t => ((t.guards.phase ()).succeeded, (t.chunk 1).acknowledged, t.versions)) =
      some (true, true, [((), [0])]) := by decide
  obtain ⟨t, ht, hend⟩ := Option.map_eq_some_iff.mp hend
  simp only [Prod.mk.injEq] at hend
  obtain ⟨hsucceeded, hchunk, hversions⟩ := hend
  obtain ⟨agg, hagg, hall⟩ := h _ t ht hsucceeded
  have hone : (1 : Fin 2) ∈ agg := hall 1 hchunk
  rw [hversions] at hagg
  cases hagg
  simp at hone

/-- Nothing is lost when chunk 1 is refused instead: its check comes after the
commit has entered. -/
theorem no_acknowledged_chunk_lost_in_order :
    ∃ t agg, run (step oneCommit) (fresh Unit (Fin 2))
        (checkChunk 0 ++ .chunkWritten 0 :: commitUntilSent () 1 ++ checkChunk 1 ++
          sendAndClose () 2) = some t ∧
      t.versions = [((), agg)] ∧ ∀ k, (t.chunk k).acknowledged = true → k ∈ agg := by
  have hend : (run (step oneCommit) (fresh Unit (Fin 2))
      (checkChunk 0 ++ .chunkWritten 0 :: commitUntilSent () 1 ++ checkChunk 1 ++
        sendAndClose () 2)).map (fun t => (t.guards.phase ()).succeeded) = some true := by decide
  obtain ⟨t, ht, hsucceeded⟩ := Option.map_eq_some_iff.mp hend
  obtain ⟨agg, hversions, hall⟩ := no_acknowledged_chunk_lost (initial_fresh _ _)
    (guarded_of_checkRun (by decide)) ht hsucceeded
  exact ⟨t, agg, ht, hversions, hall⟩

end Service

end WellboreDdms
