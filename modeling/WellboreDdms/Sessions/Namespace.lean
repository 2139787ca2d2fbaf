import Mathlib.Data.List.Nodup
import WellboreDdms.Machine.Blob
import WellboreDdms.Machine.History
import WellboreDdms.Machine.Run
import WellboreDdms.Records.Record
import WellboreDdms.Sessions.Storage

/-!
# The namespace of sessions

All sessions of all records of a tenant are blobs under one flat namespace of names. Any number
of operations of `SessionsStorage` run at a time, and each is interrupted at its requests to the
storage.

- `buildSessionCompleteName`: the name of a session; `nameOf_inj`, `isPrefixOf_nameOf_iff`: no
  two sessions share one, and the names that begin like those of a record are those of its
  sessions.
- `SessionsSystem`, `SessionsEvent`, `step`: the objects, the operations under way and what has
  been created and deleted; `Change` lists what a step does to the objects.
- `Named`: the invariant. The object under the name of a session holds that session.
- `isolated_of_run`: what is read is what was created, and no operation touches the sessions of
  others.
-/

namespace WellboreDdms

open Python Machine

variable {ι ε : Type}

/-- The id of a record and of a session of it. -/
abbrev SessionKey := String × UUID

/-- The record and the id of a stored session. -/
def StoredSession.key (c : StoredSession) : SessionKey := (c.session.recordId, c.session.id)

namespace SessionsStorage

/-- The name of a session's blob. -/
def buildSessionCompleteName (recordId sessionId : String) : String :=
  "sessions/" ++ recordId ++ "/" ++ sessionId

/-- The name of the blob of a key. -/
def nameOf (k : SessionKey) : String := buildSessionCompleteName k.1 k.2.text

/-- The objects of the storage. What is no session has no content here. -/
abbrev Objects (ε : Type) := Dict String (Blob ε (Option StoredSession))

/-- `_get_session`, when nothing comes between its two reads. -/
def getSession (objects : Objects ε) (k : SessionKey) : Except Raised (ε × StoredSession) :=
  match Dict.get objects (nameOf k) with
  | none => .error (.session .notFound)
  | some blob =>
    match blob.content with
    | some c => .ok (blob.etag, c)
    | none => .error (.other "ValidationError")

/-- The names that begin with `start`. -/
def listObjects (objects : Objects ε) (start : String) : List String :=
  (objects.map Prod.fst).filter fun name => start.toList.isPrefixOf name.toList

/-- The ids of the sessions of a record, from the names of their blobs. -/
def listSessions (objects : Objects ε) (recordId : String) : List String :=
  (listObjects objects (buildSessionCompleteName recordId "")).map lastPart

/-- The upload of a session; `none` is the `PreconditionFailedException`. -/
def upload [DecidableEq ε] (objects : Objects ε) (content : StoredSession) (ifMatch : Option ε)
    (fresh : ε) : Option (Objects ε) :=
  let name := nameOf content.key
  match Dict.get objects name with
  | none =>
    if ifMatch.isNone then some (Dict.set objects name { etag := fresh, content := some content })
    else none
  | some blob =>
    if ∀ e ∈ ifMatch, e = blob.etag then
      some (Dict.set objects name (blob.put fresh (some content)))
    else none

/-! ## Names -/

/-- A record id without slashes. -/
def Plain (recordId : String) : Prop := '/' ∉ recordId.toList

instance (recordId : String) : Decidable (Plain recordId) := inferInstanceAs (Decidable (¬ _))

theorem toList_nameOf (k : SessionKey) :
    (nameOf k).toList = "sessions/".toList ++ (k.1.toList ++ '/' :: k.2.chars) := by
  have hslash : "/".toList = ['/'] := by decide
  simp only [nameOf, buildSessionCompleteName, String.toList_append, UUID.toList_text, hslash,
    List.append_assoc, List.singleton_append]

/-- The characters of the start of the names of a record. -/
theorem toList_start (recordId : String) : (buildSessionCompleteName recordId "").toList =
    "sessions/".toList ++ (recordId.toList ++ ['/']) := by
  have hslash : "/".toList = ['/'] := by decide
  have hempty : "".toList = [] := by decide
  simp only [buildSessionCompleteName, String.toList_append, hslash, hempty, List.append_assoc,
    List.append_nil]

/-- **No two sessions share a name**. -/
theorem nameOf_inj {j k : SessionKey} (hk : Plain k.1) (h : nameOf j = nameOf k) : j = k := by
  have hlist := congrArg String.toList h
  rw [toList_nameOf, toList_nameOf, List.append_cancel_left_eq] at hlist
  obtain ⟨hrecord, -, hid⟩ :=
    (List.append_cons_inj_of_notMem hk k.2.slash_not_mem_chars).mp hlist.symm
  have htext : k.2.text = j.2.text := congrArg String.ofList hid
  exact (Prod.ext (String.toList_inj.mp hrecord) (UUID.text_injective htext)).symm

/-- Different sessions have blobs of different names. -/
theorem nameOf_ne {j k : SessionKey} (hk : Plain k.1) (h : j ≠ k) : nameOf j ≠ nameOf k :=
  fun heq => h (nameOf_inj hk heq)

/-- **The sessions of a record** are those whose names begin as its names do. -/
theorem isPrefixOf_nameOf_iff {k : SessionKey} {recordId : String} (hk : Plain k.1) :
    (buildSessionCompleteName recordId "").toList.isPrefixOf (nameOf k).toList = true ↔
      k.1 = recordId := by
  rw [List.isPrefixOf_iff_prefix, toList_start, toList_nameOf, List.prefix_append_right_inj]
  constructor
  · rintro ⟨rest, hrest⟩
    rw [List.append_assoc] at hrest
    obtain ⟨hrecord, -⟩ :=
      (List.append_cons_inj_of_notMem hk k.2.slash_not_mem_chars).mp hrest.symm
    exact String.toList_inj.mp hrecord
  · rintro rfl
    exact ⟨k.2.chars, by simp⟩

theorem nameOf_begins (k : SessionKey) : "sessions/".toList <+: (nameOf k).toList := by
  rw [toList_nameOf]
  exact List.prefix_append _ _

/-- Whatever a list of names begins with here, it begins with the folder of the sessions. -/
theorem start_begins (recordId : String) :
    "sessions/".toList <+: (buildSessionCompleteName recordId "").toList := by
  rw [toList_start]
  exact List.prefix_append _ _

@[simp] theorem lastPart_nameOf (k : SessionKey) : lastPart (nameOf k) = k.2.text := by
  have hname : (nameOf k).toList = ("sessions/".toList ++ k.1.toList) ++ '/' :: k.2.chars := by
    rw [toList_nameOf, List.append_assoc]
  exact lastPart_of_slash hname k.2.slash_not_mem_chars

end SessionsStorage

open SessionsStorage

/-! ## Operations -/

/-- What a fetch is for: a state update, as a completion makes two of them, or a deletion. -/
inductive SessionOp where
  | updateState (newState : SessionState) (forceUpdate : Bool)
  | delete (forceDelete : Bool)

/-- An operation at one of its requests, on the session it was called for. -/
inductive Operation (ε : Type) where
  | idle
  | fetching (k : SessionKey) (op : SessionOp) (f : Fetch ε (Option StoredSession))
  | storing (k : SessionKey) (content : StoredSession) (etag : Option ε)
  | removing (k : SessionKey)

namespace Operation

/-- The session an operation was called for. -/
def key : Operation ε → Option SessionKey
  | .idle => none
  | .fetching k _ _ => some k
  | .storing k _ _ => some k
  | .removing k => some k

/-- The code between the reads and the next request. -/
def resumed (now : DateTime) (k : SessionKey) (op : SessionOp) (etag : ε) :
    Option StoredSession → Operation ε
  | none => .idle
  | some c =>
    match op with
    | .updateState newState forceUpdate =>
      match updatedSession now c newState forceUpdate with
      | .ok updated => .storing k updated (some etag)
      | .error _ => .idle
    | .delete forceDelete => if !c.session.isClosed && !forceDelete then .idle else .removing k

end Operation

/-- `log` is no part of the service: the sessions stored without an etag, which creates them, and
the sessions deleted. -/
structure SessionsSystem (ι ε : Type) where
  now : DateTime
  objects : Objects ε
  operation : ι → Operation ε
  log : List (Entry SessionKey Unit)

/-- What can happen next: an operation is called, or one of its requests is answered. -/
inductive SessionsEvent (ι ε : Type) where
  | tick (d : Nat)
  | createSession (i : ι) (n : NewSession)
  | updateSession (i : ι) (content : StoredSession) (etag : Option ε)
  | fetch (i : ι) (k : SessionKey) (op : SessionOp)
  | read (i : ι) (r : Read)
  | resume (i : ι)
  | upload (i : ι) (fresh : ε)
  | remove (i : ι)
  | raised (i : ι)

namespace SessionsEvent

/-- The ids of records it is called with have no slashes. -/
def Plain : SessionsEvent ι ε → Prop
  | .createSession _ n => SessionsStorage.Plain n.recordId
  | .updateSession _ content _ => SessionsStorage.Plain content.session.recordId
  | .fetch _ k _ => SessionsStorage.Plain k.1
  | _ => True

instance : (e : SessionsEvent ι ε) → Decidable e.Plain
  | .tick _ => inferInstanceAs (Decidable True)
  | .createSession _ n => inferInstanceAs (Decidable (SessionsStorage.Plain n.recordId))
  | .updateSession _ content _ =>
    inferInstanceAs (Decidable (SessionsStorage.Plain content.session.recordId))
  | .fetch _ k _ => inferInstanceAs (Decidable (SessionsStorage.Plain k.1))
  | .read _ _ => inferInstanceAs (Decidable True)
  | .resume _ => inferInstanceAs (Decidable True)
  | .upload _ _ => inferInstanceAs (Decidable True)
  | .remove _ => inferInstanceAs (Decidable True)
  | .raised _ => inferInstanceAs (Decidable True)

/-- The caller of the operation. -/
def caller : SessionsEvent ι ε → Option ι
  | .tick _ => none
  | .createSession i _ => some i
  | .updateSession i _ _ => some i
  | .fetch i _ _ => some i
  | .read i _ => some i
  | .resume i => some i
  | .upload i _ => some i
  | .remove i => some i
  | .raised i => some i

end SessionsEvent

namespace SessionsSystem

section

variable [DecidableEq ι] [DecidableEq ε]

/-- The request goes on to its next operation. -/
def setOperation (s : SessionsSystem ι ε) (i : ι) (operation : Operation ε) :
    SessionsSystem ι ε :=
  { s with operation := Function.update s.operation i operation }

/-- A new operation of a caller that has none under way. -/
def call (s : SessionsSystem ι ε) (i : ι) (operation : Operation ε) :
    Option (SessionsSystem ι ε) :=
  match s.operation i with
  | .idle => some (s.setOperation i operation)
  | _ => none

/-- A request calls one operation of the storage, and goes on with it. -/
def step (s : SessionsSystem ι ε) : SessionsEvent ι ε → Option (SessionsSystem ι ε)
  | .tick d => some { s with now := s.now + d }
  | .createSession i n => s.call i (.storing (n.recordId, n.id) (n.stored s.now) none)
  | .updateSession i content etag =>
    s.call i (.storing content.key (if etag.isSome then content.stamped s.now else content) etag)
  | .fetch i k op => s.call i (.fetching k op {})
  | .read i r =>
    match s.operation i with
    | .fetching k op f =>
      match Dict.get s.objects (nameOf k) with
      -- `ResourceNotFoundException`, raised again as `SessionNotFound`
      | none => some (s.setOperation i .idle)
      | some blob => (f.read blob r).map fun f => s.setOperation i (.fetching k op f)
    | _ => none
  | .resume i =>
    match s.operation i with
    | .fetching k op ⟨some etag, some q⟩ =>
      some (s.setOperation i (.resumed s.now k op etag q.2))
    | _ => none
  | .upload i fresh =>
    match s.operation i with
    | .storing k content etag =>
      match upload s.objects content etag fresh with
      | some objects =>
        some { s.setOperation i .idle with
          objects := objects
          log := if etag.isNone then s.log ++ [.wrote k ()] else s.log }
      | none => some (s.setOperation i .idle)
    | _ => none
  | .remove i =>
    match s.operation i with
    | .removing k =>
      if (Dict.get s.objects (nameOf k)).isSome then
        some { s.setOperation i .idle with
          objects := Dict.erase s.objects (nameOf k)
          log := s.log ++ [.deleted k] }
      else some (s.setOperation i .idle)
    | _ => none
  | .raised i =>
    match s.operation i with
    | .idle => none
    | _ => some (s.setOperation i .idle)

end

/-- No session is stored, and nothing has happened yet. Other objects may be there. -/
structure Initial (s : SessionsSystem ι ε) : Prop where
  nodup : (s.objects.map Prod.fst).Nodup
  others : ∀ name ∈ s.objects.map Prod.fst, ¬ "sessions/".toList <+: name.toList
  operation : ∀ i, s.operation i = .idle
  log : s.log = []

/-! ## One step -/

/-- The session of the operation whose request an event answers. -/
def about (s : SessionsSystem ι ε) (e : SessionsEvent ι ε) : Option SessionKey :=
  e.caller.bind fun i => (s.operation i).key

/-- What a step does to the objects, for an operation on `k`. -/
inductive Change (s t : SessionsSystem ι ε) : Option SessionKey → Prop
  | quiet {about : Option SessionKey} (hobjects : t.objects = s.objects) (hlog : t.log = s.log) :
    Change s t about
  | stored {k : SessionKey} {blob : Blob ε (Option StoredSession)} {c : StoredSession}
    (hplain : Plain k.1) (hcontent : blob.content = some c) (hkey : c.key = k)
    (hobjects : t.objects = Dict.set s.objects (nameOf k) blob)
    (hlog : t.log = s.log ++ [.wrote k ()] ∨
      t.log = s.log ∧ (Dict.get s.objects (nameOf k)).isSome) :
    Change s t (some k)
  | deleted {k : SessionKey} (hplain : Plain k.1)
    (hobjects : t.objects = Dict.erase s.objects (nameOf k))
    (hlog : t.log = s.log ++ [.deleted k]) : Change s t (some k)

/-- An operation holds and stores the session it was called for. -/
def OperationOk : Operation ε → Prop
  | .idle => True
  | .fetching k _ f => Plain k.1 ∧ ∀ q ∈ f.content, ∀ c ∈ q.2, c.key = k
  | .storing k content _ => Plain k.1 ∧ content.key = k
  | .removing k => Plain k.1

/-- **The invariant**: under the name of a session there is this session, and it is there if it
was created and not deleted since. -/
structure Named (s : SessionsSystem ι ε) : Prop where
  nodup : (s.objects.map Prod.fst).Nodup
  named : ∀ name blob, Dict.get s.objects name = some blob →
    "sessions/".toList <+: name.toList →
      ∃ k c, Plain k.1 ∧ name = nameOf k ∧ blob.content = some c ∧ c.key = k
  live : ∀ k, Plain k.1 →
    ((Dict.get s.objects (nameOf k)).isSome = true ↔ since k s.log ≠ [])
  operation : ∀ i, OperationOk (s.operation i)

theorem Initial.named {s : SessionsSystem ι ε} (h : s.Initial) : s.Named where
  nodup := h.nodup
  named := fun name blob hget hstart =>
    absurd hstart (h.others name (List.mem_map_of_mem (Dict.mem_of_get hget)))
  live := by
    intro k _
    have hnone : Dict.get s.objects (nameOf k) = none :=
      Dict.get_eq_none fun hmem => h.others _ hmem (nameOf_begins k)
    rw [hnone, h.log, since_nil]
    exact iff_of_false nofun fun hne => hne rfl
  operation := by
    intro i
    rw [h.operation i]
    trivial

section

variable {s t : SessionsSystem ι ε} {i : ι} {e : SessionsEvent ι ε}

/-- What an upload has stored. -/
theorem upload_spec [DecidableEq ε] {objects objects' : Objects ε} {content : StoredSession}
    {ifMatch : Option ε} {fresh : ε} (h : upload objects content ifMatch fresh = some objects') :
    (∃ blob : Blob ε (Option StoredSession), blob.content = some content ∧
      objects' = Dict.set objects (nameOf content.key) blob) ∧
      (ifMatch = none ∨ (Dict.get objects (nameOf content.key)).isSome) := by
  simp only [upload] at h
  split at h
  · obtain ⟨hnone, h⟩ := Option.ite_none_right_eq_some.mp h
    cases h
    exact ⟨⟨_, rfl, rfl⟩, Or.inl (Option.isNone_iff_eq_none.mp hnone)⟩
  · rename_i blob hblob
    obtain ⟨-, h⟩ := Option.ite_none_right_eq_some.mp h
    cases h
    exact ⟨⟨_, rfl, rfl⟩, Or.inr (by rw [hblob]; rfl)⟩

/-- What a fetch holds was read from the blob. -/
theorem content_of_read [DecidableEq ε] {b : Blob ε (Option StoredSession)}
    {f f' : Fetch ε (Option StoredSession)} {r : Read} (h : f.read b r = some f') :
    ∀ q ∈ f'.content, q ∈ f.content ∨ q.2 = b.content := by
  cases r with
  | metadata =>
    obtain ⟨-, h⟩ := Option.ite_none_right_eq_some.mp h
    cases h
    exact fun q hq => Or.inl hq
  | content =>
    obtain ⟨-, h⟩ := Option.ite_none_right_eq_some.mp h
    cases h
    rintro q hq
    cases hq
    exact Or.inr rfl

/-- The session under a name is the one of that name. -/
theorem Named.key_eq (h : s.Named) {k : SessionKey} {blob : Blob ε (Option StoredSession)}
    {c : StoredSession}
    (hget : Dict.get s.objects (nameOf k) = some blob) (hc : blob.content = some c) :
    c.key = k := by
  obtain ⟨j, c', hj, hname, hcontent, hkey⟩ := h.named _ _ hget (nameOf_begins k)
  rw [hc] at hcontent
  cases hcontent
  exact hkey.trans (nameOf_inj hj hname).symm

/-- What a resumed operation writes is the session that it was called for. -/
theorem resumed_ok {now : DateTime} {k : SessionKey} {op : SessionOp} {etag : ε}
    {content : Option StoredSession} (hk : Plain k.1) (hcontent : ∀ c ∈ content, c.key = k) :
    OperationOk (Operation.resumed now k op etag content) := by
  cases content with
  | none => trivial
  | some c =>
    cases op with
    | updateState newState forceUpdate =>
      simp only [Operation.resumed]
      split
      · rename_i updated hupdated
        obtain ⟨-, rfl⟩ := updatedSession_eq_ok_iff.mp hupdated
        exact ⟨hk, hcontent c rfl⟩
      · trivial
    | delete forceDelete =>
      simp only [Operation.resumed]
      split
      · trivial
      · exact hk

end

section

variable [DecidableEq ι] {s t : SessionsSystem ι ε} {i : ι}

theorem call_spec {operation : Operation ε} (h : s.call i operation = some t) :
    s.operation i = .idle ∧ t = s.setOperation i operation := by
  unfold call at h
  split at h
  · cases h
    exact ⟨‹_›, rfl⟩
  · cases h

/-- The operations of the other requests stay. -/
theorem operation_setOperation (h : ∀ j, OperationOk (s.operation j)) {operation : Operation ε}
    (hok : OperationOk operation) (j : ι) :
    OperationOk ((s.setOperation i operation).operation j) := by
  by_cases hj : j = i
  · subst hj
    simp only [setOperation, Function.update_self]
    exact hok
  · simp only [setOperation, Function.update_of_ne hj]
    exact h j

end

section

variable [DecidableEq ι] [DecidableEq ε] {s t : SessionsSystem ι ε} {e : SessionsEvent ι ε}

/-- What a step is: time passes, an operation goes on or ends, or the answer to its request
changes the objects. -/
inductive Stepped (s : SessionsSystem ι ε) (e : SessionsEvent ι ε) : SessionsSystem ι ε → Prop
  | tick (now : DateTime) : Stepped s e { s with now := now }
  | goesOn (i : ι) (operation : Operation ε)
    (hok : s.Named → e.Plain → OperationOk operation) : Stepped s e (s.setOperation i operation)
  | stored {i : ι} {k : SessionKey} {content : StoredSession} {etag : Option ε} {fresh : ε}
    {objects : Objects ε} (hoperation : s.operation i = .storing k content etag)
    (habout : s.about e = some k) (hupload : upload s.objects content etag fresh = some objects) :
    Stepped s e { s.setOperation i .idle with
      objects := objects
      log := if etag.isNone then s.log ++ [.wrote k ()] else s.log }
  | deleted {i : ι} {k : SessionKey} (hoperation : s.operation i = .removing k)
    (habout : s.about e = some k) :
    Stepped s e { s.setOperation i .idle with
      objects := Dict.erase s.objects (nameOf k)
      log := s.log ++ [.deleted k] }

/-- An operation that ends. -/
theorem Stepped.idle (i : ι) : Stepped s e (s.setOperation i .idle) :=
  .goesOn i .idle fun _ _ => trivial

theorem step_cases (hstep : step s e = some t) : Stepped s e t := by
  cases e with
  | tick d =>
    cases hstep
    exact .tick _
  | createSession i n =>
    obtain ⟨-, rfl⟩ := call_spec hstep
    exact .goesOn i _ fun _ hplain => ⟨hplain, rfl⟩
  | updateSession i content etag =>
    obtain ⟨-, rfl⟩ := call_spec hstep
    refine .goesOn i _ fun _ hplain => ⟨hplain, ?_⟩
    split <;> rfl
  | fetch i k op =>
    obtain ⟨-, rfl⟩ := call_spec hstep
    exact .goesOn i _ fun _ hplain => ⟨hplain, nofun⟩
  | read i r =>
    simp only [step] at hstep
    split at hstep
    · rename_i k op f hoperation
      split at hstep
      · cases hstep
        exact .idle i
      · rename_i blob hget
        obtain ⟨f', hread, rfl⟩ := Option.map_eq_some_iff.mp hstep
        -- what was read so far is of the key that it was read under
        refine .goesOn i _ fun h _ => ?_
        have hok := h.operation i
        rw [hoperation] at hok
        refine ⟨hok.1, fun q hq c hc => ?_⟩
        rcases content_of_read hread q hq with hold | hblob
        · exact hok.2 q hold c hc
        · rw [hblob] at hc
          exact h.key_eq hget hc
    · cases hstep
  | resume i =>
    simp only [step] at hstep
    split at hstep
    · rename_i k op etag q hoperation
      cases hstep
      refine .goesOn i _ fun h _ => ?_
      have hok := h.operation i
      rw [hoperation] at hok
      -- the operation writes only what it has read under its own key
      exact resumed_ok hok.1 (hok.2 q rfl)
    · cases hstep
  | upload i fresh =>
    simp only [step] at hstep
    split at hstep
    · rename_i k content etag hoperation
      split at hstep
      · rename_i objects hupload
        cases hstep
        -- only an upload and a removal change what is stored
        refine .stored hoperation ?_ hupload
        simp [about, SessionsEvent.caller, hoperation, Operation.key]
      · cases hstep
        exact .idle i
    · cases hstep
  | remove i =>
    simp only [step] at hstep
    split at hstep
    · rename_i k hoperation
      split at hstep
      · cases hstep
        refine .deleted hoperation ?_
        simp [about, SessionsEvent.caller, hoperation, Operation.key]
      · cases hstep
        exact .idle i
    · cases hstep
  | raised i =>
    simp only [step] at hstep
    split at hstep
    · cases hstep
    · cases hstep
      exact .idle i

/-- **Of a step**: what it does to the objects it does under the name of its own session. -/
theorem change_of_step (h : s.Named) (hstep : step s e = some t) : Change s t (s.about e) := by
  cases step_cases hstep with
  | tick now => exact .quiet rfl rfl
  | goesOn i operation _ => exact .quiet rfl rfl
  | @stored i k content etag fresh objects hoperation habout hupload =>
    obtain ⟨hplain, hkey⟩ : Plain k.1 ∧ content.key = k := by
      have hok := h.operation i
      rwa [hoperation] at hok
    obtain ⟨⟨blob, hcontent, hobjects⟩, hcases⟩ := upload_spec hupload
    rw [hkey] at hobjects hcases
    rw [habout]
    refine .stored hplain hcontent hkey hobjects ?_
    cases etag with
    | none => exact Or.inl rfl
    | some etag => exact Or.inr ⟨rfl, hcases.resolve_left nofun⟩
  | @deleted i k hoperation habout =>
    have hplain : Plain k.1 := by
      have hok := h.operation i
      rwa [hoperation] at hok
    rw [habout]
    exact .deleted hplain rfl rfl

/-- Operations go on with the session they were called for. -/
theorem operation_step (h : s.Named) (hplain : e.Plain) (hstep : step s e = some t) :
    ∀ j, OperationOk (t.operation j) := by
  cases step_cases hstep with
  | tick now => exact h.operation
  | goesOn i operation hok => exact operation_setOperation h.operation (hok h hplain)
  | stored _ _ _ => exact operation_setOperation h.operation trivial
  | deleted _ _ => exact operation_setOperation h.operation trivial

end

/-! ## Every run -/

section

variable {s t : SessionsSystem ι ε} {about : Option SessionKey}

/-- Under the names of other sessions there is what was there. -/
theorem Change.get_of_ne (h : Change s t about) {k : SessionKey} (hne : about ≠ some k) :
    Dict.get t.objects (nameOf k) = Dict.get s.objects (nameOf k) := by
  cases h with
  | quiet hobjects _ => rw [hobjects]
  | @stored j blob c _ _ _ hobjects _ =>
    have hkey : k ≠ j := fun heq => hne (congrArg some heq.symm)
    rw [hobjects, Dict.get_set_of_ne _ _ (nameOf_ne ‹_› hkey)]
  | @deleted j hplain hobjects _ =>
    have hkey : k ≠ j := fun heq => hne (congrArg some heq.symm)
    rw [hobjects, Dict.get_erase_of_ne _ (nameOf_ne hplain hkey)]

theorem Change.nodup (h : Change s t about) (hnodup : (s.objects.map Prod.fst).Nodup) :
    (t.objects.map Prod.fst).Nodup := by
  cases h with
  | quiet hobjects _ => rwa [hobjects]
  | stored _ _ _ hobjects _ =>
    rw [hobjects]
    exact Dict.nodup_keys_set hnodup _ _
  | deleted _ hobjects _ =>
    rw [hobjects]
    exact Dict.nodup_keys_erase hnodup _

/-- What lies under the names of sessions is still a session of its name. -/
theorem Change.named (hchange : Change s t about) (h : s.Named) {name : String}
    {blob : Blob ε (Option StoredSession)} (hget : Dict.get t.objects name = some blob)
    (hstart : "sessions/".toList <+: name.toList) :
    ∃ k c, Plain k.1 ∧ name = nameOf k ∧ blob.content = some c ∧ c.key = k := by
  cases hchange with
  | quiet hobjects _ =>
    rw [hobjects] at hget
    exact h.named name blob hget hstart
  | @stored j stored c hplain hcontent hkey hobjects _ =>
    rw [hobjects] at hget
    by_cases hname : name = nameOf j
    · rw [hname, Dict.get_set_self] at hget
      cases hget
      exact ⟨j, c, hplain, hname, hcontent, hkey⟩
    · rw [Dict.get_set_of_ne _ _ hname] at hget
      exact h.named name blob hget hstart
  | @deleted j _ hobjects _ =>
    rw [hobjects] at hget
    by_cases hname : name = nameOf j
    · rw [hname, Dict.get_erase_self] at hget
      cases hget
    · rw [Dict.get_erase_of_ne _ hname] at hget
      exact h.named name blob hget hstart

/-- A session is there if and only if the history has it. -/
theorem Change.live (hchange : Change s t about) (h : s.Named) {k : SessionKey}
    (hk : Plain k.1) :
    (Dict.get t.objects (nameOf k)).isSome = true ↔ since k t.log ≠ [] := by
  have hold := h.live k hk
  cases hchange with
  | quiet hobjects hlog => rwa [hobjects, hlog]
  | @stored j stored c hplain _ _ hobjects hlog =>
    by_cases hkey : k = j
    · subst hkey
      rw [hobjects, Dict.get_set_self]
      refine iff_of_true rfl ?_
      -- an update of a session that is there is no new entry
      rcases hlog with hlog | ⟨hlog, hsome⟩
      · rw [hlog, since_wrote]
        simp
      · rw [hlog]
        exact hold.mp hsome
    · rw [hobjects, Dict.get_set_of_ne _ _ (nameOf_ne hplain hkey)]
      rcases hlog with hlog | ⟨hlog, -⟩
      · rwa [hlog, since_wrote_of_ne (Ne.symm hkey)]
      · rwa [hlog]
  | @deleted j hplain hobjects hlog =>
    by_cases hkey : k = j
    · subst hkey
      rw [hobjects, hlog, Dict.get_erase_self, since_deleted]
      exact iff_of_false Bool.false_ne_true fun hne => hne rfl
    · rw [hobjects, hlog, Dict.get_erase_of_ne _ (nameOf_ne hplain hkey),
        since_deleted_of_ne (Ne.symm hkey)]
      exact hold

/-- **The invariant is kept** by what a step can do. -/
theorem Named.of_change (h : s.Named) (hchange : Change s t about)
    (hoperation : ∀ i, OperationOk (t.operation i)) : t.Named where
  nodup := hchange.nodup h.nodup
  named := fun _ _ hget hstart => hchange.named h hget hstart
  live := fun _ hk => hchange.live h hk
  operation := hoperation

/-- What `get_session` finds. -/
theorem Named.getSession_iff (h : s.Named) {k : SessionKey} (hk : Plain k.1) :
    (∃ internal, getSession s.objects k = .ok internal) ↔ Live k s.log := by
  rw [← since_ne_nil_iff, ← h.live k hk]
  cases hget : Dict.get s.objects (nameOf k) with
  | none => simp [getSession, hget]
  | some blob =>
    obtain ⟨_, c, -, -, hcontent, -⟩ := h.named _ _ hget (nameOf_begins k)
    simp [getSession, hget, hcontent]

/-- The names listed for a record are those of its sessions. -/
theorem Named.mem_listObjects_iff (h : s.Named) {recordId name : String}
    (hrecord : Plain recordId) :
    name ∈ listObjects s.objects (buildSessionCompleteName recordId "") ↔
      ∃ id, name = nameOf (recordId, id) ∧ Live (recordId, id) s.log := by
  have hlive : ∀ id, name = nameOf (recordId, id) →
      (name ∈ s.objects.map Prod.fst ↔ Live (recordId, id) s.log) := by
    intro id hname
    rw [← since_ne_nil_iff, ← h.live (recordId, id) hrecord, ← hname, ← Dict.contains_iff]
    rfl
  rw [listObjects, List.mem_filter]
  constructor
  · rintro ⟨hmem, hstart⟩
    obtain ⟨blob, hget⟩ := Option.isSome_iff_exists.mp (Dict.contains_iff.mpr hmem)
    have hfolder := (start_begins recordId).trans (List.isPrefixOf_iff_prefix.mp hstart)
    obtain ⟨⟨record, id⟩, _, hplain, hname, -⟩ := h.named name blob hget hfolder
    rw [hname] at hstart
    have heq : record = recordId := (isPrefixOf_nameOf_iff hplain).mp hstart
    subst heq
    exact ⟨id, hname, (hlive id hname).mp hmem⟩
  · rintro ⟨id, hname, hl⟩
    refine ⟨(hlive id hname).mpr hl, ?_⟩
    rw [hname]
    exact (isPrefixOf_nameOf_iff hrecord).mpr rfl

/-- What holds of the storage in a state: an operation leaves the sessions of others, and what
is found and listed is what was created and not deleted since. -/
structure Isolated [DecidableEq ι] [DecidableEq ε] (s : SessionsSystem ι ε) : Prop where
  others : ∀ e t, step s e = some t → ∀ k, s.about e ≠ some k →
    Dict.get t.objects (nameOf k) = Dict.get s.objects (nameOf k)
  get : ∀ k, Plain k.1 → ((∃ internal, getSession s.objects k = .ok internal) ↔ Live k s.log)
  mem_list : ∀ recordId text, Plain recordId →
    (text ∈ listSessions s.objects recordId ↔ ∃ id, text = id.text ∧ Live (recordId, id) s.log)
  nodup_list : ∀ recordId, Plain recordId → (listSessions s.objects recordId).Nodup

theorem Named.isolates [DecidableEq ι] [DecidableEq ε] (h : s.Named) : s.Isolated where
  others := fun _ _ hstep _ hne => (change_of_step h hstep).get_of_ne hne
  get := fun _ hk => h.getSession_iff hk
  mem_list := by
    intro recordId text hrecord
    rw [listSessions, List.mem_map]
    constructor
    · rintro ⟨name, hname, rfl⟩
      obtain ⟨id, rfl, hlive⟩ := (h.mem_listObjects_iff hrecord).mp hname
      exact ⟨id, lastPart_nameOf _, hlive⟩
    · rintro ⟨id, rfl, hlive⟩
      exact ⟨nameOf (recordId, id), (h.mem_listObjects_iff hrecord).mpr ⟨id, rfl, hlive⟩,
        lastPart_nameOf _⟩
  nodup_list := by
    intro recordId hrecord
    refine List.Nodup.map_on ?_ (h.nodup.filter _)
    intro name hname name' hname' heq
    obtain ⟨id, rfl, -⟩ := (h.mem_listObjects_iff hrecord).mp hname
    obtain ⟨id', rfl, -⟩ := (h.mem_listObjects_iff hrecord).mp hname'
    rw [lastPart_nameOf, lastPart_nameOf] at heq
    exact congrArg (fun id => nameOf (recordId, id)) (UUID.text_injective heq)

end

/-- **Isolation**, in every state that operations on any records and sessions lead to. -/
theorem isolated_of_run [DecidableEq ι] [DecidableEq ε] {s t : SessionsSystem ι ε}
    {events : List (SessionsEvent ι ε)} (hinit : s.Initial) (hplain : ∀ e ∈ events, e.Plain)
    (hrun : run step s events = some t) : t.Isolated := by
  have hnamed : t.Named :=
    run_invariant
      (fun h he hstep => h.of_change (change_of_step h hstep) (operation_step h he hstep))
      hinit.named (guarded_of_labels hplain) hrun
  exact hnamed.isolates

/-! ## A record whose id begins another one -/

/-- An empty storage. -/
def empty : SessionsSystem Nat Nat where
  now := 0
  objects := []
  operation := fun _ => .idle
  log := []

theorem initial_empty : empty.Initial where
  nodup := List.nodup_nil
  others := nofun
  operation := fun _ => rfl
  log := rfl

/-- A session to be created. -/
def sampleNew (recordId : String) (id : UUID) : NewSession where
  id := id
  recordId := recordId
  fromVersion := 0
  ttl := 60
  mode := .update
  sessionMeta := none
  internal := .none

/-- Sessions of the records `12` and `123` are created, and the first one is deleted. -/
def createTwoDeleteOne : List (SessionsEvent Nat Nat) :=
  [.createSession 0 (sampleNew "12" (.ofNat 0)),
    .createSession 1 (sampleNew "123" (.ofNat 1)), .upload 1 7, .upload 0 8,
    .fetch 0 ("12", .ofNat 0) (.delete true), .read 0 .metadata, .read 0 .content,
    .resume 0, .remove 0]

/-- Two sessions of a record, one of them deleted. -/
theorem isolated_createTwoDeleteOne :
    ∃ t, run step empty createTwoDeleteOne = some t ∧ t.Isolated ∧
      Live ("123", ⟨1, by decide⟩) t.log := by
  have hlog : ((run step empty createTwoDeleteOne).map fun t =>
      since ("123", (⟨1, by decide⟩ : UUID)) t.log) = some [()] := by decide
  obtain ⟨t, ht, hsince⟩ := Option.map_eq_some_iff.mp hlog
  exact ⟨t, ht, isolated_of_run initial_empty (by decide) ht,
    since_ne_nil_iff.mp (by rw [hsince]; simp)⟩

end SessionsSystem

end WellboreDdms
